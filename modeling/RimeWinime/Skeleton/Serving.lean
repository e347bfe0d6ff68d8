import RimeWinime.Skeleton.Replies

namespace RimeWinime.ImeHost

open World Outside
open CString (cString)
open CandidateReply (InLine inLine_append inLine_of_all)
open Lines (Shorter openLine complete)
open RxBuffer (newline Recv Holds commands commandsAfter commands_append rxBufSize lineSize)
open Utf8 (encode)

abbrev shownTexts (w : Program State Call.Answer) : List UInt16 × List UInt8 :=
  (w.state.uiClass, w.state.lastError)

def Plain (narrow : List UInt16 → List UInt8) (w : Program State Call.Answer) : Prop :=
  InLine (narrow (shownTexts w).1) ∧ InLine (shownTexts w).2

/-- Nor is there one in the name of a class that the input method tells. -/
def Named (narrow : List UInt16 → List UInt8) (os : Os) : Prop :=
  InLine (narrow []) ∧ ∀ past, InLine (narrow (os past .imeInquire).2)

section

variable {α : Type} {multiByteToWide : UInt32 → List UInt8 → Option (List UInt16)}
  {narrow : List UInt16 → List UInt8} {os : Os} {P : α → Prop}

theorem shown_of_seen {x : Run α} (hx : Steady seen x) : Steady shownTexts x := by
  intro w
  have hcore : (x w).2.state.core = w.state.core := steady_look hx w
  have hclass := congrArg State.uiClass hcore
  have herror := congrArg State.lastError hcore
  exact Prod.ext hclass herror

theorem plain_of_seen {x : Run α} (hp : Yields P x) (hx : Steady seen x) : Keeps (Plain narrow) P x :=
  Yields.keeps (J := fun texts : List UInt16 × List UInt8 => InLine (narrow texts.1) ∧ InLine texts.2)
    hp (shown_of_seen hx)

theorem plain_get : Keeps (Plain narrow) (fun _ => True) (get : Run State) := fun _ hw => ⟨trivial, hw⟩

theorem plain_ask (q : Call) : Keeps (Plain narrow) (fun _ => True) (ask os q) :=
  fun _ hw => ⟨trivial, hw⟩

theorem plain_modify {f : State → State} (h : ∀ s, InLine (narrow s.uiClass) ∧ InLine s.lastError →
    InLine (narrow (f s).uiClass) ∧ InLine (f s).lastError) :
    Keeps (Plain narrow) (fun _ => True) (modify f : Run Unit) := fun w hw => ⟨trivial, h w.state hw⟩

theorem plain_createContext : Keeps (Plain narrow) (fun _ => True) (createContext os) := by
  refine Keeps.bind (plain_ask _) fun himc _ => ?_
  refine Keeps.bind (plain_modify fun _ h => h) fun _ _ => Keeps.ite (fun _ => ?_) fun _ => Keeps.pure trivial
  refine Keeps.bind (plain_modify fun s h => ⟨h.1, ?_⟩) fun _ _ => Keeps.pure trivial
  intro byte hbyte
  exact inLine_of_all (s := encode "ImmCreateContext failed") rfl byte (List.mem_of_mem_take hbyte)

theorem plain_associate (hos : Named narrow os) :
    Keeps (Plain narrow) (fun _ => True) (associate os) := by
  refine Keeps.bind plain_get fun s _ => ?_
  refine Keeps.bind (plain_ask _) fun assocPrev _ => ?_
  refine Keeps.bind (plain_modify fun _ h => h) fun _ _ => ?_
  refine Keeps.bind (P := fun _ => True) (plain_ask _) fun _ _ => ?_
  refine Keeps.bind (P := fun _ => True) (plain_ask _) fun _ _ => ?_
  refine Keeps.bind (P := fun _ => True) (plain_ask _) fun _ _ => ?_
  refine Keeps.bind (P := fun _ => True) (plain_ask _) fun _ _ => ?_
  have hinquire : Keeps (Plain narrow) (fun told => InLine (narrow told.2)) (ask os .imeInquire) :=
    fun w hw => ⟨hos.2 w.past, hw⟩
  exact Keeps.bind hinquire fun told htold => plain_modify fun s h => ⟨htold, h.2⟩

theorem plain_resetContext (hos : Named narrow os) :
    Keeps (Plain narrow) (fun _ => True) (resetContext os) := by
  have hdestroy : Keeps (Plain narrow) (fun _ => True) (destroyContext os) := by
    refine Keeps.bind plain_get fun s _ => Keeps.ite (fun _ => ?_) fun _ => Keeps.pure trivial
    refine Keeps.bind (P := fun _ => True) (plain_ask _) fun _ _ => ?_
    refine Keeps.bind (P := fun _ => True) (plain_ask _) fun _ _ => ?_
    exact Keeps.bind (P := fun _ => True) (plain_ask _) fun _ _ => plain_modify fun _ h => h
  have hforget : Keeps (Plain narrow) (fun _ => True) forgetIme := plain_modify fun s h => ⟨hos.1, h.2⟩
  have hensure : Keeps (Plain narrow) (fun _ => True) (ensureContext os) :=
    Keeps.bind plain_get fun s _ =>
      Keeps.ite (fun _ => plain_createContext) fun _ => Keeps.pure trivial
  have hactivate : Keeps (Plain narrow) (fun _ => True) (activateImePath os) :=
    plain_of_seen (fun _ => trivial) (steady_activateImePath os)
  refine Keeps.bind hdestroy fun _ _ => Keeps.bind hforget fun _ _ => Keeps.bind hensure fun ok _ => ?_
  refine Keeps.ite (fun _ => ?_) fun _ => Keeps.pure trivial
  exact Keeps.bind (plain_associate hos) fun _ _ => Keeps.bind hactivate fun _ _ => Keeps.pure trivial

theorem yields_unchanged {command : Command} (hchanges : command.changes = false)
    (hstatus : command ≠ .status) :
    Yields (IsReply command.replyKinds) (perform multiByteToWide narrow os command) := by
  have hmem : "CAND_RET " ∈ Command.cand.replyKinds := List.mem_cons_self
  have htrace : "TRACE_RET " ∈ (Command.trace true []).replyKinds := List.mem_cons_self
  cases command with
  | cp arg => cases hchanges
  | reset => cases hchanges
  | status => exact absurd rfl hstatus
  | ping => exact Yields.pure (isReply_first rfl rfl)
  | cand => exact yields_snapshot hmem
  | preedit => exact yields_runPreedit
  | trace trigger text => exact yields_runTrace htrace yields_traceAscii _ trigger
  | traceUtf8 trigger text => exact yields_runTraceUtf8 htrace text trigger
  | page vk => exact yields_runKeyAndReplyCand hmem vk
  | pick arg => exact yields_runPick arg
  | commit => exact yields_runCommit
  | keytext trigger text => exact yields_runText hmem _ text trigger
  | keytextUtf8 trigger text => exact yields_runKeytextUtf8 hmem text trigger
  | text text => exact yields_runText hmem _ text false
  | textUtf8 text => exact yields_runTextUtf8 hmem text false true
  | pipe text => exact yields_runText hmem _ text true
  | pipeUtf8 text => exact yields_runTextUtf8 hmem text true false
  | conv arg => exact yields_runConv List.mem_cons_self arg
  | key arg => exact yields_runKey arg
  | keychord arg => exact yields_runKeychord arg
  | activate => exact Yields.last fun _ => Yields.pure (isReply_first rfl rfl)
  | quit => exact Yields.pure (isReply_first rfl rfl)
  | unknown => exact Yields.pure (isReply_first rfl rfl)

theorem isReply_errReset {w : Program State Call.Answer} (hw : Plain narrow w) :
    IsReply Command.reset.replyKinds (printed (encode "ERR RESET " ++ w.state.lastError ++ encode "\n")) := by
  have hmem : "ERR RESET " ∈ Command.reset.replyKinds := List.mem_cons_of_mem _ List.mem_cons_self
  apply isReply_printed hmem (isKind_of_mem .reset _ hmem)
  exact ⟨w.state.lastError, List.append_assoc _ _ _, hw.2⟩

theorem isReply_status {w : Program State Call.Answer} (hw : Plain narrow w) :
    IsReply Command.status.replyKinds (printed (statusText narrow w.state)) := by
  have hmem : "STATUS " ∈ Command.status.replyKinds := List.mem_cons_self
  have hline : IsLineOf "STATUS " (statusText narrow w.state) := isLineOf_statusText hw.1 hw.2
  exact isReply_printed hmem (isKind_of_mem .status _ hmem) hline

variable (multiByteToWide) in
theorem keeps_perform (hos : Named narrow os) (command : Command) :
    Keeps (Plain narrow) (IsReply command.replyKinds) (perform multiByteToWide narrow os command) := by
  cases hchanges : command.changes with
  | false =>
      by_cases hstatus : command = .status
      · subst hstatus
        exact keeps_told fun w hw => isReply_status hw
      · exact plain_of_seen (yields_unchanged hchanges hstatus)
          (steady_perform multiByteToWide os narrow hchanges)
  | true =>
      cases command with
      | cp arg =>
          have hkept : Keeps (Plain narrow) (fun _ => True) (runCp arg) := by
            refine Keeps.bind plain_get fun s _ => Keeps.ite (fun _ => Keeps.pure trivial) fun _ => ?_
            split
            · exact Keeps.bind (plain_modify fun _ h => h) fun _ _ => Keeps.pure trivial
            · exact Keeps.pure trivial
          exact fun w hw => ⟨yields_runCp arg w, (hkept w hw).2⟩
      | reset =>
          refine Keeps.bind (plain_resetContext hos) fun ok _ => Keeps.ite (fun _ => ?_) fun _ => ?_
          · exact Keeps.pure (isReply_first rfl rfl)
          · exact keeps_told fun w hw => isReply_errReset hw
      | _ => cases hchanges

/-- The socket takes at least a byte of whatever it is given. -/
def Reliable (os : Os) : Prop := ∀ past sock bytes, 0 < os past (.send sock bytes)

def SentMore (out : List UInt8) (w w' : Program State Call.Answer) : Prop :=
  wire w' = { wire w with sent := (wire w).sent ++ out }

theorem sentMore_nil (w : Program State Call.Answer) : SentMore [] w w := by
  rw [SentMore, List.append_nil]

theorem SentMore.trans {out more : List UInt8} {w w' w'' : Program State Call.Answer}
    (h : SentMore out w w') (h' : SentMore more w' w'') : SentMore (out ++ more) w w'' := by
  rw [SentMore, h', h, List.append_assoc]

variable (os) in
theorem sentMore_ask (sock : Handle) (bytes : List UInt8) (w : Program State Call.Answer) :
    SentMore (bytes.take (ask os (.send sock bytes) w).1.toNat) w (ask os (.send sock bytes) w).2 :=
  tally_ask carry _ (.send sock bytes) w

variable (os) in
theorem sendLoop_sent (calls : Nat) (text : List UInt8) (w : Program State Call.Answer) :
    ∃ out, out <+: text ∧ SentMore out w (sendLoop os calls text w).2 ∧
      ((sendLoop os calls text w).1 = true → out = text) := by
  induction calls generalizing text w with
  | zero =>
      cases text with
      | nil => exact ⟨[], List.nil_prefix, sentMore_nil w, fun _ => rfl⟩
      | cons byte text => exact ⟨[], List.nil_prefix, sentMore_nil w, fun h => by cases h⟩
  | succ calls ih =>
      cases text with
      | nil => exact ⟨[], List.nil_prefix, sentMore_nil w, fun _ => rfl⟩
      | cons byte text =>
          let q : Call := .send w.state.clientSock (byte :: text)
          have hask := sentMore_ask os w.state.clientSock (byte :: text) w
          have hrun : sendLoop os (calls + 1) (byte :: text) w =
              (if (ask os q w).1 ≤ 0 then pure false
                else sendLoop os calls ((byte :: text).drop (ask os q w).1.toNat) : Run Bool)
                (ask os q w).2 := rfl
          rw [hrun]
          generalize hn : (ask os q w).1 = n at hask ⊢
          by_cases hstop : n ≤ 0
          · rw [if_pos hstop]
            rw [Int.toNat_of_nonpos hstop, List.take_zero] at hask
            exact ⟨[], List.nil_prefix, hask, fun h => by cases h⟩
          · rw [if_neg hstop]
            obtain ⟨out, hout, hsent, hall⟩ := ih ((byte :: text).drop n.toNat) (ask os q w).2
            refine ⟨(byte :: text).take n.toNat ++ out, ?_, hask.trans hsent, ?_⟩
            · have hboth := (List.prefix_append_right_inj ((byte :: text).take n.toNat)).mpr hout
              rwa [List.take_append_drop] at hboth
            · intro htrue
              rw [hall htrue, List.take_append_drop]

theorem sendLoop_reliable (hos : Reliable os) {calls : Nat} {text : List UInt8}
    (hcalls : text.length ≤ calls) (w : Program State Call.Answer) :
    (sendLoop os calls text w).1 = true := by
  induction calls generalizing text w with
  | zero =>
      rw [List.length_eq_zero_iff.mp (Nat.le_zero.mp hcalls)]
      rfl
  | succ calls ih =>
      cases text with
      | nil => rfl
      | cons byte text =>
          let q : Call := .send w.state.clientSock (byte :: text)
          have hrun : sendLoop os (calls + 1) (byte :: text) w =
              (if (ask os q w).1 ≤ 0 then pure false
                else sendLoop os calls ((byte :: text).drop (ask os q w).1.toNat) : Run Bool)
                (ask os q w).2 := rfl
          have hpos : 0 < (ask os q w).1 := hos w.past w.state.clientSock (byte :: text)
          rw [hrun, if_neg (Int.not_le.mpr hpos)]
          apply ih
          have hsome := Int.pos_iff_toNat_pos.mp hpos
          rw [List.length_drop]
          exact Nat.sub_le_of_le_add (hcalls.trans (Nat.add_le_add_left hsome calls))

/-- What goes out for a line is a reply to it, or as much of one as the socket takes. -/
def Answered (os : Os) (line out : List UInt8) : Prop :=
  ∃ reply, IsReply (commandOf (cString line)).replyKinds reply ∧ out <+: reply ∧
    (Reliable os → out = reply)

variable (multiByteToWide) in
theorem processCommand_answers (hos : Named narrow os) (line : List UInt8)
    {w : Program State Call.Answer} (hw : Plain narrow w) :
    ∃ out, Answered os line out ∧
      SentMore out w (processCommand multiByteToWide narrow os line w).2 ∧
      Plain narrow (processCommand multiByteToWide narrow os line w).2 := by
  let command := commandOf (cString line)
  let done := (perform multiByteToWide narrow os command w).2
  let reply := (perform multiByteToWide narrow os command w).1
  let told := (sendText os reply done).2
  have hrun : (processCommand multiByteToWide narrow os line w).2 =
      (when (command = .quit) (modify fun s => { s with running := false }) told).2 := rfl
  obtain ⟨hreply, hdone⟩ := keeps_perform multiByteToWide hos command w hw
  obtain ⟨out, hout, hsent, hall⟩ := sendLoop_sent os reply.length reply done
  have htold : Plain narrow told := by
    rw [Plain, shownTexts, same_sendText reply done]
    exact hdone
  have hwire : SentMore out w told := by
    have hperform : wire done = wire w := wire_perform command w
    rw [SentMore, ← hperform]
    exact hsent
  refine ⟨out, ⟨reply, hreply, hout, fun h => hall (sendLoop_reliable h (Nat.le_refl _) done)⟩, ?_⟩
  rw [hrun]
  by_cases hquit : command = .quit
  · rw [when_pos hquit]
    exact ⟨hwire, htold⟩
  · rw [when_neg hquit]
    exact ⟨hwire, htold⟩

variable (multiByteToWide) in
theorem runLines_answers (hos : Named narrow os) (lines : List (List UInt8))
    {w : Program State Call.Answer} (hw : Plain narrow w) :
    ∃ outs, List.Forall₂ (Answered os) lines outs ∧
      SentMore outs.flatten w (runLines multiByteToWide narrow os lines w).2 ∧
      Plain narrow (runLines multiByteToWide narrow os lines w).2 := by
  induction lines generalizing w with
  | nil => exact ⟨[], List.Forall₂.nil, sentMore_nil w, hw⟩
  | cons line lines ih =>
      obtain ⟨out, hout, hsent, hline⟩ :=
        processCommand_answers multiByteToWide hos line hw
      obtain ⟨outs, houts, hmore, hlines⟩ := ih hline
      exact ⟨out :: outs, List.Forall₂.cons hout houts, hsent.trans hmore, hlines⟩

abbrev heard (w : Program State Call.Answer) : List UInt8 := (wire w).heard

theorem unheard_ask {q : Call} (h : ∀ n a, (carry n ⟨q, a⟩).heard = n.heard) :
    Steady heard (ask os q) :=
  fun w => (congrArg Wire.heard (tally_ask carry _ q w)).trans (h _ _)

theorem unheard_sendText (text : List UInt8) : Steady heard (sendText os text) := by
  intro w
  obtain ⟨out, -, hsent, -⟩ := sendLoop_sent os text.length text w
  have hheard := congrArg Wire.heard hsent
  exact hheard

theorem unheard_runLines (lines : List (List UInt8)) :
    Steady heard (runLines multiByteToWide narrow os lines) := by
  induction lines with
  | nil => exact Steady.pure _
  | cons line lines ih =>
      refine Steady.bind (Steady.bind ?_ fun reply => ?_) fun _ => ih
      · exact fun w => congrArg Wire.heard (wire_perform _ w)
      · exact Steady.bind (unheard_sendText reply) fun _ => steady_when fun _ => rfl

theorem unheard_closeClient : Steady heard (closeClient os) := by
  have hclose : Steady heard (closeClientSock os) := by
    refine Steady.bind (fun _ => rfl) fun s => steady_when ?_
    exact Steady.bind (unheard_ask fun _ _ => rfl) fun _ => fun _ => rfl
  exact Steady.bind hclose fun _ => fun _ => rfl

theorem unheard_acceptClientIfNeeded : Steady heard (acceptClientIfNeeded os) := by
  refine Steady.bind (fun _ => rfl) fun s => steady_when ?_
  refine Steady.bind (unheard_ask fun _ _ => rfl) fun sock => steady_when ?_
  refine Steady.bind (fun _ => rfl) fun _ => Steady.bind (unheard_ask fun _ _ => rfl) fun _ => ?_
  exact Steady.bind (unheard_sendText hello) fun _ => Steady.pure _

theorem unheard_takeIn (received : Recv) :
    Steady heard (takeIn multiByteToWide narrow os received) := by
  refine Steady.bind (fun _ => rfl) fun s => ?_
  split
  · refine Steady.bind (fun _ => rfl) fun _ => ?_
    exact Steady.bind (steady_when unheard_closeClient) fun _ => unheard_runLines _
  · exact Steady.pure _

variable (multiByteToWide) (narrow) (os) in
theorem turn_heard (w : Program State Call.Answer) :
    ∃ bytes, heard (turn multiByteToWide narrow os w).2 = heard w ++ bytes := by
  let ready := (acceptClientIfNeeded os (ask os .pumpMessages w).2).2
  have hready : heard ready = heard w :=
    (unheard_acceptClientIfNeeded _).trans (unheard_ask (q := .pumpMessages) (fun _ _ => rfl) w)
  have hturn : (turn multiByteToWide narrow os w).2 =
      (when (ready.state.clientSock ≠ invalidSocket) (do
        let received ← ask os (.recv ready.state.clientSock)
        takeIn multiByteToWide narrow os received) ready).2 := rfl
  rw [hturn]
  by_cases hclient : ready.state.clientSock ≠ invalidSocket
  · let r := ask os (.recv ready.state.clientSock) ready
    have hrecv : heard r.2 = heard ready ++ r.1.bytes :=
      congrArg Wire.heard (tally_ask carry _ (.recv ready.state.clientSock) ready)
    refine ⟨r.1.bytes, ?_⟩
    rw [when_pos hclient, bind_run, unheard_takeIn, hrecv, hready]
  · rw [when_neg hclient]
    exact ⟨[], by rw [List.append_nil]; exact hready⟩

variable (multiByteToWide) (narrow) (os) in
theorem mainLoop_heard (turns : Nat) (w : Program State Call.Answer) :
    ∃ bytes, heard (mainLoop multiByteToWide narrow os turns w).2 = heard w ++ bytes := by
  induction turns generalizing w with
  | zero => exact ⟨[], (List.append_nil _).symm⟩
  | succ turns ih =>
      have hrun : mainLoop multiByteToWide narrow os (turns + 1) w =
          when (w.state.running = true) (do
            turn multiByteToWide narrow os
            mainLoop multiByteToWide narrow os turns) w := rfl
      rw [hrun]
      by_cases hrunning : w.state.running = true
      · obtain ⟨bytes, hturn⟩ := turn_heard multiByteToWide narrow os w
        obtain ⟨more, hrest⟩ := ih (turn multiByteToWide narrow os w).2
        refine ⟨bytes ++ more, ?_⟩
        rw [when_pos hrunning, bind_run, hrest, hturn, List.append_assoc]
      · rw [when_neg hrunning]
        exact ⟨[], (List.append_nil _).symm⟩

/-- The client does not leave, and its socket does not fail. -/
def Stays (os : Os) : Prop := ∀ past sock, (os past (.recv sock)).stays

/-- This stream has come since then, its commands have been answered, and the buffer holds the
line that it leaves open. -/
structure Served (narrow : List UInt16 → List UInt8) (os : Os) (base : Wire) (stream : List UInt8)
    (w : Program State Call.Answer) : Prop where
  client : w.state.clientSock ≠ invalidSocket
  plain : Plain narrow w
  holds : Holds w.state.rx (openLine newline stream)
  heard : heard w = base.heard ++ stream
  answered : ∃ outs, List.Forall₂ (Answered os) (commands stream) outs ∧
    (wire w).sent = base.sent ++ outs.flatten

/-- The client and its buffer are as they were. -/
def SameClient (s s' : State) : Prop :=
  s'.clientSock = s.clientSock ∧ s'.rxBuf = s.rxBuf ∧ s'.rxLen = s.rxLen

theorem sameClient_effects (effects : List Command) (s : State) :
    SameClient s (effects.foldl Command.effect s) := by
  induction effects generalizing s with
  | nil => exact ⟨rfl, rfl, rfl⟩
  | cons command effects ih =>
      have hone : SameClient s (command.effect s) := by
        cases command <;> exact ⟨rfl, rfl, rfl⟩
      obtain ⟨hsock, hbuf, hlen⟩ := ih (command.effect s)
      exact ⟨hsock.trans hone.1, hbuf.trans hone.2.1, hlen.trans hone.2.2⟩

theorem sameClient_runLines (lines : List (List UInt8)) (w : Program State Call.Answer) :
    SameClient w.state (runLines multiByteToWide narrow os lines w).2.state := by
  have hsettings := settings_runLines multiByteToWide narrow os lines w
  obtain ⟨hsock, hbuf, hlen⟩ :=
    sameClient_effects (lines.map fun line => commandOf (cString line)) (settings w)
  rw [← hsettings] at hsock hbuf hlen
  exact ⟨hsock, hbuf, hlen⟩

theorem holds_of_same {s s' : State} {window : List UInt8} (h : SameClient s s')
    (hholds : Holds s.rx window) : Holds s'.rx window := by
  obtain ⟨-, hbuf, hlen⟩ := h
  obtain ⟨hsize, hwindow, hbegins⟩ := hholds
  have hbuf' : s'.rx.rxBuf = s.rx.rxBuf := hbuf
  have hlen' : s'.rx.rxLen = s.rx.rxLen := hlen
  rw [Holds, hbuf', hlen']
  exact ⟨hsize, hwindow, hbegins⟩

theorem takeOut_served (hos : Named narrow os) {base : Wire} {stream bytes : List UInt8}
    {rx : RxBuffer.HostState} {w : Program State Call.Answer}
    (hclient : w.state.clientSock ≠ invalidSocket) (hplain : Plain narrow w)
    (hheard : heard w = base.heard ++ (stream ++ bytes))
    (hanswered : ∃ outs, List.Forall₂ (Answered os) (commands stream) outs ∧
      (wire w).sent = base.sent ++ outs.flatten)
    (hstill : rx.client = true) (hopen : Holds rx (openLine newline (stream ++ bytes)))
    (hexecuted : rx.executed = commandsAfter (openLine newline stream) bytes) :
    Served narrow os base (stream ++ bytes) (takeOut multiByteToWide narrow os rx w).2 := by
  let stored := (modify (fun s : State => { s with rxBuf := rx.rxBuf, rxLen := rx.rxLen }) w).2
  have hrun : (takeOut multiByteToWide narrow os rx w).2 =
      (runLines multiByteToWide narrow os rx.executed
        (when (rx.client = false) (closeClient os) stored).2).2 := rfl
  have hstay : ¬rx.client = false := by
    rw [hstill]
    exact Bool.noConfusion
  rw [hrun, when_neg hstay, pure_run]
  obtain ⟨outs, houts, hsent⟩ := hanswered
  obtain ⟨more, hmore, hsentMore, hplain'⟩ :=
    runLines_answers multiByteToWide hos rx.executed
      (show Plain narrow stored from hplain)
  have hsame : SameClient stored.state
      (runLines multiByteToWide narrow os rx.executed stored).2.state := sameClient_runLines _ _
  have hholds : Holds stored.state.rx (openLine newline (stream ++ bytes)) := hopen
  refine ⟨?_, hplain', holds_of_same hsame hholds, ?_, outs ++ more, ?_, ?_⟩
  · rw [hsame.1]
    exact hclient
  · rw [unheard_runLines]
    exact hheard
  · rw [commands_append, ← hexecuted]
    exact List.rel_append houts hmore
  · have hafter := congrArg Wire.sent hsentMore
    have hbefore : (wire stored).sent = base.sent ++ outs.flatten := hsent
    rw [hafter, List.flatten_append, ← List.append_assoc, ← hbefore]

theorem takeIn_served (hos : Named narrow os) {base : Wire} {stream : List UInt8} {received : Recv}
    {w : Program State Call.Answer} (hclient : w.state.clientSock ≠ invalidSocket)
    (hplain : Plain narrow w) (hholds : Holds w.state.rx (openLine newline stream))
    (hheard : heard w = base.heard ++ (stream ++ received.bytes))
    (hanswered : ∃ outs, List.Forall₂ (Answered os) (commands stream) outs ∧
      (wire w).sent = base.sent ++ outs.flatten)
    (hstays : received.stays) (hshort : Shorter newline lineSize (stream ++ received.bytes)) :
    Served narrow os base (stream ++ received.bytes)
      (takeIn multiByteToWide narrow os received w).2 := by
  have hthere : w.state.rx.client = true := decide_eq_true hclient
  cases received with
  | closed => exact hstays.elim
  | failed => exact hstays.elim
  | wouldBlock =>
      have hserve : RxBuffer.serviceClientIo w.state.rx .wouldBlock = some w.state.rx := by
        rw [RxBuffer.serviceClientIo, hthere]
        rfl
      have hsame : openLine newline (stream ++ []) = openLine newline stream := by
        rw [List.append_nil]
      rw [takeIn_some multiByteToWide narrow os hserve]
      exact takeOut_served hos hclient hplain hheard hanswered hthere (hsame ▸ hholds) rfl
  | chunk c =>
      obtain ⟨rx, hserve, hstill, hopen, hexecuted, -⟩ :=
        RxBuffer.serviceClientIo_chunk hthere hholds c hshort
      rw [takeIn_some multiByteToWide narrow os hserve]
      exact takeOut_served hos hclient hplain hheard hanswered hstill hopen hexecuted

theorem turn_served (hos : Named narrow os) (hstays : Stays os) {base : Wire}
    {stream later : List UInt8} {w : Program State Call.Answer} (hw : Served narrow os base stream w)
    (hlater : heard (turn multiByteToWide narrow os w).2 = base.heard ++ later)
    (hshort : Shorter newline lineSize later) :
    Served narrow os base later (turn multiByteToWide narrow os w).2 := by
  let pumped := (ask os .pumpMessages w).2
  have hthere : ¬w.state.clientSock = invalidSocket := hw.client
  have haccept : (acceptClientIfNeeded os pumped).2 = pumped := by
    have hrun : acceptClientIfNeeded os pumped =
        when (w.state.clientSock = invalidSocket) (acceptClient os w.state.listenSock) pumped := rfl
    rw [hrun, when_neg hthere, pure_run]
  let r := ask os (.recv w.state.clientSock) pumped
  have hturn : (turn multiByteToWide narrow os w).2 =
      (takeIn multiByteToWide narrow os r.1 r.2).2 := by
    have hrun : (turn multiByteToWide narrow os w).2 =
        (serviceClientIo multiByteToWide narrow os (acceptClientIfNeeded os pumped).2).2 := rfl
    have hservice : serviceClientIo multiByteToWide narrow os pumped =
        when (w.state.clientSock ≠ invalidSocket) (do
          let received ← ask os (.recv w.state.clientSock)
          takeIn multiByteToWide narrow os received) pumped := rfl
    rw [hrun, haccept, hservice, when_pos hw.client, bind_run]
  have hpumped : wire pumped = wire w := tally_ask carry _ .pumpMessages w
  have hrecv : wire r.2 = { wire w with heard := heard w ++ r.1.bytes } := by
    have hone : wire r.2 = { wire pumped with heard := heard pumped ++ r.1.bytes } :=
      tally_ask carry _ (.recv w.state.clientSock) pumped
    rw [hone, heard, hpumped]
  have hheard : heard r.2 = base.heard ++ (stream ++ r.1.bytes) := by
    rw [heard, hrecv, hw.heard, List.append_assoc]
  have hsame : later = stream ++ r.1.bytes := by
    rw [hturn, unheard_takeIn, hheard] at hlater
    exact (List.append_cancel_left hlater).symm
  have hanswered : ∃ outs, List.Forall₂ (Answered os) (commands stream) outs ∧
      (wire r.2).sent = base.sent ++ outs.flatten := by
    rw [hrecv]
    exact hw.answered
  subst hsame
  rw [hturn]
  exact takeIn_served hos hw.client hw.plain hw.holds hheard hanswered (hstays _ _) hshort

theorem mainLoop_served (hos : Named narrow os) (hstays : Stays os) (turns : Nat) {base : Wire}
    {stream later : List UInt8} {w : Program State Call.Answer} (hw : Served narrow os base stream w)
    (hlater : heard (mainLoop multiByteToWide narrow os turns w).2 = base.heard ++ later)
    (hshort : Shorter newline lineSize later) :
    Served narrow os base later (mainLoop multiByteToWide narrow os turns w).2 := by
  induction turns generalizing w stream with
  | zero =>
      have hsame : later = stream := List.append_cancel_left (hlater.symm.trans hw.heard)
      rw [hsame]
      exact hw
  | succ turns ih =>
      have hrun : mainLoop multiByteToWide narrow os (turns + 1) w =
          when (w.state.running = true) (do
            turn multiByteToWide narrow os
            mainLoop multiByteToWide narrow os turns) w := rfl
      rw [hrun] at hlater ⊢
      by_cases hrunning : w.state.running = true
      · rw [when_pos hrunning, bind_run] at hlater ⊢
        obtain ⟨bytes, hturn⟩ := turn_heard multiByteToWide narrow os w
        obtain ⟨more, hrest⟩ := mainLoop_heard multiByteToWide narrow os turns
           (turn multiByteToWide narrow os w).2
        rw [hw.heard, List.append_assoc] at hturn
        have hsplit : later = (stream ++ bytes) ++ more := by
          rw [hrest, hturn, List.append_assoc] at hlater
          exact (List.append_cancel_left hlater).symm
        rw [hsplit] at hshort
        exact ih (turn_served hos hstays hw hturn hshort.of_append) hlater
      · rw [when_neg hrunning] at hlater ⊢
        have hsame : later = stream := List.append_cancel_left (hlater.symm.trans hw.heard)
        rw [hsame]
        exact hw

end

def idleAnswer : (q : Call) → q.Answer
  | .immGetContext _ | .immCreateContext | .immAssociateContext _ _ | .immGetDefaultImeWnd _ => (0 : Handle)
  | .immReleaseContext _ _ | .immDestroyContext _ | .immAssociateContextEx _ _ _ => ()
  | .immSetOpenStatus _ | .immSetConversionStatus _ => (0 : Int32)
  | .immGetConversionStatus _ => none
  | .immProcessKey _ _ _ _ => (0 : UInt32)
  | .immTranslateMessage _ _ _ => ()
  | .candidateState _ => CandidateReply.twoLists
  | .preeditState _ => ⟨CandidateReply.emptyComp, CandidateReply.emptyComp, CandidateReply.emptyComp, 0, 0⟩
  | .traceState _ => noTrace
  | .firstList _ => (CandidateReply.noList, 0)
  | .compositionString _ => (0, [])
  | .imeInquire => (0, [])
  | .imeSelect _ _ | .imeSetActiveContext _ | .imeProcessKey _ _ _ _ => (0 : Int32)
  | .imeToAsciiEx _ _ _ _ => ⟨0, 0, fun _ => ⟨0, 0, 0⟩⟩
  | .imeConversionList _ _ => CandidateReply.noList
  | .notifyIme _ => (0 : Int32)
  | .getKeyboardLayout _ | .loadKeyboardLayout _ => (0 : Handle)
  | .activateKeyboardLayout _ => ()
  | .getWindowThreadProcessId _ => (0 : UInt32)
  | .getKeyboardState => none
  | .mapVirtualKey _ => (0 : UInt32)
  | .toUnicode _ _ _ | .toAsciiEx _ _ _ _ => (0, 0)
  | .vkKeyScanEx _ _ => (0xFFFF : UInt16)
  | .sendKey _ _ _ _ | .sendMessage _ _ _ _ _ | .pumpMessages | .showWindow _ _ _ => ()
  | .registerClass => true
  | .createWindow _ | .createEdit _ => (1 : Handle)
  | .destroyWindow _ => ()
  | .loadLibrary _ => (2 : Handle)
  | .getProcAddress _ _ => true
  | .freeLibrary _ => ()
  | .getLastError | .wsaGetLastError => (0 : UInt32)
  | .wsaStartup => true
  | .wsaCleanup => ()
  | .socket | .accept _ => (3 : Handle)
  | .bind _ _ | .listen _ => true
  | .ioctlSocket _ => ()
  | .recv _ => .wouldBlock
  | .send _ bytes => (bytes.length : Int)
  | .closeSocket _ => ()

/-- The client asks for a reply in each turn. -/
def pingOs : Os
  | _, .recv _ => .chunk ⟨RxBuffer.ascii "PING\n", List.cons_ne_nil _ _, by decide⟩
  | _, q => idleAnswer q

def connected : Program State Call.Answer := ⟨{ clientSock := 3, running := true }, []⟩

end RimeWinime.ImeHost
