import RimeWinime.Lib.Text
import RimeWinime.Gateway.ReplyPairing

namespace RimeWinime.HostTyping

open World Worker Backends LegacyTcpRuntime LegacyWire LegacyTalk UnreadLines Run Text

def queryWords : List String := ["TEXTU", "KEYTEXTU", "CAND"]

inductive RightKind : String → String → Prop
  | activate : RightKind "ACTIVATE" "OK ACTIVATE"
  | codepage (codepage : Int) : RightKind ("CP " ++ toString codepage) "OK CP"
  | reset : RightKind "RESET" "OK RESET"
  | query {word : String} (hword : word ∈ queryWords) (input : String) :
      RightKind (word ++ " " ++ input) "CAND_RET "

/-- The host answers every command, with a list of candidates or without one. -/
structure Answering (server : LegacyServer) : Prop where
  greeting : (lineOf server.greeting).startsWith "HELLO " = true
  greetingLine : newline ∉ server.greeting
  greetingShort : server.greeting.length ≤ Ipc.ipcMaxFrameBytes
  oneLine : ∀ history, newline ∉ server.answer history
  short : ∀ history, (server.answer history).length ≤ Ipc.ipcMaxFrameBytes
  answers : ∀ history command kind, RightKind command kind →
    (lineOf (server.answer (history ++ [command]))).startsWith kind = true

/-- The keystrokes of the host after a line: `TEXTU` and `KEYTEXTU` type their
argument, `RESET` takes everything away. -/
def afterLine (buffer line : String) : String :=
  if "TEXTU ".toList <+: line.toList then buffer ++ String.ofList (line.toList.drop 6)
  else if "KEYTEXTU ".toList <+: line.toList then buffer ++ String.ofList (line.toList.drop 9)
  else if "RESET".toList <+: line.toList then ""
  else buffer

def hostBuffer (received : List String) : String := received.foldl afterLine ""

/-- The talk is set up and nothing is unread. -/
structure Ready (s : Legacy Wire) : Prop where
  connected : s.1.connected = true
  activated : s.1.activated = true
  unread : s.2.unread = []
  openLine : s.2.openLine = []

def Lined (w : Wire) : Prop := '\n' ∉ w.openLine ∧ ∀ line ∈ w.received, '\n' ∉ line.toList

/-- Between two operations, on a network that loses nothing. -/
structure Idle (s : Legacy Wire) : Prop where
  talk : s.1.connected = true → Ready s
  lines : Lined s.2

inductive Event
  | key (keyEvent : BackendKeyEvent) (maxCandidates : Nat)
  | query (inputSnapshot : String) (maxCandidates : Nat)

def Event.input : Event → String → String
  | .key keyEvent _ => keyed keyEvent
  | .query inputSnapshot _ => asked inputSnapshot

def Event.maxCandidates : Event → Nat
  | .key _ maxCandidates => maxCandidates
  | .query _ maxCandidates => maxCandidates

section

variable (server : LegacyServer)

def handle (s : Legacy Wire) : Event → Legacy Wire
  | .key keyEvent maxCandidates =>
      (applyKeyEvent (socket server undisturbed) keyEvent maxCandidates s).2
  | .query inputSnapshot maxCandidates =>
      (queryCandidates (socket server undisturbed) inputSnapshot maxCandidates s).2

/-- The commands that a query comes to send: those up to the first one that is answered
with candidates. -/
def sentWords (max : Nat) (input : String) : List String → List String → List String
  | _, [] => []
  | history, word :: words =>
      let history := history ++ [word ++ " " ++ input]
      word ::
        match parseCandidateReply (lineOf (server.answer history)) max with
        | .ok (_, _, []) => sentWords max input history words
        | _ => []

/-- How often a query of the host types the input: nothing is sent for an empty one. -/
def typedTimes (s : Legacy Wire) (max : Nat) (input : String) : Nat :=
  if input = "" then 0
  else
    (sentWords server max input s.2.received
      ([s.1.command, "CAND", "KEYTEXTU", "TEXTU"].destutter (· ≠ ·))).countP (· ≠ "CAND")

/-- The event leaves the input and types nothing, or it types the first input once. -/
def TypedOnce (s : Legacy Wire) (e : Event) : Prop :=
  let input := e.input s.1.input
  let times := typedTimes server s e.maxCandidates input
  '\n' ∉ input.toList ∧ (times = 0 ∧ input = s.1.input ∨ times = 1 ∧ s.1.input = "")

end

theorem afterLine_query {word : String} (hword : word ∈ queryWords) (buffer input : String) :
    afterLine buffer (word ++ " " ++ input) = if word ≠ "CAND" then buffer ++ input else buffer := by
  have hline : (word ++ " " ++ input).toList = word.toList ++ ' ' :: input.toList := by
    rw [String.toList_append, String.toList_append, List.append_assoc]
    rfl
  rw [afterLine, hline]
  rcases List.mem_cons.mp hword with rfl | hword
  · simp
  · rcases List.mem_cons.mp hword with rfl | hword
    · simp
    · rw [List.mem_singleton.mp hword]
      simp

theorem hostBuffer_append (received lines : List String) :
    hostBuffer (received ++ lines) = lines.foldl afterLine (hostBuffer received) :=
  List.foldl_append

theorem typed_words {words : List String} (hwords : ∀ word ∈ words, word ∈ queryWords)
    (buffer input : String) :
    (words.map fun word => word ++ " " ++ input).foldl afterLine buffer =
      buffer ++ copies (words.countP (· ≠ "CAND")) input := by
  induction words generalizing buffer with
  | nil => simp
  | cons word words ih =>
      have hrest : ∀ word ∈ words, word ∈ queryWords := fun w hw => hwords w (List.mem_cons_of_mem _ hw)
      rw [List.map_cons, List.foldl_cons, afterLine_query (hwords word List.mem_cons_self), ih hrest]
      by_cases hcand : word = "CAND"
      · simp [hcand]
      · rw [if_pos hcand, List.countP_cons_of_pos (by simpa using hcand), String.append_assoc]
        congr 1

theorem rightKind_read {command kind line : String} (hkind : RightKind command kind)
    (hstarts : line.startsWith kind = true) : ¬(line = "" ∨ line.startsWith "HELLO " = true) := by
  have hhead : ∃ c rest, kind.toList = c :: rest ∧ c ≠ 'H' := by
    cases hkind <;> exact ⟨_, _, rfl, by decide⟩
  obtain ⟨c, rest, hc, hne⟩ := hhead
  obtain ⟨t, ht⟩ := String.startsWith_string_iff.mp hstarts
  rw [hc] at ht
  rintro (rfl | hhello)
  · cases ht
  · obtain ⟨t', ht'⟩ := String.startsWith_string_iff.mp hhello
    rw [← ht'] at ht
    exact hne (List.cons.inj ht).1

section

variable {server : LegacyServer}

theorem read_answer (h : Answering server) {s : Legacy Wire} {history : List String}
    {command kind : String} (hkind : RightKind command kind)
    (hunread : s.2.unread = [reply server (history ++ [command])]) (turns : Nat) (last : String) :
    ∃ w, receive (socket server undisturbed) command kind (turns + 1) last s =
        (.ok (lineOf (server.answer (history ++ [command]))), s.1, w) ∧
      w.received = s.2.received ∧ w.unread = [] ∧ w.openLine = s.2.openLine := by
  have hread := nextLine_whole hunread (h.oneLine _) (h.short _)
  have hmatch := h.answers history command kind hkind
  refine ⟨_, receive_returns _ command turns last hread (rightKind_read hkind hmatch) hmatch, ?_, ?_, ?_⟩
  · exact hear_received _ _
  · exact hear_unread _ _
  · exact hear_openLine _ _

theorem send_answered (h : Answering server) {s : Legacy Wire} (hconnected : s.1.connected = true)
    (hopen : s.2.openLine = []) (hunread : s.2.unread = [] ∨ s.2.unread = [greet server])
    {command kind : String} (hkind : RightKind command kind) (hcommand : '\n' ∉ command.toList) :
    ∃ w, sendCommandRaw (socket server undisturbed) command kind s =
        (.ok (lineOf (server.answer (s.2.received ++ [command]))), s.1, w) ∧
      w.received = s.2.received ++ [command] ∧ w.unread = [] ∧ w.openLine = [] := by
  have hwrite : (socket server undisturbed).writeLine command s.2 =
      (.ok (), put server command true [command] [] s.2) := by
    simp only [socket, writeLine, undisturbed, carriedText, hopen, takeLines_line hcommand, List.nil_append,
      String.ofList_toList, reduceIte, decide_true]
  rw [sendCommandRaw_written _ kind hconnected hwrite]
  rcases hunread with hnil | hgreet
  · have hown : (put server command true [command] [] s.2).unread =
        [reply server (s.2.received ++ [command])] := by
      rw [put, hnil]
      rfl
    obtain ⟨w, hrun, hreceived, hleft, hopen'⟩ := read_answer h hkind (s := (s.1, _)) hown 15 ""
    exact ⟨w, hrun, hreceived, hleft, hopen'⟩
  · have hboth : (put server command true [command] [] s.2).unread =
        [greet server, reply server (s.2.received ++ [command])] := by
      rw [put, hgreet]
      rfl
    have hread := nextLine_whole hboth h.greetingLine h.greetingShort
    generalize hleft : Wire.hear ([], lineOf server.greeting) { (put server command true [command] [] s.2).call with
      unread := [reply server (s.2.received ++ [command])] } = left at hread
    have hown : left.unread = [reply server (s.2.received ++ [command])] := by
      rw [← hleft, hear_unread]
    obtain ⟨w, hrun, hreceived, hnone, hopen'⟩ := read_answer h hkind (s := (s.1, left)) hown 14 ""
    refine ⟨w, (receive_skips _ command kind 15 "" hread (Or.inr h.greeting)).trans hrun, ?_, hnone, ?_⟩
    · rw [hreceived, ← hleft, hear_received]
      rfl
    · rw [hopen', ← hleft, hear_openLine]
      rfl

theorem sendCommand_ready (h : Answering server) {s : Legacy Wire} (hready : Ready s)
    {command kind : String} (hkind : RightKind command kind) (hcommand : '\n' ∉ command.toList) :
    ∃ w, sendCommand (socket server undisturbed) command kind s =
        (.ok (lineOf (server.answer (s.2.received ++ [command]))), s.1, w) ∧
      w.received = s.2.received ++ [command] ∧ Ready (s.1, w) := by
  obtain ⟨w, hrun, hreceived, hunread, hopen⟩ :=
    send_answered h hready.connected hready.openLine (Or.inl hready.unread) hkind hcommand
  refine ⟨w, ?_, hreceived, ⟨hready.connected, hready.activated, hunread, hopen⟩⟩
  simp only [sendCommand, sendAttempts, bind_run,
    ensureReady_set (socket server undisturbed) hready.connected hready.activated, hrun, pure_run]

def queryLines (server : LegacyServer) (max : Nat) (input : String) (history words : List String) :
    List String :=
  (sentWords server max input history words).map fun word => word ++ " " ++ input

theorem queryLoop_ready (h : Answering server) (max : Nat) {words : List String}
    (hwords : ∀ word ∈ words, word ∈ queryWords) {s : Legacy Wire} (hready : Ready s)
    (hinput : '\n' ∉ s.1.input.toList) (last : String × String × List Candidate) :
    ∃ result w, queryLoop (socket server undisturbed) max words last s = (result, s.1, w) ∧
      w.received = s.2.received ++ queryLines server max s.1.input s.2.received words ∧
      Ready (s.1, w) := by
  induction words generalizing s last with
  | nil => exact ⟨_, s.2, rfl, (List.append_nil _).symm, hready⟩
  | cons word words ih =>
      have hword := hwords word List.mem_cons_self
      have hrest : ∀ word ∈ words, word ∈ queryWords := fun w hw => hwords w (List.mem_cons_of_mem _ hw)
      have hfixed : ∀ word ∈ queryWords, '\n' ∉ word.toList := by decide
      have hline : '\n' ∉ (word ++ " " ++ s.1.input).toList := by
        rw [String.toList_append, String.toList_append]
        exact List.not_mem_append (List.not_mem_append (hfixed word hword) (by decide)) hinput
      obtain ⟨w, hsend, hreceived, hready'⟩ :=
        sendCommand_ready h hready (RightKind.query hword s.1.input) hline
      obtain ⟨lastComp, lastRead, lastCandidates⟩ := last
      simp only [queryLoop, bind_run, observe_run]
      rw [andThen_ok (congrArg Prod.fst hsend), hsend]
      rcases error_or_ok (parseCandidateReply
        (lineOf (server.answer (s.2.received ++ [word ++ " " ++ s.1.input]))) max) with
        ⟨e, hparse⟩ | ⟨⟨comp, read, candidates⟩, hparse⟩
      · refine ⟨.error e, w, ?_, ?_, hready'⟩
        · simp only [hparse, pure_run]
        · simp only [hreceived, queryLines, sentWords, hparse, List.map_cons, List.map_nil]
      · cases candidates with
        | cons candidate candidates =>
            refine ⟨.ok (if comp ≠ "" then comp else lastComp, if read ≠ "" then read else lastRead,
              candidate :: candidates), w, ?_, ?_, hready'⟩
            · simp only [hparse, ne_eq, reduceCtorEq, not_false_eq_true, reduceIte, pure_run]
            · simp only [hreceived, queryLines, sentWords, hparse, List.map_cons, List.map_nil]
        | nil =>
            obtain ⟨result, w', hrun, hlines, hready''⟩ := ih hrest (s := (s.1, w)) hready' hinput
              (if comp ≠ "" then comp else lastComp, if read ≠ "" then read else lastRead, [])
            refine ⟨result, w', ?_, ?_, hready''⟩
            · simp only [hparse, ne_eq, not_true_eq_false, reduceIte]
              exact hrun
            · simp only [hlines, hreceived, queryLines, sentWords, hparse, List.map_cons,
                List.append_assoc, List.singleton_append]

def newLines (server : LegacyServer) (s : Legacy Wire) (max : Nat) (input : String) : List String :=
  if input = "" then []
  else
    queryLines server max input s.2.received
      ([s.1.command, "CAND", "KEYTEXTU", "TEXTU"].destutter (· ≠ ·))

theorem words_known {command : String} (hcommand : command ∈ queryWords) :
    ∀ word ∈ [command, "CAND", "KEYTEXTU", "TEXTU"].destutter (· ≠ ·), word ∈ queryWords := by
  have hfixed : ∀ word ∈ ["CAND", "KEYTEXTU", "TEXTU"], word ∈ queryWords := by decide
  intro word hword
  rcases List.mem_cons.mp ((List.destutter_sublist _ _).subset hword) with rfl | hword
  · exact hcommand
  · exact hfixed word hword

theorem queryRemoteUpdate_ready (h : Answering server) (max : Nat) {s : Legacy Wire} (hready : Ready s)
    (hcommand : s.1.command ∈ queryWords) (hinput : '\n' ∉ s.1.input.toList) :
    Ready (queryRemoteUpdate (socket server undisturbed) max s).2 ∧
      (queryRemoteUpdate (socket server undisturbed) max s).2.2.received =
        s.2.received ++ newLines server s max s.1.input := by
  by_cases hempty : s.1.input = ""
  · have hrun : queryRemoteUpdate (socket server undisturbed) max s =
        (.ok (), { s.1 with composition := "", reading := "", candidates := [] }, s.2) := by
      simp only [queryRemoteUpdate, bind_run, observe_run, hempty, reduceIte, update, change_run, pure_run]
    rw [hrun, newLines, if_pos hempty, List.append_nil]
    exact ⟨⟨hready.connected, hready.activated, hready.unread, hready.openLine⟩, rfl⟩
  · obtain ⟨result, w, hloop, hreceived, hready'⟩ :=
      queryLoop_ready h max (words_known hcommand) hready hinput (s.1.input, s.1.input, [])
    rw [newLines, if_neg hempty]
    simp only [queryRemoteUpdate, bind_run, observe_run, hempty, reduceIte]
    rcases error_or_ok result with ⟨e, rfl⟩ | ⟨last, rfl⟩
    · rw [andThen_error (congrArg Prod.fst hloop), hloop]
      exact ⟨hready', hreceived⟩
    · rw [andThen_ok (congrArg Prod.fst hloop), hloop]
      exact ⟨⟨hready'.connected, hready'.activated, hready'.unread, hready'.openLine⟩, hreceived⟩

theorem handle_eq (s : Legacy Wire) (e : Event) :
    handle server s e =
      (candidateRequest (socket server undisturbed) (withInput e.input) e.maxCandidates s).2 := by
  cases e with
  | key keyEvent max =>
      rw [handle, applyKeyEvent_eq]
      rfl
  | query snapshot max =>
      rw [handle, queryCandidates_eq]
      rfl

theorem handle_keeps (s : Legacy Wire) (e : Event) :
    (handle server s e).1.input = e.input s.1.input ∧ (handle server s e).1.command = s.1.command := by
  rw [handle_eq, candidateRequest_left]
  exact queryRemoteUpdate_keeps _ e.maxCandidates (withInput e.input s.1.bump, s.2)

theorem handle_ready (h : Answering server) {s : Legacy Wire} (hready : Ready s)
    (hcommand : s.1.command ∈ queryWords) {e : Event} (hinput : '\n' ∉ (e.input s.1.input).toList) :
    Ready (handle server s e) ∧ (handle server s e).2.received =
      s.2.received ++ newLines server s e.maxCandidates (e.input s.1.input) := by
  have hasked : Ready (withInput e.input s.1.bump, s.2) :=
    ⟨hready.connected, hready.activated, hready.unread, hready.openLine⟩
  rw [handle_eq, candidateRequest_left]
  exact queryRemoteUpdate_ready h e.maxCandidates hasked hcommand hinput

theorem sentWords_subset (max : Nat) (input : String) (history words : List String) :
    sentWords server max input history words <+: words := by
  induction words generalizing history with
  | nil => exact List.prefix_refl _
  | cons word words ih =>
      rw [sentWords]
      split
      · exact (List.prefix_cons_inj word).mpr (ih _)
      · exact (List.prefix_cons_inj word).mpr List.nil_prefix

theorem typed_lines (s : Legacy Wire) (hcommand : s.1.command ∈ queryWords) (max : Nat)
    (buffer input : String) :
    (newLines server s max input).foldl afterLine buffer =
      buffer ++ copies (typedTimes server s max input) input := by
  rw [newLines, typedTimes]
  split
  · rw [List.foldl_nil, copies_zero, String.append_empty]
  · refine typed_words (fun word hword => ?_) buffer input
    exact words_known hcommand word ((sentWords_subset _ _ _ _).subset hword)

theorem handle_typed_iff (h : Answering server) {s : Legacy Wire} (hready : Ready s)
    (hcommand : s.1.command ∈ queryWords) (hbuffer : hostBuffer s.2.received = s.1.input) {e : Event}
    (hinput : '\n' ∉ (e.input s.1.input).toList) :
    hostBuffer (handle server s e).2.received = (handle server s e).1.input ↔ TypedOnce server s e := by
  rw [(handle_ready h hready hcommand hinput).2, hostBuffer_append, hbuffer, (handle_keeps s e).1,
    typed_lines s hcommand, TypedOnce, and_iff_right hinput]
  by_cases hempty : e.input s.1.input = ""
  · have htimes : typedTimes server s e.maxCandidates (e.input s.1.input) = 0 := if_pos hempty
    rw [htimes, hempty, copies_empty, String.append_empty]
    constructor
    · exact fun h => Or.inl ⟨rfl, h.symm⟩
    · rintro (⟨-, h⟩ | ⟨h, -⟩)
      · exact h.symm
      · cases h
  · exact append_copies_eq_self hempty

theorem takeLines_lined {openLine : List Char} (hopen : '\n' ∉ openLine) (text : List Char) :
    '\n' ∉ (takeLines openLine text).2 ∧
      ∀ line ∈ (takeLines openLine text).1, '\n' ∉ line.toList := by
  induction text generalizing openLine with
  | nil => exact ⟨hopen, fun _ hline => absurd hline List.not_mem_nil⟩
  | cons c text ih =>
      rw [takeLines]
      split
      · obtain ⟨hleft, hlines⟩ := ih List.not_mem_nil
        refine ⟨hleft, fun line hline => ?_⟩
        rcases List.mem_cons.mp hline with rfl | hline
        · rw [String.toList_ofList]
          exact hopen
        · exact hlines line hline
      · next hc => exact ih (List.not_mem_append hopen fun h => hc (List.mem_singleton.mp h).symm)

theorem writeLine_lined (server : LegacyServer) (net : Network) (command : String) {w : Wire}
    (h : Lined w) : Lined (writeLine server net command w).2 := by
  obtain ⟨hleft, hlines⟩ := takeLines_lined h.1
    (carriedText (net.cuts w.calls) (command.toList ++ ['\n']))
  refine ⟨hleft, fun line hline => ?_⟩
  rcases List.mem_append.mp hline with hline | hline
  · exact h.2 line hline
  · exact hlines line hline

theorem lined_hear {w : Wire} (h : Lined w) (answer : List String × String) : Lined (w.hear answer) := by
  rw [Lined, hear_openLine, hear_received]
  exact h

theorem socket_lined (server : LegacyServer) (net : Network) : HostKeeps (socket server net) Lined :=
  ReplyPairing.socket_keeps server net (fun _ _ h => ⟨nofun, h.2⟩) (fun _ _ h => h)
    (fun _ answer h => lined_hear h answer) fun command _ h => writeLine_lined server net command h

theorem afterLine_lined {buffer line : String} (hbuffer : '\n' ∉ buffer.toList)
    (hline : '\n' ∉ line.toList) : '\n' ∉ (afterLine buffer line).toList := by
  have htyped : ∀ n, '\n' ∉ (buffer ++ String.ofList (line.toList.drop n)).toList := fun n => by
    rw [String.toList_append, String.toList_ofList]
    exact List.not_mem_append hbuffer fun h => hline (List.drop_subset n _ h)
  rw [afterLine]
  split
  · exact htyped 6
  · split
    · exact htyped 9
    · split
      · nofun
      · exact hbuffer

theorem hostBuffer_lined {received : List String} (h : ∀ line ∈ received, '\n' ∉ line.toList) :
    '\n' ∉ (hostBuffer received).toList := by
  induction received using List.reverseRecOn with
  | nil => nofun
  | append_singleton received line ih =>
      rw [hostBuffer_append, List.foldl_cons, List.foldl_nil]
      apply afterLine_lined
      · exact ih fun line' hline' => h line' (List.mem_append_left _ hline')
      · exact h line (List.mem_append_right _ (List.mem_singleton_self line))

theorem handle_lined {s : Legacy Wire} (hs : Lined s.2) (e : Event) : Lined (handle server s e).2 := by
  have hlasting := kept_lasting (socket_lined server undisturbed)
  rw [handle_eq]
  exact (candidateRequest_lasting hlasting (fun _ _ => trivial) e.maxCandidates s hs).2

theorem ensureReady_idle (h : Answering server) {s : Legacy Wire} (hidle : Idle s) :
    ∃ next, ensureReady (socket server undisturbed) s = (.ok (), next) ∧ Ready next := by
  cases hconnected : s.1.connected with
  | true =>
      have hready := hidle.talk hconnected
      exact ⟨s, ensureReady_set _ hready.connected hready.activated, hready⟩
  | false =>
      have hopened : (socket server undisturbed).connect s.2 =
          (.ok (), { s.2.call with openLine := [], unread := [greet server] }) := rfl
      have hconnect := connectIfNeeded_opened _ hconnected hopened
      have hactivate : '\n' ∉ "ACTIVATE".toList := by decide
      rw [ensureReady, andThen_ok (congrArg Prod.fst hconnect), hconnect]
      simp only [bind_run, observe_run, Bool.false_eq_true, reduceIte]
      obtain ⟨w, hfirst, hreceived, hunread, hopen⟩ := send_answered h
        (s := ({ s.1 with connected := true, activated := false },
          { s.2.call with openLine := [], unread := [greet server] })) rfl rfl (Or.inr rfl)
        RightKind.activate hactivate
      rw [andThen_ok (congrArg Prod.fst hfirst), hfirst]
      simp only [bind_run, observe_run]
      obtain ⟨w', hsecond, hreceived', hunread', hopen'⟩ := send_answered h
        (s := ({ s.1 with connected := true, activated := false }, w)) rfl hopen (Or.inl hunread)
        (RightKind.codepage s.1.codepage) (codepage_line s.1.codepage)
      rw [andThen_ok (congrArg Prod.fst hsecond), hsecond]
      exact ⟨_, rfl, rfl, rfl, hunread', hopen'⟩

theorem reset_ready (h : Answering server) {s : Legacy Wire} (hidle : Idle s) :
    Ready (resetForNewSession (socket server undisturbed) s).2 ∧
      hostBuffer (resetForNewSession (socket server undisturbed) s).2.2.received = "" := by
  have hcleared : Idle (clearLocalState s.1.bump, s.2) := by
    refine ⟨fun hconnected => ?_, hidle.lines⟩
    have hready := hidle.talk hconnected
    exact ⟨hready.connected, hready.activated, hready.unread, hready.openLine⟩
  obtain ⟨next, hset, hready⟩ := ensureReady_idle h hcleared
  obtain ⟨w, hsend, hreceived, hready'⟩ := sendCommand_ready h hready RightKind.reset (by decide)
  have hrun : (resetForNewSession (socket server undisturbed) s).2 = (next.1, w) := by
    simp only [resetForNewSession, bind_run, update, change_run, observe_run, resetRemote, hset, hsend,
      pure_run]
  have hempty : afterLine (hostBuffer next.2.received) "RESET" = "" := by
    rw [afterLine, if_neg (by decide), if_neg (by decide), if_pos (by decide)]
  rw [hrun]
  refine ⟨hready', ?_⟩
  rw [hreceived, hostBuffer_append, List.foldl_cons, List.foldl_nil, hempty]

/-- What holds while the host has typed the input once. -/
structure InStep (s : Legacy Wire) : Prop where
  ready : Ready s
  command : s.1.command ∈ queryWords
  lines : Lined s.2
  typed : hostBuffer s.2.received = s.1.input

theorem reset_inStep (h : Answering server) {s : Legacy Wire} (hidle : Idle s)
    (hcommand : s.1.command ∈ queryWords) :
    InStep (resetForNewSession (socket server undisturbed) s).2 := by
  obtain ⟨hready, hempty⟩ := reset_ready h hidle
  have hlasting := kept_lasting (socket_lined server undisturbed)
  have hoffline : offline (resetForNewSession (socket server undisturbed) s).2 =
      offline (clearLocalState s.1.bump, s.2) :=
    resetRemote_steady (socket server undisturbed) (clearLocalState s.1.bump, s.2)
  refine ⟨hready, ?_, (resetForNewSession_lasting hlasting s hidle.lines).2, hempty.trans ?_⟩
  · change (offline (resetForNewSession (socket server undisturbed) s).2).command ∈ queryWords
    rw [hoffline]
    exact hcommand
  · change "" = (offline (resetForNewSession (socket server undisturbed) s).2).input
    rw [hoffline]
    rfl

theorem handle_inStep (h : Answering server) {s : Legacy Wire} (hs : InStep s) {e : Event}
    (hok : TypedOnce server s e) : InStep (handle server s e) := by
  have hready := (handle_ready h hs.ready hs.command hok.1).1
  have htyped := (handle_typed_iff h hs.ready hs.command hs.typed hok.1).mpr hok
  exact ⟨hready, (handle_keeps s e).2 ▸ hs.command, handle_lined hs.lines e, htyped⟩

theorem handle_outOfStep (h : Answering server) {s : Legacy Wire} (hs : InStep s) {e : Event}
    (hno : ¬TypedOnce server s e) :
    hostBuffer (handle server s e).2.received ≠ (handle server s e).1.input := by
  by_cases hinput : '\n' ∉ (e.input s.1.input).toList
  · exact fun htyped => hno ((handle_typed_iff h hs.ready hs.command hs.typed hinput).mp htyped)
  · intro htyped
    have hlined : '\n' ∉ (hostBuffer (handle server s e).2.received).toList :=
      hostBuffer_lined (handle_lined hs.lines e).2
    rw [htyped, (handle_keeps s e).1] at hlined
    exact hinput hlined

/-- After a reset the host has typed the input exactly once, after each event of a
run, just when each event leaves the input and types nothing or types the first input
once. -/
theorem typed_once_iff (h : Answering server) {s : Legacy Wire} (hidle : Idle s)
    (hcommand : s.1.command ∈ queryWords) (events : List Event) :
    let start := (resetForNewSession (socket server undisturbed) s).2
    Always (handle server) (fun s => hostBuffer s.2.received = s.1.input) start events ↔
      Allowed (handle server) (TypedOnce server) start events := by
  intro start
  have hfree : Allowed (handle server) (fun _ _ => True) start events :=
    allowed_of_forall (fun _ _ => trivial) start events
  exact always_iff_of_invariant InStep (fun _ hs => hs.typed) (fun _ _ hs _ hok => handle_inStep h hs hok)
    (fun _ _ hs _ hno => handle_outOfStep h hs hno) (reset_inStep h hidle hcommand) hfree

end

open ReplyPairing

theorem lineOf_ascii {head : List Char} (h : ∀ b ∈ ascii head, b < 0x80 ∧ b ≠ carriageReturn)
    (bytes : List UInt8) :
    ((ascii head).map fun b => Char.ofNat b.toNat) <+: (lineOf (ascii head ++ bytes)).toList := by
  have hkept : (ascii head).filter (· ≠ carriageReturn) = ascii head :=
    List.filter_eq_self.mpr fun b hb => by simpa using (h b hb).2
  rw [lineOf, List.filter_append, hkept, Utf8.fromUtf8Lossy, String.toList_ofList,
    Utf8.decodeFrom_ascii fun b hb => (h b hb).1]
  exact List.prefix_append _ _

theorem echo_query {line : List Char}
    (hline : "CAND".toList <+: line ∨ "TEXTU ".toList <+: line ∨ "KEYTEXTU ".toList <+: line)
    (hreset : ¬"RESET".toList <+: line) :
    (lineOf (echoAnswer line)).startsWith "CAND_RET " = true := by
  have hhead : ∀ b ∈ ascii "CAND_RET ".toList, b < 0x80 ∧ b ≠ carriageReturn := by
    simp [ascii, carriageReturn]
  have hprefix : ((ascii "CAND_RET ".toList).map fun b => Char.ofNat b.toNat) = "CAND_RET ".toList := by
    decide +kernel
  rw [String.startsWith_string_iff, echoAnswer, if_neg hreset, if_pos hline, ← hprefix]
  exact lineOf_ascii hhead _

theorem length_ascii (text : List Char) : (ascii text).length = text.length := List.length_map _

theorem echo_short (line : List Char) : (echoAnswer line).length ≤ Ipc.ipcMaxFrameBytes := by
  rw [echoAnswer]
  split
  · decide
  · split
    · have htake := List.length_take_le 64 (line.filter Char.isAlphanum)
      have hmax : Ipc.ipcMaxFrameBytes = 262144 := rfl
      rw [length_ascii, List.length_append, List.length_append, hmax]
      have hbefore : "CAND_RET comp=[".toList.length = 15 := by decide
      have hafter : "] items=[x]".toList.length = 11 := by decide
      omega
    · split
      · decide
      · split
        · decide
        · decide

theorem echo_answering : Answering echoServer where
  greeting := by decide +kernel
  greetingLine := by decide
  greetingShort := by decide
  oneLine := fun history => echo_oneLine _
  short := fun history => echo_short _
  answers := fun history command kind hkind => by
    have hlast : (history ++ [command]).getLastD "" = command := by simp
    rw [echoServer]
    dsimp only
    rw [hlast]
    cases hkind with
    | activate => decide +kernel
    | codepage codepage =>
        have hanswer : echoAnswer ("CP " ++ toString codepage).toList = ascii "OK CP 936".toList := by
          rw [String.toList_append]
          simp [echoAnswer]
        rw [hanswer]
        decide +kernel
    | reset => decide +kernel
    | query hword input =>
        rw [String.toList_append, String.toList_append]
        rcases List.mem_cons.mp hword with rfl | hword
        · exact echo_query (by simp) (by simp)
        · rcases List.mem_cons.mp hword with rfl | hword
          · exact echo_query (by simp) (by simp)
          · rw [List.mem_singleton.mp hword]
            exact echo_query (by simp) (by simp)

instance (s : Legacy Wire) (e : Event) : Decidable (TypedOnce echoServer s e) :=
  inferInstanceAs (Decidable (_ ∧ _))

theorem fresh_idle (command : String) (codepage : Int) : Idle (fresh command codepage) :=
  ⟨nofun, nofun, nofun⟩

def press (virtualKey : UInt32) : Event :=
  .key ⟨true, virtualKey, 0, false, false, false, false, false, 0, 0, 0⟩ 9

theorem first_letter_typed :
    Always (handle echoServer) (fun s => hostBuffer s.2.received = s.1.input)
      (resetForNewSession (socket echoServer undisturbed) (fresh "TEXTU" 936)).2
      [press 0x08, press 0x4E] :=
  (typed_once_iff echo_answering (fresh_idle "TEXTU" 936) (by decide) [press 0x08, press 0x4E]).mpr
    (by decide +kernel)

/-- Two letters: the second event types the first one again. -/
theorem second_letter_typed_twice :
    let s := run (handle echoServer)
      (resetForNewSession (socket echoServer undisturbed) (fresh "TEXTU" 936)).2
      [press 0x4E, press 0x49]
    s.1.input = "ni" ∧ hostBuffer s.2.received = "nni" := by
  decide +kernel

end RimeWinime.HostTyping
