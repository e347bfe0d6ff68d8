import RimeWinime.Lib.Run
import RimeWinime.Gateway.FailedOperation
import RimeWinime.Gateway.UnreadLines

namespace RimeWinime.ReplyPairing

open World Worker Backends LegacyTcpRuntime LegacyWire LegacyTalk UnreadLines Run

theorem nextLine_noted (net : Network) {w : Wire} {e : Exchange} {es : List Exchange}
    (h : w.exchanges = e :: es) :
    ∃ heard, (nextLine net w).2.exchanges = { e with heard := heard } :: es ∧
      ∀ line, (nextLine net w).1 = .ok (some line) → ∃ history, (history, line) ∈ heard := by
  cases hunread : w.unread with
  | nil =>
      obtain ⟨hnone, hleft⟩ := nextLine_silent net hunread
      rw [hleft]
      refine ⟨e.heard, h, fun line hline => ?_⟩
      rcases hnone with ⟨m, hm⟩ | hm
      · cases hm.symm.trans hline
      · cases hm.symm.trans hline
  | cons r rest =>
      simp only [nextLine, hunread]
      split
      · next line hline =>
          refine ⟨e.heard ++ [(r.history, line)], ?_, ?_⟩
          · simp only [Wire.hear, Wire.call, h]
          · rintro line' ⟨⟩
            exact ⟨r.history, List.mem_append_right _ (List.mem_singleton_self _)⟩
      · next hother =>
          exact ⟨e.heard, h, fun line hline => absurd hline (hother line)⟩

theorem receive_noted (server : LegacyServer) (net : Network) (command : String) {expected : String}
    (hexpected : expected ≠ "") (turns : Nat) (last : String) {s : Legacy Wire} {e : Exchange}
    {es : List Exchange} (h : s.2.exchanges = e :: es) {line : String} {next : Legacy Wire}
    (hrun : receive (socket server net) command expected turns last s = (.ok line, next)) :
    line.startsWith expected = true ∧ ∃ heard history,
      next.2.exchanges = { e with heard := heard } :: es ∧ (history, line) ∈ heard := by
  induction turns generalizing last s e with
  | zero => cases hrun
  | succ turns ih =>
      obtain ⟨heard, hexchanges, hnoted⟩ := nextLine_noted net h
      rcases receive_cases (socket server net) command expected turns last s with
        ⟨-, m, hfailed⟩ | ⟨read, hread, ⟨last', hloop⟩ | ⟨hmatch, hdone⟩⟩
      · cases hfailed.symm.trans hrun
      · obtain ⟨hstarts, heard', history, hexchanges', hmem⟩ :=
          ih last' (s := (s.1, (nextLine net s.2).2)) hexchanges (hloop.symm.trans hrun)
        exact ⟨hstarts, heard', history, hexchanges', hmem⟩
      · cases hdone.symm.trans hrun
        obtain ⟨history, hmem⟩ := hnoted line hread
        exact ⟨hmatch.resolve_left hexpected, heard, history, hexchanges, hmem⟩

theorem sendCommandRaw_noted (server : LegacyServer) (net : Network) {command expected : String}
    (hexpected : expected ≠ "") {s : Legacy Wire} {line : String} {next : Legacy Wire}
    (hrun : sendCommandRaw (socket server net) command expected s = (.ok line, next)) :
    line.startsWith expected = true ∧ ∃ e es history,
      next.2.exchanges = e :: es ∧ e.command = command ∧ (history, line) ∈ e.heard := by
  cases hconnected : s.1.connected with
  | false =>
      simp only [sendCommandRaw, bind_run, observe_run, hconnected, Bool.false_eq_true, reduceIte,
        pure_run] at hrun
      cases hrun
  | true =>
      obtain ⟨m, hm⟩ | ⟨⟨⟩, hok⟩ := error_or_ok (writeLine server net command s.2).1
      · cases (sendCommandRaw_failed (socket server net) expected hconnected (Prod.ext hm rfl)).symm.trans hrun
      · have hwrite := sendCommandRaw_written (socket server net) expected hconnected (Prod.ext hok rfl)
        obtain ⟨hstarts, heard, history, hexchanges, hmem⟩ := receive_noted server net command hexpected
          16 "" (s := (s.1, (writeLine server net command s.2).2)) rfl (hwrite.symm.trans hrun)
        exact ⟨hstarts, _, _, history, hexchanges, rfl, hmem⟩

theorem sendAttempts_noted (server : LegacyServer) (net : Network) {command expected : String}
    (hexpected : expected ≠ "") (turns : Nat) (lastError : String) {s : Legacy Wire} {line : String}
    {next : Legacy Wire}
    (hrun : sendAttempts (socket server net) command expected turns lastError s = (.ok line, next)) :
    line.startsWith expected = true ∧ ∃ e es history,
      next.2.exchanges = e :: es ∧ e.command = command ∧ (history, line) ∈ e.heard := by
  induction turns generalizing s lastError with
  | zero => cases hrun
  | succ turns ih =>
      simp only [sendAttempts, bind_run] at hrun
      generalize hready : ensureReady (socket server net) s = ready at hrun
      obtain ⟨ready, set⟩ := ready
      obtain ⟨m, rfl⟩ | ⟨⟨⟩, rfl⟩ := error_or_ok ready
      · exact ih m hrun
      · simp only [bind_run] at hrun
        generalize hsend : sendCommandRaw (socket server net) command expected set = sent at hrun
        obtain ⟨sent, left⟩ := sent
        obtain ⟨m, rfl⟩ | ⟨line', rfl⟩ := error_or_ok sent
        · exact ih m hrun
        · cases hrun
          exact sendCommandRaw_noted server net hexpected hsend

inductive Request
  | newSession
  | operation (op : FailedOperation.Operation)

def Request.OneLine : Request → Prop
  | .operation (.queryCandidates inputSnapshot _) => '\n' ∉ inputSnapshot.toList
  | _ => True

instance decidableOneLine : (r : Request) → Decidable r.OneLine
  | .newSession => inferInstanceAs (Decidable True)
  | .operation (.applyKeyEvent _ _) => inferInstanceAs (Decidable True)
  | .operation (.queryCandidates inputSnapshot _) =>
      inferInstanceAs (Decidable ('\n' ∉ inputSnapshot.toList))
  | .operation (.commitSelection _ _) => inferInstanceAs (Decidable True)

section

variable (server : LegacyServer) (net : Network)

def serve (s : Legacy Wire) : Request → Legacy Wire
  | .newSession => (resetForNewSession (socket server net) s).2
  | .operation op => (FailedOperation.perform (backend (socket server net)) op s).2

def fresh (command : String) (codepage : Int) : Legacy Wire := ({ codepage, command }, {})

end

theorem serve_lasting {server : LegacyServer} {net : Network} {I : Legacy Wire → Prop}
    {text : String → Prop} (h : Lasting (socket server net) I text)
    (htyped : ∀ input virtualKey, text input → text (WorkerRuntime.typeKey input virtualKey))
    {s : Legacy Wire} (hs : I s) {r : Request}
    (hr : ∀ snapshot max, r = .operation (.queryCandidates snapshot max) → text snapshot) :
    I (serve server net s r) := by
  cases r with
  | newSession => exact (resetForNewSession_lasting h s hs).2
  | operation op =>
      cases op with
      | applyKeyEvent keyEvent max =>
          change I (applyKeyEvent (socket server net) keyEvent max s).2
          rw [applyKeyEvent_eq]
          refine (candidateRequest_lasting h (fun input hinput => ?_) max s hs).2
          rw [keyed]
          split
          · exact htyped input keyEvent.virtualKey hinput
          · exact hinput
      | queryCandidates snapshot max =>
          change I (queryCandidates (socket server net) snapshot max s).2
          rw [queryCandidates_eq]
          refine (candidateRequest_lasting h (fun input hinput => ?_) max s hs).2
          rw [asked]
          split
          · exact hr snapshot max rfl
          · exact hinput
      | commitSelection committedText index => exact (commitSelection_lasting h committedText index s hs).2

theorem fresh_safe (server : LegacyServer) (codepage : Int) {command : String}
    (hcommand : '\n' ∉ command.toList) : Safe server codepage (fresh command codepage) :=
  ⟨⟨nofun, rfl, nofun, nofun, nofun⟩, nofun, hcommand⟩

theorem answered_of_sound {server : LegacyServer} {codepage : Int} {net : Network}
    {command expected line : String} {s next : Legacy Wire}
    (hrun : sendCommand (socket server net) command expected s = (.ok line, next))
    (hexpected : expected ∈ requestKinds) (hsound : ∀ e ∈ next.2.exchanges, Sound server codepage e) :
    ∃ e es, next.2.exchanges = e :: es ∧ e.command = command ∧ e.lines = [command] ∧
      line = lineOf (server.answer e.history) := by
  have hne : expected ≠ "" := by
    rintro rfl
    exact absurd hexpected (by decide)
  obtain ⟨hstarts, e, es, history, hexchanges, hcommand, hmem⟩ :=
    sendAttempts_noted server net hne 2 "unknown error" hrun
  have he := hsound e (hexchanges ▸ List.mem_cons_self)
  obtain ⟨hlines, hanswer⟩ := he.paired _ hmem expected hexpected hstarts
  exact ⟨e, es, hexchanges, hcommand, hcommand ▸ hlines, congrArg Prod.snd hanswer⟩

theorem sendCommand_answered {server : LegacyServer} {codepage : Int} (hs : Orderly codepage server)
    (net : Network) {command expected line : String} {s next : Legacy Wire}
    (hsafe : Safe server codepage s) (hcommand : '\n' ∉ command.toList)
    (hexpected : expected ∈ requestKinds)
    (hrun : sendCommand (socket server net) command expected s = (.ok line, next)) :
    Safe server codepage next ∧ ∃ e es, next.2.exchanges = e :: es ∧ e.command = command ∧
      e.lines = [command] ∧ line = lineOf (server.answer e.history) := by
  have hnext := ((safe_lasting net hs).send command expected hcommand hexpected s hsafe).2
  rw [hrun] at hnext
  exact ⟨hnext, answered_of_sound hrun hexpected hnext.1.sound⟩

theorem socket_keeps {K : Wire → Prop} (server : LegacyServer) (net : Network)
    (hopened : ∀ w unread, K w → K { w.call with openLine := [], unread })
    (hread : ∀ w unread, K w → K { w.call with unread })
    (hhear : ∀ w answer, K w → K (w.hear answer))
    (hwrite : ∀ command w, K w → K (writeLine server net command w).2) :
    HostKeeps (socket server net) K where
  connect := fun w hw => by
    change K (connect server net w).2
    rw [connect]
    split
    · exact hopened w _ hw
    · exact hread w w.unread hw
  writeLine := hwrite
  readLine := fun w hw => by
    change K (nextLine net w).2
    rw [nextLine]
    split
    · exact hread w w.unread hw
    · dsimp only
      split
      · apply hhear
        exact hread w _ hw
      · exact hread w _ hw

/-- An exchange that was carried put a line on the wire for each newline of its command,
and one more. -/
def Counted (w : Wire) : Prop :=
  ∀ e ∈ w.exchanges, e.carried = true → e.lines.length = e.command.toList.count '\n' + 1

theorem counted_hear {w : Wire} (h : Counted w) (answer : List String × String) :
    Counted (w.hear answer) := by
  rw [Wire.hear]
  cases hexchanges : w.exchanges with
  | nil => exact h
  | cons e es =>
      rw [Counted, hexchanges] at h
      intro e' he'
      rcases List.mem_cons.mp he' with rfl | he'
      · exact h e List.mem_cons_self
      · exact h e' (List.mem_cons_of_mem _ he')

theorem writeLine_counted (server : LegacyServer) (net : Network) (command : String) {w : Wire}
    (h : Counted w) : Counted (writeLine server net command w).2 := by
  intro e he hcarried
  rcases List.mem_cons.mp he with rfl | he
  · have hcut : net.cuts w.calls = none := of_decide_eq_true hcarried
    simp only [hcut, carriedText, length_takeLines, List.count_append]
    rfl
  · exact h e he hcarried

theorem socket_counted (server : LegacyServer) (net : Network) :
    HostKeeps (socket server net) Counted :=
  socket_keeps server net (fun _ _ h => h) (fun _ _ h => h) (fun _ answer h => counted_hear h answer)
    fun command _ h => writeLine_counted server net command h

/-- As long as no client sends a newline, every command is one line on the wire, and
what it returns is the host's answer to that line. Whatever the clients send, a command
that is carried is one line just when it has no newline. -/
theorem replies_paired {server : LegacyServer} {codepage : Int} (hs : Orderly codepage server)
    (net : Network) (command : String) (history : List Request) :
    ('\n' ∉ command.toList → (∀ r ∈ history, r.OneLine) →
      Safe server codepage (run (serve server net) (fresh command codepage) history) ∧
        ∀ e ∈ (run (serve server net) (fresh command codepage) history).2.exchanges,
          Sound server codepage e) ∧
      (∀ request expected line s next, Safe server codepage s → '\n' ∉ request.toList →
        expected ∈ requestKinds →
        sendCommand (socket server net) request expected s = (.ok line, next) →
        Safe server codepage next ∧ ∃ e es, next.2.exchanges = e :: es ∧ e.command = request ∧
          e.lines = [request] ∧ line = lineOf (server.answer e.history)) ∧
      ∀ e ∈ (run (serve server net) (fresh command codepage) history).2.exchanges,
        e.carried = true → (e.lines.length = 1 ↔ '\n' ∉ e.command.toList) := by
  refine ⟨fun hcommand hclients => ?_, fun _ _ _ _ _ hsafe hrequest hexpected hrun =>
    sendCommand_answered hs net hsafe hrequest hexpected hrun, fun e he hcarried => ?_⟩
  · have hstep : ∀ s r, Safe server codepage s → r.OneLine →
        Safe server codepage (serve server net s r) := by
      intro s r h hr
      refine serve_lasting (safe_lasting net hs) (fun _ key hinput => typeKey_line hinput key) h ?_
      rintro snapshot max rfl
      exact hr
    have hsafe := run_of_forall (Safe server codepage) hstep (fresh_safe server codepage hcommand)
      hclients
    exact ⟨hsafe, hsafe.1.sound⟩
  · have hlasting := kept_lasting (socket_counted server net)
    have hstep : ∀ s r, Counted s.2 → Counted (serve server net s r).2 := fun s r h =>
      serve_lasting hlasting (fun _ _ _ => trivial) h fun _ _ _ => trivial
    have hcounted : Counted (run (serve server net) (fresh command codepage) history).2 :=
      run_invariant (fun s : Legacy Wire => Counted s.2) hstep (fun e he => by cases he) history
    rw [hcounted e he hcarried, Nat.add_eq_right, List.count_eq_zero]

def ascii (text : List Char) : List UInt8 := text.map fun c => UInt8.ofNat c.toNat

/-- The host's answers by the beginning of the line, with letters and digits of the line
for the composition. -/
def echoAnswer (line : List Char) : List UInt8 :=
  if "RESET".toList <+: line then ascii "OK RESET".toList
  else if "CAND".toList <+: line ∨ "TEXTU ".toList <+: line ∨ "KEYTEXTU ".toList <+: line then
    ascii ("CAND_RET comp=[".toList ++ (line.filter Char.isAlphanum).take 64 ++ "] items=[x]".toList)
  else if "CP".toList <+: line then ascii "OK CP 936".toList
  else if "ACTIVATE".toList <+: line then ascii "OK ACTIVATE".toList
  else ascii "ERR unknown command".toList

def echoServer : LegacyServer where
  greeting := ascii "HELLO ime_host_skeleton".toList
  answer history := echoAnswer (history.getLastD "").toList

def injected : Legacy Wire :=
  run (serve echoServer undisturbed) (fresh "TEXTU" 936)
    [.operation (.queryCandidates "x\nTEXTU y" 9), .operation (.queryCandidates "ni" 9)]

/-- The first command is two lines on the wire, and the second returns what is left of
the answers to the first. -/
theorem snapshot_adds_command :
    (injected.2.exchanges.map fun e => (e.command, e.lines)) =
        [("TEXTU ni", ["TEXTU ni"]), ("TEXTU x\nTEXTU y", ["TEXTU x", "TEXTU y"]),
          ("CP 936", ["CP 936"]), ("ACTIVATE", ["ACTIVATE"])] ∧
      (injected.2.exchanges.head?.map fun e => (e.heard, lineOf (echoServer.answer e.history))) =
        some ([(["ACTIVATE", "CP 936", "TEXTU x", "TEXTU y"], "CAND_RET comp=[TEXTUy] items=[x]")],
          "CAND_RET comp=[TEXTUni] items=[x]") ∧
      injected.1.composition = "TEXTUy" ∧
      ¬∀ e ∈ injected.2.exchanges, Sound echoServer 936 e := by
  have hpaired : ∃ e ∈ injected.2.exchanges, ∃ answer ∈ e.heard,
      answer.2.startsWith "CAND_RET " = true ∧ answer.1 ≠ e.history := by decide +kernel
  refine ⟨by decide +kernel, by decide +kernel, by decide +kernel, fun hsound => ?_⟩
  obtain ⟨e, he, answer, hanswer, hstarts, hother⟩ := hpaired
  have howned := ((hsound e he).paired answer hanswer "CAND_RET " (by decide) hstarts).2
  exact hother (congrArg Prod.fst howned)

theorem ascii_line {text : List Char} (h : ∀ c ∈ text, c.toNat < 256 ∧ c.toNat ≠ 10) :
    newline ∉ ascii text := by
  intro hmem
  obtain ⟨c, hc, hbyte⟩ := List.mem_map.mp hmem
  obtain ⟨hsmall, hne⟩ := h c hc
  have hvalue := congrArg UInt8.toNat hbyte
  rw [UInt8.toNat_ofNat', Nat.mod_eq_of_lt hsmall] at hvalue
  exact hne hvalue

theorem alphanum_range {c : Char} (h : c.isAlphanum = true) : c.toNat < 256 ∧ c.toNat ≠ 10 := by
  unfold Char.isAlphanum Char.isAlpha Char.isUpper Char.isLower Char.isDigit at h
  simp only [Bool.or_eq_true, Bool.and_eq_true, decide_eq_true_eq, UInt32.le_iff_toNat_le, ge_iff_le] at h
  change c.val.toNat < 256 ∧ c.val.toNat ≠ 10
  have hletters : 'A'.val.toNat = 65 ∧ 'Z'.val.toNat = 90 ∧ 'a'.val.toNat = 97 ∧ 'z'.val.toNat = 122 := by
    decide
  have hdigits : '0'.val.toNat = 48 ∧ '9'.val.toNat = 57 := by decide
  omega

theorem echo_oneLine (line : List Char) : newline ∉ echoAnswer line := by
  rw [echoAnswer]
  split
  · decide
  · split
    · have hbefore : ∀ c ∈ "CAND_RET comp=[".toList, c.toNat < 256 ∧ c.toNat ≠ 10 := by simp
      have hafter : ∀ c ∈ "] items=[x]".toList, c.toNat < 256 ∧ c.toNat ≠ 10 := by simp
      apply ascii_line
      intro c hc
      rcases List.mem_append.mp hc with hc | hc
      · rcases List.mem_append.mp hc with hc | hc
        · exact hbefore c hc
        · exact alphanum_range (List.mem_filter.mp (List.take_subset 64 _ hc)).2
      · exact hafter c hc
    · split
      · decide
      · split
        · decide
        · decide

theorem echo_setup {line : List Char} (hline : SetupLine 936 line) : Quiet (echoAnswer line) := by
  have hchars : ∀ c ∈ line, c ∈ "CP 936ACTIVATE".toList := by
    obtain ⟨cp, rest, hcp, hrest, rfl⟩ := hline
    have hcommand : codepageCommand 936 = "CP 936" := by decide +kernel
    have hcodepage : ∀ c ∈ (codepageCommand 936).toList, c ∈ "CP 936ACTIVATE".toList := by
      simp [hcommand]
    have hactivate : ∀ c ∈ "ACTIVATE".toList, c ∈ "CP 936ACTIVATE".toList := by simp
    intro c hc
    rcases List.mem_append.mp hc with hc | hc
    · exact hcodepage c (hcp.subset hc)
    · exact hactivate c (hrest c hc)
  have hother : ∀ {word : List Char} (c : Char), c ∈ word → c ∉ "CP 936ACTIVATE".toList →
      ¬word <+: line := fun c hc hnot hword => hnot (hchars c (hword.subset hc))
  have hreset : ¬"RESET".toList <+: line := hother 'R' (by decide) (by decide)
  have hquery : ¬("CAND".toList <+: line ∨ "TEXTU ".toList <+: line ∨ "KEYTEXTU ".toList <+: line) := by
    rintro (h | h | h)
    · exact hother 'N' (by decide) (by decide) h
    · exact hother 'X' (by decide) (by decide) h
    · exact hother 'X' (by decide) (by decide) h
  rw [echoAnswer, if_neg hreset, if_neg hquery]
  split
  · decide +kernel
  · split
    · decide +kernel
    · decide +kernel

theorem echo_orderly : Orderly 936 echoServer where
  greetingLine := by decide
  greeting := by decide +kernel
  oneLine := fun history => echo_oneLine _
  setup := fun history line hline => by
    have hlast : (history ++ [String.ofList line]).getLastD "" = String.ofList line := by simp
    rw [echoServer]
    dsimp only
    rw [hlast, String.toList_ofList]
    exact echo_setup hline

/-- A talk in which the first read fails after three bytes of the greeting, and the
write of the command after that is cut off. -/
def disturbed : Network where
  connects _ := true
  cuts n := if n = 5 then some 2 else none
  delivers n := if n = 2 then .broken 3 else .whole

theorem queries_paired :
    let s := run (serve echoServer disturbed) (fresh "TEXTU" 936)
      [.operation (.queryCandidates "ni" 9), .operation (.queryCandidates "hao" 9)]
    (∀ e ∈ s.2.exchanges, Sound echoServer 936 e) ∧ s.1.composition = "TEXTUhao" :=
  ⟨((replies_paired echo_orderly disturbed "TEXTU"
    [.operation (.queryCandidates "ni" 9), .operation (.queryCandidates "hao" 9)]).1 (by decide)
      (by decide)).2, by decide +kernel⟩

end RimeWinime.ReplyPairing
