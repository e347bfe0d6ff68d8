import Mathlib.Data.List.DropRight
import RimeWinime.Lib.Lines
import RimeWinime.Lib.Memory
import RimeWinime.Lib.Run
import RimeWinime.Lib.Until

namespace RimeWinime.RxBuffer

open Lines Memory Run Until

def newline : UInt8 := 0x0A

def rxBufSize : Nat := 8192

def lineSize : Nat := 512

def tmpSize : Nat := 1024

/-- What of the host the socket touches, and the lines that `process_command` was
called with. -/
structure HostState where
  client : Bool
  running : Bool
  rxBuf : List UInt8
  rxLen : Nat
  executed : List (List UInt8)
deriving DecidableEq

/-- The bytes that one `recv` returns. -/
structure Chunk where
  bytes : List UInt8
  pos : bytes ≠ []
  fits : bytes.length ≤ tmpSize

inductive Recv
  | chunk (c : Chunk)
  | closed
  | wouldBlock
  | failed

def ascii (text : String) : List UInt8 := text.toList.map (fun c => UInt8.ofNat c.toNat)

/-- `strncmp(line, prefix, strlen(prefix)) == 0` -/
def startsWith (line : List UInt8) (text : String) : Bool := (ascii text).isPrefixOf line

def isCp (line : List UInt8) : Bool :=
  startsWith line "CP" && (line.getD 2 0 = 0 || line.getD 2 0 = 0x20 || line.getD 2 0 = 0x09)

/-- The beginnings that `process_command` asks for before it comes to `QUIT`, in
order but for `CP`. -/
def commandsBeforeQuit : List String :=
  ["PING", "STATUS", "CAND", "PREEDIT", "TRACEPIPE ", "TRACEPIPEU ", "TRACE ", "TRACEU ",
   "PAGEDOWN", "PAGEUP", "PICK ", "COMMIT", "KEYTEXT ", "KEYPIPE ", "KEYTEXTU ", "KEYPIPEU ",
   "TEXT ", "TEXTU ", "PIPE ", "PIPEU ", "CONV", "KEY ", "KEYCHORD ", "RESET", "ACTIVATE"]

def isQuit (line : List UInt8) : Bool :=
  !isCp line && !commandsBeforeQuit.any (startsWith line) && startsWith line "QUIT"

def processCommand (s : HostState) (line : List UInt8) : HostState :=
  { s with
    executed := s.executed ++ [line]
    running := if isQuit line then false else s.running }

def isTrailing (byte : UInt8) : Bool := byte = 0x0D || byte = 0x20 || byte = 0x09

/-- The line from `start` on that the newline at `i` ends, as far as it fits. -/
def copyLine (s : HostState) (start i : Nat) : Option (List UInt8) := do
  let len := i - start
  let len := if lineSize ≤ len then lineSize - 1 else len
  let line ← load s.rxBuf start len
  some (line.rdropWhile isTrailing)

/-- The loop over what has been received, with `left` bytes to go. -/
def processLines : Nat → Nat → Nat → HostState → Option (HostState × Nat)
  | 0, _, start, s => some (s, start)
  | left + 1, i, start, s => do
      let byte ← s.rxBuf[i]?
      if byte = newline then
        let line ← copyLine s start i
        processLines left (i + 1) (i + 1) (if 0 < line.length then processCommand s line else s)
      else processLines left (i + 1) start s

def processRxBuffer (s : HostState) : Option HostState := do
  let (s, start) ← processLines s.rxLen 0 0 s
  if 0 < start then
    let remain := s.rxLen - start
    if 0 < remain then
      let rest ← load s.rxBuf start remain
      let rxBuf ← store s.rxBuf 0 rest
      some { s with rxBuf := rxBuf, rxLen := remain }
    else some { s with rxLen := remain }
  else some s

def closeClient (s : HostState) : HostState := { s with client := false, rxLen := 0 }

def serviceClientIo (s : HostState) (received : Recv) : Option HostState :=
  if s.client = false then some s
  else
    match received with
    | .closed => some (closeClient s)
    | .wouldBlock => some s
    | .failed => some (closeClient s)
    | .chunk c =>
        if rxBufSize < s.rxLen + c.bytes.length then some (closeClient s)
        else do
          let rxBuf ← store s.rxBuf s.rxLen c.bytes
          processRxBuffer { s with rxBuf := rxBuf, rxLen := s.rxLen + c.bytes.length }

def turn (s : HostState) (received : Recv) : Option HostState :=
  if s.running then serviceClientIo s received else some s

def serve (s : Option HostState) (events : List Recv) : Option HostState :=
  run (fun s e => s.bind (turn · e)) s events

/-- The host has just accepted the client; what lies in its buffer does not matter. -/
def accepted (stale : List UInt8) : HostState :=
  { client := true, running := true, rxBuf := stale, rxLen := 0, executed := [] }

def Recv.stays : Recv → Prop
  | .chunk _ | .wouldBlock => True
  | .closed | .failed => False

def Recv.bytes : Recv → List UInt8
  | .chunk c => c.bytes
  | .closed | .wouldBlock | .failed => []

def received (events : List Recv) : List UInt8 := events.flatMap Recv.bytes

def commandsOf (lines : List (List UInt8)) : List (List UInt8) :=
  (lines.map (·.rdropWhile isTrailing)).filter (fun line => 0 < line.length)

def commandsAfter (carry bytes : List UInt8) : List (List UInt8) :=
  commandsOf (cut newline carry bytes).1

def commands (stream : List UInt8) : List (List UInt8) := commandsAfter [] stream

/-- A host that has not quit yet gets no command in one chunk with a `QUIT` and after
it. -/
def QuitLast (events : List Recv) : Prop :=
  ∀ past c later, events = past ++ .chunk c :: later →
    (commands (received past)).any isQuit = false →
    (commandsAfter (openLine newline (received past)) c.bytes).dropLast.any isQuit = false

def Holds (s : HostState) (window : List UInt8) : Prop :=
  s.rxBuf.length = rxBufSize ∧ s.rxLen = window.length ∧ window <+: s.rxBuf

/-- The host goes on as the stream says: it keeps the line that is open. -/
def Keeps (s : HostState) (stream : List UInt8) : Prop :=
  s.client = true ∧ (s.running = true → Holds s (openLine newline stream))

/-- No access goes outside the buffer, the client is not turned away, nothing of an
open line is lost, and what is executed are the commands of the stream up to the
first `QUIT`. -/
def Framed (stale : List UInt8) (events : List Recv) : Prop :=
  ∃ s, serve (some (accepted stale)) events = some s ∧ Keeps s (received events) ∧
    s.executed = upTo isQuit (commands (received events))

theorem isQuit_eq (line : List UInt8) : isQuit line = startsWith line "QUIT" := by
  cases h : startsWith line "QUIT" with
  | false => simp [isQuit, h]
  | true =>
      obtain ⟨rest, rfl⟩ := List.isPrefixOf_iff_prefix.mp h
      have hothers : commandsBeforeQuit.all (fun text => !startsWith (ascii "QUIT" ++ rest) text) = true :=
        rfl
      rw [isQuit, h, List.any_eq_not_all_not, hothers]
      rfl

def execute (s : HostState) (lines : List (List UInt8)) : HostState := lines.foldl processCommand s

theorem execute_eq (s : HostState) (lines : List (List UInt8)) :
    execute s lines =
      { s with
        executed := s.executed ++ lines
        running := s.running && !lines.any isQuit } := by
  induction lines generalizing s with
  | nil => simp [execute]
  | cons line lines ih =>
      rw [execute, List.foldl_cons, ← execute, ih]
      cases hquit : isQuit line <;> simp [processCommand, hquit]

theorem execute_append (s : HostState) (a b : List (List UInt8)) :
    execute s (a ++ b) = execute (execute s a) b := List.foldl_append

theorem execute_line (s : HostState) (line : List UInt8) :
    (if 0 < line.length then processCommand s line else s) =
      execute s (if 0 < line.length then [line] else []) := by
  by_cases h : 0 < line.length
  · simp [h, execute]
  · simp [h, execute]

theorem commandsOf_cons (line : List UInt8) (lines : List (List UInt8)) :
    commandsOf (line :: lines) =
      (if 0 < (line.rdropWhile isTrailing).length then [line.rdropWhile isTrailing] else []) ++
        commandsOf lines := by
  rw [commandsOf, List.map_cons, List.filter_cons, ← commandsOf]
  by_cases h : 0 < (line.rdropWhile isTrailing).length
  · simp [h]
  · simp [h]

theorem commands_append (a b : List UInt8) :
    commands (a ++ b) = commands a ++ commandsAfter (openLine newline a) b := by
  rw [commands, commandsAfter, cut_append]
  simp [commands, commandsAfter, commandsOf, openLine]

theorem copyLine_spec {s : HostState} {done carry after : List UInt8}
    (hbuf : s.rxBuf = done ++ (carry ++ after)) (hshort : carry.length < lineSize) :
    copyLine s done.length (done.length + carry.length) = some (carry.rdropWhile isTrailing) := by
  have hlen : done.length + carry.length - done.length = carry.length := by omega
  have hload : load s.rxBuf done.length carry.length = some carry := by
    rw [hbuf]
    exact load_append done carry after
  simp [copyLine, hlen, Nat.not_le.mpr hshort, hload]

theorem processLines_spec (todo : List UInt8) : ∀ {s : HostState} {done carry stale : List UInt8},
    s.rxBuf = done ++ (carry ++ (todo ++ stale)) →
    (∀ line ∈ (cut newline carry todo).1, line.length < lineSize) →
    ∃ past : List UInt8, s.rxBuf = past ++ ((cut newline carry todo).2 ++ stale) ∧
      processLines todo.length (done.length + carry.length) done.length s =
        some (execute s (commandsAfter carry todo), past.length) := by
  induction todo with
  | nil =>
      intro s done carry stale hbuf _
      exact ⟨done, hbuf, rfl⟩
  | cons byte todo ih =>
      intro s done carry stale hbuf hshort
      have hread : s.rxBuf[done.length + carry.length]? = some byte := by
        rw [hbuf, ← List.append_assoc, ← List.length_append,
          List.getElem?_append_right (Nat.le_refl _)]
        simp
      rw [List.length_cons, processLines, hread]
      by_cases hbyte : byte = newline
      · subst hbyte
        have hcarry : carry.length < lineSize := hshort carry (by simp [cut_newline])
        have hline := copyLine_spec hbuf hcarry
        let line := carry.rdropWhile isTrailing
        let s' := if 0 < line.length then processCommand s line else s
        have hs' : s' = execute s (if 0 < line.length then [line] else []) := execute_line s line
        have hbuf' : s'.rxBuf = (done ++ carry ++ [newline]) ++ ([] ++ (todo ++ stale)) := by
          rw [hs', execute_eq, hbuf]
          simp
        obtain ⟨past, hpast, hrun⟩ := ih hbuf' (fun l hl => hshort l (by simp [cut_newline, hl]))
        refine ⟨past, ?_, ?_⟩
        · rw [cut_newline, ← hpast, hs', execute_eq]
        · have hstart : (done ++ carry ++ [newline]).length = done.length + carry.length + 1 := by
            simp only [List.length_append, List.length_singleton]
          rw [hstart, List.length_nil, Nat.add_zero] at hrun
          simp only [Option.bind_eq_bind, Option.bind_some, if_pos, hline]
          rw [hrun, hs', ← execute_append, commandsAfter, commandsAfter, cut_newline, commandsOf_cons]
      · have hbuf' : s.rxBuf = done ++ ((carry ++ [byte]) ++ (todo ++ stale)) := by
          rw [hbuf]
          simp
        rw [cut_of_ne hbyte] at hshort ⊢
        obtain ⟨past, hpast, hrun⟩ := ih hbuf' hshort
        refine ⟨past, hpast, ?_⟩
        rw [List.length_append, List.length_singleton, ← Nat.add_assoc] at hrun
        simp only [Option.bind_eq_bind, Option.bind_some, if_neg hbyte]
        rw [hrun, commandsAfter, commandsAfter, cut_of_ne hbyte]

theorem processRxBuffer_spec {s : HostState} {window : List UInt8} (hholds : Holds s window)
    (hshort : ∀ line ∈ complete newline window, line.length < lineSize) :
    ∃ rxBuf, processRxBuffer s =
        some { execute s (commands window) with
          rxBuf := rxBuf, rxLen := (openLine newline window).length } ∧
      rxBuf.length = rxBufSize ∧ openLine newline window <+: rxBuf := by
  obtain ⟨hsize, hlen, stale, hbuf⟩ := hholds
  have hstart : s.rxBuf = [] ++ ([] ++ (window ++ stale)) := hbuf.symm
  obtain ⟨past, hpast, hrun⟩ := processLines_spec window hstart hshort
  change s.rxBuf = past ++ (openLine newline window ++ stale) at hpast
  have hloop : processLines s.rxLen 0 0 s = some (execute s (commands window), past.length) := by
    rw [hlen]
    exact hrun
  have hremain : s.rxLen - past.length = (openLine newline window).length := by
    have hboth := congrArg List.length (hbuf.trans hpast)
    simp only [List.length_append] at hboth
    omega
  have hsame : (execute s (commands window)).rxLen = s.rxLen ∧
      (execute s (commands window)).rxBuf = s.rxBuf := by
    rw [execute_eq]
    exact ⟨rfl, rfl⟩
  rw [processRxBuffer, hloop]
  simp only [Option.bind_eq_bind, Option.bind_some, hsame, hremain]
  by_cases hstart : 0 < past.length
  · by_cases hopen : 0 < (openLine newline window).length
    · have hload : load s.rxBuf past.length (openLine newline window).length =
          some (openLine newline window) := by
        rw [hpast]
        exact load_append past _ stale
      have hroom : 0 + (openLine newline window).length ≤ s.rxBuf.length := by
        rw [hpast]
        simp only [List.length_append]
        omega
      obtain ⟨after, hstore, hafter⟩ := store_of_le hroom
      refine ⟨openLine newline window ++ after, ?_, ?_, List.prefix_append _ _⟩
      · simp only [if_pos hstart, if_pos hopen, hload, hstore, Option.bind_some, List.take_zero,
          List.nil_append]
      · rw [List.take_zero, List.nil_append] at hafter
        rw [hafter, hsize]
    · have hnil : openLine newline window = [] := List.length_eq_zero_iff.mp (by omega)
      refine ⟨s.rxBuf, ?_, hsize, by rw [hnil]; exact List.nil_prefix⟩
      simp only [if_pos hstart, if_neg hopen, ← hsame.2]
  · have hnil : past = [] := List.length_eq_zero_iff.mp (by omega)
    have hwhole : s.rxLen = (openLine newline window).length := by
      rw [hnil] at hremain
      exact hremain
    refine ⟨s.rxBuf, ?_, hsize, ?_⟩
    · rw [if_neg hstart, ← hwhole, ← hsame.1, ← hsame.2]
    · rw [hpast, hnil]
      exact List.prefix_append _ _

theorem commands_open (stream bytes : List UInt8) :
    commands (openLine newline stream ++ bytes) = commandsAfter (openLine newline stream) bytes := by
  have hnone : cut newline [] (openLine newline stream) = ([], openLine newline stream) :=
    cut_of_not_mem (not_mem_openLine stream) []
  rw [commands, commandsAfter, commandsAfter, cut_append, hnone]
  rfl

theorem serviceClientIo_chunk {s : HostState} {stream : List UInt8} (hclient : s.client = true)
    (hholds : Holds s (openLine newline stream)) (c : Chunk)
    (hshort : Shorter newline lineSize (stream ++ c.bytes)) :
    ∃ s', serviceClientIo s (.chunk c) = some s' ∧ s'.client = true ∧
      Holds s' (openLine newline (stream ++ c.bytes)) ∧
      s'.executed = s.executed ++ commandsAfter (openLine newline stream) c.bytes ∧
      s'.running = (s.running && !(commandsAfter (openLine newline stream) c.bytes).any isQuit) := by
  obtain ⟨hsize, hlen, stale, hbuf⟩ := hholds
  have hopen : (openLine newline stream).length < lineSize :=
    hshort.of_append _ (List.mem_append_right _ List.mem_cons_self)
  have hroom : s.rxLen + c.bytes.length ≤ rxBufSize := by
    have hfits : c.bytes.length ≤ 1024 := c.fits
    have hline : (openLine newline stream).length < 512 := hopen
    rw [hlen, rxBufSize]
    omega
  have hfit : s.rxLen + c.bytes.length ≤ s.rxBuf.length := by rwa [hsize]
  obtain ⟨after, hstore, hafter⟩ := store_of_le hfit
  have htake : s.rxBuf.take s.rxLen = openLine newline stream := by
    rw [← hbuf, hlen, List.take_left]
  rw [htake] at hstore hafter
  let filled : HostState :=
    { s with
      rxBuf := openLine newline stream ++ (c.bytes ++ after)
      rxLen := s.rxLen + c.bytes.length }
  have hwindow : Holds filled (openLine newline stream ++ c.bytes) := by
    refine ⟨hafter.trans hsize, ?_, after, List.append_assoc ..⟩
    rw [List.length_append, ← hlen]
  have hlines : ∀ line ∈ complete newline (openLine newline stream ++ c.bytes),
      line.length < lineSize := by
    intro line hline
    apply hshort
    have hmem : line ∈ (cut newline (openLine newline stream) c.bytes).1 := by
      rwa [complete, cut_append, cut_of_not_mem (not_mem_openLine stream) []] at hline
    rw [complete_append, List.append_assoc]
    exact List.mem_append_right _ (List.mem_append_left _ hmem)
  obtain ⟨rxBuf, hprocess, hsize', hprefix⟩ := processRxBuffer_spec hwindow hlines
  have hleft : openLine newline (openLine newline stream ++ c.bytes) =
      openLine newline (stream ++ c.bytes) := by
    rw [openLine, cut_append, cut_of_not_mem (not_mem_openLine stream) [], openLine_append]
    rfl
  rw [execute_eq, commands_open, hleft] at hprocess
  rw [hleft] at hprefix
  have hserve : serviceClientIo s (.chunk c) = processRxBuffer filled := by
    rw [serviceClientIo, if_neg (by rw [hclient]; exact Bool.noConfusion)]
    simp only [if_neg (Nat.not_lt.mpr hroom), hstore, Option.bind_eq_bind, Option.bind_some]
    rfl
  exact ⟨_, hserve.trans hprocess, hclient, ⟨hsize', rfl, hprefix⟩, rfl, rfl⟩

theorem received_append (a b : List Recv) : received (a ++ b) = received a ++ received b :=
  List.flatMap_append

theorem received_singleton (e : Recv) : received [e] = e.bytes := List.flatMap_singleton ..

theorem any_commands_append (a b : List UInt8) :
    (commands (a ++ b)).any isQuit =
      ((commands a).any isQuit || (commandsAfter (openLine newline a) b).any isQuit) := by
  rw [commands_append, List.any_append]

theorem any_dropLast {lines : List (List UInt8)} (h : lines.any isQuit = false) :
    lines.dropLast.any isQuit = false := by
  rw [List.any_eq_false] at h ⊢
  intro line hline
  exact h line (List.dropLast_subset lines hline)

theorem any_dropLast_nil (carry : List UInt8) :
    (commandsAfter carry []).dropLast.any isQuit = false := rfl

theorem quitLast_of_none {events : List Recv}
    (h : (commands (received events)).any isQuit = false) : QuitLast events := by
  rintro past c later rfl hpast
  rw [List.append_cons, received_append, any_commands_append, received_append,
    any_commands_append, received_singleton, Bool.or_eq_false_iff, Bool.or_eq_false_iff] at h
  exact any_dropLast h.1.2

theorem quitLast_append_singleton (past : List Recv) (e : Recv) :
    QuitLast (past ++ [e]) ↔ QuitLast past ∧
      ((commands (received past)).any isQuit = false →
        (commandsAfter (openLine newline (received past)) e.bytes).dropLast.any isQuit = false) := by
  constructor
  · intro h
    constructor
    · rintro before c later rfl hbefore
      exact h before c (later ++ [e]) (by simp) hbefore
    · intro hpast
      cases e with
      | chunk c => exact h past c [] rfl hpast
      | closed | wouldBlock | failed => exact any_dropLast_nil _
  · rintro ⟨hpast, hlast⟩ before c later heq hbefore
    rcases List.eq_nil_or_concat later with rfl | ⟨later, e', rfl⟩
    · obtain ⟨rfl, he⟩ := List.append_inj' heq rfl
      obtain rfl := List.singleton_inj.mp he
      exact hlast hbefore
    · rw [List.concat_eq_append, ← List.cons_append, ← List.append_assoc] at heq
      obtain ⟨hevents, -⟩ := List.append_inj' heq rfl
      exact hpast before c later hevents hbefore

/-- The host after these events. Once a `QUIT` has been read it stays as it is. -/
structure Follows (past : List Recv) (s : HostState) : Prop where
  client : s.client = true
  running : s.running = !(commands (received past)).any isQuit
  holds : s.running = true → Holds s (openLine newline (received past))
  executed : s.running = true → s.executed = commands (received past)
  upToQuit : s.executed = upTo isQuit (commands (received past)) ↔ QuitLast past

theorem follows_start {stale : List UInt8} (h : stale.length = rxBufSize) :
    Follows [] (accepted stale) := by
  refine ⟨rfl, rfl, fun _ => ⟨h, rfl, List.nil_prefix⟩, fun _ => rfl, ?_⟩
  exact iff_of_true rfl (quitLast_of_none rfl)

theorem follows_idle {past : List Recv} {s : HostState} (h : Follows past s) :
    Follows (past ++ [.wouldBlock]) s := by
  have hsame : received (past ++ [.wouldBlock]) = received past := by
    rw [received_append, received_singleton]
    exact List.append_nil _
  refine ⟨h.client, by rw [hsame]; exact h.running, by rw [hsame]; exact h.holds,
    by rw [hsame]; exact h.executed, ?_⟩
  rw [hsame, quitLast_append_singleton, h.upToQuit]
  exact ⟨fun hlast => ⟨hlast, fun _ => any_dropLast_nil _⟩, And.left⟩

theorem follows_quit {past : List Recv} {s : HostState} (h : Follows past s)
    (hquit : (commands (received past)).any isQuit = true) (e : Recv) :
    Follows (past ++ [e]) s := by
  have hstopped : s.running = false := by rw [h.running, hquit]; rfl
  have hstill : (commands (received (past ++ [e]))).any isQuit = true := by
    rw [received_append, any_commands_append, hquit, Bool.true_or]
  refine ⟨h.client, by rw [hstill, hstopped]; rfl, ?_, ?_, ?_⟩
  · exact fun hrun => Bool.noConfusion (hstopped.symm.trans hrun)
  · exact fun hrun => Bool.noConfusion (hstopped.symm.trans hrun)
  · rw [received_append, commands_append, upTo_append_of_any hquit, h.upToQuit,
      quitLast_append_singleton]
    exact ⟨fun hlast => ⟨hlast, fun hnone => Bool.noConfusion (hquit.symm.trans hnone)⟩, And.left⟩

theorem follows_chunk {past : List Recv} {s : HostState} (h : Follows past s)
    (hnone : (commands (received past)).any isQuit = false) (c : Chunk)
    (hshort : Shorter newline lineSize (received (past ++ [.chunk c]))) :
    ∃ s', serviceClientIo s (.chunk c) = some s' ∧ Follows (past ++ [.chunk c]) s' := by
  have hrun : s.running = true := by rw [h.running, hnone]; rfl
  have hreceived : received (past ++ [.chunk c]) = received past ++ c.bytes := by
    rw [received_append, received_singleton]
    rfl
  rw [hreceived] at hshort
  obtain ⟨s', hserve, hclient, hholds, hexecuted, hrunning⟩ :=
    serviceClientIo_chunk h.client (h.holds hrun) c hshort
  rw [h.executed hrun] at hexecuted
  refine ⟨s', hserve, hclient, ?_, fun _ => by rw [hreceived]; exact hholds,
    fun _ => by rw [hreceived, commands_append, hexecuted], ?_⟩
  · rw [hrunning, hrun, hreceived, any_commands_append, hnone, Bool.true_and, Bool.false_or]
  · rw [hreceived, commands_append, upTo_append_of_none hnone, hexecuted, List.append_cancel_left_eq,
      eq_comm, upTo_eq_self, quitLast_append_singleton]
    exact ⟨fun hlast => ⟨quitLast_of_none hnone, fun _ => hlast⟩, fun hlast => hlast.2 hnone⟩

theorem follows_turn {past : List Recv} {s : HostState} (h : Follows past s) {e : Recv}
    (hstays : e.stays) (hshort : Shorter newline lineSize (received (past ++ [e]))) :
    ∃ s', turn s e = some s' ∧ Follows (past ++ [e]) s' := by
  cases hquit : (commands (received past)).any isQuit with
  | true =>
      refine ⟨s, ?_, follows_quit h hquit e⟩
      rw [turn, h.running, hquit]
      rfl
  | false =>
      have hturn : turn s e = serviceClientIo s e := by
        rw [turn, h.running, hquit]
        rfl
      rw [hturn]
      cases e with
      | chunk c => exact follows_chunk h hquit c hshort
      | wouldBlock =>
          refine ⟨s, ?_, follows_idle h⟩
          rw [serviceClientIo, if_neg (by rw [h.client]; exact Bool.noConfusion)]
      | closed => exact hstays.elim
      | failed => exact hstays.elim

theorem follows_serve {stale : List UInt8} (hstale : stale.length = rxBufSize) {events : List Recv}
    (hstays : ∀ e ∈ events, e.stays) (hshort : Shorter newline lineSize (received events)) :
    ∃ s, serve (some (accepted stale)) events = some s ∧ Follows events s := by
  induction events using List.reverseRecOn with
  | nil => exact ⟨accepted stale, rfl, follows_start hstale⟩
  | append_singleton past e ih =>
      have hpast : ∀ e ∈ past, e.stays := fun e he => hstays e (List.mem_append_left _ he)
      have hearlier : Shorter newline lineSize (received past) := by
        rw [received_append] at hshort
        exact hshort.of_append
      obtain ⟨s, hserve, hfollows⟩ := ih hpast hearlier
      obtain ⟨s', hturn, hfollows'⟩ := follows_turn hfollows (hstays e (by simp)) hshort
      refine ⟨s', ?_, hfollows'⟩
      have hstep : serve (some (accepted stale)) (past ++ [e]) =
          (serve (some (accepted stale)) past).bind (turn · e) := run_append _ past [e]
      rw [hstep, hserve]
      exact hturn

theorem received_accounted {stale : List UInt8} (hstale : stale.length = rxBufSize)
    {events : List Recv} (hstays : ∀ e ∈ events, e.stays)
    (hshort : Shorter newline lineSize (received events))
    (hnone : (commands (received events)).any isQuit = false) :
    ∃ s, serve (some (accepted stale)) events = some s ∧
      (complete newline (received events)).flatMap (· ++ [newline]) ++ s.rxBuf.take s.rxLen =
        received events := by
  obtain ⟨s, hserve, hfollows⟩ := follows_serve hstale hstays hshort
  have hrun : s.running = true := by rw [hfollows.running, hnone]; rfl
  obtain ⟨-, hlen, hopen⟩ := hfollows.holds hrun
  have hwindow : s.rxBuf.take s.rxLen = openLine newline (received events) := by
    rw [hlen]
    exact (List.prefix_iff_eq_take.mp hopen).symm
  refine ⟨s, hserve, ?_⟩
  rw [hwindow]
  exact join_cut [] (received events)

theorem framed_iff_of_follows {stale : List UInt8} {events : List Recv} {s : HostState}
    (hserve : serve (some (accepted stale)) events = some s) (h : Follows events s) :
    Framed stale events ↔ QuitLast events := by
  rw [← h.upToQuit]
  constructor
  · rintro ⟨s', hserve', -, hexecuted⟩
    obtain rfl := Option.some.inj (hserve.symm.trans hserve')
    exact hexecuted
  · exact fun hexecuted => ⟨s, hserve, ⟨h.client, h.holds⟩, hexecuted⟩

/-- However a stream is cut, no access goes outside the buffer and no byte is lost.
The commands that are executed are those up to the first `QUIT` exactly when no chunk
brings another with it and after it. -/
theorem framed_iff_quitLast {stale : List UInt8} (hstale : stale.length = rxBufSize)
    {events : List Recv} (hstays : ∀ e ∈ events, e.stays)
    (hshort : Shorter newline lineSize (received events)) :
    (∃ s, serve (some (accepted stale)) events = some s ∧ Keeps s (received events)) ∧
      (Framed stale events ↔ QuitLast events) := by
  obtain ⟨s, hserve, hfollows⟩ := follows_serve hstale hstays hshort
  exact ⟨⟨s, hserve, hfollows.client, hfollows.holds⟩, framed_iff_of_follows hserve hfollows⟩

def cleared : List UInt8 := List.replicate rxBufSize 0

theorem length_cleared : cleared.length = rxBufSize := List.length_replicate

def brokenLine : List Recv :=
  [.chunk ⟨ascii "PING\r\nQU", List.cons_ne_nil _ _, by decide⟩,
   .chunk ⟨ascii "IT\n", List.cons_ne_nil _ _, by decide⟩]

theorem framed_broken_line : Framed cleared brokenLine := by
  apply (framed_iff_quitLast length_cleared _ _).2.mpr
  · apply (quitLast_append_singleton [_] _).mpr
    exact ⟨quitLast_of_none rfl, fun _ => rfl⟩
  · simp [brokenLine, Recv.stays]
  · decide

def quitThenPing : List Recv :=
  [.chunk ⟨ascii "QUIT\nPING\n", List.cons_ne_nil _ _, by decide⟩]

theorem quit_does_not_stop_a_chunk :
    (∀ e ∈ quitThenPing, e.stays) ∧ Shorter newline lineSize (received quitThenPing) ∧
      ¬Framed cleared quitThenPing := by
  have hstays : ∀ e ∈ quitThenPing, e.stays := by simp [quitThenPing, Recv.stays]
  have hshort : Shorter newline lineSize (received quitThenPing) := by decide
  obtain ⟨s, hserve, hfollows⟩ := follows_serve length_cleared hstays hshort
  refine ⟨hstays, hshort, fun hframed => ?_⟩
  have hlast := (framed_iff_of_follows hserve hfollows).mp hframed [] _ [] rfl rfl
  exact absurd hlast (by decide)

end RimeWinime.RxBuffer
