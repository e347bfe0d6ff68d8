import RimeWinime.Gateway.Backends

namespace RimeWinime.LegacyTalk

open World Worker Backends LegacyTcpRuntime

variable {N α : Type}

/-- The runtime without what it knows of its connection. -/
def offline (s : Legacy N) : LegacyTcpRuntime := resetConnection s.1

theorem onHost_steady (op : Act N α) : Steady offline (onHost op) := fun _ => rfl

theorem update_steady {f : LegacyTcpRuntime → LegacyTcpRuntime} {x : Unit → Act (Legacy N) α}
    (h : ∀ r, resetConnection (f r) = resetConnection r) (hx : ∀ a, Steady offline (x a)) :
    Steady offline (update f >>= x) := Steady.bind (fun s => h s.1) hx

variable (host : LegacyHost N)

theorem connectIfNeeded_steady : Steady offline (connectIfNeeded host) := by
  apply Steady.bind (Steady.observe _)
  intro connected
  apply Steady.ite (Steady.pure _)
  apply Steady.andThen (onHost_steady _)
  exact fun _ => update_steady (fun _ => rfl) fun _ => Steady.pure _

theorem connectIfNeeded_connected {s : Legacy N} (hconnected : s.1.connected = true) :
    connectIfNeeded host s = (.ok (), s) := by
  simp only [connectIfNeeded, bind_run, observe_run, hconnected, reduceIte, pure_run]

theorem connectIfNeeded_opened {s : Legacy N} (hclosed : s.1.connected = false) {w : N}
    (h : host.connect s.2 = (.ok (), w)) :
    connectIfNeeded host s = (.ok (), { s.1 with connected := true, activated := false }, w) := by
  have hok : (onHost host.connect s).1 = .ok () := congrArg Prod.fst h
  simp only [connectIfNeeded, bind_run, observe_run, hclosed, Bool.false_eq_true, reduceIte]
  rw [andThen_ok hok, onHost, h]
  rfl

theorem connectIfNeeded_refused {s : Legacy N} (hclosed : s.1.connected = false) {m : String} {w : N}
    (h : host.connect s.2 = (.error m, w)) : connectIfNeeded host s = (.error m, s.1, w) := by
  have herror : (onHost host.connect s).1 = .error m := congrArg Prod.fst h
  simp only [connectIfNeeded, bind_run, observe_run, hclosed, Bool.false_eq_true, reduceIte]
  rw [andThen_error herror, onHost, h]

theorem receive_steady (command expected : String) (turns : Nat) (last : String) :
    Steady offline (receive host command expected turns last) := by
  induction turns generalizing last with
  | zero => exact Steady.pure _
  | succ turns ih =>
      apply Steady.andThen (onHost_steady _)
      intro line
      cases line with
      | none => exact Steady.pure _
      | some line => exact Steady.ite (ih last) (Steady.ite (Steady.pure _) (ih line))

/-- One turn of the reader. -/
theorem receive_cases (command expected : String) (turns : Nat) (last : String) (s : Legacy N) :
    ((∃ m, (host.readLine s.2).1 = .error m) ∨ (host.readLine s.2).1 = .ok none) ∧
        (∃ m, receive host command expected (turns + 1) last s = (.error m, s.1, (host.readLine s.2).2)) ∨
      ∃ line, (host.readLine s.2).1 = .ok (some line) ∧
        ((∃ next, receive host command expected (turns + 1) last s =
            receive host command expected turns next (s.1, (host.readLine s.2).2)) ∨
          (expected = "" ∨ line.startsWith expected = true) ∧
            receive host command expected (turns + 1) last s = (.ok line, s.1, (host.readLine s.2).2)) := by
  rcases error_or_ok (host.readLine s.2).1 with ⟨m, hm⟩ | ⟨answer, hanswer⟩
  · exact Or.inl ⟨Or.inl ⟨m, hm⟩, m, andThen_error hm⟩
  · have hrun : receive host command expected (turns + 1) last s = _ := andThen_ok hanswer
    cases answer with
    | none => exact Or.inl ⟨Or.inr hanswer, _, hrun⟩
    | some line =>
        refine Or.inr ⟨line, hanswer, ?_⟩
        rw [hrun]
        by_cases hskip : line = "" ∨ line.startsWith "HELLO " = true
        · simp only [hskip, reduceIte]
          exact Or.inl ⟨last, rfl⟩
        · by_cases hmatch : expected = "" ∨ line.startsWith expected = true
          · simp only [hskip, hmatch, reduceIte]
            exact Or.inr ⟨trivial, rfl⟩
          · simp only [hskip, hmatch, reduceIte]
            exact Or.inl ⟨line, rfl⟩

theorem receive_skips (command expected : String) (turns : Nat) (last : String) {s : Legacy N}
    {line : String} {w : N} (h : host.readLine s.2 = (.ok (some line), w))
    (hskip : line = "" ∨ line.startsWith "HELLO " = true) :
    receive host command expected (turns + 1) last s =
      receive host command expected turns last (s.1, w) := by
  have hok : (onHost host.readLine s).1 = .ok (some line) := congrArg Prod.fst h
  rw [receive, andThen_ok hok, onHost, h]
  simp only [hskip, reduceIte]

theorem receive_returns (command : String) {expected : String} (turns : Nat) (last : String)
    {s : Legacy N} {line : String} {w : N} (h : host.readLine s.2 = (.ok (some line), w))
    (hskip : ¬(line = "" ∨ line.startsWith "HELLO " = true)) (hmatch : line.startsWith expected = true) :
    receive host command expected (turns + 1) last s = (.ok line, s.1, w) := by
  have hok : (onHost host.readLine s).1 = .ok (some line) := congrArg Prod.fst h
  rw [receive, andThen_ok hok, onHost, h]
  simp only [hskip, hmatch, or_true, reduceIte, pure_run]

theorem sendCommandRaw_written {command : String} (expected : String) {s : Legacy N}
    (hconnected : s.1.connected = true) {w : N} (h : host.writeLine command s.2 = (.ok (), w)) :
    sendCommandRaw host command expected s = receive host command expected 16 "" (s.1, w) := by
  have hok : (onHost (host.writeLine command) s).1 = .ok () := congrArg Prod.fst h
  simp only [sendCommandRaw, bind_run, observe_run, hconnected, reduceIte]
  rw [andThen_ok hok, onHost, h]

theorem sendCommandRaw_failed {command : String} (expected : String) {s : Legacy N}
    (hconnected : s.1.connected = true) {m : String} {w : N}
    (h : host.writeLine command s.2 = (.error m, w)) :
    sendCommandRaw host command expected s = (.error m, s.1, w) := by
  have herror : (onHost (host.writeLine command) s).1 = .error m := congrArg Prod.fst h
  simp only [sendCommandRaw, bind_run, observe_run, hconnected, reduceIte]
  rw [andThen_error herror, onHost, h]

theorem sendCommandRaw_steady (command expected : String) :
    Steady offline (sendCommandRaw host command expected) := by
  apply Steady.bind (Steady.observe _)
  intro connected
  refine Steady.ite ?_ (Steady.pure _)
  exact (onHost_steady _).andThen fun _ => receive_steady host command expected 16 ""

theorem ensureReady_steady : Steady offline (ensureReady host) := by
  apply (connectIfNeeded_steady host).andThen
  intro _
  apply Steady.bind (Steady.observe _)
  intro activated
  apply Steady.ite (Steady.pure _)
  apply (sendCommandRaw_steady host _ _).andThen
  intro _
  apply Steady.bind (Steady.observe _)
  intro codepage
  apply (sendCommandRaw_steady host _ _).andThen
  exact fun _ => update_steady (fun _ => rfl) fun _ => Steady.pure _

theorem ensureReady_set {s : Legacy N} (hconnected : s.1.connected = true)
    (hactivated : s.1.activated = true) : ensureReady host s = (.ok (), s) := by
  have hconnect := connectIfNeeded_connected host hconnected
  rw [ensureReady, andThen_ok (congrArg Prod.fst hconnect), hconnect]
  simp only [bind_run, observe_run, hactivated, reduceIte, pure_run]

theorem sendAttempts_steady (command expected : String) (turns : Nat) (lastError : String) :
    Steady offline (sendAttempts host command expected turns lastError) := by
  induction turns generalizing lastError with
  | zero => exact Steady.pure _
  | succ turns ih =>
      apply (ensureReady_steady host).bind
      intro ready
      cases ready with
      | error e => exact update_steady (fun _ => rfl) fun _ => ih e
      | ok _ =>
          apply (sendCommandRaw_steady host _ _).bind
          intro answer
          cases answer with
          | ok line => exact Steady.pure _
          | error e => exact update_steady (fun _ => rfl) fun _ => ih e

theorem queryLoop_steady (max : Nat) (commands : List String)
    (last : String × String × List Candidate) :
    Steady offline (queryLoop host max commands last) := by
  induction commands generalizing last with
  | nil => exact Steady.pure _
  | cons cmd rest ih =>
      apply Steady.bind (Steady.observe _)
      intro input
      apply Steady.andThen (sendAttempts_steady host _ _ _ _)
      intro line
      cases parseCandidateReply line max with
      | error e => exact Steady.pure _
      | ok parsed => exact Steady.ite (Steady.pure _) (ih _)

theorem resetRemote_steady : Steady offline (resetRemote host) := by
  apply (ensureReady_steady host).bind
  intro ready
  cases ready with
  | ok _ => exact (sendAttempts_steady host _ _ _ _).bind fun _ => Steady.pure _
  | error _ => exact Steady.pure _

/-- What a query of the host can do to the runtime: nothing when it fails, and
otherwise it shows another composition, reading and list. -/
theorem queryRemoteUpdate_cases (max : Nat) (s : Legacy N) :
    (∃ e, (queryRemoteUpdate host max s).1 = .error e ∧
        offline (queryRemoteUpdate host max s).2 = offline s) ∨
      (queryRemoteUpdate host max s).1 = .ok () ∧
        ∃ composition reading candidates, offline (queryRemoteUpdate host max s).2 =
          { offline s with composition := composition, reading := reading, candidates := candidates } := by
  by_cases hempty : s.1.input = ""
  · have hrun : queryRemoteUpdate host max s =
        (.ok (), { s.1 with composition := "", reading := "", candidates := [] }, s.2) := by
      simp only [queryRemoteUpdate, bind_run, observe_run, hempty, reduceIte, update, change_run,
        pure_run]
    rw [hrun]
    exact Or.inr ⟨rfl, "", "", [], rfl⟩
  · have hloop := queryLoop_steady host max ([s.1.command, "CAND", "KEYTEXTU", "TEXTU"].destutter (· ≠ ·))
      (s.1.input, s.1.input, []) s
    simp only [queryRemoteUpdate, bind_run, observe_run, hempty, reduceIte, andThen]
    cases hlast : (queryLoop host max ([s.1.command, "CAND", "KEYTEXTU", "TEXTU"].destutter (· ≠ ·))
        (s.1.input, s.1.input, []) s).1 with
    | error e => exact Or.inl ⟨e, rfl, hloop⟩
    | ok last =>
        refine Or.inr ⟨rfl, last.1, last.2.1, last.2.2, ?_⟩
        rw [← hloop]
        rfl

/-- A key event or a query: the counter moves, the input may change, and the host
is asked. -/
def candidateRequest (f : LegacyTcpRuntime → LegacyTcpRuntime) (max : Nat) :
    Act (Legacy N) (Except String BackendResult) := do
  update bump
  update f
  andThen (queryRemoteUpdate host max) fun _ => do
    let r ← observe (·.1)
    pure (.ok (r.result max))

theorem candidateRequest_left (f : LegacyTcpRuntime → LegacyTcpRuntime) (max : Nat) (s : Legacy N) :
    (candidateRequest host f max s).2 = (queryRemoteUpdate host max (f s.1.bump, s.2)).2 := by
  simp only [candidateRequest, bind_run, LegacyTcpRuntime.update, change_run]
  rcases error_or_ok (queryRemoteUpdate host max (f s.1.bump, s.2)).1 with ⟨e, he⟩ | ⟨⟨⟩, hok⟩
  · rw [andThen_error he]
  · rw [andThen_ok hok]
    rfl

/-- A query of the host leaves the input as it is, and how it is queried. -/
theorem queryRemoteUpdate_keeps (max : Nat) (s : Legacy N) :
    (queryRemoteUpdate host max s).2.1.input = s.1.input ∧
      (queryRemoteUpdate host max s).2.1.command = s.1.command := by
  change (offline (queryRemoteUpdate host max s).2).input = (offline s).input ∧
    (offline (queryRemoteUpdate host max s).2).command = (offline s).command
  rcases queryRemoteUpdate_cases host max s with ⟨e, -, hsame⟩ | ⟨-, composition, reading, candidates, hshown⟩
  · rw [hsame]
    exact ⟨rfl, rfl⟩
  · rw [hshown]
    exact ⟨rfl, rfl⟩

def keyed (keyEvent : BackendKeyEvent) (input : String) : String :=
  if keyEvent.keyDown then WorkerRuntime.typeKey input keyEvent.virtualKey else input

def asked (inputSnapshot input : String) : String :=
  if inputSnapshot ≠ "" then inputSnapshot else input

def withInput (f : String → String) (r : LegacyTcpRuntime) : LegacyTcpRuntime :=
  { r with input := f r.input }

theorem applyKeyEvent_eq (keyEvent : BackendKeyEvent) (max : Nat) :
    applyKeyEvent host keyEvent max = candidateRequest host (withInput (keyed keyEvent)) max := by
  have hinput : (fun r : LegacyTcpRuntime =>
      if keyEvent.keyDown then { r with input := WorkerRuntime.typeKey r.input keyEvent.virtualKey }
      else r) = withInput (keyed keyEvent) := by
    funext r
    rw [withInput, keyed]
    split <;> rfl
  rw [applyKeyEvent, hinput]
  rfl

theorem queryCandidates_eq (inputSnapshot : String) (max : Nat) :
    queryCandidates host inputSnapshot max =
      candidateRequest host (withInput (asked inputSnapshot)) max := by
  have hinput : (fun r : LegacyTcpRuntime =>
      if inputSnapshot ≠ "" then { r with input := inputSnapshot } else r) =
        withInput (asked inputSnapshot) := by
    funext r
    rw [withInput, asked]
    split <;> rfl
  rw [queryCandidates, hinput]
  rfl

/-- The beginnings of the lines that answer a request. -/
def requestKinds : List String := ["CAND_RET ", "OK RESET"]

/-- The change leaves the talk with the host alone. -/
def SameTalk (f : LegacyTcpRuntime → LegacyTcpRuntime) : Prop := ∀ r,
  (f r).connected = r.connected ∧ (f r).activated = r.activated ∧ (f r).codepage = r.codepage ∧
    (f r).command = r.command

/-- Between two commands the property holds, as long as they are made of texts of
a kind. -/
structure Lasting (I : Legacy N → Prop) (text : String → Prop) : Prop where
  input : ∀ s, I s → text s.1.input
  command : ∀ s, I s → text s.1.command
  fixed : ∀ word ∈ ["", "CAND", "KEYTEXTU", "TEXTU", "RESET"], text word
  request : ∀ word input, text word → text input → text (word ++ " " ++ input)
  ready : Keeps I (fun _ => True) (ensureReady host)
  send : ∀ command expected, text command → expected ∈ requestKinds →
    Keeps I (fun _ => True) (sendCommand host command expected)
  change : ∀ f, SameTalk f → (∀ r, text r.input → text (f r).input) → ∀ s, I s → I (f s.1, s.2)

section

variable {host} {I : Legacy N → Prop} {text : String → Prop}

theorem observe_lasting {β : Type} {P : α → Prop} {f : Legacy N → β} {x : β → Act (Legacy N) α}
    (hx : ∀ b, Keeps I P (x b)) : Keeps I P (observe f >>= x) := fun s hs => hx (f s) s hs

theorem update_lasting (h : Lasting host I text) {P : α → Prop}
    {f : LegacyTcpRuntime → LegacyTcpRuntime} {x : Unit → Act (Legacy N) α} (hf : SameTalk f)
    (hinput : ∀ r, text r.input → text (f r).input) (hx : Keeps I P (x ())) :
    Keeps I P (update f >>= x) := fun s hs => hx _ (h.change f hf hinput s hs)

theorem queryLoop_lasting (h : Lasting host I text) (max : Nat) {commands : List String}
    (hcommands : ∀ word ∈ commands, text word) (last : String × String × List Candidate) :
    Keeps I (fun _ => True) (queryLoop host max commands last) := by
  induction commands generalizing last with
  | nil => exact Keeps.pure trivial
  | cons cmd rest ih =>
      have hone := hcommands cmd List.mem_cons_self
      have hrest : ∀ word ∈ rest, text word := fun word hword => hcommands word (List.mem_cons_of_mem _ hword)
      refine Keeps.bind (P := text) (Keeps.observe h.input) fun input hinput => ?_
      apply (h.send _ _ (h.request _ _ hone hinput) List.mem_cons_self).andThen
      intro line
      cases parseCandidateReply line max with
      | error e => exact Keeps.pure trivial
      | ok parsed => exact Keeps.ite (fun _ => Keeps.pure trivial) fun _ => ih hrest _

theorem queryRemoteUpdate_lasting (h : Lasting host I text) (max : Nat) :
    Keeps I (fun _ => True) (queryRemoteUpdate host max) := by
  apply observe_lasting
  intro input
  apply Keeps.ite
  · exact fun _ => update_lasting h (fun _ => ⟨rfl, rfl, rfl, rfl⟩) (fun _ hr => hr) (Keeps.pure trivial)
  · intro _
    refine Keeps.bind (P := text) (Keeps.observe h.command) fun command hcommand => ?_
    refine (queryLoop_lasting h max (fun word hword => ?_) _).andThen fun last => ?_
    · rcases List.mem_cons.mp ((List.destutter_sublist _ _).subset hword) with rfl | hword
      · exact hcommand
      · have hfixed : ∀ word ∈ ["CAND", "KEYTEXTU", "TEXTU"],
            word ∈ ["", "CAND", "KEYTEXTU", "TEXTU", "RESET"] := by decide
        exact h.fixed word (hfixed word hword)
    · exact update_lasting h (fun _ => ⟨rfl, rfl, rfl, rfl⟩) (fun _ hr => hr) (Keeps.pure trivial)

theorem resetRemote_lasting (h : Lasting host I text) : Keeps I (fun _ => True) (resetRemote host) := by
  apply h.ready.bind
  intro ready _
  cases ready with
  | error e => exact Keeps.pure trivial
  | ok _ =>
      have hreset := h.send "RESET" "OK RESET" (h.fixed _ (by decide)) (by decide)
      exact hreset.bind fun _ _ => Keeps.pure trivial

theorem resetForNewSession_lasting (h : Lasting host I text) :
    Keeps I (fun _ => True) (resetForNewSession host) := by
  refine update_lasting h (fun _ => ⟨rfl, rfl, rfl, rfl⟩) (fun _ hr => hr) ?_
  refine update_lasting h (fun _ => ⟨rfl, rfl, rfl, rfl⟩) (fun _ _ => h.fixed "" (by decide)) ?_
  exact (resetRemote_lasting h).bind fun _ _ => Keeps.observe fun _ _ => trivial

theorem commitSelection_lasting (h : Lasting host I text) (committedText : String) (index : Nat) :
    Keeps I (fun _ => True) (commitSelection host committedText index) := by
  apply observe_lasting
  intro candidates
  apply Keeps.ite
  · exact fun _ => Keeps.pure trivial
  · intro _
    refine update_lasting h (fun _ => ⟨rfl, rfl, rfl, rfl⟩) (fun _ hr => hr) ?_
    refine update_lasting h (fun _ => ⟨rfl, rfl, rfl, rfl⟩) (fun _ _ => h.fixed "" (by decide)) ?_
    apply (resetRemote_lasting h).bind
    exact fun _ _ => observe_lasting fun _ => Keeps.pure trivial

theorem candidateRequest_lasting (h : Lasting host I text) {f : String → String}
    (hf : ∀ input, text input → text (f input)) (max : Nat) :
    Keeps I (fun _ => True) (candidateRequest host (withInput f) max) := by
  refine update_lasting h (fun _ => ⟨rfl, rfl, rfl, rfl⟩) (fun _ hr => hr) ?_
  refine update_lasting h (fun _ => ⟨rfl, rfl, rfl, rfl⟩) (fun r => hf r.input) ?_
  apply (queryRemoteUpdate_lasting h max).andThen
  exact fun _ => observe_lasting fun _ => Keeps.pure trivial

end

structure HostKeeps (K : N → Prop) : Prop where
  connect : ∀ w, K w → K (host.connect w).2
  writeLine : ∀ command w, K w → K (host.writeLine command w).2
  readLine : ∀ w, K w → K (host.readLine w).2

section

variable {host} {K : N → Prop}

theorem onHost_kept {op : Act N α} (h : ∀ w, K w → K (op w).2) :
    Keeps (fun s : Legacy N => K s.2) (fun _ => True) (onHost op) := fun s hs => ⟨trivial, h s.2 hs⟩

theorem update_kept {f : LegacyTcpRuntime → LegacyTcpRuntime} {x : Unit → Act (Legacy N) α}
    (hx : Keeps (fun s : Legacy N => K s.2) (fun _ => True) (x ())) :
    Keeps (fun s : Legacy N => K s.2) (fun _ => True) (update f >>= x) := fun _ hs => hx _ hs

theorem connectIfNeeded_kept (h : HostKeeps host K) :
    Keeps (fun s : Legacy N => K s.2) (fun _ => True) (connectIfNeeded host) := by
  apply observe_lasting
  intro connected
  apply Keeps.ite (fun _ => Keeps.pure trivial)
  intro _
  apply (onHost_kept h.connect).andThen
  exact fun _ => update_kept (Keeps.pure trivial)

theorem receive_kept (h : HostKeeps host K) (command expected : String) (turns : Nat) (last : String) :
    Keeps (fun s : Legacy N => K s.2) (fun _ => True) (receive host command expected turns last) := by
  induction turns generalizing last with
  | zero => exact Keeps.pure trivial
  | succ turns ih =>
      apply (onHost_kept h.readLine).andThen
      intro line
      cases line with
      | none => exact Keeps.pure trivial
      | some line =>
          exact Keeps.ite (fun _ => ih last) fun _ => Keeps.ite (fun _ => Keeps.pure trivial) fun _ => ih line

theorem sendCommandRaw_kept (h : HostKeeps host K) (command expected : String) :
    Keeps (fun s : Legacy N => K s.2) (fun _ => True) (sendCommandRaw host command expected) := by
  apply observe_lasting
  intro connected
  refine Keeps.ite (fun _ => ?_) fun _ => Keeps.pure trivial
  exact (onHost_kept (h.writeLine command)).andThen fun _ => receive_kept h command expected 16 ""

theorem ensureReady_kept (h : HostKeeps host K) :
    Keeps (fun s : Legacy N => K s.2) (fun _ => True) (ensureReady host) := by
  apply (connectIfNeeded_kept h).andThen
  intro _
  apply observe_lasting
  intro activated
  apply Keeps.ite (fun _ => Keeps.pure trivial)
  intro _
  apply (sendCommandRaw_kept h _ _).andThen
  intro _
  apply observe_lasting
  intro codepage
  apply (sendCommandRaw_kept h _ _).andThen
  exact fun _ => update_kept (Keeps.pure trivial)

theorem sendAttempts_kept (h : HostKeeps host K) (command expected : String) (turns : Nat)
    (lastError : String) :
    Keeps (fun s : Legacy N => K s.2) (fun _ => True)
      (sendAttempts host command expected turns lastError) := by
  induction turns generalizing lastError with
  | zero => exact Keeps.pure trivial
  | succ turns ih =>
      apply (ensureReady_kept h).bind
      intro ready _
      cases ready with
      | error e => exact update_kept (ih e)
      | ok _ =>
          apply (sendCommandRaw_kept h _ _).bind
          intro answer _
          cases answer with
          | ok line => exact Keeps.pure trivial
          | error e => exact update_kept (ih e)

theorem kept_lasting (h : HostKeeps host K) : Lasting host (fun s => K s.2) (fun _ => True) where
  input := fun _ _ => trivial
  command := fun _ _ => trivial
  fixed := fun _ _ => trivial
  request := fun _ _ _ _ => trivial
  ready := ensureReady_kept h
  send := fun command expected _ _ => sendAttempts_kept h command expected 2 "unknown error"
  change := fun _ _ _ _ hs => hs

end

end RimeWinime.LegacyTalk
