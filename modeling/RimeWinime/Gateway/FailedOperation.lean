import RimeWinime.Gateway.LegacyTalk

namespace RimeWinime.FailedOperation

open World Worker Backends LegacyTalk

variable {N E α β : Type}

inductive Operation
  | applyKeyEvent (keyEvent : BackendKeyEvent) (maxCandidates : Nat)
  | queryCandidates (inputSnapshot : String) (maxCandidates : Nat)
  | commitSelection (committedText : String) (candidateIndex : Nat)

def outcome (op : Act β (Except String α)) : Act β (Except String Unit) := fun s =>
  ((op s).1.map fun _ => (), (op s).2)

def perform (backend : ImeBackend β) : Operation → Act β (Except String Unit)
  | .applyKeyEvent keyEvent maxCandidates => outcome (backend.applyKeyEvent keyEvent maxCandidates)
  | .queryCandidates inputSnapshot maxCandidates =>
      outcome (backend.queryCandidates inputSnapshot maxCandidates)
  | .commitSelection committedText candidateIndex =>
      outcome (backend.commitSelection committedText candidateIndex)

/-- The input, and what is shown of it. Where a backend has one text for the input
and the composition it stands in both. -/
structure InputState where
  input : String
  composition : String
  reading : String
  candidates : List Candidate
deriving DecidableEq

def ofWorker (r : WorkerRuntime) : InputState := ⟨r.input, r.input, r.reading, r.candidates⟩

def ofLegacy (r : LegacyTcpRuntime) : InputState := ⟨r.input, r.composition, r.reading, r.candidates⟩

def ofWinImm (b : WinImmBackend) : InputState :=
  ⟨b.composition, b.composition, b.reading, b.candidates⟩

def inputState : WorkerBackendRuntime N E → InputState
  | .stub runtime => ofWorker runtime
  | .legacyTcp runtime => ofLegacy runtime.1
  | .winImm runtime => ofWinImm runtime.1
  | .winImmStandIn => ⟨"", "", "", []⟩

section

variable (imm : Imm E)

/-- What the IMM says when it is asked, if it can be read. -/
def reported (max : Nat) (e : E) : Option ImmRead :=
  let available := imm.available e
  if available.1 then (imm.read max available.2).1.toOption else none

def withReport (report : Option ImmRead) (b : WinImmBackend) : WinImmBackend :=
  match report with
  | some r => WinImmBackend.takeRead r b
  | none => b

/-- The operation has nothing new for the input: the key types nothing, the
snapshot is the input, or the IMM reports what the backend shows. -/
def NothingNew : WorkerBackendRuntime N E → Operation → Prop
  | .legacyTcp s, .applyKeyEvent keyEvent _ => keyed keyEvent s.1.input = s.1.input
  | .legacyTcp s, .queryCandidates snapshot _ => asked snapshot s.1.input = s.1.input
  | .winImm s, .applyKeyEvent keyEvent _ =>
      (WinImmBackend.applyKeyToBuffer keyEvent s.1).composition = s.1.composition
  | .winImm s, .queryCandidates snapshot max =>
      ofWinImm (withReport (reported imm (if max = 0 then 9 else max) s.2)
        { s.1 with composition := asked snapshot s.1.composition }) = ofWinImm s.1
  | _, _ => True

end

theorem outcome_error {op : Act β (Except String α)} {s : β} {e : String}
    (h : (outcome op s).1 = .error e) : (op s).1 = .error e := by
  simp only [outcome] at h
  cases hop : (op s).1 with
  | error e' =>
      rw [hop] at h
      cases h
      rfl
  | ok a =>
      rw [hop] at h
      cases h

theorem worker_keeps (op : Operation) (r : WorkerRuntime) {e : String}
    (h : (perform WorkerRuntime.backend op r).1 = .error e) :
    (perform WorkerRuntime.backend op r).2 = r := by
  cases op with
  | applyKeyEvent keyEvent max => cases h
  | queryCandidates snapshot max => cases h
  | commitSelection text index =>
      have hrun : perform WorkerRuntime.backend (.commitSelection text index) r =
          outcome (WorkerRuntime.commitSelection text index) r := rfl
      rcases WorkerRuntime.commitSelection_cases text index r with ⟨e', hfailed⟩ | ⟨committed, hdone⟩
      · rw [hrun, outcome, hfailed]
      · rw [hrun, outcome, hdone] at h
        cases h

section

variable (host : LegacyHost N)

theorem candidateRequest_failed {f : LegacyTcpRuntime → LegacyTcpRuntime} {max : Nat}
    {s : LegacyTcpRuntime.Legacy N} {e : String} (h : (candidateRequest host f max s).1 = .error e) :
    ofLegacy (candidateRequest host f max s).2.1 = ofLegacy (f s.1.bump) := by
  simp only [candidateRequest, bind_run, LegacyTcpRuntime.update, change_run, andThen] at h ⊢
  rcases queryRemoteUpdate_cases host max (f s.1.bump, s.2) with ⟨e', herror, hsame⟩ | ⟨hok, -⟩
  · have hleft : ofLegacy (offline _) = ofLegacy (offline _) := congrArg ofLegacy hsame
    rw [herror]
    exact hleft
  · rw [hok] at h
    cases h

theorem withInput_failed {f : String → String} {max : Nat} {s : LegacyTcpRuntime.Legacy N}
    {e : String} (h : (candidateRequest host (withInput f) max s).1 = .error e) :
    ofLegacy (candidateRequest host (withInput f) max s).2.1 = ofLegacy s.1 ↔
      f s.1.input = s.1.input := by
  rw [candidateRequest_failed host h]
  constructor
  · exact congrArg InputState.input
  · intro hsame
    simp only [ofLegacy, withInput, LegacyTcpRuntime.bump, hsame]

theorem legacyCommit_failed {text : String} {index : Nat} {s : LegacyTcpRuntime.Legacy N} {e : String}
    (h : (LegacyTcpRuntime.commitSelection host text index s).1 = .error e) :
    (LegacyTcpRuntime.commitSelection host text index s).2 = s := by
  simp only [LegacyTcpRuntime.commitSelection, bind_run, observe_run] at h ⊢
  by_cases hempty :
      (if text = "" then ((s.1.candidates[index]?).map (·.text)).getD "" else text) = ""
  · simp only [hempty, reduceIte, pure_run]
  · simp only [hempty, reduceIte] at h
    cases h

theorem legacy_kept_iff (imm : Imm E) (op : Operation) (s : LegacyTcpRuntime.Legacy N) {e : String}
    (h : (perform (LegacyTcpRuntime.backend host) op s).1 = .error e) :
    ofLegacy (perform (LegacyTcpRuntime.backend host) op s).2.1 = ofLegacy s.1 ↔
      NothingNew imm (.legacyTcp s) op := by
  cases op with
  | applyKeyEvent keyEvent max =>
      have hfailed := outcome_error h
      have hrun : (LegacyTcpRuntime.backend host).applyKeyEvent keyEvent max = _ :=
        applyKeyEvent_eq host keyEvent max
      rw [hrun] at hfailed
      rw [perform, hrun]
      exact withInput_failed host hfailed
  | queryCandidates snapshot max =>
      have hfailed := outcome_error h
      have hrun : (LegacyTcpRuntime.backend host).queryCandidates snapshot max = _ :=
        queryCandidates_eq host snapshot max
      rw [hrun] at hfailed
      rw [perform, hrun]
      exact withInput_failed host hfailed
  | commitSelection text index =>
      exact iff_of_true (congrArg (fun s => ofLegacy s.1) (legacyCommit_failed host (outcome_error h)))
        trivial

end

section

variable (imm : Imm E)

open WinImmBackend

theorem fallBack_failed (max : Nat) (refusal : String) (s : WinImm E) :
    FailsWith (fun _ left => left = s) (fallBack max refusal) s :=
  FailsWith.bind (FailsWith.ite (fun _ => FailsWith.error rfl) fun _ =>
    FailsWith.bind (FailsWith.ok _ _))

theorem refreshFromImm_error {max : Nat} {s : WinImm E} {e : String}
    (h : (imm.read max s.2).1 = .error e) :
    refreshFromImm imm max s = (.error e, s.1, (imm.read max s.2).2) := by
  simp only [refreshFromImm, bind_run, onImm, h, pure_run]

theorem refreshFromImm_ok {max : Nat} {s : WinImm E} {r : ImmRead}
    (h : (imm.read max s.2).1 = .ok r) :
    refreshFromImm imm max s =
      (.ok (r.selectedIndex, r.pageSize), takeRead r s.1, (imm.read max s.2).2) := by
  simp only [refreshFromImm, bind_run, onImm, h, pure_run, WinImmBackend.update, change_run]

theorem refreshCandidates_failed (max : Nat)
    (unlisted : UInt32 × UInt32 → Except String (UInt32 × UInt32)) (s : WinImm E) :
    FailsWith (fun e left => left.1 = withReport (reported imm max s.2) s.1 ∧
        (reported imm max s.2 = none ∨ ∃ page, unlisted page = .error e))
      (refreshCandidates imm max unlisted) s := by
  refine FailsWith.bind (FailsWith.ite (fun havailable => ?_) fun havailable => ?_)
  · refine FailsWith.bind ?_
    rcases error_or_ok (imm.read max (imm.available s.2).2).1 with ⟨e, hread⟩ | ⟨r, hread⟩
    · have hnone : reported imm max s.2 = none := by
        simp [reported, show (imm.available s.2).1 = true from havailable, hread, Except.toOption]
      have hrun := refreshFromImm_error imm (s := onImm imm.available s |>.2) hread
      rw [hrun, hnone]
      exact (fallBack_failed max _ _).mono fun _ left hleft => ⟨by rw [hleft]; rfl, Or.inl rfl⟩
    · have hreport : reported imm max s.2 = some r := by
        simp [reported, show (imm.available s.2).1 = true from havailable, hread, Except.toOption]
      have hrun := refreshFromImm_ok imm (s := onImm imm.available s |>.2) hread
      rw [hrun, hreport]
      refine FailsWith.bind (FailsWith.ite (fun _ => ?_) fun _ => FailsWith.ok _ _)
      refine FailsWith.ite (fun _ => ?_) fun _ => FailsWith.bind (FailsWith.ok _ _)
      exact FailsWith.result fun e he => ⟨rfl, Or.inr ⟨_, he⟩⟩
  · have hnone : reported imm max s.2 = none := by
      simp [reported, show (imm.available s.2).1 = false from Bool.not_eq_true _ |>.mp havailable]
    rw [hnone]
    exact (fallBack_failed max _ _).mono fun _ left hleft => ⟨by rw [hleft]; rfl, Or.inl rfl⟩

theorem finish_error {page : Except String (UInt32 × UInt32)} {s : WinImm E} {e : String}
    (h : (finish page s).1 = .error e) : page = .error e ∧ (finish page s).2 = s := by
  cases page with
  | error e' =>
      cases h
      exact ⟨rfl, rfl⟩
  | ok page => cases h

theorem shown_failed {max : Nat} {unlisted : UInt32 × UInt32 → Except String (UInt32 × UInt32)}
    {s : WinImm E} {e : String}
    (h : ((refreshCandidates imm max unlisted >>= finish) s).1 = .error e) :
    ((refreshCandidates imm max unlisted >>= finish) s).2.1 =
        withReport (reported imm max s.2) s.1 ∧
      (reported imm max s.2 = none ∨ ∃ page, unlisted page = .error e) := by
  obtain ⟨hpage, hsame⟩ := finish_error h
  rw [bind_run, hsame]
  exact refreshCandidates_failed imm max unlisted s e hpage

theorem ofWinImm_keyed (keyEvent : BackendKeyEvent) (b : WinImmBackend) :
    ofWinImm (applyKeyToBuffer keyEvent b.bump) = ofWinImm b ↔
      (applyKeyToBuffer keyEvent b).composition = b.composition := by
  rw [applyKeyToBuffer, applyKeyToBuffer]
  cases keyEvent.keyDown with
  | false => exact iff_of_true rfl rfl
  | true =>
      simp only [reduceIte, bump, ofWinImm]
      constructor
      · exact congrArg InputState.composition
      · intro hsame
        rw [hsame]

theorem ofWinImm_bump (report : Option ImmRead) (b : WinImmBackend) :
    ofWinImm (withReport report b.bump) = ofWinImm (withReport report b) := by
  cases report <;> rfl

theorem askedOf_eq (snapshot : String) (b : WinImmBackend) :
    (if snapshot ≠ "" then { b.bump with composition := snapshot } else b.bump) =
      bump { b with composition := asked snapshot b.composition } := by
  rw [asked]
  split <;> rfl

theorem winImmCommit_failed {text : String} {index : Nat} {s : WinImm E} {e : String}
    (h : (commitSelection text index s).1 = .error e) :
    (commitSelection text index s).2.1 = s.1.bump := by
  have hleft : FailsWith (fun _ left => left.1 = s.1.bump) (commitSelection text index) s :=
    FailsWith.bind (FailsWith.bind
      (FailsWith.ite (fun _ => FailsWith.error rfl) fun _ => FailsWith.bind (FailsWith.ok _ _)))
  exact hleft e h

theorem winImm_kept_iff (op : Operation) (s : WinImm E) {e : String}
    (h : (perform (WinImmBackend.backend imm) op s).1 = .error e) :
    ofWinImm (perform (WinImmBackend.backend imm) op s).2.1 = ofWinImm s.1 ↔
      NothingNew imm (WorkerBackendRuntime.winImm (N := N) s) op := by
  cases op with
  | applyKeyEvent keyEvent max =>
      obtain ⟨hleft, hcause⟩ := shown_failed imm (s :=
        (applyKeyToBuffer keyEvent s.1.bump, (imm.driveKey keyEvent s.2).2)) (outcome_error h)
      have hnone : reported imm (if max = 0 then 9 else max) (imm.driveKey keyEvent s.2).2 = none :=
        hcause.resolve_right fun ⟨_, hok⟩ => by cases hok
      rw [hnone] at hleft
      have hrun : (perform (WinImmBackend.backend imm) (.applyKeyEvent keyEvent max) s).2.1 =
          applyKeyToBuffer keyEvent s.1.bump := hleft
      rw [hrun]
      exact ofWinImm_keyed keyEvent s.1
  | queryCandidates snapshot max =>
      obtain ⟨hleft, -⟩ := shown_failed imm (s := (_, s.2)) (outcome_error h)
      have hrun : (perform (WinImmBackend.backend imm) (.queryCandidates snapshot max) s).2.1 =
          withReport (reported imm (if max = 0 then 9 else max) s.2)
            (bump { s.1 with composition := asked snapshot s.1.composition }) := by
        rw [← askedOf_eq]
        exact hleft
      rw [hrun, ofWinImm_bump]
      exact Iff.rfl
  | commitSelection text index =>
      have hrun : (perform (WinImmBackend.backend imm) (.commitSelection text index) s).2.1 =
          s.1.bump := winImmCommit_failed (outcome_error h)
      rw [hrun]
      exact iff_of_true rfl trivial

end

section

variable (host : LegacyHost N) (imm : Imm E)

/-- An operation that fails has left the input as it was just where it had nothing
new for it: the stub and every commit always, a key event and a query of the
other two only then. -/
theorem failed_kept_iff (runtime : WorkerBackendRuntime N E) (op : Operation) (e : String)
    (hfailed : (WorkerBackendRuntime.dispatch host imm (fun backend => perform backend op) runtime).1 =
      .error e) :
    inputState (WorkerBackendRuntime.dispatch host imm (fun backend => perform backend op) runtime).2 =
        inputState runtime ↔
      NothingNew imm runtime op := by
  cases runtime with
  | stub r => exact iff_of_true (congrArg ofWorker (worker_keeps op r hfailed)) trivial
  | legacyTcp s => exact legacy_kept_iff host imm op s hfailed
  | winImm s => exact winImm_kept_iff imm op s hfailed
  | winImmStandIn => exact iff_of_true rfl trivial

end

def unreachable : LegacyHost Unit where
  connect := pure (.error "connection refused")
  writeLine := fun _ => pure (.error "socket write failed")
  readLine := pure (.error "socket read failed")

def noImm : Imm Unit where
  activate := pure ()
  driveKey := fun _ => pure ()
  available := pure false
  read := fun _ => pure (.error "no context")

def legacyWith (input : String) : WorkerBackendRuntime Unit Unit :=
  .legacyTcp ({ codepage := 936, command := "TEXTU", input := input }, ())

def keyN (keyDown : Bool) : Operation :=
  .applyKeyEvent ⟨keyDown, 0x4E, 0, false, false, false, false, false, 0, 0, 0⟩ 9

def attempt (op : Operation) : Act (WorkerBackendRuntime Unit Unit) (Except String Unit) :=
  WorkerBackendRuntime.dispatch unreachable noImm fun backend => perform backend op

/-- The event of the key going up types nothing. -/
theorem failed_release_kept :
    inputState (attempt (keyN false) (legacyWith "n")).2 = inputState (legacyWith "n") :=
  (failed_kept_iff unreachable noImm (legacyWith "n") (keyN false) "connection refused"
    (by decide)).mpr rfl

/-- The key stays in the input although its event fails, and the event repeated types
it twice. -/
theorem failed_key_typed_twice :
    let once := attempt (keyN true) (legacyWith "")
    let twice := attempt (keyN true) once.2
    once.1 = .error "connection refused" ∧ (inputState once.2).input = "n" ∧
      twice.1 = .error "connection refused" ∧ (inputState twice.2).input = "nn" := by
  decide

end RimeWinime.FailedOperation
