import RimeWinime.Gateway.FailedOperation
import RimeWinime.WinImm.Offered

namespace RimeWinime.WinImm

open World Outside
open Worker (Candidate WorkerIpcRequest WorkerIpcResponse BackendResult CommitResult)
open Backends Backends.WinImmBackend
open FailedOperation (refreshFromImm_error refreshFromImm_ok)

/-- Only real candidates will do, and those that are kept are real. -/
structure Genuine (s : WinImm Process) : Prop where
  forced : s.1.forceRealImm = true
  offered : AllOffered s.2.past s.1.candidates

section

variable {α : Type} (os : Os)

theorem keeps_onImm {op : Run α} (h : Asks Any op) :
    Keeps Genuine (fun _ => True) (onImm op) :=
  fun s hs => ⟨trivial, hs.forced, hs.offered.later (h.grows s.2)⟩

theorem keeps_update {f : WinImmBackend → WinImmBackend}
    (hforced : ∀ b, (f b).forceRealImm = b.forceRealImm)
    (hcandidates : ∀ b, ∀ c ∈ (f b).candidates, c ∈ b.candidates) :
    Keeps Genuine (fun _ => True) (WinImmBackend.update f) :=
  fun s hs => ⟨trivial, (hforced s.1).trans hs.forced, fun c hc => hs.offered c (hcandidates s.1 c hc)⟩

theorem keeps_bump : Keeps Genuine (fun _ => True) (WinImmBackend.update bump) :=
  keeps_update (fun _ => rfl) fun _ _ hc => hc

theorem keeps_clear : Keeps Genuine (fun _ => True) (WinImmBackend.update clearLocalState) :=
  keeps_update (fun _ => rfl) fun _ _ hc => absurd hc List.not_mem_nil

theorem keeps_fallBack (max : Nat) (refusal : String) :
    Keeps Genuine (fun _ => True) (fallBack max refusal) := by
  refine Keeps.bind (P := fun forced => forced = true) (Keeps.observe fun _ hs => hs.forced) ?_
  intro forced hforced
  exact Keeps.ite (fun _ => Keeps.pure trivial) fun hnot => absurd hforced hnot

theorem keeps_refreshFromImm (max : Nat) :
    Keeps Genuine (fun _ => True) (refreshFromImm (imm os) max) := by
  intro s hs
  cases hread : ((imm os).read max s.2).1 with
  | error e =>
      rw [refreshFromImm_error (imm os) hread]
      exact ⟨trivial, hs.forced, hs.offered.later (grows_read os max s.2)⟩
  | ok r =>
      rw [refreshFromImm_ok (imm os) hread]
      exact ⟨trivial, hs.forced, offered_read os max s.2 hread⟩

theorem keeps_refreshCandidates (max : Nat)
    (unlisted : UInt32 × UInt32 → Except String (UInt32 × UInt32)) :
    Keeps Genuine (fun _ => True) (refreshCandidates (imm os) max unlisted) := by
  refine Keeps.bind (keeps_onImm (grows_available os)) fun available _ => ?_
  refine Keeps.ite (fun _ => ?_) fun _ => keeps_fallBack max _
  refine Keeps.bind (keeps_refreshFromImm os max) fun report _ => ?_
  cases report with
  | error e => exact keeps_fallBack max _
  | ok report =>
      refine Keeps.bind (P := fun b => b.forceRealImm = true)
        (Keeps.observe fun _ hs => hs.forced) fun b hforced => ?_
      refine Keeps.ite (fun _ => ?_) fun _ => Keeps.pure trivial
      exact Keeps.ite (fun _ => Keeps.pure trivial) fun hnot => absurd hforced hnot

theorem keeps_finish (page : Except String (UInt32 × UInt32)) :
    Keeps Genuine (fun _ => True) (finish (E := Process) page) := by
  cases page with
  | error e => exact Keeps.pure trivial
  | ok page =>
      exact Keeps.bind (Keeps.observe (P := fun _ => True) fun _ _ => trivial) fun _ _ =>
        Keeps.pure trivial

theorem keeps_reset : Keeps Genuine (fun _ => True) (resetForNewSession (imm os)) := by
  refine Keeps.bind keeps_bump fun _ _ => ?_
  refine Keeps.bind keeps_clear fun _ _ => ?_
  refine Keeps.bind (keeps_onImm (grows_resetImm os)) fun _ _ => ?_
  exact Keeps.observe fun _ _ => trivial

theorem keeps_applyKeyEvent (keyEvent : Worker.BackendKeyEvent) (max : Nat) :
    Keeps Genuine (fun _ => True) (applyKeyEvent (imm os) keyEvent max) := by
  have htyped : Keeps Genuine (fun _ => True) (WinImmBackend.update (applyKeyToBuffer keyEvent)) := by
    apply keeps_update
    · intro b
      rw [applyKeyToBuffer]
      split <;> rfl
    · intro b c hc
      rw [applyKeyToBuffer] at hc
      split at hc <;> exact hc
  refine Keeps.bind keeps_bump fun _ _ => ?_
  refine Keeps.bind (keeps_onImm (grows_driveQqImeKey os keyEvent)) fun _ _ => ?_
  refine Keeps.bind htyped fun _ _ => ?_
  exact Keeps.bind (keeps_refreshCandidates os _ _) fun page _ => keeps_finish page

theorem keeps_queryCandidates (inputSnapshot : String) (max : Nat) :
    Keeps Genuine (fun _ => True) (queryCandidates (imm os) inputSnapshot max) := by
  have hasked : Keeps Genuine (fun _ => True) (WinImmBackend.update fun b =>
      if inputSnapshot ≠ "" then { b with composition := inputSnapshot } else b) := by
    apply keeps_update
    · intro b
      split <;> rfl
    · intro b c hc
      split at hc <;> exact hc
  refine Keeps.bind keeps_bump fun _ _ => ?_
  refine Keeps.bind hasked fun _ _ => ?_
  exact Keeps.bind (keeps_refreshCandidates os _ _) fun page _ => keeps_finish page

theorem keeps_commitSelection (committedText : String) (candidateIndex : Nat) :
    Keeps Genuine (fun _ => True) (commitSelection (E := Process) committedText candidateIndex) := by
  refine Keeps.bind keeps_bump fun _ _ => ?_
  refine Keeps.bind (Keeps.observe (P := fun _ => True) fun _ _ => trivial) fun _ _ => ?_
  refine Keeps.ite (fun _ => Keeps.pure trivial) fun _ => ?_
  exact Keeps.bind keeps_clear fun _ _ => Keeps.pure trivial

theorem finish_reads (page : Except String (UInt32 × UInt32)) :
    Reads (fun s : WinImm Process => s.1.candidates) BackendResult.candidates (finish page) := by
  cases page with
  | error e => exact Reads.error e
  | ok page =>
      intro s result h
      cases h
      rfl

theorem applyKeyEvent_reads (keyEvent : Worker.BackendKeyEvent) (max : Nat) :
    Reads (fun s : WinImm Process => s.1.candidates) BackendResult.candidates
      (applyKeyEvent (imm os) keyEvent max) :=
  Reads.bind fun _ => Reads.bind fun _ => Reads.bind fun _ => Reads.bind finish_reads

theorem queryCandidates_reads (inputSnapshot : String) (max : Nat) :
    Reads (fun s : WinImm Process => s.1.candidates) BackendResult.candidates
      (queryCandidates (imm os) inputSnapshot max) :=
  Reads.bind fun _ => Reads.bind fun _ => Reads.bind finish_reads

/-- The candidates of an answer are offered by Windows, and so is a text that is committed, unless
it comes from the one who asks. -/
structure Honest (past : List (Event Call.Answer)) (req : WorkerIpcRequest) (resp : WorkerIpcResponse) :
    Prop where
  candidates : AllOffered past resp.candidates
  committed : ∀ text index, req = .commitSelection text index → resp.ok = true →
    resp.committedText = text ∧ text ≠ "" ∨
      text = "" ∧ ∃ c, Offered past c ∧ c.text = resp.committedText

theorem answerOrError_cases {β γ : Type} (b : Worker.ImeBackend β) (code : String)
    (answer : γ → WorkerIpcResponse) (op : Act β (Except String γ)) (s : β) :
    (∃ result, (op s).1 = .ok result ∧
      Worker.answerOrError b code answer op s = (answer result, (op s).2)) ∨
    ∃ message, (op s).1 = .error message ∧ Worker.answerOrError b code answer op s =
      (Worker.workerErrorResponse (b.snapshot (op s).2) code message, (op s).2) := by
  cases h : (op s).1 with
  | ok result =>
      refine Or.inl ⟨result, rfl, ?_⟩
      rw [Worker.answerOrError, bind_run, h]
      rfl
  | error message =>
      refine Or.inr ⟨message, rfl, ?_⟩
      rw [Worker.answerOrError, bind_run, h]
      rfl

theorem genuine_result (code : String) {op : Act (WinImm Process) (Except String BackendResult)}
    (hop : Keeps Genuine (fun _ => True) op)
    (hreads : Reads (fun s : WinImm Process => s.1.candidates) BackendResult.candidates op)
    {s : WinImm Process} (hs : Genuine s) :
    let r := Worker.answerOrError (WinImmBackend.backend (imm os)) code Worker.resultResponse op s
    Genuine r.2 ∧ AllOffered r.2.2.past r.1.candidates := by
  intro r
  have hleft := (hop s hs).2
  obtain ⟨result, hok, hrun⟩ | ⟨message, -, hrun⟩ := answerOrError_cases
    (WinImmBackend.backend (imm os)) code Worker.resultResponse op s
  · have hr : r = _ := hrun
    rw [hr]
    refine ⟨hleft, ?_⟩
    have htold : result.candidates = (op s).2.1.candidates := hreads s result hok
    intro c hc
    exact hleft.offered c (htold ▸ hc)
  · have hr : r = _ := hrun
    rw [hr]
    exact ⟨hleft, allOffered_nil _⟩

/-- The text that is committed. -/
def chosen (text : String) (index : Nat) (candidates : List Candidate) : String :=
  if text = "" then ((candidates[index]?).map (·.text)).getD "" else text

theorem commitSelection_text {s : WinImm Process} {text : String} {index : Nat} {result : CommitResult}
    (h : (commitSelection text index s).1 = .ok result) :
    chosen text index s.1.candidates ≠ "" ∧
      result.committedText = chosen text index s.1.candidates := by
  have hrun : (commitSelection text index s).1 = if chosen text index s.1.candidates = "" then
      .error "no committed_text and candidate_index is invalid"
      else .ok ⟨chosen text index s.1.candidates, s.1.bump.backendStateVersion⟩ := by
    have hchosen : commitSelection text index s = (if chosen text index s.1.candidates = "" then
        pure (.error "no committed_text and candidate_index is invalid")
        else do
          WinImmBackend.update clearLocalState
          pure (.ok ⟨chosen text index s.1.candidates, s.1.bump.backendStateVersion⟩) :
            Act (WinImm Process) (Except String CommitResult)) (s.1.bump, s.2) := rfl
    rw [hchosen, ite_run]
    split
    · rfl
    · rfl
  rw [hrun] at h
  by_cases hnone : chosen text index s.1.candidates = ""
  · rw [if_pos hnone] at h
    cases h
  · rw [if_neg hnone] at h
    cases h
    exact ⟨hnone, rfl⟩

theorem chosen_cases {text : String} {index : Nat} {candidates : List Candidate}
    (h : chosen text index candidates ≠ "") :
    chosen text index candidates = text ∧ text ≠ "" ∨
      text = "" ∧ ∃ c ∈ candidates, c.text = chosen text index candidates := by
  by_cases htext : text = ""
  · refine Or.inr ⟨htext, ?_⟩
    rw [chosen, if_pos htext] at h ⊢
    cases hat : candidates[index]? with
    | none =>
        rw [hat] at h
        exact absurd rfl h
    | some c => exact ⟨c, List.mem_of_getElem? hat, rfl⟩
  · exact Or.inl ⟨if_neg htext, htext⟩

theorem honest_bare {past : List (Event Call.Answer)} {req : WorkerIpcRequest} {resp : WorkerIpcResponse}
    (hcandidates : resp.candidates = []) (hreq : ∀ text index, req = .commitSelection text index →
      resp.ok = false) : Honest past req resp := by
  refine ⟨?_, ?_⟩
  · rw [hcandidates]
    exact allOffered_nil past
  · intro text index h hok
    rw [hreq text index h] at hok
    cases hok

theorem genuine_commit (text : String) (index : Nat) {s : WinImm Process} (hs : Genuine s) :
    let r := Worker.handleBackendRequest (WinImmBackend.backend (imm os)) (.commitSelection text index) s
    Genuine r.2 ∧ Honest r.2.2.past (.commitSelection text index) r.1 := by
  intro r
  have hleft := (keeps_commitSelection text index s hs).2
  obtain ⟨result, hok, hrun⟩ | ⟨message, -, hrun⟩ := answerOrError_cases
    (WinImmBackend.backend (imm os)) "BACKEND_COMMIT_FAILED"
    (fun result : CommitResult =>
      ({ ok := true
         backendStateVersion := result.backendStateVersion
         committedText := result.committedText } : WorkerIpcResponse))
    (commitSelection text index) s
  · have hr : r = _ := hrun
    have hpast : (commitSelection text index s).2.2 = s.2 :=
      steady_commitSelection (v := id) text index s
    rw [hr]
    obtain ⟨hsome, htext⟩ := commitSelection_text hok
    refine ⟨hleft, allOffered_nil _, ?_⟩
    intro text' index' hreq _
    cases hreq
    dsimp only
    rw [htext, hpast]
    obtain hown | ⟨hempty, c, hc, hcommitted⟩ := chosen_cases hsome
    · exact Or.inl hown
    · exact Or.inr ⟨hempty, c, hs.offered c hc, hcommitted⟩
  · have hr : r = _ := hrun
    rw [hr]
    exact ⟨hleft, honest_bare rfl fun _ _ _ => rfl⟩

theorem genuine_request (req : WorkerIpcRequest) {s : WinImm Process} (hs : Genuine s) :
    let r := Worker.handleBackendRequest (WinImmBackend.backend (imm os)) req s
    Genuine r.2 ∧ Honest r.2.2.past req r.1 := by
  cases req with
  | snapshot => exact ⟨hs, honest_bare rfl fun _ _ h => by cases h⟩
  | resetSession => exact ⟨(keeps_reset os s hs).2, honest_bare rfl fun _ _ h => by cases h⟩
  | sendKeyEvent keyEvent max =>
      obtain ⟨hleft, hshown⟩ := genuine_result os "BACKEND_SEND_KEY_FAILED"
        (keeps_applyKeyEvent os keyEvent (if max = 0 then 9 else max)) (applyKeyEvent_reads os keyEvent _) hs
      exact ⟨hleft, hshown, fun _ _ h => by cases h⟩
  | queryCandidates snapshot max =>
      obtain ⟨hleft, hshown⟩ := genuine_result os "BACKEND_QUERY_FAILED"
        (keeps_queryCandidates os snapshot (if max = 0 then 9 else max))
        (queryCandidates_reads os snapshot _) hs
      exact ⟨hleft, hshown, fun _ _ h => by cases h⟩
  | commitSelection text index => exact genuine_commit os text index hs

theorem genuine_answers (requests : List WorkerIpcRequest) {s : WinImm Process} (hs : Genuine s) :
    Genuine (answers os requests s).2 := by
  induction requests generalizing s with
  | nil => exact hs
  | cons req reqs ih => exact ih (genuine_request os req hs).1

theorem genuine_workerRun (hforced : (fromEnv os started).1.forceRealImm = true)
    (requests : List WorkerIpcRequest) : Genuine (workerRun os requests started).2 :=
  genuine_answers os requests (keeps_reset os _ ⟨hforced, allOffered_nil _⟩).2

/-- Where only real candidates will do, nothing is made up. After any requests, and whatever Windows
and the input method answer, each candidate of an answer stands in a list that Windows has handed
over, and so does a committed text that the request does not bring along. -/
theorem forced_answers_honest (hforced : (fromEnv os started).1.forceRealImm = true)
    (requests : List WorkerIpcRequest) (req : WorkerIpcRequest) :
    let r := Worker.handleBackendRequest (WinImmBackend.backend (imm os)) req
      (workerRun os requests started).2
    Honest r.2.2.past req r.1 :=
  (genuine_request os req (genuine_workerRun os hforced requests)).2

end

/-- After a key the first candidate is committed. -/
theorem listed_is_committed :
    let r := Worker.handleBackendRequest (WinImmBackend.backend (imm listingOs))
      (.commitSelection "" 0) (workerRun listingOs oneKey started).2
    Honest r.2.2.past (.commitSelection "" 0) r.1 :=
  forced_answers_honest listingOs (by decide +kernel) oneKey (.commitSelection "" 0)

end RimeWinime.WinImm
