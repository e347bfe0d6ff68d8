import RimeWinime.Gateway.LegacyTalk

namespace RimeWinime.VersionCounter

open World Worker Backends

variable {N E α β : Type}

def versionOf (backend : ImeBackend β) (runtime : β) : UInt64 :=
  (backend.snapshot runtime).backendStateVersion

/-- An operation moves the counter by one at most; when it succeeds it reports
the counter and has moved it. -/
structure Counts (version : β → UInt64) (told : α → UInt64) (op : Act β (Except String α)) : Prop where
  steps : ∀ runtime, version (op runtime).2 = version runtime ∨
    version (op runtime).2 = version runtime + 1
  reads : Reads version told op
  moves : ∀ runtime a, (op runtime).1 = .ok a → version (op runtime).2 = version runtime + 1

/-- Every operation counts. -/
structure Disciplined (backend : ImeBackend β) : Prop where
  key : ∀ keyEvent max, Counts (versionOf backend) (·.backendStateVersion)
    (backend.applyKeyEvent keyEvent max)
  query : ∀ snapshot max, Counts (versionOf backend) (·.backendStateVersion)
    (backend.queryCandidates snapshot max)
  commit : ∀ text index, Counts (versionOf backend) (·.backendStateVersion)
    (backend.commitSelection text index)
  reset : Counts (versionOf backend) id backend.reset

section

variable {version : β → UInt64} {told : α → UInt64}

theorem counts_of_bump {first : Act β Unit} {rest : Act β (Except String α)}
    (hfirst : ∀ runtime, version (first runtime).2 = version runtime + 1)
    (hsteady : Steady version rest) (hreads : Reads version told rest) :
    Counts version told (first >>= fun _ => rest) := by
  have hmoved (runtime : β) : version ((first >>= fun _ => rest) runtime).2 = version runtime + 1 :=
    (hsteady _).trans (hfirst runtime)
  exact ⟨fun runtime => Or.inr (hmoved runtime), Reads.bind fun _ => hreads,
    fun runtime _ _ => hmoved runtime⟩

theorem counts_error (e : String) : Counts version told (pure (.error e)) :=
  ⟨fun _ => Or.inl rfl, Reads.error e, fun _ _ h => by cases h⟩

theorem counts_ite {c : Prop} [Decidable c] {x y : Act β (Except String α)}
    (hx : Counts version told x) (hy : Counts version told y) :
    Counts version told (if c then x else y) := by
  split
  · exact hx
  · exact hy

theorem counts_observe {γ : Type} {f : β → γ} {x : γ → Act β (Except String α)}
    (h : ∀ c, Counts version told (x c)) : Counts version told (observe f >>= x) :=
  ⟨fun runtime => (h (f runtime)).steps runtime, Reads.bind fun c => (h c).reads,
    fun runtime => (h (f runtime)).moves runtime⟩

end

theorem stub_disciplined : Disciplined WorkerRuntime.backend := by
  constructor
  · intro keyEvent max
    refine ⟨fun r => Or.inr rfl, ?_, fun r _ _ => rfl⟩
    rintro r _ ⟨⟩
    rfl
  · intro snapshot max
    refine ⟨fun r => Or.inr rfl, ?_, fun r _ _ => rfl⟩
    rintro r _ ⟨⟩
    rfl
  · intro text index
    have hbackend : WorkerRuntime.backend.commitSelection text index =
        WorkerRuntime.commitSelection text index := rfl
    rw [hbackend]
    refine ⟨fun r => ?_, fun r a h => ?_, fun r a h => ?_⟩
    · rcases WorkerRuntime.commitSelection_cases text index r with ⟨e, hrun⟩ | ⟨committed, hrun⟩
      · rw [hrun]
        exact Or.inl rfl
      · rw [hrun]
        exact Or.inr rfl
    · rcases WorkerRuntime.commitSelection_cases text index r with ⟨e, hrun⟩ | ⟨committed, hrun⟩
      · rw [hrun] at h
        cases h
      · rw [hrun] at h ⊢
        cases h
        rfl
    · rcases WorkerRuntime.commitSelection_cases text index r with ⟨e, hrun⟩ | ⟨committed, hrun⟩
      · rw [hrun] at h
        cases h
      · rw [hrun]
        rfl
  · refine ⟨fun r => Or.inr rfl, ?_, fun r _ _ => rfl⟩
    rintro r _ ⟨⟩
    rfl

section

open LegacyTcpRuntime LegacyTalk

variable (host : LegacyHost N)

def legacyVersion (s : Legacy N) : UInt64 := s.1.backendStateVersion

theorem legacyVersion_steady {x : Act (Legacy N) α} (hx : Steady offline x) : Steady legacyVersion x :=
  hx.comp (·.backendStateVersion)

theorem updated_steady {f : LegacyTcpRuntime → LegacyTcpRuntime} {x : Unit → Act (Legacy N) α}
    (h : ∀ r, (f r).backendStateVersion = r.backendStateVersion)
    (hx : ∀ a, Steady legacyVersion (x a)) :
    Steady legacyVersion (LegacyTcpRuntime.update f >>= x) := Steady.bind (fun s => h s.1) hx

theorem queryRemoteUpdate_steady (max : Nat) : Steady legacyVersion (queryRemoteUpdate host max) := by
  intro s
  rcases queryRemoteUpdate_cases host max s with ⟨_, -, hsame⟩ | ⟨-, _, _, _, hshown⟩
  · exact congrArg (·.backendStateVersion) hsame
  · exact congrArg (·.backendStateVersion) hshown

/-- What a candidate request does between the move of the counter and the update
leaves the counter alone, and the result is read where the update leaves off. -/
theorem updated_counts (max : Nat) {f : LegacyTcpRuntime → LegacyTcpRuntime}
    (h : ∀ r, (f r).backendStateVersion = r.backendStateVersion) :
    Counts legacyVersion (·.backendStateVersion) (candidateRequest host f max) := by
  apply counts_of_bump (fun _ => rfl)
  · refine updated_steady h fun _ => (queryRemoteUpdate_steady host max).andThen fun _ => ?_
    exact (Steady.observe _).bind fun _ => Steady.pure _
  · refine Reads.bind fun _ => Reads.andThen fun _ => ?_
    rintro s _ ⟨⟩
    rfl

theorem resetRemote_counts {f : LegacyTcpRuntime → LegacyTcpRuntime}
    (h : ∀ r, (f r).backendStateVersion = r.backendStateVersion) (told : α → UInt64)
    (answer : UInt64 → α) (htold : ∀ version, told (answer version) = version) :
    Counts legacyVersion told (do
      LegacyTcpRuntime.update LegacyTcpRuntime.bump
      LegacyTcpRuntime.update f
      resetRemote host
      let version ← observe (·.1.backendStateVersion)
      pure (.ok (answer version))) := by
  apply counts_of_bump (fun _ => rfl)
  · refine updated_steady h fun _ => (legacyVersion_steady (resetRemote_steady host)).bind fun _ => ?_
    exact (Steady.observe _).bind fun _ => Steady.pure _
  · refine Reads.bind fun _ => Reads.bind fun _ => ?_
    rintro s _ ⟨⟩
    exact htold _

theorem legacy_disciplined : Disciplined (LegacyTcpRuntime.backend host) := by
  constructor
  · intro keyEvent max
    refine updated_counts host max fun r => ?_
    split
    · rfl
    · rfl
  · intro snapshot max
    refine updated_counts host max fun r => ?_
    split
    · rfl
    · rfl
  · intro text index
    refine counts_observe fun candidates => counts_ite (counts_error _) ?_
    refine resetRemote_counts host (fun r => ?_) (·.backendStateVersion) (CommitResult.mk _)
      fun version => ?_
    · rfl
    · rfl
  · refine resetRemote_counts host (fun r => ?_) id id fun version => ?_
    · rfl
    · rfl

end

section

open WinImmBackend

variable (imm : Imm E)

def winImmVersion (s : WinImm E) : UInt64 := s.1.backendStateVersion

theorem steady_onImm (op : Act E α) : Steady winImmVersion (onImm op) := fun _ => rfl

theorem rewritten_steady {f : WinImmBackend → WinImmBackend} {x : Unit → Act (WinImm E) α}
    (h : ∀ b, (f b).backendStateVersion = b.backendStateVersion)
    (hx : ∀ a, Steady winImmVersion (x a)) : Steady winImmVersion (WinImmBackend.update f >>= x) :=
  Steady.bind (fun s => h s.1) hx

theorem refreshFromImm_steady (max : Nat) : Steady winImmVersion (refreshFromImm imm max) := by
  apply (steady_onImm _).bind
  intro r
  cases r with
  | error e => exact Steady.pure _
  | ok r => exact rewritten_steady (fun _ => rfl) fun _ => Steady.pure _

theorem fallBack_steady (max : Nat) (refusal : String) :
    Steady (winImmVersion (E := E)) (fallBack max refusal) := by
  apply Steady.bind (Steady.observe _)
  intro forced
  apply Steady.ite (Steady.pure _)
  exact rewritten_steady (fun _ => rfl) fun _ => Steady.pure _

theorem refreshCandidates_steady (max : Nat)
    (unlisted : UInt32 × UInt32 → Except String (UInt32 × UInt32)) :
    Steady winImmVersion (refreshCandidates imm max unlisted) := by
  apply (steady_onImm _).bind
  intro available
  refine Steady.ite ?_ (fallBack_steady max _)
  apply (refreshFromImm_steady imm max).bind
  intro page
  cases page with
  | error e => exact fallBack_steady max _
  | ok page =>
      apply Steady.bind (Steady.observe _)
      intro b
      refine Steady.ite (Steady.ite (Steady.pure _) ?_) (Steady.pure _)
      exact rewritten_steady (fun _ => rfl) fun _ => Steady.pure _

theorem finish_steady (page : Except String (UInt32 × UInt32)) :
    Steady (winImmVersion (E := E)) (finish page) := by
  cases page with
  | error e => exact Steady.pure _
  | ok page => exact (Steady.observe _).bind fun _ => Steady.pure _

theorem finish_reads (page : Except String (UInt32 × UInt32)) :
    Reads (winImmVersion (E := E)) (·.backendStateVersion) (finish page) := by
  cases page with
  | error e => exact Reads.error e
  | ok page =>
      rintro s _ ⟨⟩
      rfl

theorem commit_cases (text : String) (index : Nat) (s : WinImm E) :
    (∃ e, (commitSelection text index s).1 = .error e) ∨
      ∃ committed, (commitSelection text index s).1 =
        .ok ⟨committed, s.1.backendStateVersion + 1⟩ := by
  by_cases hempty :
      (if text = "" then ((s.1.candidates[index]?).map (·.text)).getD "" else text) = ""
  · exact Or.inl ⟨_, congrArg (fun x : Act (WinImm E) (Except String CommitResult) => (x _).1)
      (if_pos hempty)⟩
  · exact Or.inr ⟨_, congrArg (fun x : Act (WinImm E) (Except String CommitResult) => (x _).1)
      (if_neg hempty)⟩

theorem winImm_disciplined : Disciplined (WinImmBackend.backend imm) := by
  constructor
  · intro keyEvent max
    apply counts_of_bump (fun _ => rfl)
    · refine (steady_onImm _).bind fun _ => rewritten_steady (fun b => ?_) fun _ => ?_
      · rw [applyKeyToBuffer]
        split
        · rfl
        · rfl
      · exact (refreshCandidates_steady imm _ _).bind fun page => finish_steady page
    · exact Reads.bind fun _ => Reads.bind fun _ => Reads.bind fun page => finish_reads page
  · intro snapshot max
    apply counts_of_bump (fun _ => rfl)
    · refine rewritten_steady (fun b => ?_) fun _ => ?_
      · split
        · rfl
        · rfl
      · exact (refreshCandidates_steady imm _ _).bind fun page => finish_steady page
    · exact Reads.bind fun _ => Reads.bind fun page => finish_reads page
  · intro text index
    have hmoved (s : WinImm E) :
        winImmVersion (commitSelection text index s).2 = winImmVersion s + 1 := by
      rw [commitSelection, bind_run]
      refine Steady.bind (Steady.observe _) (fun b => Steady.ite (Steady.pure _) ?_) _
      exact rewritten_steady (fun _ => rfl) fun _ => Steady.pure _
    refine ⟨fun s => Or.inr (hmoved s), fun s a h => ?_, fun s _ _ => hmoved s⟩
    change (commitSelection text index s).1 = .ok a at h
    rcases commit_cases text index s with ⟨e, hrun⟩ | ⟨committed, hrun⟩
    · rw [hrun] at h
      cases h
    · rw [hrun] at h
      cases h
      exact (hmoved s).symm
  · have hreset : (WinImmBackend.backend imm).reset = (do
        WinImmBackend.update WinImmBackend.bump
        WinImmBackend.update WinImmBackend.clearLocalState
        onImm imm.activate
        let version ← observe winImmVersion
        pure (.ok version)) := rfl
    rw [hreset]
    apply counts_of_bump (fun _ => rfl)
    · refine rewritten_steady (fun _ => rfl) fun _ => (steady_onImm _).bind fun _ => ?_
      exact (Steady.observe _).bind fun _ => Steady.pure _
    · refine Reads.bind fun _ => Reads.bind fun _ => ?_
      rintro s _ ⟨⟩
      rfl

end

/-- A request is handled from `before`: the counter moves by one at most, an
answer that is `ok` reports it, and is a move when it has to be. -/
structure Counted (version : β → UInt64) (handle : Act β WorkerIpcResponse) (moves : Prop)
    (before : β) : Prop where
  steps : version (handle before).2 = version before ∨ version (handle before).2 = version before + 1
  exact : (handle before).1.ok = true →
    (handle before).1.backendStateVersion = version (handle before).2
  moved : moves → (handle before).1.ok = true → version (handle before).2 = version before + 1

theorem answerOrError_counted {backend : ImeBackend β} {code : String}
    {answer : α → WorkerIpcResponse} {op : Act β (Except String α)} {told : α → UInt64}
    {moves : Prop} (hop : Counts (versionOf backend) told op)
    (hanswer : ∀ a, (answer a).backendStateVersion = told a) (before : β) :
    Counted (versionOf backend) (answerOrError backend code answer op) moves before := by
  cases hrun : (op before).1 with
  | ok a =>
      have hanswered : answerOrError backend code answer op before = (answer a, (op before).2) := by
        rw [answerOrError, bind_run, hrun]
        rfl
      constructor
      · rw [hanswered]
        exact hop.steps before
      · rw [hanswered]
        exact fun _ => (hanswer a).trans (hop.reads before a hrun)
      · rw [hanswered]
        exact fun _ _ => hop.moves before a hrun
  | error e =>
      have hrefused : answerOrError backend code answer op before =
          (workerErrorResponse (backend.snapshot (op before).2) code e, (op before).2) := by
        rw [answerOrError, bind_run, hrun]
        rfl
      constructor
      · rw [hrefused]
        exact hop.steps before
      · rw [hrefused]
        intro hok
        cases hok
      · rw [hrefused]
        intro _ hok
        cases hok

theorem Disciplined.counted {backend : ImeBackend β} (h : Disciplined backend)
    (req : WorkerIpcRequest) (before : β) :
    Counted (versionOf backend) (handleBackendRequest backend req) (req ≠ .snapshot) before := by
  cases req with
  | snapshot => exact ⟨Or.inl rfl, fun _ => rfl, fun hmoves => absurd rfl hmoves⟩
  | resetSession => exact answerOrError_counted h.reset (fun _ => rfl) before
  | sendKeyEvent keyEvent max => exact answerOrError_counted (h.key keyEvent _) (fun _ => rfl) before
  | queryCandidates snapshot max =>
      exact answerOrError_counted (h.query snapshot _) (fun _ => rfl) before
  | commitSelection text index =>
      exact answerOrError_counted (h.commit text index) (fun _ => rfl) before

/-- The stand-in succeeds at nothing but a reset, which does not move its counter. -/
theorem standIn_counted (req : WorkerIpcRequest) :
    Counted (versionOf WinImmBackend.standIn) (handleBackendRequest WinImmBackend.standIn req)
      (req ≠ .snapshot ∧ req ≠ .resetSession) () := by
  cases req with
  | snapshot => exact ⟨Or.inl rfl, fun _ => rfl, fun hmoves => absurd rfl hmoves.1⟩
  | resetSession => exact ⟨Or.inl rfl, fun _ => rfl, fun hmoves => absurd rfl hmoves.2⟩
  | sendKeyEvent | queryCandidates | commitSelection =>
      refine ⟨Or.inl rfl, fun hok => ?_, fun _ hok => ?_⟩
      · cases hok
      · cases hok

section

open WorkerBackendRuntime

variable (host : LegacyHost N) (imm : Imm E)

def runtimeVersion (runtime : WorkerBackendRuntime N E) : UInt64 :=
  (snapshot host imm runtime).backendStateVersion

def StandsIn : WorkerBackendRuntime N E → Prop
  | .winImmStandIn => True
  | _ => False

/-- The request makes the runtime move its counter: it is no snapshot, and no
reset of the stand-in. -/
def Moves (runtime : WorkerBackendRuntime N E) (req : WorkerIpcRequest) : Prop :=
  req ≠ .snapshot ∧ (StandsIn runtime → req ≠ .resetSession)

theorem runtime_counted (req : WorkerIpcRequest) (runtime : WorkerBackendRuntime N E) :
    Counted (runtimeVersion host imm) (handleRequest host imm req) (Moves runtime req) runtime := by
  cases runtime with
  | stub r =>
      have hcounted := stub_disciplined.counted req r
      exact ⟨hcounted.steps, hcounted.exact, fun hmoves => hcounted.moved hmoves.1⟩
  | legacyTcp r =>
      have hcounted := (legacy_disciplined host).counted req r
      exact ⟨hcounted.steps, hcounted.exact, fun hmoves => hcounted.moved hmoves.1⟩
  | winImm r =>
      have hcounted := (winImm_disciplined imm).counted req r
      exact ⟨hcounted.steps, hcounted.exact, fun hmoves => hcounted.moved hmoves.1⟩
  | winImmStandIn =>
      have hcounted := standIn_counted req
      exact ⟨hcounted.steps, hcounted.exact, fun hmoves =>
        hcounted.moved ⟨hmoves.1, hmoves.2 trivial⟩⟩

end

end RimeWinime.VersionCounter
