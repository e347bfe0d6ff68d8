import RimeWinime.WinImm.Lifetime

namespace RimeWinime.WinImm

open World Outside Ledger Nesting

section

variable (os : Os)

theorem steady_keys {q : Call} (hq : isKey q = false) : Steady keysDown (ask os q) := by
  intro w
  rw [keysDown_ask, press_other hq]
  rfl

theorem untouched_bindExports (module : Handle) :
    Steady keysDown (QqImeExports.bindExports os module) := by
  apply Steady.bind (steady_keys os rfl)
  intro process
  apply Steady.bind (steady_keys os rfl)
  intro toAscii
  apply Steady.bind (steady_keys os rfl)
  intro select
  apply Steady.bind (steady_keys os rfl)
  intro setActive
  apply Steady.ite (Steady.pure _)
  exact Steady.bind (steady_keys os rfl) fun _ => Steady.pure _

theorem untouched_loadFrom (paths : List String) :
    Steady keysDown (QqImeExports.loadFrom os paths) := by
  induction paths with
  | nil => exact Steady.pure _
  | cons path paths ih =>
      apply Steady.bind (steady_keys os rfl)
      intro module
      apply Steady.ite ih
      apply Steady.bind (untouched_bindExports os module)
      intro found
      exact Steady.ite (Steady.pure _) ih

theorem untouched_loadImm32 : Steady keysDown (Imm32Exports.load os) := by
  apply Steady.bind (steady_keys os rfl)
  intro module
  apply Steady.ite (Steady.pure _)
  apply Steady.bind (steady_keys os rfl)
  intro process
  exact Steady.bind (steady_keys os rfl) fun translate => Steady.pure _

theorem untouched_associate (hwnd himc : Handle) :
    Steady keysDown (swallow (ask os (.immAssociateContext hwnd himc))) :=
  Steady.bind (steady_keys os rfl) fun _ => Steady.pure _

theorem untouched_destroyWindows (hwnd targetHwnd : Handle) :
    Steady keysDown (WinImmRuntime.destroyWindows os hwnd targetHwnd) :=
  Steady.bind (steady_when (steady_keys os rfl)) fun _ => steady_keys os rfl

theorem untouched_tryContext (r : WinImmRuntime) : Steady keysDown (WinImmRuntime.tryContext os r) := by
  apply Steady.bind (steady_keys os rfl)
  intro active
  apply Steady.ite
  · apply Steady.bind (untouched_associate os _ _)
    intro _
    apply Steady.bind (steady_keys os rfl)
    intro _
    exact Steady.bind (untouched_destroyWindows os _ _) fun _ => Steady.pure _
  · exact Steady.bind (steady_keys os rfl) fun _ => Steady.pure _

theorem untouched_create : Steady keysDown (WinImmRuntime.create os) := by
  apply Steady.bind (steady_keys os rfl)
  intro himc
  apply Steady.ite (Steady.bind (steady_keys os rfl) fun _ => Steady.pure _)
  apply Steady.bind (steady_keys os rfl)
  intro hwnd
  apply Steady.ite (Steady.pure _)
  apply Steady.bind (steady_keys os rfl)
  intro edit
  apply Steady.bind (steady_keys os rfl)
  intro previousHimc
  apply Steady.bind (untouched_associate os _ _)
  intro _
  exact Steady.bind (steady_keys os rfl) fun _ => untouched_tryContext os _

theorem untouched_fromEnv : Steady keysDown (fromEnv os) := by
  apply Steady.bind (steady_keys os rfl)
  intro force
  apply Steady.bind (untouched_create os)
  intro runtime
  apply Steady.bind (Steady.bind (Steady.bind (steady_keys os rfl) fun _ => Steady.pure _)
    (untouched_loadFrom os))
  intro imeExports
  apply Steady.bind (untouched_loadImm32 os)
  intro imm32Exports
  exact Steady.bind (fun _ => rfl) fun _ => Steady.pure _

theorem untouched_dropRuntime (r : WinImmRuntime) : Steady keysDown (WinImmRuntime.drop os r) := by
  apply Steady.bind (steady_when (untouched_associate os _ _))
  intro _
  apply Steady.bind (steady_keys os rfl)
  intro _
  apply steady_when
  exact Steady.bind (steady_when (steady_keys os rfl)) fun _ => steady_keys os rfl

theorem untouched_dropped {A : Type} {drop : A → Run Unit} (hdrop : ∀ a, Steady keysDown (drop a))
    (a : Option A) : Steady keysDown (a.elim (pure ()) drop) := by
  cases a with
  | none => exact Steady.pure _
  | some a => exact hdrop a

theorem untouched_dropBackend : Steady keysDown (dropBackend os) := by
  apply Steady.bind (fun _ => rfl)
  intro s
  apply Steady.bind (untouched_dropped (untouched_dropRuntime os) _)
  intro _
  apply Steady.bind (untouched_dropped (fun _ => steady_keys os rfl) _)
  intro _
  exact untouched_dropped (fun _ => steady_keys os rfl) _

end

theorem keysDown_workerRun (os : Os) (requests : List Worker.WorkerIpcRequest) :
    keysDown (workerRun os requests started).2.2 = some [] := by
  have hbegun : keysDown (fromEnv os started).2 = keysDown started := untouched_fromEnv os started
  let reset := Backends.WinImmBackend.resetForNewSession (imm os) (fromEnv os started)
  have hreset : assets reset.2.2 = assets (fromEnv os started).2 :=
    steady_reset (unseen_imm os) (fromEnv os started)
  have hanswers : assets (workerRun os requests started).2.2 = assets reset.2.2 :=
    steady_answers os requests reset.2
  have hkeys : keysDown (workerRun os requests started).2.2 = keysDown (fromEnv os started).2 :=
    congrArg (fun n => n.2.2) (hanswers.trans hreset)
  exact hkeys.trans hbegun

/-- Whatever Windows answers and whatever is asked of the worker: after each request no key is
down, and at any time a key is let go only if it is the last one that went down. -/
theorem keys_are_let_go (os : Os) (requests : List Worker.WorkerIpcRequest) :
    let past := (dropBackend os (workerRun os requests started).2.2).2.past
    keysDown (workerRun os requests started).2.2 = some [] ∧
      ∀ before, before <+: past → ∃ down, nested (before.map press) = some down := by
  intro past
  have hkeys := keysDown_workerRun os requests
  have hend : nested (past.map press) = some [] := (untouched_dropBackend os _).trans hkeys
  exact ⟨hkeys, fun before hbefore => nested_of_prefix (hbefore.map press) hend⟩

end RimeWinime.WinImm
