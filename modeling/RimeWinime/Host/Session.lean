import RimeWinime.Host.Win32

namespace RimeWinime.Session

open World Win32

variable {W : Type}

structure WinImmSession where
  sessionId : Nat
  hwnd : Hwnd
  targetHwnd : Hwnd
  himc : Himc
  hImeModule : Nat
  pendingCommit : Option String
deriving DecidableEq

/-- The session, or nothing when the host window cannot be created. A missing
child window is replaced by the host window. -/
def create (api : Api W) (sessionId hImeModule : Nat) (showWindow : Bool) :
    Act W (Option WinImmSession) := do
  match ← api.createHostWindow showWindow with
  | none => pure none
  | some hwnd => do
      let child ← if showWindow then api.createEditChild hwnd else pure none
      let target := child.getD hwnd
      let himc ← api.immCreateContext
      api.immAssociateContext target himc
      api.immAssociateContext hwnd himc
      api.immAssociateContextEx target himc 0
      api.immAssociateContextEx hwnd himc 0
      if showWindow then api.showHostWindow hwnd target
      pure (some ⟨sessionId, hwnd, target, himc, hImeModule, none⟩)

def destroy (api : Api W) (s : WinImmSession) : Act W Unit := do
  api.immAssociateContextEx s.targetHwnd 0 IACE_DEFAULT
  if s.targetHwnd ≠ s.hwnd then api.destroyWindow s.targetHwnd
  api.immDestroyContext s.himc
  api.destroyWindow s.hwnd

def appendCommit (s : WinImmSession) (text : String) : WinImmSession :=
  if text = "" then s else { s with pendingCommit := some (s.pendingCommit.getD "" ++ text) }

def pendingText (s : WinImmSession) : String := s.pendingCommit.getD ""

@[simp] theorem appendCommit_empty (s : WinImmSession) : appendCommit s "" = s := by
  simp [appendCommit]

@[simp] theorem appendCommit_himc (s : WinImmSession) (text : String) :
    (appendCommit s text).himc = s.himc := by
  unfold appendCommit; split <;> rfl

@[simp] theorem appendCommit_targetHwnd (s : WinImmSession) (text : String) :
    (appendCommit s text).targetHwnd = s.targetHwnd := by
  unfold appendCommit; split <;> rfl

@[simp] theorem pendingText_appendCommit (s : WinImmSession) (text : String) :
    pendingText (appendCommit s text) = pendingText s ++ text := by
  unfold appendCommit
  split
  · next h => simp [h]
  · rfl

theorem appendCommit_isNone (s : WinImmSession) (text : String) :
    (appendCommit s text).pendingCommit = none ↔ s.pendingCommit = none ∧ text = "" := by
  unfold appendCommit
  split
  · next h => simp [h]
  · next h => simp [h]

theorem appendCommit_append (s : WinImmSession) (a b : String) :
    appendCommit (appendCommit s a) b = appendCommit s (a ++ b) := by
  by_cases ha : a = ""
  · simp [ha]
  · by_cases hb : b = ""
    · simp [hb]
    · have hab : a ++ b ≠ "" := by
        intro h
        exact ha (String.append_eq_empty_iff.mp h).1
      simp [appendCommit, ha, hb, hab, String.append_assoc]

end RimeWinime.Session
