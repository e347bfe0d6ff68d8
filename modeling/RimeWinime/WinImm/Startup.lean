import RimeWinime.WinImm.Win32

namespace RimeWinime.WinImm

open World Outside

def swallow (x : Run Handle) : Run Unit := do
  let _ ← x
  pure ()

section

variable (os : Os)

namespace QqImeExports

/-- `IME_WINIMM_DLL`, unless it is blank, and the usual places. -/
def candidatePaths : Run (List String) := do
  let path ← ask os (.envVar "IME_WINIMM_DLL")
  let own := (path.toList).filter fun p => !p.toList.all Backends.isWhitespace
  pure (own ++ ["C:\\windows\\system32\\QQPinyin.ime", "C:\\windows\\system32\\SogouPY.ime",
    "C:\\windows\\syswow64\\SogouPY.ime", "Z:\\opt\\sogou\\sys\\SogouPY.ime",
    "Z:\\opt\\sogou\\syswow64\\SogouPY.ime"])

/-- A library without one of the two calls that are needed is let go. -/
def bindExports (module : Handle) : Run (Option QqImeExports) := do
  let process ← ask os (.getProcAddress module "ImeProcessKey")
  let toAscii ← ask os (.getProcAddress module "ImeToAsciiEx")
  let select ← ask os (.getProcAddress module "ImeSelect")
  let setActive ← ask os (.getProcAddress module "ImeSetActiveContext")
  if process && toAscii then pure (some ⟨module, select, setActive⟩)
  else do
    ask os (.freeLibrary module)
    pure none

def loadFrom : List String → Run (Option QqImeExports)
  | [] => pure none
  | path :: paths => do
      let module ← ask os (.loadLibrary path)
      if module = 0 then loadFrom paths
      else do
        let found ← bindExports os module
        if found.isSome then pure found else loadFrom paths

def load : Run (Option QqImeExports) := do
  let paths ← candidatePaths os
  loadFrom os paths

def drop (e : QqImeExports) : Run Unit := ask os (.freeLibrary e.module)

end QqImeExports

namespace Imm32Exports

def load : Run (Option Imm32Exports) := do
  let module ← ask os (.loadLibrary "imm32.dll")
  if module = 0 then pure none
  else do
    let process ← ask os (.getProcAddress module "ImmProcessKey")
    let translate ← ask os (.getProcAddress module "ImmTranslateMessage")
    pure (some ⟨module, process, translate⟩)

def drop (e : Imm32Exports) : Run Unit := ask os (.freeLibrary e.module)

end Imm32Exports

namespace WinImmRuntime

def hasWindow (r : WinImmRuntime) : Bool := r.hwnd ≠ 0

def target (r : WinImmRuntime) : Handle := if r.targetHwnd ≠ 0 then r.targetHwnd else r.hwnd

def destroyWindows (hwnd targetHwnd : Handle) : Run Unit := do
  when (targetHwnd ≠ hwnd) (ask os (.destroyWindow targetHwnd))
  ask os (.destroyWindow hwnd)

/-- The context is tried out once, and all is undone if the window does not get it. -/
def tryContext (r : WinImmRuntime) : Run (Except String WinImmRuntime) := do
  let active ← ask os (.immGetContext r.targetHwnd)
  if active = 0 then do
    swallow (ask os (.immAssociateContext r.targetHwnd r.previousHimc))
    ask os (.immDestroyContext r.himc)
    destroyWindows os r.hwnd r.targetHwnd
    pure (.error "ImmGetContext returned null after ImmAssociateContext")
  else do
    ask os (.immReleaseContext r.targetHwnd active)
    pure (.ok r)

def withWindow (himc hwnd : Handle) : Run (Except String WinImmRuntime) := do
  let edit ← ask os (.createEdit hwnd)
  let targetHwnd := if edit = 0 then hwnd else edit
  let previousHimc ← ask os (.immAssociateContext targetHwnd himc)
  swallow (ask os (.immAssociateContext hwnd himc))
  ask os (.showWindow hwnd)
  tryContext os ⟨hwnd, targetHwnd, himc, previousHimc⟩

def create : Run (Except String WinImmRuntime) := do
  let himc ← ask os .immCreateContext
  if himc = 0 then do
    let err ← ask os .lastError
    pure (.error ("ImmCreateContext failed: " ++ err))
  else do
    let hwnd ← ask os .createWindow
    if hwnd = 0 then pure (.ok ⟨0, 0, himc, 0⟩) else withWindow os himc hwnd

def ensureContextAlive (r : WinImmRuntime) : Run Bool :=
  if r.hasWindow then do
    let active ← ask os (.immGetContext r.target)
    if active = 0 then pure false
    else do
      ask os (.immReleaseContext r.target active)
      pure true
  else pure (r.himc ≠ 0)

def drop (r : WinImmRuntime) : Run Unit := do
  when r.hasWindow (swallow (ask os (.immAssociateContext r.target r.previousHimc)))
  ask os (.immDestroyContext r.himc)
  when r.hasWindow do
    when (r.targetHwnd ≠ 0 && r.targetHwnd ≠ r.hwnd) (ask os (.destroyWindow r.target))
    ask os (.destroyWindow r.hwnd)

end WinImmRuntime

def unsupportedMessage : String :=
  "win_imm backend skeleton is not implemented yet (expected to be implemented with a minimal " ++
    "unsafe FFI boundary in this module)"

def isYes (value : String) : Bool :=
  ["1", "true", "yes", "on"].contains (String.ofList (value.toList.map Worker.WorkerRuntime.toAsciiLowercase))

def initErrorOf (runtime : Except String WinImmRuntime) (exports : Option QqImeExports) :
    Option String :=
  match runtime with
  | .error err => some err
  | .ok _ =>
      if exports.isSome then none
      else some "QQPinyin exports unavailable; will use fallback composition path"

/-- `WinImmBackend::from_env`. The fields that stand for Windows are set here and stay. -/
def fromEnv : Run Backends.WinImmBackend := do
  let force ← ask os (.envVar "IME_WINIMM_FORCE_REAL")
  let runtime ← WinImmRuntime.create os
  let imeExports ← QqImeExports.load os
  let imm32Exports ← Imm32Exports.load os
  modify fun _ => ⟨runtime.toOption, imeExports, imm32Exports, initErrorOf runtime imeExports⟩
  pure { forceRealImm := (force.map isYes).getD false }

def dropBackend : Run Unit := do
  let s ← get
  s.runtime.elim (pure ()) (WinImmRuntime.drop os)
  s.imeExports.elim (pure ()) (QqImeExports.drop os)
  s.imm32Exports.elim (pure ()) (Imm32Exports.drop os)

end

end RimeWinime.WinImm
