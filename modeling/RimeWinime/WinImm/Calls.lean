import Mathlib.Data.List.DropRight
import RimeWinime.WinImm.Startup

namespace RimeWinime.WinImm

open World Outside
open Utf16 (fromUtf16Lossy)
open Worker (BackendKeyEvent Candidate)
open Backends (ImmRead Imm)
open CandidatePage (ImmCandidatePage readList)

def vkShift : UInt32 := 0x10

def vkControl : UInt32 := 0x11

def vkMenu : UInt32 := 0x12

def wmInputLangChangeRequest : UInt32 := 0x50

def wmInputLangChange : UInt32 := 0x51

def wmChar : UInt32 := 0x102

def wmImeSetContext : UInt32 := 0x281

def wmImeNotify : UInt32 := 0x282

def wmImeSelect : UInt32 := 0x285

def imnSetConversionMode : UInt32 := 6

def imnSetOpenStatus : UInt32 := 8

def iscShowUiAll : UInt32 := 0xC000000F

def iphkProcessByImeFlag : UInt32 := 2

section

variable (os : Os)

def notReadyMessage (s : Fields) : String := s.initError.getD unsupportedMessage

def ownHimc (s : Fields) : Except String (Handle × Bool) :=
  match s.runtime with
  | some r => if r.himc ≠ 0 then .ok (r.himc, false) else .error (notReadyMessage s)
  | none => .error (notReadyMessage s)

def windowed (s : Fields) : Option WinImmRuntime := s.runtime.filter WinImmRuntime.hasWindow

/-- The context that the window has, lent, or else the one of the runtime. -/
def acquireActiveHimc : Run (Except String (Handle × Bool)) := do
  let s ← get
  match windowed s with
  | some r => do
      let ctx ← ask os (.immGetContext r.target)
      pure (if ctx ≠ 0 then .ok (ctx, true) else ownHimc s)
  | none => pure (ownHimc s)

def releaseActiveHimc (himc : Handle) (borrowed : Bool) : Run Unit := do
  let s ← get
  match windowed s with
  | some r => when borrowed (ask os (.immReleaseContext r.target himc))
  | none => pure ()

def withHimc {α : Type} (failed : String → α) (x : Handle → Run α) : Run α := do
  match ← acquireActiveHimc os with
  | .error err => pure (failed err)
  | .ok (himc, borrowed) => do
      let result ← x himc
      releaseActiveHimc os himc borrowed
      pure result

def layouts : List String := ["E0200804", "E0220804", "E0010804", "00000804", "E0200409"]

def loadLayout : List String → Run Handle
  | [] => pure 0
  | name :: names => do
      let hkl ← ask os (.loadKeyboardLayout name)
      if hkl ≠ 0 then pure hkl else loadLayout names

def switchLayout (target chosen : Handle) : Run Unit :=
  when (chosen ≠ 0) do
    ask os (.activateKeyboardLayout chosen)
    ask os (.sendMessage target wmInputLangChangeRequest 0 chosen)
    ask os (.sendMessage target wmInputLangChange 0 chosen)

def ensureImeLayout : Run Unit := do
  let s ← get
  match windowed s with
  | some r => do
      let current ← ask os (.getKeyboardLayout 0)
      let loaded ← loadLayout os layouts
      switchLayout os r.target (if loaded = 0 then current else loaded)
  | none => pure ()

def selectIme (himc : Handle) : Run Unit := do
  let s ← get
  match s.imeExports with
  | some exports => do
      when exports.imeSelect (ask os (.imeSelect himc))
      when exports.imeSetActiveContext (ask os (.imeSetActiveContext himc))
  | none => pure ()

def showIme (himc : Handle) : Run Unit := do
  let s ← get
  match windowed s with
  | some r => do
      ask os (.sendMessage r.target wmImeSetContext 1 iscShowUiAll)
      let defIme ← ask os (.immGetDefaultImeWnd r.target)
      when (defIme ≠ 0 && defIme ≠ r.target) do
        ask os (.sendMessage defIme wmImeSetContext 1 iscShowUiAll)
        ask os (.sendMessage defIme wmImeSelect 1 himc)
        ask os (.sendMessage defIme wmImeNotify imnSetOpenStatus 0)
        ask os (.sendMessage defIme wmImeNotify imnSetConversionMode 0)
  | none => pure ()

def activateIn (himc : Handle) : Run Unit := do
  ensureImeLayout os
  selectIme os himc
  ask os (.immSetOpenStatus himc)
  ask os (.immSetConversionStatus himc)
  showIme os himc
  ask os .pumpMessages

def activateQqIme : Run Unit := withHimc os (fun _ => ()) (activateIn os)

/-- `runtime.ensure_context_alive()` of a reset, whatever it says, and the activation. -/
def resetImm : Run Unit := do
  let s ← get
  match s.runtime with
  | some r => do
      let _ ← r.ensureContextAlive os
      activateQqIme os
  | none => activateQqIme os

def immRuntimeAvailable : Run Bool := do
  let s ← get
  match s.runtime with
  | some r => r.ensureContextAlive os
  | none => pure false

def keyLparamFromVk (vk : UInt32) (keyUp altDown : Bool) : Run UInt32 := do
  let scan ← ask os (.mapVirtualKey vk)
  let l := (1 : UInt32) ||| (scan <<< (16 : UInt32))
  let l := if altDown then l ||| ((1 : UInt32) <<< 29) else l
  pure (if keyUp then l ||| ((1 : UInt32) <<< 30) ||| ((1 : UInt32) <<< 31) else l)

/-- A key as it is struck: with its modifiers, and the character it stands for. -/
structure Resolved where
  vk : UInt32
  shift : Bool := false
  ctrl : Bool := false
  alt : Bool := false
  char : Option UInt16 := none

/-- A printable character becomes the key of the layout that types it. -/
def resolveVkAndModifiers (virtualKey : UInt32) (hkl : Handle) : Run Resolved :=
  if 0x20 ≤ virtualKey && virtualKey ≤ 0x7E then do
    let packed ← ask os (.vkKeyScanEx virtualKey.toUInt16 hkl)
    let vk := packed &&& 0xFF
    if packed = 0xFFFF || vk = 0 || vk = 0xFF then pure { vk := virtualKey }
    else
      let mods := packed >>> 8
      pure
        { vk := vk.toUInt32
          shift := mods &&& 1 ≠ 0
          ctrl := mods &&& 2 ≠ 0
          alt := mods &&& 4 ≠ 0
          char := some virtualKey.toUInt16 }
  else pure { vk := virtualKey }

def sendModifierKey (target : Handle) (vk : UInt32) (keyDown altDown : Bool) : Run Unit := do
  let lparam ← keyLparamFromVk os vk (!keyDown) altDown
  ask os (.sendKey target keyDown vk lparam)

def pressed (keyState : List UInt8) (vk : UInt32) : List UInt8 :=
  keyState.modify vk.toNat (· ||| 0x80)

/-- All that is known of a key when it is struck. -/
structure Stroke where
  vk : UInt32
  shift : Bool
  ctrl : Bool
  alt : Bool
  char : Option UInt16
  scan : UInt32
  hkl : Handle
  keyState : List UInt8

def strokeState (keyState : List UInt8) (vk : UInt32) (shift ctrl alt : Bool) : List UInt8 :=
  let keyState := pressed keyState (vk &&& 0xFF)
  let keyState := if shift then pressed keyState vkShift else keyState
  let keyState := if ctrl then pressed keyState vkControl else keyState
  if alt then pressed keyState vkMenu else keyState

def layoutOf (target : Option WinImmRuntime) : Run Handle := do
  let current ← ask os (.getKeyboardLayout 0)
  match target with
  | some r => do
      let thread ← ask os (.getWindowThreadProcessId r.target)
      if thread ≠ 0 then ask os (.getKeyboardLayout thread) else pure current
  | none => pure current

/-- The character of a key that the layout does not type is that of its source code. -/
def charOf (resolved : Option UInt16) (keyEvent : BackendKeyEvent) : Option UInt16 :=
  let sourceLow := keyEvent.sourceKeycode &&& 0xFF
  if resolved.isSome then resolved
  else if 0x20 ≤ sourceLow && sourceLow < 0x7F then some sourceLow.toUInt16
  else none

def scanOf (keyEvent : BackendKeyEvent) (vk : UInt32) : Run UInt32 :=
  if keyEvent.scanCode ≠ 0 then pure keyEvent.scanCode else ask os (.mapVirtualKey vk)

def strokeOf (keyEvent : BackendKeyEvent) (target : Option WinImmRuntime) : Run Stroke := do
  let state ← ask os .getKeyboardState
  let hkl ← layoutOf os target
  let resolved ← resolveVkAndModifiers os (Backends.WinImmBackend.keyCode keyEvent) hkl
  let shift := keyEvent.shift || resolved.shift
  let ctrl := keyEvent.ctrl || resolved.ctrl
  let alt := keyEvent.alt || resolved.alt
  let scan ← scanOf os keyEvent resolved.vk
  pure ⟨resolved.vk, shift, ctrl, alt, charOf resolved.char keyEvent, scan, hkl,
    strokeState (state.getD (List.replicate 256 0)) resolved.vk shift ctrl alt⟩

def modifiersDown (target : Handle) (k : Stroke) : Run Unit := do
  when k.ctrl (sendModifierKey os target vkControl true k.alt)
  when k.shift (sendModifierKey os target vkShift true k.alt)
  when k.alt (sendModifierKey os target vkMenu true true)

def modifiersUp (target : Handle) (k : Stroke) : Run Unit := do
  when k.alt (sendModifierKey os target vkMenu false true)
  when k.shift (sendModifierKey os target vkShift false k.alt)
  when k.ctrl (sendModifierKey os target vkControl false k.alt)

def immFlagsOf (imm32 : Imm32Exports) (target : Handle) (k : Stroke) (lparam : UInt32) : Run UInt32 :=
  if imm32.immProcessKey then ask os (.immProcessKey target k.hkl k.vk lparam) else pure 0

/-- What imm32 makes of a key that is down, as far as it has the calls. -/
def translateByImm (target : Handle) (k : Stroke) (lparam : UInt32) : Run Unit := do
  let s ← get
  match s.imm32Exports with
  | some imm32 => do
      let immFlags ← immFlagsOf os imm32 target k lparam
      when (immFlags &&& iphkProcessByImeFlag ≠ 0 && imm32.immTranslateMessage)
        (ask os (.immTranslateMessage target k.vk lparam))
  | none => pure ()

def makeImeVkey (k : Stroke) : Run UInt32 := do
  let (n, wide) ← ask os (.toUnicode k.vk k.scan k.keyState)
  if n = 1 then pure ((k.vk &&& 0xFF) ||| (wide.toUInt32 <<< (16 : UInt32)))
  else do
    let (n, ascii) ← ask os (.toAsciiEx k.vk k.scan k.keyState k.hkl)
    pure (if 0 < n then ((k.vk &&& 0xFF) ||| (ascii.toUInt32 <<< (8 : UInt32))) &&& 0xFFFF else k.vk)

/-- The messages that the input method has made of the key, for the window if there is one. -/
def sendTranslated (target : Handle) : List TransMsg → Run Unit
  | [] => pure ()
  | m :: msgs => do
      ask os (.sendMessage target m.message m.wParam m.lParam)
      sendTranslated target msgs

def dispatchImeMessages (target : Option WinImmRuntime) (trans : Translated) : Run Unit :=
  match target with
  | some r =>
      sendTranslated os r.target ((List.range (min trans.msgCount.toNat 16)).map trans.transMsg)
  | none => pure ()

def callExports (target : Option WinImmRuntime) (himc : Handle) (k : Stroke) (lparam : UInt32) :
    Run Unit := do
  let imeVk ← makeImeVkey os k
  let _ ← ask os (.imeProcessKey himc k.vk lparam k.keyState)
  let trans ← ask os (.imeToAsciiEx imeVk k.scan k.keyState himc)
  dispatchImeMessages os target trans

/-- A key that goes down is struck in the window: it comes up again, and its character follows,
before its modifiers do. -/
def strike (r : WinImmRuntime) (himc : Handle) (k : Stroke) (lparam : UInt32) : Run Unit := do
  modifiersDown os r.target k
  ask os (.sendKey r.target true k.vk lparam)
  translateByImm os r.target k lparam
  ask os .pumpMessages
  callExports os (some r) himc k lparam
  let keyUpLparam ← keyLparamFromVk os k.vk true k.alt
  ask os (.sendKey r.target false k.vk keyUpLparam)
  k.char.elim (pure ()) fun ch => ask os (.sendMessage r.target wmChar ch.toUInt32 1)
  modifiersUp os r.target k

/-- Without a window, or when a key comes up, only the input method is told. -/
def driveKey (keyEvent : BackendKeyEvent) (himc : Handle) : Run Unit := do
  let s ← get
  let target := windowed s
  let k ← strokeOf os keyEvent target
  let lparam ← keyLparamFromVk os k.vk (!keyEvent.keyDown) k.alt
  match target.filter fun _ => keyEvent.keyDown with
  | some r => strike os r himc k lparam
  | none => callExports os target himc k lparam
  ask os .pumpMessages

def driveQqImeKey (keyEvent : BackendKeyEvent) : Run Unit := do
  let s ← get
  if s.imeExports.isNone || Backends.WinImmBackend.keyCode keyEvent = 0 then pure ()
  else withHimc os (fun _ => ()) (driveKey os keyEvent)

def Text.name : Text → String
  | .composition => "8"
  | .reading => "1"

def textOf (units : List UInt16) : String := fromUtf16Lossy (units.rdropWhile (· = 0))

def readImmString (himc : Handle) (kind : Text) : Run (Except String String) := do
  let size ← ask os (.compositionSize himc kind)
  if size < 0 then do
    let err ← ask os .lastError
    pure (.error (String.join ["ImmGetCompositionStringW size query failed: kind=", kind.name, " err=", err]))
  else if size = 0 then pure (.ok "")
  else do
    match ← ask os (.compositionString himc kind size.toNat) with
    | some units => pure (.ok (textOf units))
    | none => do
        let err ← ask os .lastError
        pure (.error (String.join ["ImmGetCompositionStringW read failed: kind=", kind.name, " err=", err]))

def listCount (himc : Handle) : Run UInt32 := do
  let wide ← ask os (.candidateListCount himc false)
  if wide ≠ 0 then pure wide
  else do
    let ansi ← ask os (.candidateListCount himc true)
    pure (if ansi = 0 then 1 else ansi)

def listSize (himc : Handle) (listIndex : UInt32) : Run (UInt32 × Bool) := do
  let wide ← ask os (.candidateListSize himc listIndex false)
  if wide ≠ 0 then pure (wide, false)
  else do
    let ansi ← ask os (.candidateListSize himc listIndex true)
    pure (ansi, true)

def pageOf {size : UInt32} (buffer : ListBuffer size) (useAnsi : Bool) (listIndex : UInt32)
    (maxCandidates : Nat) : Option ImmCandidatePage :=
  ((readList buffer.bytes useAnsi listIndex maxCandidates).toOption).join

def readLists (himc : Handle) (maxCandidates : Nat) : Nat → UInt32 → Run ImmCandidatePage
  | 0, _ => pure ⟨[], 0, 0⟩
  | left + 1, listIndex => do
      let (size, useAnsi) ← listSize os himc listIndex
      if size = 0 then readLists himc maxCandidates left (listIndex + 1)
      else do
        let written ← ask os (.candidateList himc listIndex useAnsi size)
        let page := written.bind fun buffer => pageOf buffer useAnsi listIndex maxCandidates
        page.elim (readLists himc maxCandidates left (listIndex + 1)) pure

def readImmCandidates (himc : Handle) (maxCandidates : Nat) : Run ImmCandidatePage := do
  let count ← listCount os himc
  readLists os himc maxCandidates count.toNat 0

def readSnapshot (maxCandidates : Nat) (himc : Handle) : Run (Except String ImmRead) := do
  match ← readImmString os himc .composition with
  | .error err => pure (.error err)
  | .ok comp => do
      let reading ← readImmString os himc .reading
      let page ← readImmCandidates os himc maxCandidates
      pure (.ok ⟨comp, reading.toOption.getD "", page.candidates, page.selectedIndex, page.pageSize⟩)

def imm : Imm Process where
  activate := resetImm os
  driveKey := driveQqImeKey os
  available := immRuntimeAvailable os
  read maxCandidates := withHimc os .error (readSnapshot os maxCandidates)

/-- The runs of the worker over this backend: `from_env`, a reset, each request, and the end. -/
def answers : List Worker.WorkerIpcRequest →
    Act (Backends.WinImmBackend × Process) (List Worker.WorkerIpcResponse)
  | [] => pure []
  | req :: reqs => do
      let resp ← Worker.handleBackendRequest (Backends.WinImmBackend.backend (imm os)) req
      let resps ← answers reqs
      pure (resp :: resps)

def workerRun (requests : List Worker.WorkerIpcRequest) (start : Process) :
    List Worker.WorkerIpcResponse × Backends.WinImmBackend × Process :=
  let runtime := fromEnv os start
  answers os requests (Backends.WinImmBackend.resetForNewSession (imm os) runtime).2

end

end RimeWinime.WinImm
