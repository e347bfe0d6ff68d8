import Mathlib.Data.List.AList
import RimeWinime.Host.ImmOps
import RimeWinime.Host.Session
import RimeWinime.Host.VkMap

namespace RimeWinime.Adapter

open World Win32 Proto Session

variable {W : Type}

def MAX_PUMP_MESSAGES : Nat := 256

def MAX_TRANS_MSGS : Nat := 256

structure PumpResult where
  resultText : String := ""
  charText : String := ""
  sawResultMessage : Bool := false
deriving DecidableEq

def resultString (api : Api W) (himc : Himc) (w : W) : Option String :=
  ImmOps.getResultString (api.immGetCompositionString himc .resultStr w)

def announcesResult (message : UInt32) (lParam : UInt64) : Bool :=
  message == WM_IME_COMPOSITION && (lParam.toUInt32 &&& GCS_RESULTSTR) != 0

def carriesChar (message : UInt32) : Bool := message == WM_IME_CHAR || message == WM_CHAR

def charText (wParam : UInt64) : String :=
  let code := wParam.toUInt32.toNat
  if code.isValidChar then String.singleton (Char.ofNat code) else ""

def pumpOne (api : Api W) (himc : Himc) (out : PumpResult) (msg : Msg) (w : W) : PumpResult :=
  if announcesResult msg.message msg.lParam then
    { out with
      sawResultMessage := true
      resultText := out.resultText ++ (resultString api himc w).getD "" }
  else if carriesChar msg.message then { out with charText := out.charText ++ charText msg.wParam }
  else out

def pumpLoop (api : Api W) (himc : Himc) (filter : Option Hwnd) : Nat → PumpResult → Act W PumpResult
  | 0, out => pure out
  | count + 1, out => do
      match ← api.peekMessage filter with
      | none => pure out
      | some msg => do
          let out ← observe (pumpOne api himc out msg)
          api.dispatchMessage msg
          pumpLoop api himc filter count out

def pumpMessagesForHwnd (api : Api W) (s : WinImmSession) (filter : Option Hwnd) : Act W PumpResult :=
  pumpLoop api s.himc filter MAX_PUMP_MESSAGES {}

def pumpWindowMessages (api : Api W) (s : WinImmSession) : Act W PumpResult :=
  pumpMessagesForHwnd api s (some s.targetHwnd)

def pumpThreadMessages (api : Api W) (s : WinImmSession) : Act W PumpResult :=
  pumpMessagesForHwnd api s none

/-- What a pump adds to the pending commit: its result text, and its characters
only when there is no result text. -/
def PumpResult.text (p : PumpResult) : String :=
  if p.resultText ≠ "" then p.resultText else p.charText

def commitPumped (s : WinImmSession) (p : PumpResult) : WinImmSession := appendCommit s p.text

def harvestThreadMessages (api : Api W) (s : WinImmSession) : Act W WinImmSession := do
  let pumped ← pumpThreadMessages api s
  pure (commitPumped s pumped)

def activateImeContext (api : Api W) (ime : ImeFunctions W) (s : WinImmSession) : Act W Unit := do
  let _ ← ime.select s.himc true
  let _ ← match ime.setActiveContext with
    | some setActive => setActive s.himc true
    | none => pure false
  let _ ← api.immSetOpenStatus s.himc true
  let _ ← api.immSetNativeConversion s.himc
  api.sendMessage s.targetHwnd WM_IME_SETCONTEXT 1 ISC_SHOWUIALL
  let defImeWnd ← observe (api.immGetDefaultIMEWnd s.targetHwnd)
  if defImeWnd ≠ 0 ∧ defImeWnd ≠ s.targetHwnd then do
    api.sendMessage defImeWnd WM_IME_SETCONTEXT 1 ISC_SHOWUIALL
    api.sendMessage defImeWnd WM_IME_SELECT 1 (UInt64.ofNat s.himc)
    api.sendMessage defImeWnd WM_IME_NOTIFY IMN_SETOPENSTATUS 0
    api.sendMessage defImeWnd WM_IME_NOTIFY IMN_SETCONVERSIONMODE 0
  let _ ← pumpThreadMessages api s

def transmsgOne (api : Api W) (himc : Himc) (out : PumpResult) (msg : TransMsg) (w : W) :
    PumpResult :=
  let out :=
    if announcesResult msg.message msg.lParam then
      { out with
        sawResultMessage := true
        resultText :=
          if out.resultText = "" then (resultString api himc w).getD "" else out.resultText }
    else out
  if carriesChar msg.message then { out with charText := out.charText ++ charText msg.wParam }
  else out

def transmsgLoop (api : Api W) (s : WinImmSession) : List TransMsg → PumpResult → Act W PumpResult
  | [], out => pure out
  | msg :: msgs, out =>
      if msg.message = 0 then transmsgLoop api s msgs out
      else do
        let out ← observe (transmsgOne api s.himc out msg)
        api.sendMessage s.targetHwnd msg.message msg.wParam msg.lParam
        transmsgLoop api s msgs out

/-- The messages that `ImeToAsciiEx` reports, out of a zeroed list of 256. -/
def reportedTransmsgs (reply : UInt32 × List TransMsg) : List TransMsg :=
  let msgCount := reply.1.toInt32.toInt
  (reply.2.takeD MAX_TRANS_MSGS ⟨0, 0, 0⟩).take (min msgCount.toNat MAX_TRANS_MSGS)

/-- The window pump adds to what the list gave, and a result string read last
fills a result text that is still empty. -/
def mergeDirect (out pumped : PumpResult) (slot : Option String) : PumpResult :=
  let resultText := if out.resultText = "" then pumped.resultText else out.resultText
  { resultText := if resultText = "" then slot.getD "" else resultText
    charText := if resultText = "" then out.charText ++ pumped.charText else out.charText
    sawResultMessage := out.sawResultMessage || pumped.sawResultMessage }

def dispatchImeTransmsgs (api : Api W) (ime : ImeFunctions W) (s : WinImmSession)
    (imeUvirt : UInt32) (keyState : KeyState) : Act W PumpResult := do
  let reply ← ime.toAsciiEx imeUvirt keyState s.himc
  let out ← transmsgLoop api s (reportedTransmsgs reply) {}
  let pumped ← pumpWindowMessages api s
  -- always read the result string, even without a visible message
  let slot ← observe (resultString api s.himc)
  pure (mergeDirect out pumped slot)

def keyStateOf (modifiers : UInt32) : KeyState := fun vk =>
  if (modifiers &&& 1 ≠ 0 ∧ (vk = VK_SHIFT ∨ vk = VK_LSHIFT)) ∨
      (modifiers &&& 2 ≠ 0 ∧ (vk = VK_CONTROL ∨ vk = VK_LCONTROL)) ∨
      (modifiers &&& 4 ≠ 0 ∧ (vk = VK_MENU ∨ vk = VK_LMENU)) then 0x80
  else 0

def keyMessage (isKeyup isAlt : Bool) : UInt32 :=
  match isKeyup, isAlt with
  | true, true => WM_SYSKEYUP
  | false, true => WM_SYSKEYDOWN
  | true, false => WM_KEYUP
  | false, false => WM_KEYDOWN

def offerKey (api : Api W) (s : WinImmSession) (vk : UInt16) (isKeyup isAlt : Bool) :
    Act W (Bool × WinImmSession) := do
  let lKeyData := VkMap.makeLKeyData api.mapVirtualKey vk isKeyup isAlt
  let message := keyMessage isKeyup isAlt
  api.sendMessage s.targetHwnd message vk.toUInt64 lKeyData.toUInt64
  let hkl ← observe (api.getKeyboardLayout s.targetHwnd)
  let immFlags ← api.immProcessKey s.targetHwnd hkl vk.toUInt32 lKeyData
  let accepted := (immFlags &&& IPHK_PROCESSBYIME) != 0
  if accepted then do
    let _ ← api.immTranslateMessage s.targetHwnd message vk.toUInt64 lKeyData
  let s ← harvestThreadMessages api s
  pure (accepted, s)

def consumeDirect (api : Api W) (ime : ImeFunctions W) (s : WinImmSession) (imeUvirt : UInt32)
    (keyState : KeyState) : Act W WinImmSession := do
  let direct ← dispatchImeTransmsgs api ime s imeUvirt keyState
  let s := commitPumped s direct
  harvestThreadMessages api s

def releaseKey (api : Api W) (s : WinImmSession) (vk : UInt16) (isAlt : Bool) :
    Act W WinImmSession := do
  let lKeyData := VkMap.makeLKeyData api.mapVirtualKey vk true isAlt
  api.sendMessage s.targetHwnd (keyMessage true isAlt) vk.toUInt64 lKeyData.toUInt64
  harvestThreadMessages api s

/-- The last look at the result string, made only when nothing is pending. -/
def finalResultCheck (s : WinImmSession) (slot : Option String) : WinImmSession :=
  if s.pendingCommit = none then appendCommit s (slot.getD "") else s

def processVk (api : Api W) (ime : ImeFunctions W) (s : WinImmSession) (vk : UInt16)
    (modifiers : UInt32) (isKeyup : Bool) : Act W (Bool × WinImmSession) := do
  let isAlt := (modifiers &&& 4) != 0
  let keyState := keyStateOf modifiers
  let lKeyData := VkMap.makeLKeyData api.mapVirtualKey vk isKeyup isAlt
  api.setKeyboardState keyState
  let (unicodeLen, unicode) ← api.toUnicode vk.toUInt32 ((lKeyData >>> 16) &&& 0xFF) keyState
  let imeUvirt := if unicodeLen > 0 then vk.toUInt32 ||| (unicode.toUInt32 <<< 16) else vk.toUInt32
  let (accepted, s) ← offerKey api s vk isKeyup isAlt
  let directConsumed ← ime.processKey s.himc vk.toUInt32 lKeyData keyState
  let s ← (if directConsumed then consumeDirect api ime s imeUvirt keyState else pure s)
  let s ← (if isKeyup then pure s else releaseKey api s vk isAlt)
  let slot ← observe (resultString api s.himc)
  pure (accepted || directConsumed, finalResultCheck s slot)

def RELEASE_MASK : UInt32 := 0x40000000

/-- A key with exactly one of Control and Alt is refused before anything else. -/
def refusedUpFront (key : KeyEvent) : Bool :=
  let isCtrl := (key.modifier &&& 4) != 0
  let isAlt := (key.modifier &&& 8) != 0
  (isCtrl || isAlt) && !(isCtrl && isAlt)

def winModifiers (key : KeyEvent) : UInt32 :=
  let isShift := (key.modifier &&& 1) != 0 || VkMap.isShiftedChar key.keycode
  let isCtrl := (key.modifier &&& 4) != 0
  let isAlt := (key.modifier &&& 8) != 0
  (if isShift then 1 else 0) ||| (if isCtrl then 2 else 0) ||| (if isAlt then 4 else 0)

def processKey (api : Api W) (ime : ImeFunctions W) (s : WinImmSession) (key : KeyEvent) :
    Act W (Bool × WinImmSession) :=
  if refusedUpFront key then pure (false, s)
  else processVk api ime s (VkMap.rimeToVk api.vkKeyScan key.keycode) (winModifiers key)
    ((key.modifier &&& RELEASE_MASK) != 0)

def compositionOf (api : Api W) (himc : Himc) (w : W) : Option ImmOps.CompositionData :=
  ImmOps.getCompositionString (api.immGetCompositionString himc .compStr w)
    (api.immGetCompositionString himc .cursorPos w).size
    (api.immGetCompositionString himc .compAttr w)

/-- A fault stops the host, and no menu is sent then. -/
def menuOf (api : Api W) (himc : Himc) (w : W) : Option MenuProto :=
  match ImmOps.getCandidateList (api.immGetCandidateList himc w) with
  | .ok menu => menu
  | .error _ => none

def contextOf (api : Api W) (himc : Himc) (w : W) : RimeContextProto where
  composition := (compositionOf api himc w).map fun comp =>
    ⟨Int32.ofNat comp.text.utf8ByteSize, comp.cursorPos, comp.selStart, comp.selEnd, comp.text⟩
  menu := menuOf api himc w
  commitTextPreview := ""

def getContext (api : Api W) (s : WinImmSession) : Act W (RimeContextProto × WinImmSession) := do
  let s ← harvestThreadMessages api s
  let context ← observe (contextOf api s.himc)
  pure (context, s)

def getCommit (api : Api W) (s : WinImmSession) : Act W (Option String × WinImmSession) := do
  let s ← harvestThreadMessages api s
  pure (s.pendingCommit, { s with pendingCommit := none })

def compText (api : Api W) (himc : Himc) (w : W) : String :=
  ((compositionOf api himc w).map (·.text)).getD ""

def menuTexts (api : Api W) (himc : Himc) (w : W) : List String :=
  match ImmOps.getCandidateList (api.immGetCandidateList himc w) with
  | .ok menu => (menu.map fun menu => menu.candidates.map (·.text)).getD []
  | .error _ => api.misread himc w

def selectionVk (index : Nat) : Option UInt16 :=
  if index ≤ 8 then some (0x31 + UInt16.ofNat index)
  else if index = 9 then some 0x30
  else none

def notifyIME (api : Api W) (ime : ImeFunctions W) (himc : Himc) (action idx value : UInt32) :
    Act W Bool :=
  match ime.notifyIme with
  | some notify => notify himc action idx value
  | none => api.immNotifyIME himc action idx value

/-- The fallback of `select_candidate`: notify the IME, and ask it to complete
the composition when nothing came of that. -/
def notifySelection (api : Api W) (ime : ImeFunctions W) (s : WinImmSession) (index : Nat)
    (beforeComp : String) (beforeMenu : List String) : Act W (Bool × WinImmSession) := do
  let _ ← notifyIME api ime s.himc NI_SELECTCANDIDATESTR 0 (UInt32.ofNat index)
  let s ← harvestThreadMessages api s
  let afterComp ← observe (compText api s.himc)
  let afterMenu ← observe (menuTexts api s.himc)
  if s.pendingCommit = none ∧ afterComp = beforeComp ∧ afterMenu = beforeMenu ∧ beforeComp ≠ "" then do
    let _ ← notifyIME api ime s.himc NI_COMPOSITIONSTR CPS_COMPLETE 0
    let _ ← api.immGenerateMessage s.himc
    let s ← harvestThreadMessages api s
    pure (true, s)
  else pure (true, s)

/-- A composition that survives the digit key is confirmed with Return. -/
def confirmSelection (api : Api W) (ime : ImeFunctions W) (s : WinImmSession) (keyedComp : String) :
    Act W WinImmSession :=
  if keyedComp ≠ "" ∧ s.pendingCommit = none then do
    let (_, s) ← processVk api ime s VK_RETURN 0 false
    harvestThreadMessages api s
  else pure s

def selectCandidate (api : Api W) (ime : ImeFunctions W) (s : WinImmSession) (index : Nat) :
    Act W (Bool × WinImmSession) := do
  let beforeComp ← observe (compText api s.himc)
  let beforeMenu ← observe (menuTexts api s.himc)
  match selectionVk index with
  | none => notifySelection api ime s index beforeComp beforeMenu
  | some vk => do
      let (selectedByKey, s) ← processVk api ime s vk 0 false
      let keyedComp ← observe (compText api s.himc)
      let keyedResult ← observe (resultString api s.himc)
      let keyedMenu ← observe (menuTexts api s.himc)
      if s.pendingCommit ≠ none ∨ keyedComp ≠ beforeComp ∨ keyedMenu ≠ beforeMenu ∨
          keyedResult.getD "" ≠ "" ∨ selectedByKey then do
        let s ← confirmSelection api ime s keyedComp
        pure (true, s)
      else notifySelection api ime s index beforeComp beforeMenu

end RimeWinime.Adapter
