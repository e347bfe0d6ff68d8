import RimeWinime.Skeleton.Windows

namespace RimeWinime.ImeHost

open World Outside
open CandidateReply (number signed)
open Utf8 (encode)

def vkShift : UInt32 := 0x10

def vkControl : UInt32 := 0x11

def vkMenu : UInt32 := 0x12

def vkSpace : UInt32 := 0x20

def vkPrior : UInt32 := 0x21

def vkNext : UInt32 := 0x22

def vkPacket : UInt32 := 0xE7

def wmInputLangChangeRequest : UInt32 := 0x50

def wmInputLangChange : UInt32 := 0x51

def wmChar : UInt32 := 0x102

def wmImeSetContext : UInt32 := 0x281

def wmImeNotify : UInt32 := 0x282

def wmImeSelect : UInt32 := 0x285

def imnSetConversionMode : UInt32 := 6

def imnSetOpenStatus : UInt32 := 8

def iscShowUiAll : UInt32 := 0xC000000F

def iphkProcessByIme : UInt32 := 2

def imePropKbdCharFirst : UInt32 := 2

def imePropAcceptWideVkey : UInt32 := 0x20

def imePropUnicode : UInt32 := 0x80000

def has (flags flag : UInt32) : Bool := flags &&& flag ≠ 0

def hexDigits (width n : Nat) : List Char := (Nat.toDigits 16 n).leftpad width '0'

def hex (width n : Nat) : List UInt8 := encode (String.ofList (hexDigits width n))

def upperHex (width n : Nat) : List UInt8 :=
  encode (String.ofList ((hexDigits width n).map Char.toUpper))

section

variable (os : Os)

def noteContext (target : Handle) : Run Unit := do
  let ctx ← ask os (.immGetContext target)
  modify fun s => { s with lastCtxNow := ctx, lastCtxMatch := ctx = s.himc }
  when (ctx ≠ 0) (ask os (.immReleaseContext target ctx))

def updateContextSnapshot : Run Unit := do
  let s ← get
  noteContext os (imeTargetHwnd s)

def layouts : List String := ["E0200804", "E0220804", "E0010804", "00000804", "E0200409"]

def loadLayout : List String → Run Handle
  | [] => pure 0
  | name :: names => do
      let hkl ← ask os (.loadKeyboardLayout name)
      if hkl ≠ 0 then pure hkl else loadLayout names

def switchLayout (target current hkl : Handle) : Run Unit := do
  modify fun s => { s with lastHkl := hkl, lastHklSwitch := hkl ≠ 0 && hkl ≠ current }
  when (hkl ≠ 0) do
    ask os (.activateKeyboardLayout hkl)
    ask os (.sendMessage false target wmInputLangChangeRequest 0 hkl)
    ask os (.sendMessage false target wmInputLangChange 0 hkl)

def ensureImeLayout (target : Handle) : Run Unit := do
  let current ← ask os (.getKeyboardLayout 0)
  let loaded ← loadLayout os layouts
  switchLayout os target current (if loaded = 0 then current else loaded)

/-- The calls for the window that shows the input method. -/
def showImeWindow (useHimc target : Handle) : Run Unit := do
  let s ← get
  let defImeWnd ← ask os (.immGetDefaultImeWnd target)
  when (defImeWnd ≠ 0 && defImeWnd ≠ s.hwnd) do
    ask os (.sendMessage false defImeWnd wmImeSetContext 1 iscShowUiAll)
    ask os (.sendMessage false defImeWnd wmImeSelect 1 useHimc)
    ask os (.sendMessage false defImeWnd wmImeNotify imnSetOpenStatus 0)
    ask os (.sendMessage false defImeWnd wmImeNotify imnSetConversionMode 0)

/-- The modes stay as they were noted if they cannot be had. -/
def noteConversion (useHimc : Handle) : Run Unit := do
  match ← ask os (.immGetConversionStatus useHimc) with
  | some (mode, sentence) =>
      modify fun s => { s with lastConvMode := mode, lastSentenceMode := sentence }
  | none => pure ()

def setActive (useHimc : Handle) : Run Unit := do
  let s ← get
  if s.exports.imeSetActiveContext then
    let activate ← ask os (.imeSetActiveContext useHimc)
    modify fun s => { s with lastActivate := activate }
  else modify fun s => { s with lastActivate := 0 }

/-- What is done with the context that the window has, or else with the host's own. -/
def selectIme (useHimc target : Handle) : Run Unit := do
  ensureImeLayout os target
  let select ← ask os (.imeSelect useHimc true)
  modify fun s => { s with lastSelect := select }
  let opened ← ask os (.immSetOpenStatus useHimc)
  modify fun s => { s with lastOpen := opened }
  let convSet ← ask os (.immSetConversionStatus useHimc)
  modify fun s => { s with lastConvSet := convSet }
  noteConversion os useHimc
  setActive os useHimc
  ask os (.sendMessage false target wmImeSetContext 1 iscShowUiAll)
  showImeWindow os useHimc target

def activateImePath : Run Unit := do
  let s ← get
  let target := imeTargetHwnd s
  updateContextSnapshot os
  let s ← get
  selectIme os (if s.lastCtxNow ≠ 0 then s.lastCtxNow else s.himc) target
  updateContextSnapshot os
  ask os .pumpMessages

/-- The context that the window has, lent, or the host's own. -/
def getActiveHimc : Run (Handle × Bool) := do
  let s ← get
  let ctx ← ask os (.immGetContext (imeTargetHwnd s))
  if ctx ≠ 0 then
    modify fun s => { s with lastCtxNow := ctx, lastCtxMatch := ctx = s.himc }
    pure (ctx, true)
  else pure (s.himc, false)

def releaseActiveHimc (himc : Handle) (borrowed : Bool) : Run Unit := do
  let s ← get
  when (borrowed && himc ≠ 0) (ask os (.immReleaseContext (imeTargetHwnd s) himc))

def makeNarrowVkey (s : State) (vk scan : UInt32) (keyState : List UInt8) (hkl : Handle) :
    Run UInt32 := do
  let (n, w) ← ask os (.toAsciiEx vk scan keyState hkl)
  let imeVk := (vk &&& 0xFF) ||| (w.toUInt32 <<< (8 : UInt32))
  let wide := imeVk &&& 0xFF = vkPacket && has s.fdwProperty imePropAcceptWideVkey
  pure (if 0 < n then (if wide then imeVk else imeVk &&& 0xFFFF) else vk)

def makeImeVkey (vk scan : UInt32) (keyState : List UInt8) (hkl : Handle) : Run UInt32 := do
  let s ← get
  if !has s.fdwProperty imePropKbdCharFirst then pure vk
  else if s.preferUnicodeVkey || has s.fdwProperty imePropUnicode then
    let (n, wc) ← ask os (.toUnicode vk scan keyState)
    if n = 1 then pure ((vk &&& 0xFF) ||| (wc.toUInt32 <<< (16 : UInt32)))
    else if has s.fdwProperty imePropUnicode then pure vk
    else makeNarrowVkey os s vk scan keyState hkl
  else makeNarrowVkey os s vk scan keyState hkl

def keyLparamFromVk (vk : UInt32) (keyUp altDown : Bool) : Run UInt32 := do
  let scan ← ask os (.mapVirtualKey vk)
  let l := (1 : UInt32) ||| (scan <<< (16 : UInt32))
  let l := if altDown then l ||| ((1 : UInt32) <<< 29) else l
  pure (if keyUp then l ||| ((1 : UInt32) <<< 30) ||| ((1 : UInt32) <<< 31) else l)

def sendModifierKey (vk : UInt32) (keyDown altDown : Bool) : Run Unit := do
  let l ← keyLparamFromVk os vk (!keyDown) altDown
  let s ← get
  ask os (.sendKey (imeTargetHwnd s) keyDown vk l)

structure KeyChord where
  vk : UInt32
  ctrl : Bool := false
  shift : Bool := false
  alt : Bool := false
deriving DecidableEq

/-- `key_state[vk] |= 0x80` -/
def pressed (keyState : List UInt8) (vk : UInt32) : List UInt8 :=
  keyState.modify vk.toNat (· ||| 0x80)

def chordState (keyState : List UInt8) (k : KeyChord) : List UInt8 :=
  let keyState := if k.ctrl then pressed keyState vkControl else keyState
  let keyState := if k.shift then pressed keyState vkShift else keyState
  let keyState := if k.alt then pressed keyState vkMenu else keyState
  if k.vk < 256 then pressed keyState k.vk else keyState

/-- The modifiers of a key go down before it, and up after it in the other order. -/
def modifiersDown (k : KeyChord) : Run Unit := do
  when k.ctrl (sendModifierKey os vkControl true k.alt)
  when k.shift (sendModifierKey os vkShift true k.alt)
  when k.alt (sendModifierKey os vkMenu true true)

def modifiersUp (k : KeyChord) : Run Unit := do
  when k.alt (sendModifierKey os vkMenu false true)
  when k.shift (sendModifierKey os vkShift false k.alt)
  when k.ctrl (sendModifierKey os vkControl false k.alt)

/-- The messages that the input method has made of the key, the first sixteen. -/
def sendTranslated : List TransMsg → Run Unit
  | [] => pure ()
  | m :: msgs => do
      let s ← get
      ask os (.sendMessage false (imeTargetHwnd s) m.message m.wParam m.lParam)
      sendTranslated msgs

/-- What the input method makes of a key that is down. -/
structure Processed where
  imeVk : UInt32
  tml : Translated

def processDown (k : KeyChord) (useHimc : Handle) (scan : UInt32) (keyData : UInt32)
    (keyState : List UInt8) : Run Processed := do
  let s ← get
  let thread ← ask os (.getWindowThreadProcessId (imeTargetHwnd s))
  let hkl ← ask os (.getKeyboardLayout thread)
  let immFlags ← ask os (.immProcessKey (imeTargetHwnd s) hkl k.vk keyData)
  modify fun s => { s with lastImmFlags := immFlags }
  when (has immFlags iphkProcessByIme) (ask os (.immTranslateMessage (imeTargetHwnd s) k.vk keyData))
  ask os .pumpMessages
  let imeVk ← makeImeVkey os k.vk scan keyState hkl
  let process ← ask os (.imeProcessKey useHimc k.vk keyData keyState)
  modify fun s => { s with lastProcess := process }
  let tml ← ask os (.imeToAsciiEx imeVk scan keyState useHimc)
  modify fun s => { s with lastAscii := tml.returned, lastMsgs := tml.msgCount }
  sendTranslated os ((List.range (min tml.msgCount.toNat 16)).map tml.transMsg)
  pure ⟨imeVk, tml⟩

def noteFirstList (candCtx : Handle) : Run Unit := do
  let (list, compBytes) ← ask os (.firstList candCtx)
  let read := list.size ≠ 0 && list.allocated && list.got ≠ 0
  modify fun s => { s with
    lastCompBytes := compBytes
    lastCandCount := if read then list.dwCount else 0
    lastCandSel := if read then list.dwSelection else 0 }

def noteCandidates : Run Unit := do
  let (candCtx, borrowed) ← getActiveHimc os
  when (candCtx ≠ 0) do
    noteFirstList os candCtx
    releaseActiveHimc os candCtx borrowed

def keyReply (s : State) (scan : UInt32) (p : Processed) : List UInt8 :=
  let msg := p.tml.transMsg 0
  encode "KEY_RET process=" ++ signed s.lastProcess.toInt ++
    encode " immFlags=0x" ++ hex 8 s.lastImmFlags.toNat ++
    encode " ascii=" ++ number s.lastAscii.toNat ++ encode " msgs=" ++ number s.lastMsgs.toNat ++
    encode " scan=0x" ++ hex 2 scan.toNat ++ encode " imeVk=0x" ++ hex 8 p.imeVk.toNat ++
    (if 0 < p.tml.msgCount then
      encode " firstMsg=0x" ++ hex 4 msg.message.toNat ++
        encode " firstW=0x" ++ hex 8 msg.wParam.toNat ++
        encode " firstL=0x" ++ hex 8 msg.lParam.toNat
    else []) ++ encode "\n"

/-- The key and its modifiers go down, and after what the input method does with it they
are let go. -/
def strike (k : KeyChord) (target useHimc : Handle) (keyState : List UInt8) :
    Run (UInt32 × Processed) := do
  let scan ← ask os (.mapVirtualKey k.vk)
  let keyData ← keyLparamFromVk os k.vk false k.alt
  let keyUpData ← keyLparamFromVk os k.vk true k.alt
  modifiersDown os k
  ask os (.sendKey target true k.vk keyData)
  let p ← processDown os k useHimc scan keyData keyState
  ask os (.sendKey target false k.vk keyUpData)
  modifiersUp os k
  pure (scan, p)

/-- The key is struck with the context of the window, or else with the host's own. -/
def strikeInContext (k : KeyChord) (target own : Handle) (keyState : List UInt8) :
    Run (UInt32 × Processed) := do
  let ctx ← ask os (.immGetContext target)
  modify fun s => { s with lastCtxNow := ctx }
  let struck ← strike os k target (if ctx ≠ 0 then ctx else own) keyState
  ask os .pumpMessages
  modify fun s => { s with lastNotify := 0 }
  when (ctx ≠ 0) (ask os (.immReleaseContext target ctx))
  pure struck

def handleKeyModInternal (k : KeyChord) (activateFirst : Bool) : Run (List UInt8) := do
  let state ← ask os .getKeyboardState
  when activateFirst (activateImePath os)
  let s ← get
  let (scan, p) ← strikeInContext os k (imeTargetHwnd s) s.himc
    (chordState (state.getD (List.replicate 256 0)) k)
  noteCandidates os
  let s ← get
  pure (keyReply s scan p)

def handleKeyInternal (vk : UInt32) (activateFirst : Bool) : Run (List UInt8) :=
  handleKeyModInternal os { vk } activateFirst

def handleKey (vk : UInt32) : Run (List UInt8) := handleKeyInternal os vk true

def getTargetHkl : Run Handle := do
  let s ← get
  let thread ← ask os (.getWindowThreadProcessId (imeTargetHwnd s))
  let hkl ← ask os (.getKeyboardLayout thread)
  if hkl = 0 then ask os (.getKeyboardLayout 0) else pure hkl

def keyChordFromWideChar (wc : UInt16) (hkl : Handle) : Run (Option KeyChord) := do
  if wc < 0x20 then pure none
  else
    let packed ← ask os (.vkKeyScanEx wc hkl)
    let vk := packed &&& 0xFF
    if packed = 0xFFFF || vk = 0 || vk = 0xFF then pure none
    else
      let shiftState := packed >>> 8
      pure (some
        { vk := vk.toUInt32
          ctrl := shiftState &&& 2 ≠ 0
          shift := shiftState &&& 1 ≠ 0
          alt := shiftState &&& 4 ≠ 0 })

def keyChordFromAsciiChar (c : UInt8) (hkl : Handle) : Run (Option KeyChord) :=
  keyChordFromWideChar os c.toUInt16 hkl

end

end RimeWinime.ImeHost
