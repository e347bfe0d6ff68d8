import RimeWinime.Lib.World

namespace RimeWinime.Win32

open World

abbrev Hwnd := Nat

abbrev Himc := Nat

structure Msg where
  hwnd : Hwnd
  message : UInt32
  wParam : UInt64
  lParam : UInt64
deriving DecidableEq

structure TransMsg where
  message : UInt32
  wParam : UInt64
  lParam : UInt64
deriving DecidableEq

def WM_KEYDOWN : UInt32 := 0x0100
def WM_KEYUP : UInt32 := 0x0101
def WM_CHAR : UInt32 := 0x0102
def WM_SYSKEYDOWN : UInt32 := 0x0104
def WM_SYSKEYUP : UInt32 := 0x0105
def WM_IME_COMPOSITION : UInt32 := 0x010F
def WM_IME_SETCONTEXT : UInt32 := 0x0281
def WM_IME_NOTIFY : UInt32 := 0x0282
def WM_IME_SELECT : UInt32 := 0x0285
def WM_IME_CHAR : UInt32 := 0x0286

def GCS_RESULTSTR : UInt32 := 0x0800
def ISC_SHOWUIALL : UInt64 := 0xC000000F
def IMN_SETCONVERSIONMODE : UInt64 := 0x0006
def IMN_SETOPENSTATUS : UInt64 := 0x0008
def NI_SELECTCANDIDATESTR : UInt32 := 0x0012
def NI_COMPOSITIONSTR : UInt32 := 0x0015
def CPS_COMPLETE : UInt32 := 0x0001
def IPHK_PROCESSBYIME : UInt32 := 0x00000002
def IACE_DEFAULT : UInt32 := 0x0010

def VK_RETURN : UInt16 := 0x0D
def VK_SHIFT : Nat := 0x10
def VK_CONTROL : Nat := 0x11
def VK_MENU : Nat := 0x12
def VK_LSHIFT : Nat := 0xA0
def VK_LCONTROL : Nat := 0xA2
def VK_LMENU : Nat := 0xA4

inductive Gcs
  | compStr
  | compAttr
  | cursorPos
  | resultStr
deriving DecidableEq

/-- Both `ImmGetCompositionStringW` calls of one query: the size the first
reports, and what the second returns and writes into the buffer. -/
structure CompRead where
  size : Int
  copied : Int
  units : List UInt16
  attrs : List UInt8
deriving DecidableEq

structure CandRead where
  size : UInt32
  copied : UInt32
  bytes : List UInt8
deriving DecidableEq

abbrev KeyState := Nat → UInt8

/-- The Win32 and IMM32 calls of the host, over an arbitrary world. Queries
that change nothing are plain functions of the world. `misread` are the texts that a
candidate list gives which is not read in bounds: nothing is known of them. -/
structure Api (W : Type) where
  peekMessage : Option Hwnd → Act W (Option Msg)
  dispatchMessage : Msg → Act W Unit
  sendMessage : Hwnd → UInt32 → UInt64 → UInt64 → Act W Unit
  setKeyboardState : KeyState → Act W Unit
  toUnicode : UInt32 → UInt32 → KeyState → Act W (Int × UInt16)
  getKeyboardLayout : Hwnd → W → UInt64
  mapVirtualKey : UInt32 → UInt32
  vkKeyScan : UInt16 → UInt16
  immProcessKey : Hwnd → UInt64 → UInt32 → UInt32 → Act W UInt32
  immTranslateMessage : Hwnd → UInt32 → UInt64 → UInt32 → Act W Bool
  immGenerateMessage : Himc → Act W Bool
  immNotifyIME : Himc → UInt32 → UInt32 → UInt32 → Act W Bool
  immSetOpenStatus : Himc → Bool → Act W Bool
  immSetNativeConversion : Himc → Act W Bool
  immGetDefaultIMEWnd : Hwnd → W → Hwnd
  immGetCompositionString : Himc → Gcs → W → CompRead
  immGetCandidateList : Himc → W → CandRead
  misread : Himc → W → List String
  createHostWindow : Bool → Act W (Option Hwnd)
  createEditChild : Hwnd → Act W (Option Hwnd)
  showHostWindow : Hwnd → Hwnd → Act W Unit
  destroyWindow : Hwnd → Act W Unit
  immCreateContext : Act W Himc
  immDestroyContext : Himc → Act W Unit
  immAssociateContext : Hwnd → Himc → Act W Unit
  immAssociateContextEx : Hwnd → Himc → UInt32 → Act W Unit

/-- The entry points taken from the IME's DLL. The last two are optional there. -/
structure ImeFunctions (W : Type) where
  hModule : Nat
  select : Himc → Bool → Act W Bool
  processKey : Himc → UInt32 → UInt32 → KeyState → Act W Bool
  toAsciiEx : UInt32 → KeyState → Himc → Act W (UInt32 × List TransMsg)
  notifyIme : Option (Himc → UInt32 → UInt32 → UInt32 → Act W Bool)
  setActiveContext : Option (Himc → Bool → Act W Bool)

variable {W : Type}

def inertApi : Api W where
  peekMessage _ := pure none
  dispatchMessage _ := pure ()
  sendMessage _ _ _ _ := pure ()
  setKeyboardState _ := pure ()
  toUnicode _ _ _ := pure (0, 0)
  getKeyboardLayout _ _ := 0
  mapVirtualKey _ := 0
  vkKeyScan _ := 0
  immProcessKey _ _ _ _ := pure 0
  immTranslateMessage _ _ _ _ := pure false
  immGenerateMessage _ := pure false
  immNotifyIME _ _ _ _ := pure false
  immSetOpenStatus _ _ := pure false
  immSetNativeConversion _ := pure false
  immGetDefaultIMEWnd _ _ := 0
  immGetCompositionString _ _ _ := ⟨0, 0, [], []⟩
  immGetCandidateList _ _ := ⟨0, 0, []⟩
  misread _ _ := []
  createHostWindow _ := pure none
  createEditChild _ := pure none
  showHostWindow _ _ := pure ()
  destroyWindow _ := pure ()
  immCreateContext := pure 0
  immDestroyContext _ := pure ()
  immAssociateContext _ _ := pure ()
  immAssociateContextEx _ _ _ := pure ()

/-- The same, with a candidate list. -/
def listedApi (read : CandRead) : Api W :=
  { inertApi with immGetCandidateList := fun _ _ => read }

def inertIme : ImeFunctions W where
  hModule := 0
  select _ _ := pure false
  processKey _ _ _ _ := pure false
  toAsciiEx _ _ _ := pure (0, [])
  notifyIme := none
  setActiveContext := none

/-- The message queue of a thread, beside the rest of the world. -/
structure Thread (σ : Type) where
  queue : List Msg
  rest : σ
deriving DecidableEq

def wants (filter : Option Hwnd) (msg : Msg) : Bool :=
  match filter with
  | none => true
  | some hwnd => msg.hwnd == hwnd

/-- `PeekMessageW` with `PM_REMOVE`. -/
def peekQueue {σ : Type} (filter : Option Hwnd) : Act (Thread σ) (Option Msg) := fun w =>
  match w.queue.find? (wants filter) with
  | none => (none, w)
  | some msg => (some msg, ⟨w.queue.eraseP (wants filter), w.rest⟩)

end RimeWinime.Win32
