import RimeWinime.Gateway.Backends
import RimeWinime.Gateway.CandidatePage
import RimeWinime.Lib.Outside

namespace RimeWinime.WinImm

open World Outside ImmOps

abbrev Handle : Type := UInt32

structure TransMsg where
  message : UInt32
  wParam : UInt32
  lParam : UInt32
deriving DecidableEq

structure Translated where
  returned : UInt32
  msgCount : UInt32
  transMsg : Nat → TransMsg

/-- A candidate list as Windows writes it: its header is in the buffer, and the worker can
have the buffer and count up to the start of the page. -/
structure ListBuffer (size : UInt32) where
  bytes : List UInt8
  length : bytes.length = size.toNat
  header : headerSize ≤ size.toNat
  small : size.toNat < 2 ^ 31
  reach : (CandidatePage.word bytes 16).toNat + 7 < 2 ^ 30

inductive Text
  | composition
  | reading
deriving DecidableEq

inductive Call
  | envVar (name : String)
  | lastError
  | immCreateContext
  | immDestroyContext (himc : Handle)
  | immAssociateContext (hwnd himc : Handle)
  | immGetContext (hwnd : Handle)
  | immReleaseContext (hwnd himc : Handle)
  | immSetOpenStatus (himc : Handle)
  | immSetConversionStatus (himc : Handle)
  | immGetDefaultImeWnd (hwnd : Handle)
  | immProcessKey (hwnd hkl : Handle) (vk lParam : UInt32)
  | immTranslateMessage (hwnd : Handle) (vk lParam : UInt32)
  | imeSelect (himc : Handle)
  | imeSetActiveContext (himc : Handle)
  | imeProcessKey (himc : Handle) (vk lParam : UInt32) (keyState : List UInt8)
  | imeToAsciiEx (imeVk scan : UInt32) (keyState : List UInt8) (himc : Handle)
  | createWindow
  | createEdit (parent : Handle)
  | destroyWindow (hwnd : Handle)
  /-- `ShowWindow` and what brings the window to the front -/
  | showWindow (hwnd : Handle)
  | loadLibrary (path : String)
  | getProcAddress (library : Handle) (name : String)
  | freeLibrary (library : Handle)
  | getKeyboardState
  | getKeyboardLayout (thread : UInt32)
  | loadKeyboardLayout (name : String)
  | activateKeyboardLayout (hkl : Handle)
  | getWindowThreadProcessId (hwnd : Handle)
  | vkKeyScanEx (ch : UInt16) (hkl : Handle)
  | mapVirtualKey (vk : UInt32)
  | toUnicode (vk scan : UInt32) (keyState : List UInt8)
  | toAsciiEx (vk scan : UInt32) (keyState : List UInt8) (hkl : Handle)
  | sendKey (hwnd : Handle) (down : Bool) (vk lParam : UInt32)
  | sendMessage (hwnd : Handle) (message wParam lParam : UInt32)
  | pumpMessages
  | compositionSize (himc : Handle) (kind : Text)
  | compositionString (himc : Handle) (kind : Text) (size : Nat)
  | candidateListCount (himc : Handle) (ansi : Bool)
  | candidateListSize (himc : Handle) (listIndex : UInt32) (ansi : Bool)
  | candidateList (himc : Handle) (listIndex : UInt32) (ansi : Bool) (size : UInt32)

@[reducible] def Call.Answer : Call → Type
  | envVar _ => Option String
  | lastError => String
  | immCreateContext | immAssociateContext _ _ | immGetContext _ | immGetDefaultImeWnd _ => Handle
  | immDestroyContext _ | immReleaseContext _ _ | immSetOpenStatus _ | immSetConversionStatus _ => Unit
  | immProcessKey _ _ _ _ => UInt32
  | immTranslateMessage _ _ _ => Unit
  | imeSelect _ | imeSetActiveContext _ => Unit
  | imeProcessKey _ _ _ _ => Bool
  | imeToAsciiEx _ _ _ _ => Translated
  | createWindow | createEdit _ => Handle
  | destroyWindow _ | showWindow _ => Unit
  | loadLibrary _ => Handle
  | getProcAddress _ _ => Bool
  | freeLibrary _ => Unit
  | getKeyboardState => Option (List UInt8)
  | getKeyboardLayout _ | loadKeyboardLayout _ => Handle
  | activateKeyboardLayout _ => Unit
  | getWindowThreadProcessId _ => UInt32
  | vkKeyScanEx _ _ => UInt16
  | mapVirtualKey _ => UInt32
  | toUnicode _ _ _ | toAsciiEx _ _ _ _ => Int × UInt16
  | sendKey _ _ _ _ | sendMessage _ _ _ _ | pumpMessages => Unit
  | compositionSize _ _ => Int
  | compositionString _ _ _ => Option (List UInt16)
  | candidateListCount _ _ | candidateListSize _ _ _ => UInt32
  | candidateList _ _ _ size => Option (ListBuffer size)

structure WinImmRuntime where
  hwnd : Handle
  targetHwnd : Handle
  himc : Handle
  previousHimc : Handle
deriving DecidableEq

structure QqImeExports where
  module : Handle
  imeSelect : Bool
  imeSetActiveContext : Bool
deriving DecidableEq

structure Imm32Exports where
  module : Handle
  immProcessKey : Bool
  immTranslateMessage : Bool
deriving DecidableEq

structure Fields where
  runtime : Option WinImmRuntime := none
  imeExports : Option QqImeExports := none
  imm32Exports : Option Imm32Exports := none
  initError : Option String := none
deriving DecidableEq

abbrev Os : Type := Answers Call.Answer

abbrev Process : Type := Program Fields Call.Answer

abbrev Run (α : Type) : Type := Act Process α

end RimeWinime.WinImm
