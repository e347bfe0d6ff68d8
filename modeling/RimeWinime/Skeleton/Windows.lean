import RimeWinime.Lib.Outside
import RimeWinime.Skeleton.CandidateReply
import RimeWinime.Skeleton.RxBuffer

namespace RimeWinime.ImeHost

open World Outside
open ImeText (CompQuery CandList)
open CandidateReply (ImeState)
open RxBuffer (Recv)

abbrev Handle : Type := UInt32

def invalidSocket : Handle := 0xFFFFFFFF

structure TransMsg where
  message : UInt32
  wParam : UInt32
  lParam : UInt32
deriving DecidableEq

structure Translated where
  returned : UInt32
  msgCount : UInt32
  transMsg : Nat → TransMsg

structure TraceState where
  comp : CompQuery
  reading : CompQuery
  countW : UInt32 × UInt32
  countA : UInt32 × UInt32
  listW : CandList
  listA : CandList

structure PreeditState where
  comp : CompQuery
  reading : CompQuery
  result : CompQuery
  cursor : Int
  delta : Int

inductive Call
  | immGetContext (hwnd : Handle)
  | immReleaseContext (hwnd himc : Handle)
  | immCreateContext
  | immDestroyContext (himc : Handle)
  | immAssociateContext (hwnd himc : Handle)
  | immAssociateContextEx (hwnd himc : Handle) (flags : UInt32)
  | immSetOpenStatus (himc : Handle)
  | immSetConversionStatus (himc : Handle)
  | immGetConversionStatus (himc : Handle)
  | immGetDefaultImeWnd (hwnd : Handle)
  | immProcessKey (hwnd hkl : Handle) (vk : UInt32) (keyData : UInt32)
  | immTranslateMessage (hwnd : Handle) (vk : UInt32) (keyData : UInt32)
  /-- The queries of one reply, of one step of a trace and of the end of a key. -/
  | candidateState (himc : Handle)
  | preeditState (himc : Handle)
  | traceState (himc : Handle)
  | firstList (himc : Handle)
  | compositionString (himc : Handle)
  | imeInquire
  | imeSelect (himc : Handle) (select : Bool)
  | imeSetActiveContext (himc : Handle)
  | imeProcessKey (himc : Handle) (vk : UInt32) (keyData : UInt32) (keyState : List UInt8)
  | imeToAsciiEx (imeVk scan : UInt32) (keyState : List UInt8) (himc : Handle)
  | imeConversionList (himc : Handle) (source : List UInt16)
  | notifyIme (himc : Handle)
  | getKeyboardLayout (thread : UInt32)
  | loadKeyboardLayout (name : String)
  | activateKeyboardLayout (hkl : Handle)
  | getWindowThreadProcessId (hwnd : Handle)
  | getKeyboardState
  | mapVirtualKey (vk : UInt32)
  | toUnicode (vk scan : UInt32) (keyState : List UInt8)
  | toAsciiEx (vk scan : UInt32) (keyState : List UInt8) (hkl : Handle)
  | vkKeyScanEx (wc : UInt16) (hkl : Handle)
  /-- A key that the host presses or lets go itself, and any other message. -/
  | sendKey (hwnd : Handle) (down : Bool) (vk : UInt32) (lParam : UInt32)
  | sendMessage (wide : Bool) (hwnd : Handle) (message : UInt32) (wParam lParam : UInt32)
  | pumpMessages
  /-- `ShowWindow` and what brings the window to the front -/
  | showWindow (hwnd target : Handle) (visible : Bool)
  | registerClass
  | createWindow (visible : Bool)
  | createEdit (parent : Handle)
  | destroyWindow (hwnd : Handle)
  | loadLibrary (path : String)
  | getProcAddress (library : Handle) (name : String)
  | freeLibrary (library : Handle)
  | getLastError
  | wsaStartup
  | wsaCleanup
  | wsaGetLastError
  | socket
  | bind (sock : Handle) (port : UInt16)
  | listen (sock : Handle)
  | accept (sock : Handle)
  | ioctlSocket (sock : Handle)
  | recv (sock : Handle)
  | send (sock : Handle) (bytes : List UInt8)
  | closeSocket (sock : Handle)

@[reducible] def Call.Answer : Call → Type
  | immGetContext _ | immCreateContext | immAssociateContext _ _ | immGetDefaultImeWnd _ => Handle
  | immReleaseContext _ _ | immDestroyContext _ | immAssociateContextEx _ _ _ => Unit
  | immSetOpenStatus _ | immSetConversionStatus _ => Int32
  | immGetConversionStatus _ => Option (UInt32 × UInt32)
  | immProcessKey _ _ _ _ => UInt32
  | immTranslateMessage _ _ _ => Unit
  | candidateState _ => ImeState
  | preeditState _ => PreeditState
  | traceState _ => TraceState
  | firstList _ => CandList × Int
  | compositionString _ => Int × List UInt16
  | imeInquire => UInt32 × List UInt16
  | imeSelect _ _ | imeSetActiveContext _ | imeProcessKey _ _ _ _ => Int32
  | imeToAsciiEx _ _ _ _ => Translated
  | imeConversionList _ _ => CandList
  | notifyIme _ => Int32
  | getKeyboardLayout _ | loadKeyboardLayout _ => Handle
  | activateKeyboardLayout _ => Unit
  | getWindowThreadProcessId _ => UInt32
  | getKeyboardState => Option (List UInt8)
  | mapVirtualKey _ => UInt32
  | toUnicode _ _ _ | toAsciiEx _ _ _ _ => Int × UInt16
  | vkKeyScanEx _ _ => UInt16
  | sendKey _ _ _ _ | sendMessage _ _ _ _ _ | pumpMessages | showWindow _ _ _ => Unit
  | registerClass => Bool
  | createWindow _ | createEdit _ => Handle
  | destroyWindow _ => Unit
  | loadLibrary _ => Handle
  | getProcAddress _ _ => Bool
  | freeLibrary _ => Unit
  | getLastError | wsaGetLastError => UInt32
  | wsaStartup => Bool
  | wsaCleanup => Unit
  | socket | accept _ => Handle
  | bind _ _ | listen _ => Bool
  | ioctlSocket _ => Unit
  | recv _ => Recv
  | send _ _ => Int
  | closeSocket _ => Unit

structure Exports where
  imeInquire : Bool := false
  imeSelect : Bool := false
  imeSetActiveContext : Bool := false
  imeConversionList : Bool := false
  imeProcessKey : Bool := false
  imeToAsciiEx : Bool := false
  notifyIme : Bool := false
deriving DecidableEq

structure Notes where
  lastSelect : Int32 := 0
  lastActivate : Int32 := 0
  lastProcess : Int32 := 0
  lastImmFlags : UInt32 := 0
  lastAscii : UInt32 := 0
  lastMsgs : UInt32 := 0
  lastNotify : Int32 := 0
  lastOpen : Int32 := 0
  lastConvSet : Int32 := 0
  lastConvMode : UInt32 := 0
  lastSentenceMode : UInt32 := 0
  lastCtxMatch : Bool := false
  lastHkl : Handle := 0
  lastHklSwitch : Bool := false
  lastAssocPrev : Handle := 0
  lastCtxNow : Handle := 0
  lastCandCount : UInt32 := 0
  lastCandSel : UInt32 := 0
  lastCompBytes : Int := 0
deriving DecidableEq

structure State extends Notes where
  hwnd : Handle := 0
  targetHwnd : Handle := 0
  himc : Handle := 0
  ime : Handle := 0
  exports : Exports := {}
  listenSock : Handle := invalidSocket
  clientSock : Handle := invalidSocket
  rxBuf : List UInt8 := List.replicate RxBuffer.rxBufSize 0
  rxLen : Nat := 0
  visible : Bool := false
  running : Bool := false
  candCodepage : UInt32 := 936
  preferUnicodeVkey : Bool := false
  fdwProperty : UInt32 := 0
  uiClass : List UInt16 := []
  lastError : List UInt8 := []
deriving DecidableEq

abbrev Os : Type := Answers Call.Answer

abbrev Run (α : Type) : Type := Act (Program State Call.Answer) α

def State.core (s : State) : State := { s with toNotes := {} }

def imeTargetHwnd (s : State) : Handle := if s.targetHwnd ≠ 0 then s.targetHwnd else s.hwnd

@[simp] theorem imeTargetHwnd_core (s : State) : imeTargetHwnd s.core = imeTargetHwnd s := rfl

theorem target_of_core {s s' : State} (h : s.core = s'.core) :
    imeTargetHwnd s = imeTargetHwnd s' := by
  rw [← imeTargetHwnd_core, h, imeTargetHwnd_core]

end RimeWinime.ImeHost
