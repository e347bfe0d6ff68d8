import RimeWinime.Skeleton.Commands

namespace RimeWinime.ImeHost

open World Outside
open CandidateReply (number)
open RxBuffer (Recv)
open Utf8 (encode)

section

variable (multiByteToWide : UInt32 → List UInt8 → Option (List UInt16))
  (narrow : List UInt16 → List UInt8) (os : Os)

def closeClientSock : Run Unit := do
  let s ← get
  when (s.clientSock ≠ invalidSocket) do
    ask os (.closeSocket s.clientSock)
    modify fun s => { s with clientSock := invalidSocket }

def closeClient : Run Unit := do
  closeClientSock os
  modify fun s => { s with rxLen := 0 }

def failWith (text : String) (code : Call) (answer : code.Answer → Nat) : Run Bool := do
  let err ← ask os code
  setLastError (encode text ++ number (answer err))
  pure false

def createTarget (hwnd : Handle) : Run Bool := do
  let edit ← ask os (.createEdit hwnd)
  modify fun s => { s with targetHwnd := if edit ≠ 0 then edit else hwnd }
  pure true

def createMainWindow (visible : Bool) : Run Bool := do
  let hwnd ← ask os (.createWindow visible)
  modify fun s => { s with hwnd := hwnd }
  if hwnd = 0 then failWith os "CreateWindowExA failed: " .getLastError UInt32.toNat
  else createTarget os hwnd

/-- A class that is registered already is as good. -/
def createHiddenWindow : Run Bool := do
  let registered ← ask os .registerClass
  let s ← get
  if registered then createMainWindow os s.visible
  else failWith os "RegisterClassA failed: " .getLastError UInt32.toNat

def findExports (ime : Handle) : Run Exports := do
  let imeInquire ← ask os (.getProcAddress ime "ImeInquire")
  let imeSelect ← ask os (.getProcAddress ime "ImeSelect")
  let imeSetActiveContext ← ask os (.getProcAddress ime "ImeSetActiveContext")
  let imeConversionList ← ask os (.getProcAddress ime "ImeConversionList")
  let imeProcessKey ← ask os (.getProcAddress ime "ImeProcessKey")
  let imeToAsciiEx ← ask os (.getProcAddress ime "ImeToAsciiEx")
  let notifyIme ← ask os (.getProcAddress ime "NotifyIME")
  pure ⟨imeInquire, imeSelect, imeSetActiveContext, imeConversionList, imeProcessKey, imeToAsciiEx,
    notifyIme⟩

def Exports.complete (e : Exports) : Bool :=
  e.imeInquire && e.imeSelect && e.imeProcessKey && e.imeToAsciiEx

def bindExports : Run Bool := do
  let s ← get
  let exports ← findExports os s.ime
  modify fun s => { s with exports := exports }
  if exports.complete then pure true
  else do
    setLastError (encode "Missing required exports")
    pure false

def andAlso (x y : Run Bool) : Run Bool := do
  let ok ← x
  if ok then y else pure false

def loadIme (dllPath : String) : Run Bool := do
  let ime ← ask os (.loadLibrary dllPath)
  modify fun s => { s with ime := ime }
  if ime = 0 then failWith os "LoadLibraryA failed: " .getLastError UInt32.toNat else pure true

def initIme (dllPath : String) : Run Bool :=
  andAlso (loadIme os dllPath)
    (andAlso (bindExports os) (andAlso (createHiddenWindow os) (initContextAndSelect os)))

def startSockets : Run Bool := do
  let started ← ask os .wsaStartup
  if started then pure true
  else do
    setLastError (encode "WSAStartup failed")
    pure false

def openListener : Run Bool := do
  let sock ← ask os .socket
  modify fun s => { s with listenSock := sock }
  if sock = invalidSocket then failWith os "socket failed: " .wsaGetLastError UInt32.toNat
  else do
    ask os (.ioctlSocket sock)
    pure true

def listenAt (port : UInt16) : Run Bool := do
  let s ← get
  let bound ← ask os (.bind s.listenSock port)
  if bound then
    let listening ← ask os (.listen s.listenSock)
    if listening then pure true else failWith os "listen failed: " .wsaGetLastError UInt32.toNat
  else failWith os "bind failed: " .wsaGetLastError UInt32.toNat

def initSocketServer (port : UInt16) : Run Bool :=
  andAlso (startSockets os) (andAlso (openListener os) (listenAt os port))

def hello : List UInt8 := encode "HELLO ime_host_skeleton\n"

def greet (sock : Handle) : Run Unit := do
  modify fun s => { s with clientSock := sock, rxLen := 0 }
  ask os (.ioctlSocket sock)
  let _ ← sendText os hello
  pure ()

def acceptClient (listenSock : Handle) : Run Unit := do
  let sock ← ask os (.accept listenSock)
  when (sock ≠ invalidSocket) (greet os sock)

def acceptClientIfNeeded : Run Unit := do
  let s ← get
  when (s.clientSock = invalidSocket) (acceptClient os s.listenSock)

def runLines : List (List UInt8) → Run Unit
  | [] => pure ()
  | line :: lines => do
      processCommand multiByteToWide narrow os line
      runLines lines

/-- The buffer and the client, as what arrives finds them. -/
def State.rx (s : State) : RxBuffer.HostState :=
  { client := s.clientSock ≠ invalidSocket
    running := s.running
    rxBuf := s.rxBuf
    rxLen := s.rxLen
    executed := [] }

/-- No command looks at the buffer, so the lines may be taken out of it first. -/
def takeOut (rx : RxBuffer.HostState) : Run Unit := do
  modify fun s => { s with rxBuf := rx.rxBuf, rxLen := rx.rxLen }
  when (rx.client = false) (closeClient os)
  runLines multiByteToWide narrow os rx.executed

/-- The buffer is never left (`serviceClientIo_within`). -/
def takeIn (received : Recv) : Run Unit := do
  let s ← get
  match RxBuffer.serviceClientIo s.rx received with
  | some rx => takeOut multiByteToWide narrow os rx
  | none => pure ()

theorem takeIn_some {received : Recv} {rx : RxBuffer.HostState} {w : Program State Call.Answer}
    (h : RxBuffer.serviceClientIo w.state.rx received = some rx) :
    takeIn multiByteToWide narrow os received w = takeOut multiByteToWide narrow os rx w := by
  simp only [takeIn, bind_run, get_run, h]

theorem takeIn_none {received : Recv} {w : Program State Call.Answer}
    (h : RxBuffer.serviceClientIo w.state.rx received = none) :
    (takeIn multiByteToWide narrow os received w).2 = w := by
  simp only [takeIn, bind_run, get_run, h, pure_run]

def serviceClientIo : Run Unit := do
  let s ← get
  when (s.clientSock ≠ invalidSocket) do
    let received ← ask os (.recv s.clientSock)
    takeIn multiByteToWide narrow os received

def turn : Run Unit := do
  ask os .pumpMessages
  acceptClientIfNeeded os
  serviceClientIo multiByteToWide narrow os

/-- So many turns of the loop, or fewer if the host quits. -/
def mainLoop : Nat → Run Unit
  | 0 => pure ()
  | turns + 1 => do
      let s ← get
      when s.running do
        turn multiByteToWide narrow os
        mainLoop turns

def closeListener : Run Unit := do
  let s ← get
  when (s.listenSock ≠ invalidSocket) do
    ask os (.closeSocket s.listenSock)
    modify fun s => { s with listenSock := invalidSocket }

def dropContext : Run Unit := do
  let s ← get
  when (s.himc ≠ 0) do
    when s.exports.imeSelect do
      let _ ← ask os (.imeSelect s.himc false)
      pure ()
    ask os (.immAssociateContextEx (imeTargetHwnd s) 0 0)
    ask os (.immDestroyContext s.himc)
    modify fun s => { s with himc := 0 }

def dropWindow : Run Unit := do
  let s ← get
  when (s.hwnd ≠ 0) do
    ask os (.destroyWindow s.hwnd)
    modify fun s => { s with hwnd := 0 }

def dropLibrary : Run Unit := do
  let s ← get
  when (s.ime ≠ 0) do
    ask os (.freeLibrary s.ime)
    modify fun s => { s with ime := 0 }

def cleanup : Run Unit := do
  closeClient os
  closeListener os
  dropContext os
  dropWindow os
  dropLibrary os
  ask os .wsaCleanup

/-- What the process does in so many turns of its loop, and its exit code if it has come to
its end. -/
def main (dllPath : String) (port : UInt16) (visible : Bool) (turns : Nat) : Run (Option UInt8) := do
  modify fun s => { s with visible := visible }
  let listening ← initSocketServer os port
  if listening then
    let ready ← initIme os dllPath
    if ready then
      modify fun s => { s with running := true }
      mainLoop multiByteToWide narrow os turns
      let s ← get
      if s.running then pure none
      else do
        cleanup os
        pure (some 0)
    else do
      cleanup os
      pure (some 2)
  else do
    cleanup os
    pure (some 1)

end

end RimeWinime.ImeHost
