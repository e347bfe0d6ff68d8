import RimeWinime.Host.Server

namespace RimeWinime.Client

open World Proto Backend Server

variable {α β : Type}

/-- How a call ends for the client: with the server's answer, with a deadline
after the server has executed it, or without having reached the server. -/
inductive RpcOutcome
  | delivered
  | replyLost
  | notExecuted
deriving DecidableEq

inductive Request
  | processKey (req : ProcessKeyRequest)
  | getContext (req : GetContextRequest)
  | getCommit (req : GetCommitRequest)

structure Exchange (β : Type) where
  request : Request
  before : β
  outcome : RpcOutcome

/-- The server behind the wire, the calls made so far, and how each call ends. -/
structure Link (β : Type) where
  server : β
  exchanges : List (Exchange β)
  outcome : Nat → RpcOutcome

def Link.next (l : Link β) : RpcOutcome := l.outcome l.exchanges.length

def Link.record (l : Link β) (req : Request) (server : β) : Link β :=
  { l with server := server, exchanges := l.exchanges ++ [⟨req, l.server, l.next⟩] }

def rpc (req : Request) (handler : Act β (Except Status α)) : Act (Link β) (Except Status α) :=
  fun l =>
    let served := handler l.server
    match l.next with
    | .delivered => (served.1, l.record req served.2)
    | .replyLost => (.error ⟨.deadlineExceeded, "Deadline Exceeded"⟩, l.record req served.2)
    | .notExecuted => (.error ⟨.unavailable, "failed to connect"⟩, l.record req l.server)

structure GrpcImeClientV2 where
  sessions : AList (fun _ : Nat => String)
  vModeRegex : Option String

def findSession (client : GrpcImeClientV2) (sessionId : Nat) : String :=
  (client.sessions.lookup sessionId).getD ""

def processKey (b : RimeBackend β) (client : GrpcImeClientV2) (sessionId : Nat)
    (keycode mask : UInt32) : Act (Link β) Bool :=
  let mySession := findSession client sessionId
  if mySession = "" then pure false
  else do
    let req : ProcessKeyRequest := ⟨mySession, some ⟨keycode, mask⟩⟩
    match ← rpc (.processKey req) (Server.processKey b req) with
    | .ok resp => pure resp.accepted
    | .error _ => pure false

def getContext (b : RimeBackend β) (client : GrpcImeClientV2) (sessionId : Nat) :
    Act (Link β) (Option RimeContextProto) :=
  let mySession := findSession client sessionId
  if mySession = "" then pure none
  else do
    let req : GetContextRequest := ⟨mySession⟩
    match ← rpc (.getContext req) (Server.getContext b req) with
    | .ok resp => pure resp.context
    | .error _ => pure none

def getCommit (b : RimeBackend β) (client : GrpcImeClientV2) (sessionId : Nat) :
    Act (Link β) (Option String) :=
  let mySession := findSession client sessionId
  if mySession = "" then pure none
  else do
    let req : GetCommitRequest := ⟨mySession⟩
    match ← rpc (.getCommit req) (Server.getCommit b req) with
    | .ok resp => pure (if resp.hasCommit then some resp.commitText else none)
    | .error _ => pure none

section

variable (b : RimeBackend β) {client : GrpcImeClientV2} {sessionId : Nat}

/-- The server executes the call unless it never gets there. -/
def executed (l : Link β) (handler : Act β α) : β :=
  if l.next = .notExecuted then l.server else (handler l.server).2

def answered (l : Link β) : Bool := l.next = .delivered

def remoteId (client : GrpcImeClientV2) (sessionId : Nat) : Nat :=
  sessionOf (findSession client sessionId)

theorem processKey_known (h : findSession client sessionId ≠ "") (keycode mask : UInt32)
    (l : Link β) :
    processKey b client sessionId keycode mask l =
      (answered l && (b.processKey (remoteId client sessionId) ⟨keycode, mask⟩ l.server).1,
        l.record (.processKey ⟨findSession client sessionId, some ⟨keycode, mask⟩⟩)
          (executed l (b.processKey (remoteId client sessionId) ⟨keycode, mask⟩))) := by
  cases ho : l.next <;>
    simp [processKey, h, rpc, Server.processKey, ho, answered, executed, remoteId]

theorem getContext_known (h : findSession client sessionId ≠ "") (l : Link β) :
    getContext b client sessionId l =
      (if answered l then some (b.getContext (remoteId client sessionId) l.server).1 else none,
        l.record (.getContext ⟨findSession client sessionId⟩)
          (executed l (b.getContext (remoteId client sessionId)))) := by
  cases ho : l.next <;>
    simp [getContext, h, rpc, Server.getContext, ho, answered, executed, remoteId]

theorem getCommit_known (h : findSession client sessionId ≠ "") (l : Link β) :
    getCommit b client sessionId l =
      (if answered l then (b.getCommit (remoteId client sessionId) l.server).1 else none,
        l.record (.getCommit ⟨findSession client sessionId⟩)
          (executed l (b.getCommit (remoteId client sessionId)))) := by
  cases ho : l.next <;>
    cases hc : (b.getCommit (sessionOf (findSession client sessionId)) l.server).1 <;>
      simp [getCommit, h, rpc, Server.getCommit, ho, answered, executed, remoteId, hc]

theorem processKey_unknown (h : findSession client sessionId = "") (keycode mask : UInt32)
    (l : Link β) : processKey b client sessionId keycode mask l = (false, l) := by
  rw [processKey, if_pos h]
  rfl

theorem getContext_unknown (h : findSession client sessionId = "") (l : Link β) :
    getContext b client sessionId l = (none, l) := by
  rw [getContext, if_pos h]
  rfl

theorem getCommit_unknown (h : findSession client sessionId = "") (l : Link β) :
    getCommit b client sessionId l = (none, l) := by
  rw [getCommit, if_pos h]
  rfl

end

end RimeWinime.Client
