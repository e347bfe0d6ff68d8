import Mathlib.Algebra.Group.Nat.Defs
import Mathlib.Algebra.Group.Int.Defs
import RimeWinime.Host.Backend

namespace RimeWinime.Server

open World Proto Backend

variable {β : Type}

inductive StatusCode
  | internal
  | invalidArgument
  | unavailable
  | deadlineExceeded
deriving DecidableEq

structure Status where
  code : StatusCode
  message : String
deriving DecidableEq

/-- `str::parse::<usize>` on a 64-bit target. -/
def parseUsize (s : String) : Option Nat :=
  let digits := match s.toList with
    | '+' :: rest => rest
    | chars => chars
  if digits = [] ∨ digits.any (fun c => !c.isDigit) then none
  else
    let value := digits.foldl (fun n c => 10 * n + (c.toNat - '0'.toNat)) 0
    if value < 2 ^ 64 then some value else none

def sessionOf (sessionId : String) : Nat := (parseUsize sessionId).getD 0

def openSession (b : RimeBackend β) (_ : OpenSessionRequest) :
    Act β (Except Status OpenSessionResponse) := do
  match ← b.openSession with
  | some id => pure (.ok ⟨toString id⟩)
  | none => pure (.error ⟨.internal, "Failed to open session"⟩)

def processKey (b : RimeBackend β) (req : ProcessKeyRequest) :
    Act β (Except Status ProcessKeyResponse) :=
  match req.keyEvent with
  | some key => do
      let accepted ← b.processKey (sessionOf req.sessionId) key
      pure (.ok ⟨req.sessionId, accepted⟩)
  | none => pure (.error ⟨.invalidArgument, "Missing key_event"⟩)

def getContext (b : RimeBackend β) (req : GetContextRequest) :
    Act β (Except Status GetContextResponse) := do
  let context ← b.getContext (sessionOf req.sessionId)
  pure (.ok ⟨req.sessionId, some context⟩)

def getCommit (b : RimeBackend β) (req : GetCommitRequest) :
    Act β (Except Status GetCommitResponse) := do
  match ← b.getCommit (sessionOf req.sessionId) with
  | some text => pure (.ok ⟨req.sessionId, text, true⟩)
  | none => pure (.ok ⟨req.sessionId, "", false⟩)

def destroySession (b : RimeBackend β) (req : DestroySessionRequest) :
    Act β (Except Status DestroySessionResponse) := do
  b.destroySession (sessionOf req.sessionId)
  pure (.ok ⟨true⟩)

/-- `req.index as usize` wraps a negative index around. -/
def selectCandidateOnCurrentPage (b : RimeBackend β) (req : SelectCandidateRequest) :
    Act β (Except Status SelectCandidateResponse) := do
  let index := (req.index.toInt % 2 ^ 64).toNat
  let success ← b.selectCandidate (sessionOf req.sessionId) index
  pure (.ok ⟨success⟩)

end RimeWinime.Server
