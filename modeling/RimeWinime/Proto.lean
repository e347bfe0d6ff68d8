import RimeWinime.Lib.World

namespace RimeWinime.Proto

structure KeyEvent where
  keycode : UInt32
  modifier : UInt32
deriving DecidableEq

structure CandidateProto where
  text : String := ""
  comment : String := ""
deriving DecidableEq, Inhabited

structure MenuProto where
  candidates : List CandidateProto
  pageSize : Int32
  pageNo : Int32
  isLastPage : Bool
  highlightedCandidateIndex : Int32
  numCandidates : Int32
  selectKeys : String
deriving DecidableEq

structure CompositionProto where
  length : Int32
  cursorPos : Int32
  selStart : Int32
  selEnd : Int32
  preedit : String
deriving DecidableEq

structure RimeContextProto where
  composition : Option CompositionProto
  menu : Option MenuProto
  commitTextPreview : String
deriving DecidableEq

def emptyContext : RimeContextProto := ⟨none, none, ""⟩

structure OpenSessionRequest where
  schemaId : String

structure OpenSessionResponse where
  sessionId : String

structure ProcessKeyRequest where
  sessionId : String
  keyEvent : Option KeyEvent

structure ProcessKeyResponse where
  sessionId : String
  accepted : Bool

structure GetContextRequest where
  sessionId : String

structure GetContextResponse where
  sessionId : String
  context : Option RimeContextProto

structure GetCommitRequest where
  sessionId : String

structure GetCommitResponse where
  sessionId : String
  commitText : String
  hasCommit : Bool

structure DestroySessionRequest where
  sessionId : String

structure DestroySessionResponse where
  success : Bool

structure SelectCandidateRequest where
  sessionId : String
  index : Int32

structure SelectCandidateResponse where
  success : Bool

end RimeWinime.Proto
