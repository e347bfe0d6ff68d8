import RimeWinime.Lib.Text
import RimeWinime.Remote.SharedState

namespace RimeWinime.Processor

open World Text Proto Backend Client SharedState

variable {E β α : Type}

inductive ProcessResult
  | accepted
  | noop
deriving DecidableEq

/-- What the processor uses of a Rime engine: its context, its schema and its
`CommitText`. -/
structure RimeEngine (E : Type) where
  asciiMode : E → Bool
  isComposing : E → Bool
  input : E → String
  caretPos : E → Nat
  clear : E → E
  setInput : String → E → E
  setCaretPos : Nat → E → E
  setSelectKeys : String → E → E
  commitText : String → E → E

structure Remote (E β : Type) where
  engine : RimeEngine E
  backend : RimeBackend β
  search : RegexSearch
  client : GrpcImeClientV2
  sessionId : Nat
  grpcSessionOpen : Bool
  config : String → Option String

/-- What changes from event to event, with the texts passed to `CommitText`. -/
structure Front (E β : Type) where
  cached : Option RemoteContext
  asciiWasOn : Bool
  engine : E
  link : Link β
  emitted : List String

def onLink (call : Act (Link β) α) : Act (Front E β) α := fun f =>
  ((call f.link).1, { f with link := (call f.link).2 })

def onEngine (update : E → E) : Act (Front E β) Unit :=
  change fun f => { f with engine := update f.engine }

def setCached (context : Option RemoteContext) : Act (Front E β) Unit :=
  change fun f => { f with cached := context }

def cachedPreedit (f : Front E β) : String := (f.cached.map (·.preedit)).getD ""

def emitText (r : Remote E β) (text : String) : Act (Front E β) Unit :=
  change fun f =>
    { f with engine := r.engine.commitText text f.engine, emitted := f.emitted ++ [text] }

def callProcessKey (r : Remote E β) (keycode mask : UInt32) : Act (Front E β) Bool :=
  onLink (Client.processKey r.backend r.client r.sessionId keycode mask)

def callGetCommit (r : Remote E β) : Act (Front E β) (Option String) :=
  onLink (Client.getCommit r.backend r.client r.sessionId)

def callGetContext (r : Remote E β) : Act (Front E β) (Option RimeContextProto) :=
  onLink (Client.getContext r.backend r.client r.sessionId)

def syncCommitFromBackend (r : Remote E β) : Act (Front E β) Unit := do
  match ← callGetCommit r with
  | some text => if text ≠ "" then emitText r text
  | none => pure ()

def syncContextFromBackend (r : Remote E β) : Act (Front E β) (Except DecodeFault Unit) := do
  match ← callGetContext r with
  | none => do
      setCached none
      pure (.ok ())
  | some proto =>
      match decodeContext r.search r.client proto with
      | .ok context => do
          setCached context
          pure (.ok ())
      | .error fault => pure (.error fault)

def ESCAPE : UInt32 := 0xFF1B
def SPACE : UInt32 := 0x20

def handleAsciiModeToggle (r : Remote E β) (keycode : UInt32) : Act (Front E β) Unit := do
  let hasContext ← observe fun f : Front E β => f.cached.isSome
  if hasContext then
    match styleOf (switchKeyBindings r.config) keycode with
    | .inlineAscii => pure ()
    | .commitCode => do
        -- `ascii_composer` has committed the local input; the reply is discarded
        let _ ← callProcessKey r ESCAPE 0
        let _ ← callGetCommit r
        setCached none
    | .commitText => do
        let _ ← callProcessKey r SPACE 0
        onEngine r.engine.clear
        syncCommitFromBackend r
        setCached none
    | .clear => do
        let _ ← callProcessKey r ESCAPE 0
        let _ ← callGetCommit r
        onEngine r.engine.clear
        setCached none
    -- a key without a binding ends here too
    | .noop => setCached none

def isModifierOnlyKey (keycode : UInt32) : Bool := 0xFFE1 ≤ keycode && keycode ≤ 0xFFEE

def isRelease (key : KeyEvent) : Bool := (key.modifier &&& 0x40000000) != 0

def contextChanged (oldPreedit : String) (f : Front E β) : Bool :=
  match f.cached with
  | some rc => rc.preedit != oldPreedit
  | none => oldPreedit != ""

def applyContext (engine : RimeEngine E) (cached : Option RemoteContext) (e : E) : E :=
  match cached with
  | some rc =>
      let e := if rc.selectKeys ≠ "" then engine.setSelectKeys rc.selectKeys e else e
      let inputText := if rc.preedit = "" then " " else rc.preedit
      -- stale segments would survive a change of the input
      let e := if engine.isComposing e then engine.clear e else e
      let e := engine.setInput inputText e
      if 0 ≤ rc.cursorPos.toInt ∧ rc.cursorPos.toInt < inputText.utf8ByteSize then
        engine.setCaretPos rc.cursorPos.toInt.toNat e
      else e
  | none => if engine.isComposing e then engine.clear e else e

/-- The verdict on a key of which the preedit before it is known, and the answer. -/
def judgeKey (r : Remote E β) (oldPreedit : String) (accepted : Bool) :
    Act (Front E β) (Except DecodeFault ProcessResult) := do
  let changed ← observe (contextChanged oldPreedit)
  if !accepted && !changed then pure (.ok .noop)
  else do
    change fun f => { f with engine := applyContext r.engine f.cached f.engine }
    pure (.ok .accepted)

def forwardKey (r : Remote E β) (key : KeyEvent) :
    Act (Front E β) (Except DecodeFault ProcessResult) := do
  let oldPreedit ← observe cachedPreedit
  let accepted ← callProcessKey r key.keycode key.modifier
  -- the key may have been processed although its reply was lost
  syncCommitFromBackend r
  andThen (syncContextFromBackend r) fun _ => judgeKey r oldPreedit accepted

/-- A key that is not sent on: a release, a modifier, or any key in ascii mode. -/
def passesThrough (key : KeyEvent) (asciiNow : Bool) : Bool :=
  isRelease key || isModifierOnlyKey key.keycode || asciiNow

def processKeyEvent (r : Remote E β) (key : KeyEvent) :
    Act (Front E β) (Except DecodeFault ProcessResult) :=
  if r.grpcSessionOpen = false then pure (.ok .noop)
  else do
    let asciiNow ← observe fun f : Front E β => r.engine.asciiMode f.engine
    let asciiWasOn ← observe fun f : Front E β => f.asciiWasOn
    if asciiNow ≠ asciiWasOn then do
      let hasContext ← observe fun f : Front E β => f.cached.isSome
      if asciiNow && hasContext then handleAsciiModeToggle r key.keycode
      change fun f => { f with asciiWasOn := asciiNow }
      pure (.ok .accepted)
    else if passesThrough key asciiNow then pure (.ok .noop)
    else forwardKey r key

end RimeWinime.Processor
