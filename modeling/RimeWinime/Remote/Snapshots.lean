import RimeWinime.Lib.Run
import RimeWinime.Remote.ContextTexts
import RimeWinime.Remote.Proxy

namespace RimeWinime.Snapshots

open World Table Proto Blocks ContextMemory
open Client (GrpcImeClientV2)
open Proxy (SessionState Callers stateOf setState clients)
open SharedState (RegexSearch)

variable {α : Type}

/-- A context of the backend whose menu counts within its candidates: with another one the
caller's context would be filled from outside the menu. -/
structure Told where
  proto : RimeContextProto
  within : Hooks.CountsWithin proto

/-- What the outside says during a call: the schema that the session has, the answer to an
`OpenSession`, the mode of the engine, and the answers to `GetContext` and `GetCommit`. -/
structure Answers where
  curSchema : String
  reply : Option String
  asciiMode : Bool
  context : Option Told
  commit : Option String

/-- `contexts` are the sessions' `last_context`s, as far as they have one. `handed` are the blocks
that the callers have got, and `left` those that nobody knows any more. -/
structure Module where
  callers : Callers
  contexts : Map Nat Context
  heap : Heap
  handed : Multiset Nat
  left : Multiset Nat

def snapshots (contexts : Map Nat Context) : Multiset Nat :=
  ((values contexts).map Context.blocks).sum

def begin : Module := ⟨Proxy.start, ∅, empty, 0, 0⟩

/-- What a hooked function returns. The original one fills the caller's struct by itself. -/
inductive Reply
  | refused
  | original
  | context (c : Context)
  | status (composing asciiMode : Bool) (schemaId schemaName : Chars)
  | commit (text : Chars)

def Reply.blocks : Reply → Multiset Nat
  | .context c => c.blocks
  | .status _ _ schemaId schemaName => chars schemaId + chars schemaName
  | .commit text => chars text
  | _ => 0

def onHeap (op : Act Heap α) : Act Module α := fun s =>
  let r := op s.heap
  (r.1, { s with heap := r.2 })

def onCallers (op : Act Callers α) : Act Module α := fun s =>
  let r := op s.callers
  (r.1, { s with callers := r.2 })

def give (r : Reply) : Act Module Reply := fun s => (r, { s with handed := r.blocks + s.handed })

def setSession (sessionId : Nat) (f : SessionState → SessionState) : Act Module Unit :=
  onCallers fun s => setState sessionId (f (stateOf s sessionId)) s

def dropContext (sessionId : Nat) (curSchema : String) : Act Module Unit := fun s =>
  let ss := stateOf s.callers sessionId
  if curSchema ≠ ss.schemaId ∧ ss.hasLastContext then
    let r := deleteSnapshot (s.contexts.lookup sessionId) s.heap
    ((), { s with heap := r.2, contexts := s.contexts.erase sessionId })
  else ((), s)

def ensureSession (sessionId : Nat) (curSchema : String) (reply : Option String) :
    Act Module SessionState := do
  dropContext sessionId curSchema
  onCallers (Proxy.ensureSession sessionId curSchema reply)
  observe fun s => stateOf s.callers sessionId

def sessionClient (ss : SessionState) (sessionId : Nat) (s : Callers) : Option GrpcImeClientV2 :=
  (ClientPool.find ss.backendAddress (clients s)).bind fun client =>
    if ClientPool.hasSession (clients s) client sessionId then
      (clients s).made[client]?.map (·.toGrpcImeClientV2)
    else none

def saveContext (sessionId : Nat) (hasPreview : Bool) (c : Context) : Act Module Unit := fun s =>
  let r := saveContextSnapshot (s.contexts.lookup sessionId) hasPreview c s.heap
  setSession sessionId (fun ss => { ss with hasLastContext := true, lastIsComposing := 0 < c.length })
    { s with heap := r.2, contexts := s.contexts.insert sessionId r.1 }

def answerContext (search : RegexSearch) (sessionId : Nat) (hasPreview : Bool)
    (client : GrpcImeClientV2) (proto : RimeContextProto) : Act Module Reply := do
  let c ← onHeap (readContext search client hasPreview proto)
  saveContext sessionId hasPreview c
  give (.context c)

def restoreContext (sessionId : Nat) (hasPreview : Bool) : Act Module Reply := do
  let last ← observe fun s : Module => s.contexts.lookup sessionId
  let c ← onHeap (restoreContextSnapshot hasPreview (last.getD {}))
  give (.context c)

/-- `dst` is nothing for a struct that cannot be filled, else whether it has a preview. -/
def myGetContext (search : RegexSearch) (sessionId : Nat) (dst : Option Bool) (a : Answers) :
    Act Module Reply :=
  match dst with
  | none => pure .refused
  | some hasPreview => do
      let ss ← ensureSession sessionId a.curSchema a.reply
      if !ss.isGrpc then pure .original
      else if a.asciiMode then give (.context {})
      else if ss.lastWasKeyupSkip && ss.hasLastContext then restoreContext sessionId hasPreview
      else
        match ← observe fun s : Module => sessionClient ss sessionId s.callers with
        | none => pure .original
        | some client =>
            match a.context with
            | none => pure .refused
            | some told => answerContext search sessionId hasPreview client told.proto

def fillStatus (composing asciiMode : Bool) (schemaId : String) : Act Module Reply := do
  let id ← onHeap (newChars schemaId)
  let name ← onHeap (newChars "gRPC Proxy")
  give (.status composing asciiMode id name)

def answerStatus (sessionId : Nat) (asciiMode : Bool) (schemaId : String)
    (proto : RimeContextProto) : Act Module Reply := do
  let composing := proto.composition.isSome && !asciiMode
  let r ← fillStatus composing asciiMode schemaId
  setSession sessionId fun ss => { ss with lastIsComposing := composing }
  pure r

def myGetStatus (sessionId : Nat) (dst : Bool) (a : Answers) : Act Module Reply :=
  if dst then do
    let ss ← ensureSession sessionId a.curSchema a.reply
    if !ss.isGrpc then pure .original
    else if ss.lastWasKeyupSkip then
      fillStatus (ss.lastIsComposing && !a.asciiMode) a.asciiMode ss.schemaId
    else
      match ← observe fun s : Module => sessionClient ss sessionId s.callers with
      | none => pure .original
      | some _ =>
          match a.context with
          | none => pure .refused
          | some told => answerStatus sessionId a.asciiMode ss.schemaId told.proto
  else pure .refused

def giveCommit (text : String) : Act Module Reply := do
  let p ← onHeap (newChars text)
  give (.commit p)

def givePending (sessionId : Nat) (pendingCommit : String) : Act Module Reply := do
  let r ← giveCommit pendingCommit
  setSession sessionId fun ss => { ss with pendingCommit := "" }
  pure r

def answerCommit (commit : Option String) : Act Module Reply :=
  match commit with
  | none => pure .refused
  | some text => if text = "" then pure .refused else giveCommit text

def myGetCommit (sessionId : Nat) (dst : Bool) (a : Answers) : Act Module Reply :=
  if dst then do
    let ss ← ensureSession sessionId a.curSchema a.reply
    if !ss.isGrpc then pure .original
    else if ss.pendingCommit ≠ "" then givePending sessionId ss.pendingCommit
    else if ss.lastWasKeyupSkip || !ss.lastProcessKeyAccepted then pure .refused
    else
      match ← observe fun s : Module => sessionClient ss sessionId s.callers with
      | none => pure .original
      | some _ => answerCommit a.commit
  else pure .refused

structure Keyed where
  lastWasKeyupSkip : Bool
  lastProcessKeyAccepted : Bool
  lastIsComposing : Bool
  lastAsciiMode : Bool
  pendingCommit : String

def Keyed.apply (k : Keyed) (ss : SessionState) : SessionState :=
  { ss with
    lastWasKeyupSkip := k.lastWasKeyupSkip
    lastProcessKeyAccepted := k.lastProcessKeyAccepted
    lastIsComposing := k.lastIsComposing
    lastAsciiMode := k.lastAsciiMode
    pendingCommit := k.pendingCommit }

def myProcessKey (sessionId : Nat) (a : Answers) (k : Keyed) : Act Module Reply := do
  let _ ← ensureSession sessionId a.curSchema a.reply
  setSession sessionId k.apply
  pure .original

/-- `g_sessions.clear()`: the snapshots are forgotten, their blocks are not freed. -/
def clearSessions (op : Act Callers Unit) : Act Module Unit := fun s =>
  let r := op s.callers
  ((), { s with
    callers := r.2
    contexts := ∅
    left := snapshots s.contexts + s.left })

inductive Event
  | getContext (sessionId : Nat) (dst : Option Bool) (a : Answers)
  | getStatus (sessionId : Nat) (dst : Bool) (a : Answers)
  | getCommit (sessionId : Nat) (dst : Bool) (a : Answers)
  | processKey (sessionId : Nat) (a : Answers) (k : Keyed)
  | selectCandidate (sessionId : Nat) (a : Answers)
  | rimeGrpcProxyV2Initialize (schemas : List (String × Proxy.GrpcSchemaInfo))
  | rimeGrpcProxyV2Finalize
  | rimeRemoteFinalize
  | processor (e : Engines.Event)

def react (search : RegexSearch) : Event → Act Module Reply
  | .getContext sessionId dst a => myGetContext search sessionId dst a
  | .getStatus sessionId dst a => myGetStatus sessionId dst a
  | .getCommit sessionId dst a => myGetCommit sessionId dst a
  | .processKey sessionId a k => myProcessKey sessionId a k
  | .selectCandidate sessionId a => do
      let _ ← ensureSession sessionId a.curSchema a.reply
      pure .original
  | .rimeGrpcProxyV2Initialize schemas => do
      clearSessions (Proxy.rimeGrpcProxyV2Initialize schemas)
      pure .original
  | .rimeGrpcProxyV2Finalize => do
      clearSessions Proxy.rimeGrpcProxyV2Finalize
      pure .original
  | .rimeRemoteFinalize => do
      onCallers Proxy.rimeRemoteFinalize
      pure .original
  | .processor e => do
      onCallers (change fun s => Proxy.step s (.processor e))
      pure .original

def step (search : RegexSearch) (s : Module) (e : Event) : Module := (react search e s).2

end RimeWinime.Snapshots
