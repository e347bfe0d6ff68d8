import RimeWinime.Gateway.Calls

namespace RimeWinime.ImeClient

open World Worker Table Pool Service Calls

variable {P : Type}

structure GrpcClientConfig where
  maxCandidates : Int32 := 9
  debugStopMode : Bool := false

/-- A key of Rime; `release`, `shift`, `ctrl` and `alt` are what its accessors
make of the modifier. -/
structure RimeKeyEvent where
  keycode : Int32
  modifier : Int32
  release : Bool
  shift : Bool
  ctrl : Bool
  alt : Bool

structure CandidateView where
  text : String
  comment : String
deriving DecidableEq

structure QueryResult where
  composition : String := ""
  reading : String := ""
  candidates : List CandidateView := []
  selectedIndex : Int32 := 0
  pageSize : Int32 := 0
deriving DecidableEq

/-- `stopped`: the process has been aborted by `FailFastIfNeeded`. -/
structure GrpcImeClient where
  cfg : GrpcClientConfig
  sessionId : String := ""
  seq : UInt64 := 0
  cachedQuery : QueryResult := {}
  hasCachedQuery : Bool := false
  stopped : Bool := false

structure Link (P : Type) where
  client : GrpcImeClient
  state : GatewayState P

def update (f : GrpcImeClient → GrpcImeClient) : Act (Link P) Unit :=
  change fun l => { l with client := f l.client }

def nextSeq (c : GrpcImeClient) : GrpcImeClient := { c with seq := c.seq + 1 }

def rpc (m : Machine P) (now : Nat) (call : Call) : Act (Link P) (Option Reply) := fun l =>
  let served := serve m now call l.state
  let reply :=
    match served.1 with
    | .done reply => some reply
    | _ => none
  (reply, { l with state := served.2 })

def failFastIfNeeded : Act (Link P) Unit :=
  update fun c => { c with stopped := c.stopped || c.cfg.debugStopMode }

/-- The `error_code` of a reply, when its status is ok. -/
def errorCode : Reply → Option String
  | .failed _ => none
  | .openSession _ => some ""
  | .sendKeyEvent resp => some resp.errorCode
  | .queryCandidates resp => some resp.errorCode
  | .commitSelection resp => some resp.errorCode
  | .resetSession resp => some resp.errorCode

def handleStatusLocked (code : Option String) : Act (Link P) Bool :=
  if code = some "" then pure true
  else do
    failFastIfNeeded
    pure false

/-- `sessionId` is the one that the gateway draws when it opens a session. -/
def ensureSessionLocked (m : Machine P) (now : Nat) (sessionId : String) : Act (Link P) Bool := do
  let client ← observe (·.client)
  if client.sessionId ≠ "" then pure true
  else
    match ← rpc m now (.openSession sessionId ⟨true⟩) with
    | some (.openSession resp) =>
        if resp.sessionId = "" then do
          failFastIfNeeded
          pure false
        else do
          update fun c => { c with sessionId := resp.sessionId, seq := 0, hasCachedQuery := false }
          pure true
    | _ => do
        failFastIfNeeded
        pure false

def GrpcImeClient.cacheHit (c : GrpcImeClient) (input : String) : Bool :=
  c.hasCachedQuery && input ≠ "" &&
    (c.cachedQuery.composition = input || c.cachedQuery.reading = input)

def clampedMax (maxCandidates : Int32) : Int32 := max 1 maxCandidates

def QueryResult.clamp (out : QueryResult) (clamped : Int32) : QueryResult :=
  { out with candidates := out.candidates.take clamped.toNatClampNeg, pageSize := clamped }

def queryResult : Reply → QueryResult
  | .queryCandidates resp =>
      { composition := resp.composition
        reading := resp.reading
        candidates := resp.candidates.map fun item => ⟨item.text, item.comment⟩
        selectedIndex := resp.selectedIndex.toInt32
        pageSize := resp.pageSize.toInt32 }
  | _ => {}

def queryCandidatesLocked (m : Machine P) (now : Nat) (input : String) (maxCandidates : Int32)
    (allowCached : Bool) : Act (Link P) (Option QueryResult) := do
  let clamped := clampedMax maxCandidates
  let client ← observe (·.client)
  if allowCached && client.cacheHit input then pure (some (client.cachedQuery.clamp clamped))
  else do
    update nextSeq
    let client ← observe (·.client)
    let reply ← rpc m now
      (.queryCandidates ⟨client.sessionId, client.seq, input, clamped.toUInt32⟩)
    let ok ← handleStatusLocked (reply.bind errorCode)
    if ok then do
      let out := (reply.map queryResult).getD {}
      update fun c => { c with cachedQuery := out, hasCachedQuery := true }
      pure (some out)
    else pure none

def keyMessage (key : RimeKeyEvent) (seq : UInt64) (timestampMs : Int64) : KeyEvent :=
  { seq := seq
    keyDown := !key.release
    virtualKey := key.keycode.toUInt32 &&& 0xff
    scanCode := 0
    shift := key.shift
    ctrl := key.ctrl
    alt := key.alt
    repeated := false
    extended := false
    timestampMs := timestampMs
    sourceKeycode := key.keycode.toUInt32
    sourceModifier := key.modifier.toUInt32 }

def sendKeyEvent (m : Machine P) (now : Nat) (sessionId : String) (key : RimeKeyEvent)
    (timestampMs : Int64) : Act (Link P) Bool := do
  let ready ← ensureSessionLocked m now sessionId
  if ready then do
    update nextSeq
    let client ← observe (·.client)
    let reply ← rpc m now
      (.sendKeyEvent ⟨client.sessionId, some (keyMessage key client.seq timestampMs)⟩)
    let ok ← handleStatusLocked (reply.bind errorCode)
    if ok then
      if key.release then pure true
      else do
        let _ ← queryCandidatesLocked m now "" client.cfg.maxCandidates false
        pure true
    else pure false
  else pure false

def queryCandidates (m : Machine P) (now : Nat) (sessionId input : String) (maxCandidates : Int32) :
    Act (Link P) (Option QueryResult) := do
  let ready ← ensureSessionLocked m now sessionId
  if ready then queryCandidatesLocked m now input maxCandidates true else pure none

def commitIndex (candidateIndex : Int32) : UInt32 :=
  if 0 ≤ candidateIndex then candidateIndex.toUInt32 else 0

def commitSelection (m : Machine P) (now : Nat) (sessionId committedText : String)
    (candidateIndex : Int32) (seqHint : UInt64) : Act (Link P) Bool := do
  let ready ← ensureSessionLocked m now sessionId
  if ready then do
    update fun c => if 0 < seqHint then c else nextSeq c
    let client ← observe (·.client)
    let seq := if 0 < seqHint then seqHint else client.seq
    let reply ← rpc m now
      (.commitSelection ⟨client.sessionId, seq, commitIndex candidateIndex, committedText⟩)
    let ok ← handleStatusLocked (reply.bind errorCode)
    if ok then do
      update fun c => { c with hasCachedQuery := false }
      pure true
    else pure false
  else pure false

inductive ClientCall
  | sendKeyEvent (key : RimeKeyEvent) (timestampMs : Int64)
  | queryCandidates (input : String) (maxCandidates : Int32)
  | commitSelection (committedText : String) (candidateIndex : Int32) (seqHint : UInt64)

def perform (m : Machine P) (now : Nat) (sessionId : String) : ClientCall → Act (Link P) Bool
  | .sendKeyEvent key timestampMs => sendKeyEvent m now sessionId key timestampMs
  | .queryCandidates input maxCandidates => do
      let out ← queryCandidates m now sessionId input maxCandidates
      pure out.isSome
  | .commitSelection committedText candidateIndex seqHint =>
      commitSelection m now sessionId committedText candidateIndex seqHint

def attempt (m : Machine P) (now : Nat) (sessionId : String) (call : ClientCall) :
    Act (Link P) Bool := fun l =>
  if l.client.stopped then (false, l)
  else
    let r := perform m now sessionId call l
    (r.1 && !r.2.client.stopped, r.2)

structure Pairing (P : Type) where
  link : Link P
  clock : Nat
  reaper : Reaper

/-- A call of the client (with the id for a session that it may open), a step of
the reaper, or time that passes. -/
inductive Happening
  | call (sessionId : String) (call : ClientCall)
  | reap (order : List String)
  | tick (elapsed : Nat)

def happen (m : Machine P) (s : Pairing P) : Happening → Pairing P
  | .call sessionId call => { s with link := (attempt m s.clock sessionId call s.link).2 }
  | .reap order =>
      let r := reap m s.clock order s.reaper s.link.state
      { s with link := { s.link with state := r.2 }, reaper := r.1 }
  | .tick elapsed => { s with clock := s.clock + elapsed }

def Succeeds (m : Machine P) (s : Pairing P) : Happening → Prop
  | .call sessionId call => (attempt m s.clock sessionId call s.link).1 = true
  | _ => True

def begin (m : Machine P) (cfg : GrpcClientConfig) (pool : PoolConfig) (sessionIdleTtl : Nat) :
    Pairing P :=
  let gateway := start m pool sessionIdleTtl
  ⟨⟨{ cfg := cfg }, gateway.state⟩, gateway.clock, gateway.reaper⟩

end RimeWinime.ImeClient
