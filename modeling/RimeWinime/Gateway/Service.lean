import RimeWinime.Gateway.Pool

namespace RimeWinime.Service

open World Worker Table Pool

variable {P α : Type}

structure KeyEvent where
  seq : UInt64
  keyDown : Bool
  virtualKey : UInt32
  scanCode : UInt32
  shift : Bool
  ctrl : Bool
  alt : Bool
  repeated : Bool
  extended : Bool
  timestampMs : Int64
  sourceKeycode : UInt32
  sourceModifier : UInt32
deriving DecidableEq

structure OpenSessionRequest where
  wantPrewarmedWorker : Bool

structure SendKeyEventRequest where
  sessionId : String
  keyEvent : Option KeyEvent

structure QueryCandidatesRequest where
  sessionId : String
  seq : UInt64
  inputSnapshot : String
  maxCandidates : UInt32

structure CommitSelectionRequest where
  sessionId : String
  seq : UInt64
  candidateIndex : UInt32
  committedText : String

structure ResetSessionRequest where
  sessionId : String

structure OpenSessionResponse where
  sessionId : String
  workerId : String
  backendStateVersion : UInt64
  idleWorkersAfterAssign : UInt32
deriving DecidableEq

structure SendKeyEventResponse where
  sessionId : String
  acknowledgedSeq : UInt64
  backendStateVersion : UInt64
  composition : String
  errorCode : String
  errorMessage : String
deriving DecidableEq

structure QueryCandidatesResponse where
  sessionId : String
  backendStateVersion : UInt64
  composition : String
  reading : String
  candidates : List Candidate
  selectedIndex : UInt32
  pageSize : UInt32
  errorCode : String
  errorMessage : String
deriving DecidableEq

structure CommitSelectionResponse where
  sessionId : String
  backendStateVersion : UInt64
  committedText : String
  errorCode : String
  errorMessage : String
deriving DecidableEq

structure ResetSessionResponse where
  sessionId : String
  backendStateVersion : UInt64
  ok : Bool
  errorCode : String
  errorMessage : String
deriving DecidableEq

inductive Status
  | invalidArgument (message : String)
  | notFound (message : String)
  | internal (message : String)
deriving DecidableEq

inductive Reply
  | failed (status : Status)
  | openSession (resp : OpenSessionResponse)
  | sendKeyEvent (resp : SendKeyEventResponse)
  | queryCandidates (resp : QueryCandidatesResponse)
  | commitSelection (resp : CommitSelectionResponse)
  | resetSession (resp : ResetSessionResponse)
deriving DecidableEq

structure SessionState where
  workerId : String
  lastSeq : UInt64
  lastActive : Nat
deriving DecidableEq

structure GatewayState (P : Type) where
  sessions : Map String SessionState
  pool : WorkerPool P
  sessionIdleTtl : Nat

/-- A request as it comes in. `sessionId` of an open is the `Uuid::new_v4` of
the handler. -/
inductive Call
  | openSession (sessionId : String) (req : OpenSessionRequest)
  | sendKeyEvent (req : SendKeyEventRequest)
  | queryCandidates (req : QueryCandidatesRequest)
  | commitSelection (req : CommitSelectionRequest)
  | resetSession (req : ResetSessionRequest)

/-- What a handler holds while it waits for its next lock. -/
inductive Handler
  | begun (call : Call)
  | assigned (sessionId workerId : String) (version : UInt64) (idleAfterAssign : UInt32)
  | staleKey (sessionId workerId : String) (lastSeq : UInt64)
  | freshKey (sessionId workerId : String) (event : KeyEvent)
  | applyKey (sessionId workerId : String) (event : KeyEvent)
  | applyQuery (workerId : String) (req : QueryCandidatesRequest)
  | applyCommit (workerId : String) (req : CommitSelectionRequest)
  | applyReset (sessionId workerId : String)
  | done (reply : Reply)

def sessionNotFound : Handler := .done (.failed (.notFound "session not found"))

def withPool (op : Act (WorkerPool P) α) : Act (GatewayState P) α := fun s =>
  let r := op s.pool
  (r.1, { s with pool := r.2 })

def SessionState.touch (now : Nat) (session : SessionState) : SessionState :=
  { session with lastActive := now }

/-- `sessions.get_mut(&session_id)` under the write lock; every writer touches
the session. -/
def withSession (now : Nat) (sessionId : String) (change : SessionState → SessionState)
    (next : SessionState → Handler) : Act (GatewayState P) Handler := fun s =>
  match s.sessions.lookup sessionId with
  | none => (sessionNotFound, s)
  | some session =>
      let written := (change session).touch now
      (next written, { s with sessions := s.sessions.insert sessionId written })

def backendEvent (event : KeyEvent) : BackendKeyEvent :=
  { keyDown := event.keyDown
    virtualKey := event.virtualKey
    scanCode := event.scanCode
    shift := event.shift
    ctrl := event.ctrl
    alt := event.alt
    repeated := event.repeated
    extended := event.extended
    timestampMs := event.timestampMs
    sourceKeycode := event.sourceKeycode
    sourceModifier := event.sourceModifier }

/-- The state version and the composition that go with an error: those of a
snapshot, or nothing. -/
def snapshotOrNothing (m : Machine P) (workerId : String) :
    Act (WorkerPool P) (UInt64 × String) := do
  match ← snapshot m workerId with
  | .ok resp => pure (resp.backendStateVersion, resp.composition)
  | .error _ => pure (0, "")

def openSession (m : Machine P) (sessionId : String) (req : OpenSessionRequest) :
    Act (WorkerPool P) Handler := do
  match ← acquireForSession m sessionId req.wantPrewarmedWorker with
  | .error e => pure (.done (.failed (.internal e)))
  | .ok (workerId, version) => do
      let idle ← observe fun pool => UInt32.ofNat pool.idle.length
      pure (.assigned sessionId workerId version idle)

def insertSession (now : Nat) (sessionId workerId : String) (version : UInt64)
    (idleAfterAssign : UInt32) : Act (GatewayState P) Handler := fun s =>
  (.done (.openSession ⟨sessionId, workerId, version, idleAfterAssign⟩),
    { s with sessions := s.sessions.insert sessionId ⟨workerId, 0, now⟩ })

/-- The read-locked check of `send_key_event`. -/
def checkSeq (req : SendKeyEventRequest) : Act (GatewayState P) Handler := fun s =>
  match req.keyEvent with
  | none => (.done (.failed (.invalidArgument "missing key_event")), s)
  | some event =>
      match s.sessions.lookup req.sessionId with
      | none => (sessionNotFound, s)
      | some session =>
          if event.seq ≤ session.lastSeq then
            (.staleKey req.sessionId session.workerId session.lastSeq, s)
          else (.freshKey req.sessionId session.workerId event, s)

def refuseKey (m : Machine P) (sessionId workerId : String) (lastSeq : UInt64) :
    Act (WorkerPool P) Handler := do
  match ← snapshot m workerId with
  | .ok resp =>
      pure (.done (.sendKeyEvent ⟨sessionId, lastSeq, resp.backendStateVersion, resp.composition,
        "SEQ_OUT_OF_ORDER", "incoming seq is not greater than previous seq"⟩))
  | .error message =>
      pure (.done (.sendKeyEvent ⟨sessionId, lastSeq, 0, "", "BACKEND_SNAPSHOT_FAILED", message⟩))

def keyed (event : KeyEvent) (session : SessionState) : SessionState :=
  { session with lastSeq := event.seq }

/-- The write-locked update of `send_key_event`, which does not look at
`last_seq` again. -/
def storeSeq (now : Nat) (sessionId workerId : String) (event : KeyEvent) :
    Act (GatewayState P) Handler :=
  withSession now sessionId (keyed event) fun _ => .applyKey sessionId workerId event

def applyKey (m : Machine P) (sessionId workerId : String) (event : KeyEvent) :
    Act (WorkerPool P) Handler := do
  match ← applyKeyEvent m workerId (backendEvent event) 9 with
  | .ok resp =>
      pure (.done (.sendKeyEvent
        ⟨sessionId, event.seq, resp.backendStateVersion, resp.composition, "", ""⟩))
  | .error message => do
      let (version, composition) ← snapshotOrNothing m workerId
      pure (.done (.sendKeyEvent
        ⟨sessionId, event.seq, version, composition, "BACKEND_SEND_KEY_FAILED", message⟩))

def queried (req : QueryCandidatesRequest) (session : SessionState) : SessionState :=
  if 0 < req.seq then { session with lastSeq := max session.lastSeq req.seq } else session

def beginQuery (now : Nat) (req : QueryCandidatesRequest) : Act (GatewayState P) Handler :=
  withSession now req.sessionId (queried req) fun session => .applyQuery session.workerId req

def applyQuery (m : Machine P) (workerId : String) (req : QueryCandidatesRequest) :
    Act (WorkerPool P) Handler := do
  let limit := if req.maxCandidates = 0 then 9 else req.maxCandidates.toNat
  match ← queryCandidates m workerId req.inputSnapshot limit with
  | .ok resp =>
      pure (.done (.queryCandidates ⟨req.sessionId, resp.backendStateVersion, resp.composition,
        resp.reading, resp.candidates, resp.selectedIndex, resp.pageSize, "", ""⟩))
  | .error message => do
      let (version, composition) ← snapshotOrNothing m workerId
      pure (.done (.queryCandidates
        ⟨req.sessionId, version, composition, "", [], 0, 0, "BACKEND_QUERY_FAILED", message⟩))

def committed (req : CommitSelectionRequest) (session : SessionState) : SessionState :=
  { session with lastSeq := max session.lastSeq req.seq }

def beginCommit (now : Nat) (req : CommitSelectionRequest) : Act (GatewayState P) Handler :=
  withSession now req.sessionId (committed req) fun session => .applyCommit session.workerId req

def applyCommit (m : Machine P) (workerId : String) (req : CommitSelectionRequest) :
    Act (WorkerPool P) Handler := do
  match ← commitSelection m workerId req.committedText req.candidateIndex.toNat with
  | .ok resp =>
      pure (.done (.commitSelection
        ⟨req.sessionId, resp.backendStateVersion, resp.committedText, "", ""⟩))
  | .error message => do
      let (version, _) ← snapshotOrNothing m workerId
      pure (.done (.commitSelection ⟨req.sessionId, version, "", "BACKEND_COMMIT_FAILED", message⟩))

def beginReset (now : Nat) (req : ResetSessionRequest) : Act (GatewayState P) Handler :=
  withSession now req.sessionId id fun session => .applyReset req.sessionId session.workerId

def applyReset (m : Machine P) (sessionId workerId : String) : Act (WorkerPool P) Handler := do
  match ← resetWorker m workerId with
  | .ok resp => pure (.done (.resetSession ⟨sessionId, resp.backendStateVersion, true, "", ""⟩))
  | .error message =>
      pure (.done (.resetSession ⟨sessionId, 0, false, "BACKEND_RESET_FAILED", message⟩))

/-- A handler takes the lock it waits for and runs until it has released it. -/
def advance (m : Machine P) (now : Nat) : Handler → Act (GatewayState P) Handler
  | .begun (.openSession sessionId req) => withPool (openSession m sessionId req)
  | .begun (.sendKeyEvent req) => checkSeq req
  | .begun (.queryCandidates req) => beginQuery now req
  | .begun (.commitSelection req) => beginCommit now req
  | .begun (.resetSession req) => beginReset now req
  | .assigned sessionId workerId version idleAfterAssign =>
      insertSession now sessionId workerId version idleAfterAssign
  | .staleKey sessionId workerId lastSeq => withPool (refuseKey m sessionId workerId lastSeq)
  | .freshKey sessionId workerId event => storeSeq now sessionId workerId event
  | .applyKey sessionId workerId event => withPool (applyKey m sessionId workerId event)
  | .applyQuery workerId req => withPool (applyQuery m workerId req)
  | .applyCommit workerId req => withPool (applyCommit m workerId req)
  | .applyReset sessionId workerId => withPool (applyReset m sessionId workerId)
  | .done reply => pure (.done reply)

inductive Reaper
  | sleeping
  | woken (now : Nat)
  | listed (now : Nat) (expired : List String)
  | removed (expired : List String)

/-- The order in which a hash map is walked: any order of its keys. -/
def walk (order keys : List String) : List String := if order.Perm keys then order else keys

def expiredAt (s : GatewayState P) (now : Nat) (sessionId : String) : Bool :=
  match s.sessions.lookup sessionId with
  | none => false
  | some session => s.sessionIdleTtl < now - session.lastActive

def removeSessions (sessions : Map String SessionState) (expired : List String) :
    Map String SessionState :=
  expired.foldl (fun table sessionId => table.erase sessionId) sessions

def releaseAll (m : Machine P) : List String → Act (WorkerPool P) Unit
  | [] => pure ()
  | sessionId :: rest => do
      releaseForSession m sessionId
      releaseAll m rest

def recycle (m : Machine P) (expired : List String) : Act (WorkerPool P) Unit := do
  releaseAll m expired
  trimIdle
  prewarm m

def reap (m : Machine P) (now : Nat) (order : List String) : Reaper → Act (GatewayState P) Reaper
  | .sleeping => pure (.woken now)
  | .woken woken => fun s =>
      let expired := (walk order s.sessions.keys).filter (expiredAt s woken)
      (if expired = [] then .sleeping else .listed woken expired, s)
  | .listed _ expired => fun s =>
      (.removed expired, { s with sessions := removeSessions s.sessions expired })
  | .removed expired => do
      withPool (recycle m expired)
      pure .sleeping

/-- The gateway at work: its two tables, the clock, the handlers in flight and
the reaper. -/
structure System (P : Type) where
  state : GatewayState P
  clock : Nat
  handlers : List Handler
  reaper : Reaper

inductive Event
  | arrive (call : Call)
  | resume (handler : Nat)
  | reap (order : List String)
  | tick (elapsed : Nat)

def System.resume (m : Machine P) (sys : System P) (i : Nat) : System P :=
  match sys.handlers[i]? with
  | none => sys
  | some handler =>
      let r := advance m sys.clock handler sys.state
      { sys with state := r.2, handlers := sys.handlers.set i r.1 }

def step (m : Machine P) (sys : System P) : Event → System P
  | .arrive call => { sys with handlers := sys.handlers ++ [.begun call] }
  | .resume i => sys.resume m i
  | .reap order =>
      let r := reap m sys.clock order sys.reaper sys.state
      { sys with state := r.2, reaper := r.1 }
  | .tick elapsed => { sys with clock := sys.clock + elapsed }

def start (m : Machine P) (cfg : PoolConfig) (sessionIdleTtl : Nat) : System P :=
  ⟨⟨∅, WorkerPool.new m cfg, sessionIdleTtl⟩, 0, [], .sleeping⟩

end RimeWinime.Service
