import RimeWinime.Gateway.Worker
import RimeWinime.Lib.Table
import Mathlib.Data.List.TakeDrop

namespace RimeWinime.Pool

open World Worker Table

variable {P : Type}

/-- What the pool cannot see into: whether the worker subprocess of the n-th
attempt comes up, and what a subprocess answers on its pipe. -/
structure Machine (P : Type) where
  spawn : Nat → Option P
  request : WorkerIpcRequest → Act P (Except String WorkerIpcResponse)

/-- `run_worker_runtime_mode`: the subprocess resets its backend and answers
one request after the other. -/
def workerRuntime {β : Type} (backend : ImeBackend β) (fromEnv : β) : Machine β where
  spawn _ := some (backend.resetForNewSession fromEnv).2
  request req := fun runtime =>
    let r := handleBackendRequest backend req runtime
    (.ok r.1, r.2)

def stubMachine : Machine WorkerRuntime := workerRuntime WorkerRuntime.backend WorkerRuntime.new

structure PoolConfig where
  minIdle : Nat
  maxIdle : Nat
  prewarm : Bool

/-- A subprocess. `resets` is a ghost: how its `reset_session` requests ended,
the latest first. -/
structure WorkerProcess (P : Type) where
  process : P
  resets : List Bool

structure WorkerPool (P : Type) where
  cfg : PoolConfig
  nextWorkerId : Nat
  idle : List String
  busyBySession : Map String String
  workers : Map String (WorkerProcess P)

def accepted : Except String WorkerIpcResponse → Bool
  | .ok resp => resp.ok
  | .error _ => false

def WorkerProcess.request (m : Machine P) (req : WorkerIpcRequest) :
    Act (WorkerProcess P) (Except String WorkerIpcResponse) := fun worker =>
  let r := m.request req worker.process
  let resets := if req = .resetSession then accepted r.1 :: worker.resets else worker.resets
  (r.1, ⟨r.2, resets⟩)

def workerName (n : Nat) : String :=
  let digits := Nat.toDigits 10 n
  "worker-" ++ String.ofList (List.replicate (6 - digits.length) '0' ++ digits)

def allocateWorkerId : Act (WorkerPool P) String := fun pool =>
  let n := pool.nextWorkerId + 1
  (workerName n, { pool with nextWorkerId := n })

def spawnWorker (m : Machine P) : Act (WorkerPool P) (Option String) := do
  let workerId ← allocateWorkerId
  match m.spawn (← observe (·.nextWorkerId)) with
  | none => pure none
  | some process =>
      let r := WorkerProcess.request m .resetSession ⟨process, []⟩
      if accepted r.1 then do
        change fun pool => { pool with workers := pool.workers.insert workerId r.2 }
        pure (some workerId)
      else pure none

def prewarmLoop (m : Machine P) : Nat → Act (WorkerPool P) Unit
  | 0 => pure ()
  | missing + 1 => do
      match ← spawnWorker m with
      | none => pure ()
      | some workerId => do
          change fun pool => { pool with idle := pool.idle ++ [workerId] }
          prewarmLoop m missing

/-- The loop runs while fewer than `min_idle` workers are idle, and every turn
but the last adds one. -/
def prewarm (m : Machine P) : Act (WorkerPool P) Unit := fun pool =>
  prewarmLoop m (pool.cfg.minIdle - pool.idle.length) pool

def WorkerPool.new (m : Machine P) (cfg : PoolConfig) : WorkerPool P :=
  let pool : WorkerPool P := ⟨cfg, 0, [], ∅, ∅⟩
  if cfg.prewarm then (prewarm m pool).2 else pool

def requestWorker (m : Machine P) (workerId : String) (req : WorkerIpcRequest) :
    Act (WorkerPool P) (Option (Except String WorkerIpcResponse)) := fun pool =>
  match pool.workers.lookup workerId with
  | none => (none, pool)
  | some worker =>
      let r := WorkerProcess.request m req worker
      (some r.1, { pool with workers := pool.workers.insert workerId r.2 })

def spawnOr (m : Machine P) (failure : String) : Act (WorkerPool P) (Except String String) := do
  match ← spawnWorker m with
  | some workerId => pure (.ok workerId)
  | none => pure (.error failure)

def obtainWorker (m : Machine P) (wantPrewarmed : Bool) :
    Act (WorkerPool P) (Except String String) :=
  if wantPrewarmed then fun pool =>
    match pool.idle with
    | workerId :: idle => (.ok workerId, { pool with idle := idle })
    | [] => spawnOr m "failed to acquire prewarmed worker" pool
  else spawnOr m "failed to spawn dedicated worker"

def acquireForSession (m : Machine P) (sessionId : String) (wantPrewarmed : Bool) :
    Act (WorkerPool P) (Except String (String × UInt64)) := do
  match ← obtainWorker m wantPrewarmed with
  | .error failure => pure (.error failure)
  | .ok workerId =>
      match ← requestWorker m workerId .resetSession with
      | none => pure (.error "worker disappeared from registry")
      | some (.error err) => pure (.error ("worker reset transport failed: " ++ err))
      | some (.ok resp) =>
          if resp.ok then do
            change fun pool =>
              { pool with busyBySession := pool.busyBySession.insert sessionId workerId }
            pure (.ok (workerId, resp.backendStateVersion))
          else
            pure (.error
              ("worker reset failed: code=" ++ resp.errorCode ++ " msg=" ++ resp.errorMessage))

/-- The worker of the session goes back to `idle`, whatever its reset answers,
or is shut down when `idle` is full. -/
def releaseForSession (m : Machine P) (sessionId : String) : Act (WorkerPool P) Unit := fun pool =>
  match pool.busyBySession.lookup sessionId with
  | none => ((), pool)
  | some workerId =>
      let released := { pool with busyBySession := pool.busyBySession.erase sessionId }
      if pool.idle.length < pool.cfg.maxIdle then
        let answered := (requestWorker m workerId .resetSession released).2
        ((), { answered with idle := answered.idle ++ [workerId] })
      else ((), { released with workers := released.workers.erase workerId })

def trimLoop : Nat → Act (WorkerPool P) Unit
  | 0 => pure ()
  | excess + 1 => fun pool =>
      match pool.idle.getLast? with
      | none => trimLoop excess pool
      | some workerId =>
          let trimmed := { pool with
            idle := pool.idle.dropLast
            workers := pool.workers.erase workerId }
          trimLoop excess trimmed

def trimIdle : Act (WorkerPool P) Unit := fun pool =>
  trimLoop (pool.idle.length - pool.cfg.maxIdle) pool

def forward (m : Machine P) (workerId what : String) (req : WorkerIpcRequest) :
    Act (WorkerPool P) (Except String WorkerIpcResponse) := do
  match ← requestWorker m workerId req with
  | none => pure (.error "worker process missing")
  | some (.error e) => pure (.error ("worker " ++ what ++ " transport failed: " ++ e))
  | some (.ok resp) =>
      if resp.ok then pure (.ok resp)
      else
        pure (.error
          ("worker " ++ what ++ " backend failed: code=" ++ resp.errorCode ++ " msg=" ++
            resp.errorMessage))

def snapshot (m : Machine P) (workerId : String) :
    Act (WorkerPool P) (Except String WorkerIpcResponse) :=
  forward m workerId "snapshot" .snapshot

def applyKeyEvent (m : Machine P) (workerId : String) (keyEvent : BackendKeyEvent)
    (maxCandidates : Nat) : Act (WorkerPool P) (Except String WorkerIpcResponse) :=
  forward m workerId "send_key_event" (.sendKeyEvent keyEvent maxCandidates)

def queryCandidates (m : Machine P) (workerId inputSnapshot : String) (maxCandidates : Nat) :
    Act (WorkerPool P) (Except String WorkerIpcResponse) :=
  forward m workerId "query_candidates" (.queryCandidates inputSnapshot maxCandidates)

def resetWorker (m : Machine P) (workerId : String) :
    Act (WorkerPool P) (Except String WorkerIpcResponse) :=
  forward m workerId "reset" .resetSession

def commitSelection (m : Machine P) (workerId committedText : String) (candidateIndex : Nat) :
    Act (WorkerPool P) (Except String WorkerIpcResponse) := do
  match ← requestWorker m workerId (.commitSelection committedText candidateIndex) with
  | none => pure (.error "worker process missing")
  | some (.error e) => pure (.error ("worker commit_selection transport failed: " ++ e))
  | some (.ok resp) =>
      if resp.ok then pure (.ok resp)
      else
        let errorCode := if resp.errorCode = "" then "UNKNOWN" else resp.errorCode
        let errorMessage :=
          if resp.errorMessage = "" then "worker commit failed" else resp.errorMessage
        pure (.error ("worker commit backend failed: code=" ++ errorCode ++ " msg=" ++ errorMessage))

end RimeWinime.Pool
