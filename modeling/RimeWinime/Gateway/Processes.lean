import RimeWinime.Gateway.Service
import RimeWinime.Gateway.Partition
import RimeWinime.Lib.Ledger

namespace RimeWinime.Processes

open World Worker Table Pool RimeWinime.Partition Service Ledger Run

variable {P α : Type}

/-- How `Command::spawn` ends: no subprocess, one without a pipe of its own, or
one that can be talked to. -/
inductive Start (P : Type)
  | refused
  | unpiped
  | running (process : P)

def Start.process : Start P → Option P
  | .running process => some process
  | _ => none

/-- The system that starts the subprocesses, and the subprocesses. -/
structure Host (P : Type) where
  start : Nat → Start P
  request : WorkerIpcRequest → Act P (Except String WorkerIpcResponse)

def Host.machine (host : Host P) : Machine P := ⟨fun n => (host.start n).process, host.request⟩

/-- The pool, and what has been done with its subprocesses: a subprocess is
started, gets a request, or is killed and waited for. -/
structure Books (P : Type) where
  pool : WorkerPool P
  log : List (Mark String)

def note (mark : Mark String) : Act (Books P) Unit :=
  change fun books => { books with log := books.log ++ [mark] }

def inPool (op : Act (WorkerPool P) α) : Act (Books P) α := fun books =>
  let r := op books.pool
  (r.1, { books with pool := r.2 })

/-- A subprocess that is not taken into the registry is killed. -/
def spawnWorker (host : Host P) : Act (Books P) (Option String) := do
  let workerId ← inPool allocateWorkerId
  match host.start (← inPool (observe (·.nextWorkerId))) with
  | .refused => pure none
  | .unpiped => do
      note (.gains workerId)
      note (.gives workerId)
      pure none
  | .running process => do
      note (.gains workerId)
      note (.uses workerId)
      let r := WorkerProcess.request host.machine .resetSession ⟨process, []⟩
      if accepted r.1 then do
        inPool (change fun pool => { pool with workers := pool.workers.insert workerId r.2 })
        pure (some workerId)
      else do
        note (.gives workerId)
        pure none

def prewarmLoop (host : Host P) : Nat → Act (Books P) Unit
  | 0 => pure ()
  | missing + 1 => do
      match ← spawnWorker host with
      | none => pure ()
      | some workerId => do
          inPool (change fun pool => { pool with idle := pool.idle ++ [workerId] })
          prewarmLoop host missing

def prewarm (host : Host P) : Act (Books P) Unit := fun books =>
  prewarmLoop host (books.pool.cfg.minIdle - books.pool.idle.length) books

def opened (host : Host P) (cfg : PoolConfig) : Books P :=
  let books : Books P := ⟨⟨cfg, 0, [], ∅, ∅⟩, []⟩
  if cfg.prewarm then (prewarm host books).2 else books

def requestWorker (host : Host P) (workerId : String) (req : WorkerIpcRequest) :
    Act (Books P) (Option (Except String WorkerIpcResponse)) := fun books =>
  match books.pool.workers.lookup workerId with
  | none => (none, books)
  | some worker =>
      let r := WorkerProcess.request host.machine req worker
      (some r.1,
        { pool := { books.pool with workers := books.pool.workers.insert workerId r.2 }
          log := books.log ++ [.uses workerId] })

def spawnOr (host : Host P) (failure : String) : Act (Books P) (Except String String) := do
  match ← spawnWorker host with
  | some workerId => pure (.ok workerId)
  | none => pure (.error failure)

def obtainWorker (host : Host P) (wantPrewarmed : Bool) : Act (Books P) (Except String String) :=
  if wantPrewarmed then fun books =>
    match books.pool.idle with
    | workerId :: idle => (.ok workerId, { books with pool := { books.pool with idle := idle } })
    | [] => spawnOr host "failed to acquire prewarmed worker" books
  else spawnOr host "failed to spawn dedicated worker"

def acquireForSession (host : Host P) (sessionId : String) (wantPrewarmed : Bool) :
    Act (Books P) (Except String (String × UInt64)) := do
  match ← obtainWorker host wantPrewarmed with
  | .error failure => pure (.error failure)
  | .ok workerId =>
      match ← requestWorker host workerId .resetSession with
      | none => pure (.error "worker disappeared from registry")
      | some (.error err) => pure (.error ("worker reset transport failed: " ++ err))
      | some (.ok resp) =>
          if resp.ok then do
            inPool (change fun pool =>
              { pool with busyBySession := pool.busyBySession.insert sessionId workerId })
            pure (.ok (workerId, resp.backendStateVersion))
          else
            pure (.error
              ("worker reset failed: code=" ++ resp.errorCode ++ " msg=" ++ resp.errorMessage))

/-- `self.workers.remove(&worker_id)`, and `shutdown` of what is found. -/
def removeWorker (workerId : String) : Act (Books P) Unit := fun books =>
  match books.pool.workers.lookup workerId with
  | none => ((), books)
  | some _ =>
      ((),
        { pool := { books.pool with workers := books.pool.workers.erase workerId }
          log := books.log ++ [.gives workerId] })

def releaseForSession (host : Host P) (sessionId : String) : Act (Books P) Unit := fun books =>
  match books.pool.busyBySession.lookup sessionId with
  | none => ((), books)
  | some workerId =>
      let released := { books with
        pool := { books.pool with busyBySession := books.pool.busyBySession.erase sessionId } }
      if books.pool.idle.length < books.pool.cfg.maxIdle then
        let answered := (requestWorker host workerId .resetSession released).2
        ((), { answered with pool := { answered.pool with idle := answered.pool.idle ++ [workerId] } })
      else removeWorker workerId released

def trimLoop : Nat → Act (Books P) Unit
  | 0 => pure ()
  | excess + 1 => fun books =>
      match books.pool.idle.getLast? with
      | none => trimLoop excess books
      | some workerId =>
          let trimmed := { books with
            pool := { books.pool with idle := books.pool.idle.dropLast } }
          trimLoop excess (removeWorker workerId trimmed).2

def trimIdle : Act (Books P) Unit := fun books =>
  trimLoop (books.pool.idle.length - books.pool.cfg.maxIdle) books

/-- `impl Drop for WorkerPool`: the registry is drained in any order. -/
def dropped (order : List String) (books : Books P) : Books P where
  pool := { books.pool with workers := ∅ }
  log := books.log ++ (walk order books.pool.workers.keys).map .gives

/-- What the handlers and the reaper do with the pool. -/
inductive Use
  | turn (op : PoolOp)
  | request (workerId : String) (req : WorkerIpcRequest)

def Use.plain (m : Machine P) (pool : WorkerPool P) : Use → WorkerPool P
  | .turn op => Partition.step m pool op
  | .request workerId req => (Pool.requestWorker m workerId req pool).2

def Use.booked (host : Host P) (books : Books P) : Use → Books P
  | .turn (.acquireForSession sessionId wantPrewarmed) =>
      (acquireForSession host sessionId wantPrewarmed books).2
  | .turn (.releaseForSession sessionId) => (releaseForSession host sessionId books).2
  | .turn .trimIdle => (trimIdle books).2
  | .turn .prewarm => (prewarm host books).2
  | .request workerId req => (requestWorker host workerId req books).2

def Beside (books : Books P) (pool : WorkerPool P) : Prop := books.pool = pool

theorem inPool_beside (op : Act (WorkerPool P) α) : Respects Beside Eq (inPool op) op := by
  rintro books _ rfl
  exact ⟨rfl, rfl⟩

section

variable (host : Host P)

@[simp] theorem spawn_machine (n : Nat) : host.machine.spawn n = (host.start n).process := rfl

theorem spawnWorker_beside :
    Respects Beside Eq (spawnWorker host) (Pool.spawnWorker host.machine) := by
  rintro books _ rfl
  cases hs : host.start (books.pool.nextWorkerId + 1) with
  | refused | unpiped =>
      simp [spawnWorker, Pool.spawnWorker, inPool, allocateWorkerId, note, hs, Start.process, Beside]
  | running process =>
      cases ha : accepted (WorkerProcess.request host.machine .resetSession ⟨process, []⟩).1 <;>
        simp [spawnWorker, Pool.spawnWorker, inPool, allocateWorkerId, note, hs, Start.process,
          ha, Beside]

theorem prewarmLoop_beside (missing : Nat) :
    Respects Beside Eq (prewarmLoop host missing) (Pool.prewarmLoop host.machine missing) := by
  induction missing with
  | zero => exact Respects.pure rfl
  | succ missing ih =>
      apply Respects.bind_eq (spawnWorker_beside host)
      intro spawned
      cases spawned with
      | none => exact Respects.pure rfl
      | some workerId => exact Respects.bind_eq (inPool_beside _) fun _ => ih

theorem prewarm_beside : Respects Beside Eq (prewarm host) (Pool.prewarm host.machine) := by
  rintro books _ rfl
  exact prewarmLoop_beside host _ books _ rfl

theorem requestWorker_beside (workerId : String) (req : WorkerIpcRequest) :
    Respects Beside Eq (requestWorker host workerId req)
      (Pool.requestWorker host.machine workerId req) := by
  rintro books _ rfl
  cases hw : books.pool.workers.lookup workerId with
  | none => simp [requestWorker, Pool.requestWorker, hw, Beside]
  | some worker => simp [requestWorker, Pool.requestWorker, hw, Beside]

theorem spawnOr_beside (failure : String) :
    Respects Beside Eq (spawnOr host failure) (Pool.spawnOr host.machine failure) := by
  apply Respects.bind_eq (spawnWorker_beside host)
  intro spawned
  cases spawned with
  | none => exact Respects.pure rfl
  | some workerId => exact Respects.pure rfl

theorem obtainWorker_beside (wantPrewarmed : Bool) :
    Respects Beside Eq (obtainWorker host wantPrewarmed)
      (Pool.obtainWorker host.machine wantPrewarmed) := by
  cases wantPrewarmed with
  | false => exact spawnOr_beside host _
  | true =>
      rintro books _ rfl
      cases hidle : books.pool.idle with
      | nil =>
          have hspawn := spawnOr_beside host "failed to acquire prewarmed worker" books _ rfl
          simpa [obtainWorker, Pool.obtainWorker, hidle] using hspawn
      | cons workerId idle =>
          simp [obtainWorker, Pool.obtainWorker, hidle, Beside]

theorem acquireForSession_beside (sessionId : String) (wantPrewarmed : Bool) :
    Respects Beside Eq (acquireForSession host sessionId wantPrewarmed)
      (Pool.acquireForSession host.machine sessionId wantPrewarmed) := by
  apply Respects.bind_eq (obtainWorker_beside host wantPrewarmed)
  intro obtained
  cases obtained with
  | error failure => exact Respects.pure rfl
  | ok workerId =>
      apply Respects.bind_eq (requestWorker_beside host workerId .resetSession)
      intro asked
      cases asked with
      | none => exact Respects.pure rfl
      | some r =>
          cases r with
          | error err => exact Respects.pure rfl
          | ok resp =>
              apply Respects.ite
              · intro _
                exact Respects.bind_eq (inPool_beside _) fun _ => Respects.pure rfl
              · intro _
                exact Respects.pure rfl

theorem erase_absent {κ ν : Type} [DecidableEq κ] {t : Map κ ν} {k : κ} (h : t.lookup k = none) :
    t.erase k = t := by
  apply AList.ext
  have hk : k ∉ t.keys := AList.lookup_eq_none.mp h
  exact List.kerase_of_notMem_keys hk

theorem removeWorker_pool (workerId : String) (books : Books P) :
    (removeWorker workerId books).2.pool =
      { books.pool with workers := books.pool.workers.erase workerId } := by
  rw [removeWorker]
  split
  · next h => rw [erase_absent h]
  · rfl

theorem releaseForSession_beside (sessionId : String) :
    Respects Beside Eq (releaseForSession host sessionId)
      (Pool.releaseForSession host.machine sessionId) := by
  rintro books _ rfl
  cases hbusy : books.pool.busyBySession.lookup sessionId with
  | none => simp [releaseForSession, Pool.releaseForSession, hbusy, Beside]
  | some workerId =>
      by_cases hroom : books.pool.idle.length < books.pool.cfg.maxIdle
      · have hasked := requestWorker_beside host workerId .resetSession
          { books with
            pool := { books.pool with busyBySession := books.pool.busyBySession.erase sessionId } }
          _ rfl
        have hpool := hasked.2
        rw [Beside] at hpool
        simp only [releaseForSession, Pool.releaseForSession, hbusy, if_pos hroom, Beside, hpool,
          and_self]
      · simp only [releaseForSession, Pool.releaseForSession, hbusy, if_neg hroom, Beside]
        exact ⟨trivial, removeWorker_pool workerId _⟩

theorem trimLoop_beside (excess : Nat) :
    Respects Beside Eq (trimLoop excess : Act (Books P) Unit) (Pool.trimLoop excess) := by
  induction excess with
  | zero => exact Respects.pure rfl
  | succ excess ih =>
      rintro books _ rfl
      cases hlast : books.pool.idle.getLast? with
      | none =>
          simp only [trimLoop, Pool.trimLoop, hlast]
          exact ⟨trivial, (ih books _ rfl).2⟩
      | some workerId =>
          simp only [trimLoop, Pool.trimLoop, hlast]
          exact ⟨trivial, (ih _ _ (removeWorker_pool workerId _)).2⟩

theorem trimIdle_beside : Respects Beside Eq (trimIdle : Act (Books P) Unit) Pool.trimIdle := by
  rintro books _ rfl
  exact trimLoop_beside _ books _ rfl

theorem use_beside (books : Books P) (u : Use) :
    (u.booked host books).pool = u.plain host.machine books.pool := by
  cases u with
  | request workerId req => exact (requestWorker_beside host workerId req books _ rfl).2
  | turn op =>
      cases op with
      | acquireForSession sessionId wantPrewarmed =>
          exact (acquireForSession_beside host sessionId wantPrewarmed books _ rfl).2
      | releaseForSession sessionId => exact (releaseForSession_beside host sessionId books _ rfl).2
      | trimIdle => exact (trimIdle_beside books _ rfl).2
      | prewarm => exact (prewarm_beside host books _ rfl).2

theorem opened_beside (cfg : PoolConfig) :
    (opened host cfg).pool = WorkerPool.new host.machine cfg := by
  rw [opened, WorkerPool.new]
  split
  · exact (prewarm_beside host _ _ rfl).2
  · rfl

theorem run_beside (cfg : PoolConfig) (uses : List Use) :
    (run (Use.booked host) (opened host cfg) uses).pool =
      run (Use.plain host.machine) (WorkerPool.new host.machine cfg) uses := by
  rw [← opened_beside]
  generalize opened host cfg = books
  induction uses generalizing books with
  | nil => rfl
  | cons u uses ih => rw [run_cons, run_cons, ih, use_beside]

end

end RimeWinime.Processes
