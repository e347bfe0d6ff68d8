import RimeWinime.Gateway.Lending

namespace RimeWinime.Solo

open World Worker Table Pool RimeWinime.Partition Service Steps Lending

variable {P : Type}

def alone (workerId : String) (process : P) : GatewayState P :=
  ⟨∅, ⟨⟨0, 0, false⟩, 0, [], ∅, AList.insert workerId ⟨process, []⟩ ∅⟩, 0⟩

/-- What the handler makes of such a worker: its reply, and what the worker holds then. -/
def solo (m : Machine P) (handler : Handler) (process : P) : Handler × P :=
  match asking handler with
  | none => (handler, process)
  | some (_, workerId) =>
      let r := advance m 0 handler (alone workerId process)
      (r.1, ((r.2.pool.workers.lookup workerId).map (·.process)).getD process)

def soloRun (m : Machine P) (handlers : List Handler) (process : P) : P :=
  handlers.foldl (fun process handler => (solo m handler process).2) process

theorem soloRun_append (m : Machine P) (handlers : List Handler) (handler : Handler) (process : P) :
    soloRun m (handlers ++ [handler]) process =
      (solo m handler (soloRun m handlers process)).2 := by
  rw [soloRun, List.foldl_append]
  rfl

theorem solo_of_advance (m : Machine P) (now : Nat) {handler : Handler} {s : GatewayState P}
    {sessionId workerId : String} (h : asking handler = some (sessionId, workerId))
    {worker : WorkerProcess P} (hw : s.pool.workers.lookup workerId = some worker) :
    (advance m now handler s).1 = (solo m handler worker.process).1 ∧
      ∃ worker', (advance m now handler s).2.pool.workers.lookup workerId = some worker' ∧
        worker'.process = (solo m handler worker.process).2 := by
  have halike : Alike workerId s.pool (alone workerId worker.process).pool :=
    ⟨worker, _, hw, AList.lookup_insert _, rfl⟩
  obtain ⟨hreply, worker', own, hw', hown, hsame⟩ := advance_alike m now h 0 halike
  simp only [solo, h]
  refine ⟨hreply, worker', hw', ?_⟩
  rw [hown, hsame]
  rfl

/-- The workers that are still lent are left alone. -/
def Spares (pool pool' : WorkerPool P) : Prop :=
  ∀ sessionId workerId, pool'.busyBySession.lookup sessionId = some workerId →
    pool'.workers.lookup workerId = pool.workers.lookup workerId

theorem Spares.refl (pool : WorkerPool P) : Spares pool pool := fun _ _ _ => rfl

theorem Spares.trans {released : List String} {a b c : WorkerPool P} (hab : Spares a b)
    (hturns : Turns released b c) (hbc : Spares b c) : Spares a c := by
  intro sessionId workerId hbusy
  exact (hbc sessionId workerId hbusy).trans
    (hab sessionId workerId (hturns.fewer sessionId workerId hbusy))

section

variable (m : Machine P) {pool : WorkerPool P}

theorem lent_named (h : Listed [] pool) {sessionId workerId : String}
    (hbusy : pool.busyBySession.lookup sessionId = some workerId) : Named pool workerId := by
  have hplaced : workerId ∈ placed pool :=
    List.mem_append_right _ (mem_values.mpr ⟨sessionId, hbusy⟩)
  exact h.named _ hplaced

theorem spawned_spares (h : Listed [] pool) (worker : WorkerProcess P) {sessionId workerId : String}
    (hbusy : pool.busyBySession.lookup sessionId = some workerId) :
    (withSpawned pool worker).workers.lookup workerId = pool.workers.lookup workerId := by
  refine AList.lookup_insert_ne fun he => not_named_next pool ?_
  exact he ▸ lent_named h hbusy

theorem release_spares (h : Listed [] pool) (sessionId : String) :
    Spares pool (releaseForSession m sessionId pool).2 := by
  intro k workerId hbusy
  have hturns := release_turns m sessionId pool
  have hlent := hturns.fewer k workerId hbusy
  rcases release_cases m sessionId pool with ⟨-, hsame⟩ | ⟨id, hid, hcase⟩
  · rw [hsame]
  · have hother : workerId ≠ id := by
      rintro rfl
      have herased : (releaseForSession m sessionId pool).2.busyBySession =
          pool.busyBySession.erase sessionId := by
        rcases hcase with ⟨-, hrun⟩ | ⟨-, hrun⟩
        · rw [hrun]
          exact (requestWorker_served m workerId .resetSession _).busy
        · rw [hrun]
      rw [herased, h.busy_injective hlent hid, AList.lookup_erase] at hbusy
      cases hbusy
    rcases hcase with ⟨-, hrun⟩ | ⟨-, hrun⟩
    · rw [hrun]
      exact (requestWorker_served m id .resetSession _).others workerId hother
    · rw [hrun]
      exact AList.lookup_erase_ne hother

theorem releaseAll_spares (h : Listed [] pool) (sessionIds : List String) :
    Spares pool (releaseAll m sessionIds pool).2 := by
  induction sessionIds generalizing pool with
  | nil => exact Spares.refl pool
  | cons sessionId rest ih =>
      have hturns := release_turns m sessionId pool
      exact (release_spares m h sessionId).trans (releaseAll_turns m rest _) (ih (hturns.listed h))

theorem trimLoop_spares (h : Listed [] pool) (excess : Nat) :
    Spares pool (trimLoop excess pool).2 := by
  induction excess generalizing pool with
  | zero => exact Spares.refl pool
  | succ excess ih =>
      cases hlast : pool.idle.getLast? with
      | none => simpa [trimLoop, hlast] using ih h
      | some id =>
          have htrimmed : Listed [] { pool with
              idle := pool.idle.dropLast
              workers := pool.workers.erase id } := ((h.popLast hlast).discard id).forget
          have hone : Spares pool { pool with
              idle := pool.idle.dropLast
              workers := pool.workers.erase id } := by
            intro sessionId workerId hbusy
            refine AList.lookup_erase_ne fun he => h.busy_not_idle hbusy ?_
            exact he ▸ List.mem_of_getLast? hlast
          simpa [trimLoop, hlast] using hone.trans (trimLoop_turns excess _) (ih htrimmed)

theorem prewarmLoop_spares (h : Listed [] pool) (missing : Nat) :
    Spares pool (prewarmLoop m missing pool).2 := by
  induction missing generalizing pool with
  | zero => exact Spares.refl pool
  | succ missing ih =>
      rcases spawnWorker_cases m pool with ⟨hspawn, -⟩ | ⟨process, -, -, hspawn⟩
      · have hcounted : Spares pool { pool with nextWorkerId := pool.nextWorkerId + 1 } :=
          fun _ _ _ => rfl
        simpa [prewarmLoop, hspawn] using hcounted
      · have hlisted : Listed []
            { withSpawned pool ⟨(m.request .resetSession process).2, [true]⟩ with
              idle := (withSpawned pool ⟨(m.request .resetSession process).2, [true]⟩).idle ++
                [workerName (pool.nextWorkerId + 1)] } := (h.spawned _).store
        have hone : Spares pool
            { withSpawned pool ⟨(m.request .resetSession process).2, [true]⟩ with
              idle := (withSpawned pool ⟨(m.request .resetSession process).2, [true]⟩).idle ++
                [workerName (pool.nextWorkerId + 1)] } :=
          fun sessionId workerId hbusy => spawned_spares h _ hbusy
        simpa [prewarmLoop, hspawn] using hone.trans (prewarmLoop_turns m missing _) (ih hlisted)

theorem recycle_spares (h : Listed [] pool) (expired : List String) :
    Spares pool (recycle m expired pool).2 := by
  have hreleased := (releaseAll_turns m expired pool).listed h
  have htrimmed : Turns [] (releaseAll m expired pool).2
      (trimIdle (releaseAll m expired pool).2).2 := trimLoop_turns _ _
  have hrest : Spares (releaseAll m expired pool).2 (trimIdle (releaseAll m expired pool).2).2 :=
    trimLoop_spares hreleased _
  exact ((releaseAll_spares m h expired).trans htrimmed hrest).trans (prewarmLoop_turns m _ _)
    (prewarmLoop_spares m (htrimmed.listed hreleased) _)

theorem obtainWorker_spares (h : Listed [] pool) (wantPrewarmed : Bool) {sessionId workerId : String}
    (hbusy : pool.busyBySession.lookup sessionId = some workerId) :
    (obtainWorker m wantPrewarmed pool).2.workers.lookup workerId =
      pool.workers.lookup workerId := by
  rcases obtainWorker_cases m wantPrewarmed pool with ⟨id, rest, -, -, hrun⟩ | ⟨failure, -, hrun⟩
  · rw [hrun]
  · rw [hrun]
    rcases spawnOr_cases m failure pool with ⟨hspawn, -⟩ | ⟨process, -, hspawn⟩
    · rw [hspawn]
    · rw [hspawn]
      exact spawned_spares h _ hbusy

/-- An acquire fails, or hands a worker over as its reset has left it. -/
inductive Handed (sessionId : String) (wantPrewarmed : Bool) (pool : WorkerPool P) :
    Except String (String × UInt64) × WorkerPool P → Prop
  | failed {pool' : WorkerPool P} (e : String) (spared : Spares pool pool') :
      Handed sessionId wantPrewarmed pool (.error e, pool')
  | lent {held pool' : WorkerPool P} {workerId : String} {worker : WorkerProcess P}
      (version : UInt64) (obtained : obtainWorker m wantPrewarmed pool = (.ok workerId, held))
      (found : held.workers.lookup workerId = some worker)
      (cleared : answersReset m worker.process = true)
      (now : pool'.workers.lookup workerId = some (answered m worker))
      (busy : pool'.busyBySession = pool.busyBySession.insert sessionId workerId)
      (others : ∀ k id, pool.busyBySession.lookup k = some id →
        pool'.workers.lookup id = pool.workers.lookup id) :
      Handed sessionId wantPrewarmed pool (.ok (workerId, version), pool')

theorem acquire_handed (sessionId : String) (wantPrewarmed : Bool) (h : Listed [] pool) :
    Handed m sessionId wantPrewarmed pool (acquireForSession m sessionId wantPrewarmed pool) := by
  have htaken := obtainWorker_taken m wantPrewarmed h
  have hspares (k id : String) (hbusy : pool.busyBySession.lookup k = some id) :=
    obtainWorker_spares m h wantPrewarmed hbusy
  generalize hrun : obtainWorker m wantPrewarmed pool = r at htaken hspares
  cases htaken with
  | @failed held e hturns =>
      have hfail : acquireForSession m sessionId wantPrewarmed pool = (.error e, held) := by
        simp [acquireForSession, hrun]
      rw [hfail]
      exact .failed e fun k j hk => hspares k j (hturns.fewer k j hk)
  | @inHand held id hlisted hages hbusy =>
      have hother (k j : String) (hk : pool.busyBySession.lookup k = some j) : j ≠ id := by
        rintro rfl
        rw [← hbusy] at hk
        have hplaced : j ∈ placed held := List.mem_append_right _ (mem_values.mpr ⟨k, hk⟩)
        exact (List.nodup_cons.mp hlisted.nodup).1 hplaced
      cases hw : held.workers.lookup id with
      | none =>
          have hfail : acquireForSession m sessionId wantPrewarmed pool =
              (.error "worker disappeared from registry", held) := by
            simp [acquireForSession, hrun, requestWorker, hw]
          rw [hfail]
          exact .failed _ fun k j hk => hspares k j (hbusy ▸ hk)
      | some worker =>
          have hkept (k j : String) (hk : pool.busyBySession.lookup k = some j) :
              (held.workers.insert id (answered m worker)).lookup j = pool.workers.lookup j :=
            (AList.lookup_insert_ne (hother k j hk)).trans (hspares k j hk)
          rcases acquire_of_obtained hrun hw sessionId with
            ⟨ha, version, hlent⟩ | ⟨-, failure, hfail⟩
          · rw [hlent]
            refine .lent version hrun hw ha (AList.lookup_insert _) ?_ hkept
            exact congrArg (·.insert sessionId id) hbusy
          · rw [hfail]
            exact .failed _ fun k j hk => hkept k j (hbusy ▸ hk)

end

end RimeWinime.Solo
