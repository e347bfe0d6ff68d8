import RimeWinime.Gateway.Partition
import RimeWinime.Gateway.Steps

namespace RimeWinime.Lending

open World Worker Table Pool RimeWinime.Partition Service Steps

variable {P : Type}

def Named (pool : WorkerPool P) (id : String) : Prop :=
  ∃ n, n ≤ pool.nextWorkerId ∧ id = workerName n

/-- No worker is in two places; `hand` holds those that are on neither list. -/
structure Listed (hand : List String) (pool : WorkerPool P) : Prop where
  nodup : (hand ++ placed pool).Nodup
  named : ∀ id ∈ hand ++ placed pool, Named pool id
  registry : ∀ id ∈ pool.workers, Named pool id

/-- Workers only get older, and new ones get new names. -/
structure Ages (pool pool' : WorkerPool P) : Prop where
  counter : pool.nextWorkerId ≤ pool'.nextWorkerId
  workers : ∀ id worker', pool'.workers.lookup id = some worker' →
    (∃ worker, pool.workers.lookup id = some worker ∧ era worker ≤ era worker') ∨ ¬Named pool id

theorem Ages.refl (pool : WorkerPool P) : Ages pool pool :=
  ⟨Nat.le_refl _, fun _ worker h => Or.inl ⟨worker, h, Nat.le_refl _⟩⟩

theorem Named.mono {pool pool' : WorkerPool P} (h : pool.nextWorkerId ≤ pool'.nextWorkerId)
    {id : String} (hid : Named pool id) : Named pool' id := by
  obtain ⟨n, hn, he⟩ := hid
  exact ⟨n, hn.trans h, he⟩

theorem Ages.trans {a b c : WorkerPool P} (hab : Ages a b) (hbc : Ages b c) : Ages a c := by
  refine ⟨hab.counter.trans hbc.counter, fun id worker'' h => ?_⟩
  rcases hbc.workers id worker'' h with ⟨worker', h', hle'⟩ | hnew
  · rcases hab.workers id worker' h' with ⟨worker, hw, hle⟩ | hnew
    · exact Or.inl ⟨worker, hw, hle.trans hle'⟩
    · exact Or.inr hnew
  · exact Or.inr fun hold => hnew (hold.mono hab.counter)

theorem ages_of_served {workerId : String} {pool pool' : WorkerPool P}
    (h : Served workerId pool pool') : Ages pool pool' := by
  refine ⟨Nat.le_of_eq h.counter.symm, fun id worker' hw => Or.inl ?_⟩
  by_cases he : id = workerId
  · subst he
    exact h.same worker' hw
  · rw [h.others id he] at hw
    exact ⟨worker', hw, Nat.le_refl _⟩

section

variable {hand : List String} {pool pool' : WorkerPool P} {id : String}

theorem Listed.served (h : Listed hand pool) {workerId : String} (hs : Served workerId pool pool') :
    Listed hand pool' := by
  have hnamed (j : String) (hj : Named pool j) : Named pool' j :=
    hj.mono (Nat.le_of_eq hs.counter.symm)
  have hplaced : placed pool' = placed pool := by
    rw [placed, placed, busyWorkers, busyWorkers, hs.idle, hs.busy]
  refine ⟨?_, ?_, ?_⟩
  · rw [hplaced]
    exact h.nodup
  · rw [hplaced]
    exact fun j hj => hnamed j (h.named j hj)
  · intro j hj
    obtain ⟨worker', hw⟩ := exists_lookup hj
    rcases (ages_of_served hs).workers j worker' hw with ⟨worker, hold, -⟩ | hnew
    · exact hnamed j (h.registry j (mem_of_lookup hold))
    · by_cases he : j = workerId
      · subst he
        obtain ⟨worker, hold, -⟩ := hs.same worker' hw
        exact hnamed j (h.registry j (mem_of_lookup hold))
      · rw [hs.others j he] at hw
        exact hnamed j (h.registry j (mem_of_lookup hw))

theorem Listed.forget (h : Listed [id] pool) : Listed [] pool :=
  ⟨(List.nodup_cons.mp h.nodup).2, fun j hj => h.named j (List.mem_cons_of_mem id hj), h.registry⟩

theorem Listed.of_perm {hand' : List String} (h : Listed hand pool)
    (hperm : (hand' ++ placed pool').Perm (hand ++ placed pool))
    (hcounter : pool'.nextWorkerId = pool.nextWorkerId) (hworkers : pool'.workers = pool.workers) :
    Listed hand' pool' := by
  have hnamed (j : String) (hj : Named pool j) : Named pool' j :=
    hj.mono (Nat.le_of_eq hcounter.symm)
  refine ⟨hperm.nodup_iff.mpr h.nodup, fun j hj => hnamed j (h.named j (hperm.mem_iff.mp hj)), ?_⟩
  rw [hworkers]
  exact fun j hj => hnamed j (h.registry j hj)

theorem Listed.pop {rest : List String} (h : Listed [] pool) (hidle : pool.idle = id :: rest) :
    Listed [id] { pool with idle := rest } := by
  refine h.of_perm (List.Perm.of_eq ?_) rfl rfl
  rw [List.nil_append, placed, placed, hidle]
  rfl

theorem Listed.popLast (h : Listed [] pool) (hlast : pool.idle.getLast? = some id) :
    Listed [id] { pool with idle := pool.idle.dropLast } :=
  h.of_perm (placed_popLast hlast) rfl rfl

theorem Listed.released {sessionId : String} (h : Listed [] pool)
    (hbusy : pool.busyBySession.lookup sessionId = some id) :
    Listed [id] { pool with busyBySession := pool.busyBySession.erase sessionId } :=
  h.of_perm (placed_released hbusy) rfl rfl

theorem Listed.lend {sessionId : String} (h : Listed [id] pool)
    (hfresh : sessionId ∉ pool.busyBySession) :
    Listed [] { pool with busyBySession := pool.busyBySession.insert sessionId id } :=
  h.of_perm (placed_lent id hfresh) rfl rfl

theorem Listed.store (h : Listed [id] pool) : Listed [] { pool with idle := pool.idle ++ [id] } :=
  h.of_perm (placed_stored pool id) rfl rfl

theorem Listed.discard (h : Listed hand pool) (j : String) :
    Listed hand { pool with workers := pool.workers.erase j } :=
  ⟨h.nodup, h.named, fun k hk => h.registry k (AList.mem_erase.mp hk).2⟩

theorem ages_discard (pool : WorkerPool P) (j : String) :
    Ages pool { pool with workers := pool.workers.erase j } := by
  refine ⟨Nat.le_refl _, fun k worker' h => Or.inl ⟨worker', ?_, Nat.le_refl _⟩⟩
  rw [lookup_erase_eq] at h
  split at h
  · cases h
  · exact h

theorem Listed.counted (h : Listed hand pool) :
    Listed hand { pool with nextWorkerId := pool.nextWorkerId + 1 } :=
  ⟨h.nodup, fun j hj => (h.named j hj).mono (Nat.le_succ _),
    fun j hj => (h.registry j hj).mono (Nat.le_succ _)⟩

theorem not_named_next (pool : WorkerPool P) : ¬Named pool (workerName (pool.nextWorkerId + 1)) := by
  rintro ⟨n, hn, he⟩
  have := workerName_injective he
  omega

theorem ages_counted (pool : WorkerPool P) :
    Ages pool { pool with nextWorkerId := pool.nextWorkerId + 1 } :=
  ⟨Nat.le_succ _, fun _ worker h => Or.inl ⟨worker, h, Nat.le_refl _⟩⟩

theorem ages_spawned (pool : WorkerPool P) (worker : WorkerProcess P) :
    Ages pool (withSpawned pool worker) := by
  refine ⟨Nat.le_succ _, fun j worker' h => ?_⟩
  rw [withSpawned, lookup_insert_eq] at h
  split at h
  · next he => exact Or.inr (he ▸ not_named_next pool)
  · exact Or.inl ⟨worker', h, Nat.le_refl _⟩

theorem Listed.spawned (h : Listed [] pool) (worker : WorkerProcess P) :
    Listed [workerName (pool.nextWorkerId + 1)] (withSpawned pool worker) := by
  have hold (j : String) (hj : Named pool j) : Named (withSpawned pool worker) j :=
    hj.mono (Nat.le_succ _)
  refine ⟨List.nodup_cons.mpr ⟨fun hin => not_named_next pool (h.named _ hin), h.nodup⟩, ?_, ?_⟩
  · intro j hj
    rcases List.mem_cons.mp hj with rfl | hj
    · exact ⟨_, Nat.le_refl _, rfl⟩
    · exact hold j (h.named j hj)
  · intro j hj
    rcases (AList.mem_insert _).mp hj with rfl | hj
    · exact ⟨_, Nat.le_refl _, rfl⟩
    · exact hold j (h.registry j hj)

/-- A busy worker works for one session, and is not idle. -/
theorem Listed.busy_injective (h : Listed [] pool) {a b : String}
    (ha : pool.busyBySession.lookup a = some id) (hb : pool.busyBySession.lookup b = some id) :
    a = b := by
  have hplaced : (pool.idle ++ busyWorkers pool).Nodup := h.nodup
  have hnodup : (pool.busyBySession.entries.map (·.2)).Nodup := hplaced.of_append_right
  have hinj := List.inj_on_of_nodup_map hnodup (AList.mem_lookup_iff.mp ha)
    (AList.mem_lookup_iff.mp hb) rfl
  exact congrArg Sigma.fst hinj

theorem Listed.busy_not_idle (h : Listed [] pool) {sessionId : String}
    (hbusy : pool.busyBySession.lookup sessionId = some id) : id ∉ pool.idle := by
  have hplaced : (pool.idle ++ busyWorkers pool).Nodup := h.nodup
  exact fun hidle =>
    List.disjoint_of_nodup_append hplaced hidle (mem_values.mpr ⟨sessionId, hbusy⟩)

end

/-- Workers go back to `idle`, are shut down or are made; only the sessions of
`released` lose theirs. -/
structure Turns (released : List String) (pool pool' : WorkerPool P) : Prop where
  listed : Listed [] pool → Listed [] pool'
  ages : Ages pool pool'
  kept : ∀ sessionId, sessionId ∉ released →
    pool'.busyBySession.lookup sessionId = pool.busyBySession.lookup sessionId
  fewer : ∀ sessionId workerId, pool'.busyBySession.lookup sessionId = some workerId →
    pool.busyBySession.lookup sessionId = some workerId

theorem Turns.refl (pool : WorkerPool P) : Turns [] pool pool :=
  ⟨id, Ages.refl pool, fun _ _ => rfl, fun _ _ h => h⟩

theorem Turns.trans {released released' : List String} {a b c : WorkerPool P}
    (hab : Turns released a b) (hbc : Turns released' b c) : Turns (released ++ released') a c := by
  refine ⟨fun h => hbc.listed (hab.listed h), hab.ages.trans hbc.ages, ?_,
    fun j w h => hab.fewer j w (hbc.fewer j w h)⟩
  intro j hj
  rw [List.mem_append, not_or] at hj
  exact (hbc.kept j hj.2).trans (hab.kept j hj.1)

theorem turns_of_same_busy {pool pool' : WorkerPool P}
    (hlisted : Listed [] pool → Listed [] pool') (hages : Ages pool pool')
    (hbusy : pool'.busyBySession = pool.busyBySession) : Turns [] pool pool' := by
  refine ⟨hlisted, hages, fun j _ => by rw [hbusy], fun j w h => ?_⟩
  rwa [hbusy] at h

theorem release_turns (m : Machine P) (sessionId : String) (pool : WorkerPool P) :
    Turns [sessionId] pool (releaseForSession m sessionId pool).2 := by
  rcases release_cases m sessionId pool with ⟨-, hsame⟩ | ⟨workerId, hbusy, hcase⟩
  · rw [hsame]
    exact ⟨id, Ages.refl pool, fun _ _ => rfl, fun _ _ h => h⟩
  · have herased : Turns [sessionId] pool
        { pool with busyBySession := pool.busyBySession.erase sessionId } := by
      refine ⟨fun h => (h.released hbusy).forget, ⟨Nat.le_refl _, ?_⟩, ?_, ?_⟩
      · exact fun _ worker h => Or.inl ⟨worker, h, Nat.le_refl _⟩
      · exact fun j hj => AList.lookup_erase_ne fun he => hj (he ▸ List.mem_cons_self)
      · intro j w h
        rw [lookup_erase_eq] at h
        split at h
        · cases h
        · exact h
    rcases hcase with ⟨-, hrun⟩ | ⟨-, hrun⟩
    · have hserved := requestWorker_served m workerId .resetSession
        { pool with busyBySession := pool.busyBySession.erase sessionId }
      rw [hrun]
      refine ⟨fun h => ((h.released hbusy).served hserved).store, ?_, ?_, ?_⟩
      · have hages := herased.ages.trans (ages_of_served hserved)
        exact ⟨hages.counter, hages.workers⟩
      · intro j hj
        exact (congrArg (·.lookup j) hserved.busy).trans (herased.kept j hj)
      · intro j w h
        exact herased.fewer j w ((congrArg (·.lookup j) hserved.busy).symm.trans h)
    · rw [hrun]
      refine ⟨fun h => ((h.released hbusy).discard workerId).forget, ?_, herased.kept,
        herased.fewer⟩
      exact herased.ages.trans (ages_discard _ workerId)

theorem releaseAll_turns (m : Machine P) (sessionIds : List String) (pool : WorkerPool P) :
    Turns sessionIds pool (releaseAll m sessionIds pool).2 := by
  induction sessionIds generalizing pool with
  | nil => exact Turns.refl pool
  | cons sessionId rest ih => exact (release_turns m sessionId pool).trans (ih _)

theorem trimLoop_turns (excess : Nat) (pool : WorkerPool P) :
    Turns [] pool (trimLoop excess pool).2 := by
  induction excess generalizing pool with
  | zero => exact Turns.refl pool
  | succ excess ih =>
      cases hlast : pool.idle.getLast? with
      | none => simpa [trimLoop, hlast] using ih pool
      | some workerId =>
          have hone : Turns [] pool { pool with
              idle := pool.idle.dropLast
              workers := pool.workers.erase workerId } :=
            turns_of_same_busy (fun h => ((h.popLast hlast).discard workerId).forget)
              ⟨(ages_discard pool workerId).counter, (ages_discard pool workerId).workers⟩ rfl
          simpa [trimLoop, hlast] using hone.trans (ih _)

theorem counted_turns (pool : WorkerPool P) :
    Turns [] pool { pool with nextWorkerId := pool.nextWorkerId + 1 } :=
  turns_of_same_busy (fun h => h.counted) (ages_counted pool) rfl

theorem prewarmLoop_turns (m : Machine P) (missing : Nat) (pool : WorkerPool P) :
    Turns [] pool (prewarmLoop m missing pool).2 := by
  induction missing generalizing pool with
  | zero => exact Turns.refl pool
  | succ missing ih =>
      rcases spawnWorker_cases m pool with ⟨hspawn, -⟩ | ⟨process, -, -, hspawn⟩
      · simpa [prewarmLoop, hspawn] using counted_turns pool
      · have hages := ages_spawned pool ⟨(m.request .resetSession process).2, [true]⟩
        have hone : Turns [] pool
            { withSpawned pool ⟨(m.request .resetSession process).2, [true]⟩ with
              idle := (withSpawned pool ⟨(m.request .resetSession process).2, [true]⟩).idle ++
                [workerName (pool.nextWorkerId + 1)] } :=
          turns_of_same_busy (fun h => (h.spawned _).store) ⟨hages.counter, hages.workers⟩ rfl
        simpa [prewarmLoop, hspawn] using hone.trans (ih _)

theorem recycle_turns (m : Machine P) (expired : List String) (pool : WorkerPool P) :
    Turns expired pool (recycle m expired pool).2 := by
  have hreleased := releaseAll_turns m expired pool
  have htrimmed : Turns [] (releaseAll m expired pool).2
      (trimIdle (releaseAll m expired pool).2).2 := trimLoop_turns _ _
  have hwarmed := prewarmLoop_turns m
    ((trimIdle (releaseAll m expired pool).2).2.cfg.minIdle -
      (trimIdle (releaseAll m expired pool).2).2.idle.length) (trimIdle (releaseAll m expired pool).2).2
  have hall := (hreleased.trans htrimmed).trans hwarmed
  rw [List.append_nil, List.append_nil] at hall
  exact hall

/-- An acquire fails, or has lent a worker that has answered one more reset. -/
inductive Acquired (sessionId : String) (pool : WorkerPool P) :
    Except String (String × UInt64) × WorkerPool P → Prop
  | failed {pool' : WorkerPool P} (e : String) (h : Turns [] pool pool') :
      Acquired sessionId pool (.error e, pool')
  | lent {pool' : WorkerPool P} (workerId : String) (version : UInt64) (listed : Listed [] pool')
      (ages : Ages pool pool')
      (busy : pool'.busyBySession = pool.busyBySession.insert sessionId workerId)
      (older : ∀ worker worker', pool.workers.lookup workerId = some worker →
        pool'.workers.lookup workerId = some worker' → era worker < era worker') :
      Acquired sessionId pool (.ok (workerId, version), pool')

/-- A worker has been taken for a session, or none was to be had. -/
inductive Taken (pool : WorkerPool P) : Except String String × WorkerPool P → Prop
  | failed {pool' : WorkerPool P} (e : String) (h : Turns [] pool pool') :
      Taken pool (.error e, pool')
  | inHand {pool' : WorkerPool P} (id : String) (listed : Listed [id] pool')
      (ages : Ages pool pool') (busy : pool'.busyBySession = pool.busyBySession) :
      Taken pool (.ok id, pool')

section

variable (m : Machine P) {pool : WorkerPool P}

theorem spawnOr_taken (failure : String) (h : Listed [] pool) :
    Taken pool (spawnOr m failure pool) := by
  rcases spawnOr_cases m failure pool with ⟨hrun, -⟩ | ⟨process, -, hrun⟩
  · rw [hrun]
    exact .failed failure (counted_turns pool)
  · rw [hrun]
    exact .inHand _ (h.spawned _) (ages_spawned pool _) rfl

theorem obtainWorker_taken (wantPrewarmed : Bool) (h : Listed [] pool) :
    Taken pool (obtainWorker m wantPrewarmed pool) := by
  rcases obtainWorker_cases m wantPrewarmed pool with ⟨id, rest, hidle, -, hrun⟩ | ⟨failure, -, hrun⟩
  · rw [hrun]
    refine .inHand id (h.pop hidle) ⟨Nat.le_refl _, ?_⟩ rfl
    exact fun _ worker hw => Or.inl ⟨worker, hw, Nat.le_refl _⟩
  · rw [hrun]
    exact spawnOr_taken m failure h

theorem era_answered {worker : WorkerProcess P}
    (h : answersReset m worker.process = true) : era (answered m worker) = era worker + 1 := by
  rw [era, answered, h]
  exact List.count_cons_self

/-- What an acquire does with the worker in its hand. -/
theorem acquire_acquired {sessionId : String} (wantPrewarmed : Bool) (h : Listed [] pool)
    (hfresh : sessionId ∉ pool.busyBySession) :
    Acquired sessionId pool (acquireForSession m sessionId wantPrewarmed pool) := by
  have htaken := obtainWorker_taken m wantPrewarmed h
  generalize hrun : obtainWorker m wantPrewarmed pool = r at htaken
  cases htaken with
  | @failed held e hturns =>
      have hfail : acquireForSession m sessionId wantPrewarmed pool = (.error e, held) := by
        simp [acquireForSession, hrun]
      rw [hfail]
      exact .failed e hturns
  | @inHand held id hlisted hages hbusy =>
      have hserved := requestWorker_served m id .resetSession held
      have hasked : Turns [] pool (requestWorker m id .resetSession held).2 :=
        turns_of_same_busy (fun _ => (hlisted.served hserved).forget)
          (hages.trans (ages_of_served hserved)) (hserved.busy.trans hbusy)
      cases hw : held.workers.lookup id with
      | none =>
          have hfail : acquireForSession m sessionId wantPrewarmed pool =
              (.error "worker disappeared from registry", held) := by
            simp [acquireForSession, hrun, requestWorker, hw]
          rw [hfail]
          exact .failed _ (turns_of_same_busy (fun _ => hlisted.forget) hages hbusy)
      | some worker =>
          rw [requestWorker_reset m hw] at hserved hasked
          rcases acquire_of_obtained hrun hw sessionId with
            ⟨ha, version, hlent⟩ | ⟨-, failure, hfail⟩
          · rw [hlent]
            refine .lent id _ ?_ ⟨hasked.ages.counter, hasked.ages.workers⟩ (by rw [hbusy]) ?_
            · refine (hlisted.served hserved).lend ?_
              rw [hbusy]
              exact hfresh
            · intro old new hold hnew
              rw [AList.lookup_insert] at hnew
              cases hnew
              rw [era_answered m ha]
              rcases hages.workers id worker hw with ⟨old', hold', hle⟩ | hnew
              · cases hold.symm.trans hold'
                omega
              · exact absurd (h.registry id (mem_of_lookup hold)) hnew
          · rw [hfail]
            exact .failed _ hasked

end

end RimeWinime.Lending
