import RimeWinime.Gateway.Pool
import RimeWinime.Lib.Run

namespace RimeWinime.Partition

open World Worker Table Pool Run

variable {P : Type}

def busyWorkers (pool : WorkerPool P) : List String := values pool.busyBySession

/-- Every worker of the registry is idle or busy, and listed once; the idle
ones answered their last reset. -/
structure Partitioned (pool : WorkerPool P) : Prop where
  exact : (pool.idle ++ busyWorkers pool).Perm pool.workers.keys
  clean : ∀ id ∈ pool.idle,
    ∃ worker, pool.workers.lookup id = some worker ∧ worker.resets.head? = some true

inductive PoolOp
  | acquireForSession (sessionId : String) (wantPrewarmed : Bool)
  | releaseForSession (sessionId : String)
  | trimIdle
  | prewarm

def step (m : Machine P) (pool : WorkerPool P) : PoolOp → WorkerPool P
  | .acquireForSession sessionId wantPrewarmed =>
      (acquireForSession m sessionId wantPrewarmed pool).2
  | .releaseForSession sessionId => (releaseForSession m sessionId pool).2
  | .trimIdle => (trimIdle pool).2
  | .prewarm => (prewarm m pool).2

def acquiredIds (ops : List PoolOp) : List String :=
  ops.filterMap fun op =>
    match op with
    | .acquireForSession sessionId _ => some sessionId
    | _ => none

def answersReset (m : Machine P) (process : P) : Bool :=
  accepted (m.request .resetSession process).1

/-- The subprocess that an acquire takes: the one at the front of `idle`, or
the next one to come up and to answer its first reset. -/
def taken (m : Machine P) (pool : WorkerPool P) (wantPrewarmed : Bool) : Option P :=
  match if wantPrewarmed then pool.idle.head? else none with
  | some workerId => (pool.workers.lookup workerId).map (·.process)
  | none =>
      match m.spawn (pool.nextWorkerId + 1) with
      | none => none
      | some process =>
          if answersReset m process then some (m.request .resetSession process).2 else none

/-- The reset that an acquire or a recycling release sends is answered. -/
def ResetsAnswered (m : Machine P) (pool : WorkerPool P) : PoolOp → Prop
  | .acquireForSession _ wantPrewarmed =>
      ∀ process ∈ taken m pool wantPrewarmed, answersReset m process = true
  | .releaseForSession sessionId =>
      ∀ workerId ∈ pool.busyBySession.lookup sessionId, pool.idle.length < pool.cfg.maxIdle →
        ∀ worker ∈ pool.workers.lookup workerId, answersReset m worker.process = true
  | .trimIdle => True
  | .prewarm => True

/-- The registry holds only names that have been given out, and `busyBySession`
only sessions that have been acquired. -/
structure Accounted (acquired : List String) (pool : WorkerPool P) : Prop extends
    Partitioned pool where
  named : ∀ id ∈ pool.workers, ∃ n, n ≤ pool.nextWorkerId ∧ id = workerName n
  sessions : ∀ sessionId ∈ pool.busyBySession, sessionId ∈ acquired

theorem workerName_injective : Function.Injective workerName := by
  intro a b h
  have hchars := congrArg String.toList h
  simp only [workerName, String.toList_append, String.toList_ofList] at hchars
  have hdigits := List.append_cancel_left hchars
  have hvalue := congrArg (fun l => Nat.ofDigitChars 10 l 0) hdigits
  simpa [Nat.ofDigitChars_append, Nat.ofDigitChars_toDigits] using hvalue

theorem next_name_fresh {acquired : List String} {pool : WorkerPool P} (h : Accounted acquired pool) :
    workerName (pool.nextWorkerId + 1) ∉ pool.workers := by
  intro hmem
  obtain ⟨n, hn, he⟩ := h.named _ hmem
  have := workerName_injective he
  omega

def withSpawned (pool : WorkerPool P) (worker : WorkerProcess P) : WorkerPool P :=
  { pool with
    nextWorkerId := pool.nextWorkerId + 1
    workers := pool.workers.insert (workerName (pool.nextWorkerId + 1)) worker }

theorem spawnWorker_cases (m : Machine P) (pool : WorkerPool P) :
    (spawnWorker m pool = (none, { pool with nextWorkerId := pool.nextWorkerId + 1 }) ∧
        ∀ process, m.spawn (pool.nextWorkerId + 1) = some process → answersReset m process = false) ∨
      ∃ process, m.spawn (pool.nextWorkerId + 1) = some process ∧ answersReset m process = true ∧
        spawnWorker m pool = (some (workerName (pool.nextWorkerId + 1)),
          withSpawned pool ⟨(m.request .resetSession process).2, [true]⟩) := by
  cases hs : m.spawn (pool.nextWorkerId + 1) with
  | none =>
      refine Or.inl ⟨?_, fun _ h => nomatch h⟩
      simp [spawnWorker, allocateWorkerId, hs]
  | some process =>
      cases ha : answersReset m process with
      | false =>
          refine Or.inl ⟨?_, fun p hp => ?_⟩
          · have hno : accepted (m.request .resetSession process).1 = false := ha
            simp [spawnWorker, allocateWorkerId, hs, WorkerProcess.request, hno]
          · cases hp
            exact ha
      | true =>
          refine Or.inr ⟨process, rfl, ha, ?_⟩
          have hyes : accepted (m.request .resetSession process).1 = true := ha
          simp [spawnWorker, allocateWorkerId, hs, WorkerProcess.request, hyes, withSpawned]

theorem spawnOr_cases (m : Machine P) (failure : String) (pool : WorkerPool P) :
    (spawnOr m failure pool =
        (.error failure, { pool with nextWorkerId := pool.nextWorkerId + 1 }) ∧
        taken m pool false = none) ∨
      ∃ process, taken m pool false = some (m.request .resetSession process).2 ∧
        spawnOr m failure pool = (.ok (workerName (pool.nextWorkerId + 1)),
          withSpawned pool ⟨(m.request .resetSession process).2, [true]⟩) := by
  rcases spawnWorker_cases m pool with ⟨hspawn, hno⟩ | ⟨process, hs, ha, hspawn⟩
  · refine Or.inl ⟨by simp [spawnOr, hspawn], ?_⟩
    cases hs : m.spawn (pool.nextWorkerId + 1) with
    | none => simp [taken, hs]
    | some process => simp [taken, hs, hno process hs]
  · exact Or.inr ⟨process, by simp [taken, hs, ha], by simp [spawnOr, hspawn]⟩

theorem obtainWorker_cases (m : Machine P) (wantPrewarmed : Bool) (pool : WorkerPool P) :
    (∃ id rest, pool.idle = id :: rest ∧
        taken m pool wantPrewarmed = (pool.workers.lookup id).map (·.process) ∧
        obtainWorker m wantPrewarmed pool = (.ok id, { pool with idle := rest })) ∨
      ∃ failure, taken m pool wantPrewarmed = taken m pool false ∧
        obtainWorker m wantPrewarmed pool = spawnOr m failure pool := by
  cases wantPrewarmed with
  | false => exact Or.inr ⟨_, rfl, rfl⟩
  | true =>
      cases hidle : pool.idle with
      | nil =>
          exact Or.inr ⟨"failed to acquire prewarmed worker", by simp [taken, hidle],
            by simp [obtainWorker, hidle]⟩
      | cons id rest =>
          refine Or.inl ⟨id, rest, rfl, ?_, by simp [obtainWorker, hidle]⟩
          simp only [taken, if_true, hidle, List.head?_cons]

theorem release_cases (m : Machine P) (sessionId : String) (pool : WorkerPool P) :
    (pool.busyBySession.lookup sessionId = none ∧ (releaseForSession m sessionId pool).2 = pool) ∨
      ∃ id, pool.busyBySession.lookup sessionId = some id ∧
        ((pool.idle.length < pool.cfg.maxIdle ∧
            (releaseForSession m sessionId pool).2 =
              let asked := (requestWorker m id .resetSession
                { pool with busyBySession := pool.busyBySession.erase sessionId }).2
              { asked with idle := asked.idle ++ [id] }) ∨
          (¬pool.idle.length < pool.cfg.maxIdle ∧
            (releaseForSession m sessionId pool).2 =
              { pool with
                busyBySession := pool.busyBySession.erase sessionId
                workers := pool.workers.erase id })) := by
  cases hbusy : pool.busyBySession.lookup sessionId with
  | none => exact Or.inl ⟨rfl, by simp [releaseForSession, hbusy]⟩
  | some id =>
      refine Or.inr ⟨id, rfl, ?_⟩
      by_cases hroom : pool.idle.length < pool.cfg.maxIdle
      · exact Or.inl ⟨hroom, by simp only [releaseForSession, hbusy, if_pos hroom]⟩
      · exact Or.inr ⟨hroom, by simp only [releaseForSession, hbusy, if_neg hroom]⟩

def placed (pool : WorkerPool P) : List String := pool.idle ++ busyWorkers pool

theorem placed_popLast {pool : WorkerPool P} {id : String} (h : pool.idle.getLast? = some id) :
    (id :: placed { pool with idle := pool.idle.dropLast }).Perm (placed pool) := by
  have hsplit : pool.idle.dropLast ++ [id] = pool.idle := List.dropLast_append_getLast? id h
  rw [placed, placed, ← hsplit, List.append_assoc, hsplit]
  exact List.perm_middle.symm

theorem placed_released {pool : WorkerPool P} {sessionId id : String}
    (h : pool.busyBySession.lookup sessionId = some id) :
    (id :: placed { pool with busyBySession := pool.busyBySession.erase sessionId }).Perm
      (placed pool) :=
  List.perm_middle.symm.trans ((values_perm_erase h).symm.append_left pool.idle)

theorem placed_lent {pool : WorkerPool P} {sessionId : String} (id : String)
    (h : sessionId ∉ pool.busyBySession) :
    (placed { pool with busyBySession := pool.busyBySession.insert sessionId id }).Perm
      (id :: placed pool) := by
  rw [placed, busyWorkers, values_insert h]
  exact List.perm_middle

theorem placed_stored (pool : WorkerPool P) (id : String) :
    (placed { pool with idle := pool.idle ++ [id] }).Perm (id :: placed pool) := by
  rw [placed, List.append_assoc]
  exact List.perm_middle

/-- One worker is out of the two lists: about to be lent, stored or shut down. -/
structure InHand (acquired : List String) (pool : WorkerPool P) (id : String)
    (worker : WorkerProcess P) : Prop where
  exact : (id :: placed pool).Perm pool.workers.keys
  here : pool.workers.lookup id = some worker
  clean : ∀ id ∈ pool.idle,
    ∃ worker, pool.workers.lookup id = some worker ∧ worker.resets.head? = some true
  named : ∀ id ∈ pool.workers, ∃ n, n ≤ pool.nextWorkerId ∧ id = workerName n
  sessions : ∀ sessionId ∈ pool.busyBySession, sessionId ∈ acquired

section

variable {acquired : List String} {pool : WorkerPool P} {id : String} {worker : WorkerProcess P}

theorem hold_front {rest : List String} (h : Accounted acquired pool) (hidle : pool.idle = id :: rest) :
    ∃ worker, InHand acquired { pool with idle := rest } id worker := by
  obtain ⟨worker, hw, -⟩ := h.clean id (by rw [hidle]; exact List.mem_cons_self)
  refine ⟨worker, ?_, hw, ?_, h.named, h.sessions⟩
  · have hexact := h.exact
    rwa [hidle, List.cons_append] at hexact
  · intro j hj
    exact h.clean j (by rw [hidle]; exact List.mem_cons_of_mem id hj)

theorem hold_last (h : Accounted acquired pool) (hidle : pool.idle.getLast? = some id) :
    ∃ worker, InHand acquired { pool with idle := pool.idle.dropLast } id worker := by
  obtain ⟨worker, hw, -⟩ := h.clean id (List.mem_of_getLast? hidle)
  refine ⟨worker, (placed_popLast hidle).trans h.exact, hw, ?_, h.named, h.sessions⟩
  exact fun j hj => h.clean j (List.dropLast_subset _ hj)

theorem hold_released {sessionId : String} (h : Accounted acquired pool)
    (hbusy : pool.busyBySession.lookup sessionId = some id) :
    ∃ worker, InHand acquired
      { pool with busyBySession := pool.busyBySession.erase sessionId } id worker := by
  have hexact := (placed_released hbusy).trans h.exact
  obtain ⟨worker, hw⟩ := exists_lookup (AList.mem_keys.mpr (hexact.subset List.mem_cons_self))
  refine ⟨worker, hexact, hw, h.clean, h.named, ?_⟩
  intro j hj
  exact h.sessions j (AList.mem_erase.mp hj).2

theorem hold_spawned (h : Accounted acquired pool) (worker : WorkerProcess P) :
    InHand acquired (withSpawned pool worker) (workerName (pool.nextWorkerId + 1)) worker := by
  have hfresh := next_name_fresh h
  constructor
  case exact =>
    rw [withSpawned, keys_insert_fresh hfresh]
    exact h.exact.cons _
  case here => exact AList.lookup_insert _
  case clean =>
    intro j hj
    obtain ⟨w, hw, hclean⟩ := h.clean j hj
    have hne : j ≠ workerName (pool.nextWorkerId + 1) := fun he => hfresh (he ▸ mem_of_lookup hw)
    exact ⟨w, by rw [withSpawned, AList.lookup_insert_ne hne, hw], hclean⟩
  case named =>
    intro j hj
    rcases (AList.mem_insert _).mp hj with rfl | hj
    · exact ⟨_, Nat.le_refl _, rfl⟩
    · obtain ⟨n, hn, he⟩ := h.named j hj
      exact ⟨n, Nat.le_succ_of_le hn, he⟩
  case sessions => exact h.sessions

theorem InHand.not_idle (h : InHand acquired pool id worker) : id ∉ pool.idle := by
  intro hmem
  have hnodup := h.exact.nodup_iff.mpr pool.workers.keys_nodup
  exact (List.nodup_cons.mp hnodup).1 (List.mem_append_left _ hmem)

theorem InHand.not_partitioned (h : InHand acquired pool id worker) : ¬Partitioned pool := by
  intro hp
  have hin := h.exact.length_eq
  have hout : (placed pool).length = pool.workers.keys.length := hp.exact.length_eq
  rw [List.length_cons] at hin
  omega

def answered (m : Machine P) (worker : WorkerProcess P) : WorkerProcess P :=
  ⟨(m.request .resetSession worker.process).2, answersReset m worker.process :: worker.resets⟩

theorem requestWorker_reset (m : Machine P) (h : pool.workers.lookup id = some worker) :
    requestWorker m id .resetSession pool =
      (some (m.request .resetSession worker.process).1,
        { pool with workers := pool.workers.insert id (answered m worker) }) := by
  simp [requestWorker, h, WorkerProcess.request, answered, answersReset]

theorem InHand.reset (m : Machine P) (h : InHand acquired pool id worker) :
    requestWorker m id .resetSession pool =
        (some (m.request .resetSession worker.process).1,
          { pool with workers := pool.workers.insert id (answered m worker) }) ∧
      InHand acquired { pool with workers := pool.workers.insert id (answered m worker) } id
        (answered m worker) := by
  have hmem := mem_of_lookup h.here
  constructor
  · exact requestWorker_reset m h.here
  · refine ⟨h.exact.trans (keys_perm_insert hmem _).symm, AList.lookup_insert _, ?_, ?_, h.sessions⟩
    · intro j hj
      obtain ⟨w, hw, hclean⟩ := h.clean j hj
      have hne : j ≠ id := fun he => h.not_idle (he ▸ hj)
      exact ⟨w, by rw [AList.lookup_insert_ne hne, hw], hclean⟩
    · intro j hj
      rcases (AList.mem_insert _).mp hj with rfl | hj
      · exact h.named j hmem
      · exact h.named j hj

theorem InHand.lend {sessionId : String} (h : InHand acquired pool id worker)
    (hfresh : sessionId ∉ acquired) :
    Accounted (acquired ++ [sessionId])
      { pool with busyBySession := pool.busyBySession.insert sessionId id } := by
  have hnew : sessionId ∉ pool.busyBySession := fun hm => hfresh (h.sessions _ hm)
  constructor
  case toPartitioned =>
    exact ⟨(placed_lent id hnew).trans h.exact, h.clean⟩
  case named => exact h.named
  case sessions =>
    intro j hj
    rcases (AList.mem_insert _).mp hj with rfl | hj
    · exact List.mem_append_right _ List.mem_cons_self
    · exact List.mem_append_left _ (h.sessions j hj)

theorem InHand.store (h : InHand acquired pool id worker) (hclean : worker.resets.head? = some true) :
    Accounted acquired { pool with idle := pool.idle ++ [id] } := by
  constructor
  case toPartitioned =>
    refine ⟨(placed_stored pool id).trans h.exact, fun j hj => ?_⟩
    rcases List.mem_append.mp hj with hj | hj
    · exact h.clean j hj
    · rw [List.mem_singleton.mp hj]
      exact ⟨worker, h.here, hclean⟩
  case named => exact h.named
  case sessions => exact h.sessions

theorem InHand.stored_dirty (h : InHand acquired pool id worker)
    (hdirty : worker.resets.head? = some false) :
    ¬Partitioned { pool with idle := pool.idle ++ [id] } := by
  intro hp
  obtain ⟨w, hw, hclean⟩ := hp.clean id (List.mem_append_right _ List.mem_cons_self)
  cases h.here.symm.trans hw
  cases hdirty.symm.trans hclean

theorem InHand.discard (h : InHand acquired pool id worker) :
    Accounted acquired { pool with workers := pool.workers.erase id } := by
  constructor
  case toPartitioned =>
    refine ⟨?_, ?_⟩
    · rw [AList.keys_erase]
      have herase := h.exact.erase id
      rwa [List.erase_cons_head] at herase
    · intro j hj
      obtain ⟨w, hw, hclean⟩ := h.clean j hj
      have hne : j ≠ id := fun he => h.not_idle (he ▸ hj)
      exact ⟨w, by rw [AList.lookup_erase_ne hne, hw], hclean⟩
  case named => exact fun j hj => h.named j (AList.mem_erase.mp hj).2
  case sessions => exact h.sessions

theorem accounted_counted (h : Accounted acquired pool) :
    Accounted acquired { pool with nextWorkerId := pool.nextWorkerId + 1 } := by
  refine ⟨⟨h.exact, h.clean⟩, ?_, h.sessions⟩
  intro j hj
  obtain ⟨n, hn, he⟩ := h.named j hj
  exact ⟨n, Nat.le_succ_of_le hn, he⟩

/-- An acquire comes back with no worker or with one in hand. -/
inductive Obtained (acquired : List String) :
    Option P → Except String String × WorkerPool P → Prop
  | failed {pool : WorkerPool P} (failure : String) (h : Accounted acquired pool) :
      Obtained acquired none (.error failure, pool)
  | inHand {pool : WorkerPool P} {id : String} {worker : WorkerProcess P}
      (h : InHand acquired pool id worker) :
      Obtained acquired (some worker.process) (.ok id, pool)

theorem spawnOr_obtained (m : Machine P) (failure : String) (h : Accounted acquired pool) :
    Obtained acquired (taken m pool false) (spawnOr m failure pool) := by
  rcases spawnOr_cases m failure pool with ⟨hrun, hnone⟩ | ⟨process, hsome, hrun⟩
  · rw [hrun, hnone]
    exact .failed failure (accounted_counted h)
  · have hheld := hold_spawned h ⟨(m.request .resetSession process).2, [true]⟩
    rw [hrun, hsome]
    exact .inHand hheld

theorem obtainWorker_obtained (m : Machine P) (wantPrewarmed : Bool) (h : Accounted acquired pool) :
    Obtained acquired (taken m pool wantPrewarmed) (obtainWorker m wantPrewarmed pool) := by
  rcases obtainWorker_cases m wantPrewarmed pool with
    ⟨id, rest, hidle, htaken, hrun⟩ | ⟨failure, htaken, hrun⟩
  · obtain ⟨worker, hw⟩ := hold_front h hidle
    have hhere : pool.workers.lookup id = some worker := hw.here
    rw [hrun, htaken, hhere]
    exact .inHand hw
  · rw [hrun, htaken]
    exact spawnOr_obtained m failure h

theorem acquire_of_obtained {m : Machine P} {wantPrewarmed : Bool} {held : WorkerPool P}
    (hrun : obtainWorker m wantPrewarmed pool = (.ok id, held))
    (hw : held.workers.lookup id = some worker) (sessionId : String) :
    let asked := { held with workers := held.workers.insert id (answered m worker) }
    (answersReset m worker.process = true ∧ ∃ version,
      acquireForSession m sessionId wantPrewarmed pool =
        (.ok (id, version),
          { asked with busyBySession := asked.busyBySession.insert sessionId id })) ∨
    (answersReset m worker.process = false ∧ ∃ failure,
      acquireForSession m sessionId wantPrewarmed pool = (.error failure, asked)) := by
  have hreset := requestWorker_reset m hw
  cases hanswer : (m.request .resetSession worker.process).1 with
  | error err => simp [acquireForSession, hrun, hreset, hanswer, answersReset, accepted]
  | ok resp =>
      cases hok : resp.ok <;>
        simp [acquireForSession, hrun, hreset, hanswer, answersReset, accepted, hok]

/-- What one operation leaves when its condition holds, and when it does not. -/
def Decides (acquired : List String) (ok : Prop) (pool : WorkerPool P) : Prop :=
  (ok → Accounted acquired pool) ∧ (¬ok → ¬Partitioned pool)

theorem decides_of_accounted {ok : Prop} (hok : ok) (h : Accounted acquired pool) :
    Decides acquired ok pool := ⟨fun _ => h, fun hno => absurd hok hno⟩

theorem acquire_decides (m : Machine P) {sessionId : String} (wantPrewarmed : Bool)
    (h : Accounted acquired pool) (hfresh : sessionId ∉ acquired) :
    Decides (acquired ++ [sessionId])
      (ResetsAnswered m pool (.acquireForSession sessionId wantPrewarmed))
      (acquireForSession m sessionId wantPrewarmed pool).2 := by
  have hobtained := obtainWorker_obtained m wantPrewarmed h
  rw [ResetsAnswered]
  generalize taken m pool wantPrewarmed = process at hobtained ⊢
  generalize hrun : obtainWorker m wantPrewarmed pool = r at hobtained
  cases hobtained with
  | @failed left failure hacc =>
      have hsame : (acquireForSession m sessionId wantPrewarmed pool).2 = left := by
        simp [acquireForSession, hrun]
      rw [hsame]
      refine decides_of_accounted (fun _ hp => nomatch hp) ⟨hacc.toPartitioned, hacc.named, ?_⟩
      exact fun j hj => List.mem_append_left _ (hacc.sessions j hj)
  | inHand hheld =>
      have hasked := (hheld.reset m).2
      rcases acquire_of_obtained hrun hheld.here sessionId with
        ⟨ha, version, hlent⟩ | ⟨ha, failure, hfail⟩
      · rw [hlent]
        exact decides_of_accounted (fun p hp => by cases hp; exact ha) (hasked.lend hfresh)
      · rw [hfail]
        refine ⟨fun hok => ?_, fun _ => hasked.not_partitioned⟩
        cases ha.symm.trans (hok _ rfl)

theorem release_decides (m : Machine P) (sessionId : String) (h : Accounted acquired pool) :
    Decides acquired (ResetsAnswered m pool (.releaseForSession sessionId))
      (releaseForSession m sessionId pool).2 := by
  rcases release_cases m sessionId pool with ⟨hbusy, hsame⟩ | ⟨id, hbusy, hcase⟩
  · rw [hsame]
    exact decides_of_accounted (by simp [ResetsAnswered, hbusy]) h
  · obtain ⟨worker, hheld⟩ := hold_released h hbusy
    have hhere : pool.workers.lookup id = some worker := hheld.here
    rcases hcase with ⟨hroom, hstored⟩ | ⟨hroom, hgone⟩
    · obtain ⟨hreset, hanswered⟩ := hheld.reset m
      rw [hreset] at hstored
      rw [hstored]
      constructor
      · intro hok
        have ha : answersReset m worker.process = true := hok id hbusy hroom worker hhere
        exact hanswered.store (by rw [answered, ha]; rfl)
      · intro hno
        have ha : answersReset m worker.process = false := by
          refine Bool.eq_false_iff.mpr fun ha => hno ?_
          intro j hj _ w hw
          cases hbusy.symm.trans hj
          cases hhere.symm.trans hw
          exact ha
        exact hanswered.stored_dirty (by rw [answered, ha]; rfl)
    · rw [hgone]
      exact decides_of_accounted (fun _ _ hlt => absurd hlt hroom) hheld.discard

theorem accounted_trimLoop (excess : Nat) (h : Accounted acquired pool) :
    Accounted acquired (trimLoop excess pool).2 := by
  induction excess generalizing pool with
  | zero => exact h
  | succ excess ih =>
      cases hlast : pool.idle.getLast? with
      | none => simpa [trimLoop, hlast] using ih h
      | some id =>
          obtain ⟨worker, hheld⟩ := hold_last h hlast
          simpa [trimLoop, hlast] using ih hheld.discard

theorem accounted_prewarmLoop (m : Machine P) (missing : Nat) (h : Accounted acquired pool) :
    Accounted acquired (prewarmLoop m missing pool).2 := by
  induction missing generalizing pool with
  | zero => exact h
  | succ missing ih =>
      rcases spawnWorker_cases m pool with ⟨hspawn, -⟩ | ⟨process, -, -, hspawn⟩
      · have hstop : (prewarmLoop m (missing + 1) pool).2 =
            { pool with nextWorkerId := pool.nextWorkerId + 1 } := by
          simp [prewarmLoop, hspawn]
        rw [hstop]
        exact accounted_counted h
      · have hstored :=
          (hold_spawned h ⟨(m.request .resetSession process).2, [true]⟩).store rfl
        simpa [prewarmLoop, hspawn] using ih hstored

theorem step_decides (m : Machine P) {op : PoolOp} (h : Accounted acquired pool)
    (hfresh : ∀ sessionId ∈ acquiredIds [op], sessionId ∉ acquired) :
    Decides (acquired ++ acquiredIds [op]) (ResetsAnswered m pool op) (step m pool op) := by
  cases op with
  | acquireForSession sessionId wantPrewarmed =>
      exact acquire_decides m wantPrewarmed h (hfresh sessionId List.mem_cons_self)
  | releaseForSession sessionId =>
      have hnone : acquired ++ acquiredIds [.releaseForSession sessionId] = acquired :=
        List.append_nil acquired
      rw [hnone]
      exact release_decides m sessionId h
  | trimIdle =>
      have hnone : acquired ++ acquiredIds [.trimIdle] = acquired := List.append_nil acquired
      rw [hnone]
      exact decides_of_accounted trivial (accounted_trimLoop _ h)
  | prewarm =>
      have hnone : acquired ++ acquiredIds [.prewarm] = acquired := List.append_nil acquired
      rw [hnone]
      exact decides_of_accounted trivial (accounted_prewarmLoop m _ h)

end

theorem accounted_new (m : Machine P) (cfg : PoolConfig) : Accounted [] (WorkerPool.new m cfg) := by
  have hempty : Accounted [] (⟨cfg, 0, [], ∅, ∅⟩ : WorkerPool P) :=
    ⟨⟨List.Perm.refl _, fun _ h => nomatch h⟩, fun _ h => absurd h (AList.notMem_empty _),
      fun _ h => absurd h (AList.notMem_empty _)⟩
  rw [WorkerPool.new]
  split
  · exact accounted_prewarmLoop m _ hempty
  · exact hempty

theorem always_partitioned_iff (m : Machine P) {acquired : List String} {pool : WorkerPool P}
    (h : Accounted acquired pool) {ops : List PoolOp}
    (hdistinct : (acquired ++ acquiredIds ops).Nodup) :
    Always (step m) Partitioned pool ops ↔ Allowed (step m) (ResetsAnswered m) pool ops := by
  induction ops generalizing acquired pool with
  | nil => simp [always_nil, Allowed, h.toPartitioned]
  | cons op ops ih =>
      have hids : acquiredIds (op :: ops) = acquiredIds [op] ++ acquiredIds ops :=
        List.filterMap_append (l := [op])
      rw [hids, ← List.append_assoc] at hdistinct
      have hfresh : ∀ sessionId ∈ acquiredIds [op], sessionId ∉ acquired := fun _ hnew hold =>
        List.disjoint_of_nodup_append (List.Nodup.of_append_left hdistinct) hold hnew
      obtain ⟨hgood, hbad⟩ := step_decides m h hfresh
      rw [always_cons, Allowed]
      constructor
      · rintro ⟨-, hrest⟩
        have hok : ResetsAnswered m pool op := by
          by_contra hno
          exact hbad hno (always_start hrest)
        exact ⟨hok, (ih (hgood hok) hdistinct).mp hrest⟩
      · rintro ⟨hok, hrest⟩
        exact ⟨h.toPartitioned, (ih (hgood hok) hdistinct).mpr hrest⟩

/-- The pool stays partitioned through a run exactly when every reset sent to a
worker on its way in or out of a session is answered. -/
theorem pool_partition_iff (m : Machine P) (cfg : PoolConfig) (ops : List PoolOp)
    (hdistinct : (acquiredIds ops).Nodup) :
    Always (step m) Partitioned (WorkerPool.new m cfg) ops ↔
      Allowed (step m) (ResetsAnswered m) (WorkerPool.new m cfg) ops :=
  always_partitioned_iff m (accounted_new m cfg) hdistinct

theorem stub_resetsAnswered (pool : WorkerPool WorkerRuntime) (op : PoolOp) :
    ResetsAnswered stubMachine pool op := by
  cases op with
  | acquireForSession sessionId wantPrewarmed => exact fun _ _ => rfl
  | releaseForSession sessionId => exact fun _ _ _ _ _ => rfl
  | trimIdle => trivial
  | prewarm => trivial

theorem stub_pool_partitioned :
    Always (step stubMachine) Partitioned (WorkerPool.new stubMachine ⟨1, 1, true⟩)
      [.acquireForSession "a" true, .acquireForSession "b" false, .releaseForSession "a",
        .releaseForSession "b", .trimIdle, .prewarm] :=
  (pool_partition_iff stubMachine ⟨1, 1, true⟩ _ (by decide)).mpr
    (allowed_of_forall stub_resetsAnswered _ _)

def dyingMachine (lives : Nat) : Machine Nat where
  spawn _ := some lives
  request _ := fun left =>
    if left = 0 then (.error "worker closed pipe unexpectedly", 0) else (.ok { ok := true }, left - 1)

/-- A worker that fails the reset of an acquire runs on and is on no list; one
that fails the reset of a release goes back to `idle`. -/
theorem failed_resets_break_the_partition :
    ¬Always (step (dyingMachine 1)) Partitioned (WorkerPool.new (dyingMachine 1) ⟨1, 4, true⟩)
        [.acquireForSession "a" true] ∧
      ¬Always (step (dyingMachine 2)) Partitioned (WorkerPool.new (dyingMachine 2) ⟨1, 4, true⟩)
        [.acquireForSession "a" true, .releaseForSession "a"] := by
  constructor
  · intro h
    have hlength := (h _ (List.prefix_refl _)).exact.length_eq
    exact absurd hlength (by decide)
  · intro h
    obtain ⟨worker, hw, hclean⟩ := (h _ (List.prefix_refl _)).clean "worker-000001" (by decide)
    have hdirty : ((run (step (dyingMachine 2)) (WorkerPool.new (dyingMachine 2) ⟨1, 4, true⟩)
        [.acquireForSession "a" true, .releaseForSession "a"]).workers.lookup
        "worker-000001").map (·.resets) = some [false, true, true] := by decide
    rw [hw] at hdirty
    have hresets : worker.resets = [false, true, true] := Option.some.inj hdirty
    rw [hresets] at hclean
    cases hclean

end RimeWinime.Partition
