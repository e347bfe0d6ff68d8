import RimeWinime.Gateway.Lending
import RimeWinime.Gateway.Processes

namespace RimeWinime.ProcessAccount

open World Worker Table RimeWinime.Partition Service Steps Lending Ledger Run Processes
open Pool hiding spawnWorker prewarmLoop prewarm requestWorker spawnOr obtainWorker
  acquireForSession releaseForSession trimLoop trimIdle

variable {P α : Type}

/-- What runs is what the registry holds, and no name has been used twice. -/
structure Kept (books : Books P) : Prop where
  account : account books.log = some (books.pool.workers.keys : Multiset String)
  started : ∀ id, .gains id ∈ books.log → Named books.pool id
  once : ∀ id, books.log.count (.gains id) ≤ 1

theorem Kept.registry {books : Books P} (h : Kept books) {id : String}
    (hid : id ∈ books.pool.workers) : .gains id ∈ books.log ∧ Named books.pool id := by
  have hcount := count_account id h.account
  have hheld : 0 < (books.pool.workers.keys : Multiset String).count id :=
    Multiset.count_pos.mpr (AList.mem_keys.mp hid)
  have hlogged : Mark.gains id ∈ books.log := List.count_pos_iff.mp (by omega)
  exact ⟨hlogged, h.started id hlogged⟩

/-- More is written in the books, of subprocesses that have no name yet or run. -/
theorem Kept.add {books : Books P} (h : Kept books) (pool : WorkerPool P) {marks : List (Mark String)}
    (hcounter : books.pool.nextWorkerId ≤ pool.nextWorkerId)
    (haccount : marks.foldl enter (some (books.pool.workers.keys : Multiset String)) =
      some (pool.workers.keys : Multiset String))
    (hnew : ∀ id, .gains id ∈ marks → Named pool id ∧ ¬Named books.pool id)
    (honce : ∀ id, marks.count (.gains id) ≤ 1) : Kept ⟨pool, books.log ++ marks⟩ := by
  constructor
  case account => rw [account_append, h.account, haccount]
  case started =>
    intro id hid
    rcases List.mem_append.mp hid with hold | hmark
    · exact (h.started id hold).mono hcounter
    · exact (hnew id hmark).1
  case once =>
    intro id
    rw [List.count_append]
    by_cases hmark : Mark.gains id ∈ marks
    · have hold : Mark.gains id ∉ books.log := fun hold => (hnew id hmark).2 (h.started id hold)
      rw [List.count_eq_zero_of_not_mem hold, Nat.zero_add]
      exact honce id
    · rw [List.count_eq_zero_of_not_mem hmark, Nat.add_zero]
      exact h.once id

/-- Nothing is written in the books. -/
theorem Kept.move {books : Books P} (h : Kept books) {pool : WorkerPool P}
    (hcounter : pool.nextWorkerId = books.pool.nextWorkerId)
    (hworkers : pool.workers = books.pool.workers) : Kept ⟨pool, books.log⟩ := by
  refine ⟨?_, fun id hid => (h.started id hid).mono (Nat.le_of_eq hcounter.symm), h.once⟩
  rw [hworkers]
  exact h.account

def KeepsBooks (op : Act (Books P) α) : Prop := Keeps Kept Anything op

theorem KeepsBooks.pure (a : α) : KeepsBooks (pure a : Act (Books P) α) := Keeps.pure trivial

theorem KeepsBooks.bind {β : Type} {x : Act (Books P) α} {f : α → Act (Books P) β}
    (hx : KeepsBooks x) (hf : ∀ a, KeepsBooks (f a)) : KeepsBooks (x >>= f) :=
  Keeps.bind hx fun a _ => hf a

/-- The pool moves its workers about. -/
theorem inPool_keeps {f : WorkerPool P → WorkerPool P}
    (hcounter : ∀ pool, (f pool).nextWorkerId = pool.nextWorkerId)
    (hworkers : ∀ pool, (f pool).workers = pool.workers) : KeepsBooks (inPool (change f)) :=
  fun books h => ⟨trivial, h.move (hcounter books.pool) (hworkers books.pool)⟩

/-- How the books are after an attempt to start a subprocess. -/
inductive Spawned (books : Books P) : Option String × Books P → Prop
  | failed (marks : List (Mark String))
      (hmarks : marks.foldl enter (some (books.pool.workers.keys : Multiset String)) =
        some (books.pool.workers.keys : Multiset String))
      (hnew : ∀ id, .gains id ∈ marks → id = workerName (books.pool.nextWorkerId + 1))
      (honce : ∀ id, marks.count (.gains id) ≤ 1) :
      Spawned books (none,
        ⟨{ books.pool with nextWorkerId := books.pool.nextWorkerId + 1 }, books.log ++ marks⟩)
  | running (worker : WorkerProcess P) :
      Spawned books (some (workerName (books.pool.nextWorkerId + 1)),
        ⟨withSpawned books.pool worker,
          books.log ++ [.gains (workerName (books.pool.nextWorkerId + 1)),
            .uses (workerName (books.pool.nextWorkerId + 1))]⟩)

/-- A subprocess that comes up and is killed. -/
theorem spawned_killed (books : Books P) (marks : List (Mark String))
    (hmarks : marks = [] ∨ marks = [.uses (workerName (books.pool.nextWorkerId + 1))]) :
    Spawned books (none,
      ⟨{ books.pool with nextWorkerId := books.pool.nextWorkerId + 1 },
        books.log ++ (.gains (workerName (books.pool.nextWorkerId + 1)) ::
          (marks ++ [.gives (workerName (books.pool.nextWorkerId + 1))]))⟩) := by
  apply Spawned.failed
  · rw [List.foldl_cons, List.foldl_append, enter_gains]
    rcases hmarks with rfl | rfl
    · exact enter_gains_gives (some _) _
    · rw [List.foldl_cons, List.foldl_cons, List.foldl_nil, List.foldl_nil,
        enter_uses (Multiset.mem_cons_self _ _)]
      exact enter_gains_gives (some _) _
  · intro id hid
    rcases hmarks with rfl | rfl
    · simpa using hid
    · simpa using hid
  · intro id
    rcases hmarks with rfl | rfl
    · rw [List.nil_append, List.count_cons, List.count_eq_zero_of_not_mem (by simp)]
      split <;> omega
    · rw [List.count_cons, List.count_eq_zero_of_not_mem (by simp)]
      split <;> omega

theorem spawnWorker_spawned (host : Host P) (books : Books P) :
    Spawned books (spawnWorker host books) := by
  cases hs : host.start (books.pool.nextWorkerId + 1) with
  | refused =>
      have hfailed : Spawned books _ := Spawned.failed [] rfl (by simp) (by simp)
      simpa [spawnWorker, inPool, allocateWorkerId, hs] using hfailed
  | unpiped =>
      have hkilled := spawned_killed books [] (Or.inl rfl)
      simpa [spawnWorker, inPool, allocateWorkerId, note, hs] using hkilled
  | running process =>
      cases ha : accepted (WorkerProcess.request host.machine .resetSession ⟨process, []⟩).1 with
      | false =>
          have hkilled := spawned_killed books _ (Or.inr rfl)
          simpa [spawnWorker, inPool, allocateWorkerId, note, hs, ha] using hkilled
      | true =>
          have hrunning : Spawned books _ :=
            Spawned.running (WorkerProcess.request host.machine .resetSession ⟨process, []⟩).2
          simpa [spawnWorker, inPool, allocateWorkerId, note, hs, ha, withSpawned] using hrunning

theorem Spawned.kept {books : Books P} (h : Kept books) {r : Option String × Books P}
    (hr : Spawned books r) : Kept r.2 := by
  cases hr with
  | failed marks hmarks hnew honce =>
      have hcounted : Kept
          ⟨{ books.pool with nextWorkerId := books.pool.nextWorkerId + 1 }, books.log ++ marks⟩ := by
        apply h.add { books.pool with nextWorkerId := books.pool.nextWorkerId + 1 }
          (Nat.le_succ _) hmarks ?_ honce
        intro id hid
        obtain rfl := hnew id hid
        exact ⟨⟨_, Nat.le_refl _, rfl⟩, not_named_next books.pool⟩
      exact hcounted
  | running worker =>
      have hfresh : workerName (books.pool.nextWorkerId + 1) ∉ books.pool.workers :=
        fun hin => not_named_next books.pool (h.registry hin).2
      apply h.add (withSpawned books.pool worker) (Nat.le_succ _)
      · rw [List.foldl_cons, enter_gains, List.foldl_cons, enter_uses (Multiset.mem_cons_self _ _),
          List.foldl_nil, withSpawned, keys_insert_fresh hfresh, Multiset.cons_coe]
      · intro id hid
        obtain rfl : id = workerName (books.pool.nextWorkerId + 1) := by simpa using hid
        exact ⟨⟨_, Nat.le_refl _, rfl⟩, not_named_next books.pool⟩
      · intro id
        rw [List.count_cons, List.count_eq_zero_of_not_mem (by simp)]
        split <;> omega

section

variable (host : Host P)

theorem spawnWorker_keeps : KeepsBooks (spawnWorker host) :=
  fun books h => ⟨trivial, (spawnWorker_spawned host books).kept h⟩

theorem prewarmLoop_keeps (missing : Nat) : KeepsBooks (prewarmLoop host missing) := by
  induction missing with
  | zero => exact KeepsBooks.pure ()
  | succ missing ih =>
      apply KeepsBooks.bind (spawnWorker_keeps host)
      intro spawned
      cases spawned with
      | none => exact KeepsBooks.pure ()
      | some workerId =>
          exact KeepsBooks.bind (inPool_keeps (fun _ => rfl) (fun _ => rfl)) fun _ => ih

theorem prewarm_keeps : KeepsBooks (prewarm host) := fun books h =>
  prewarmLoop_keeps host _ books h

theorem requestWorker_keeps (workerId : String) (req : WorkerIpcRequest) :
    KeepsBooks (requestWorker host workerId req) := by
  intro books h
  refine ⟨trivial, ?_⟩
  rw [requestWorker]
  split
  · exact h
  · next worker hw =>
      have hin := mem_of_lookup hw
      let asked := (WorkerProcess.request host.machine req worker).2
      apply h.add { books.pool with workers := books.pool.workers.insert workerId asked }
        (Nat.le_refl _)
      · have hkeys := keys_perm_insert hin asked
        rw [List.foldl_cons, List.foldl_nil, Multiset.coe_eq_coe.mpr hkeys]
        exact enter_uses (Multiset.mem_coe.mpr (AList.mem_keys.mp hin))
      · intro id hid
        simp at hid
      · intro id
        simp

theorem removeWorker_keeps (workerId : String) :
    KeepsBooks (removeWorker workerId : Act (Books P) Unit) := by
  intro books h
  refine ⟨trivial, ?_⟩
  rw [removeWorker]
  split
  · exact h
  · next worker hw =>
      have hin := AList.mem_keys.mp (mem_of_lookup hw)
      apply h.add { books.pool with workers := books.pool.workers.erase workerId } (Nat.le_refl _)
      · rw [List.foldl_cons, List.foldl_nil, enter_gives (Multiset.mem_coe.mpr hin),
          Multiset.coe_erase, AList.keys_erase]
      · intro id hid
        simp at hid
      · intro id
        simp

theorem spawnOr_keeps (failure : String) : KeepsBooks (spawnOr host failure) := by
  apply KeepsBooks.bind (spawnWorker_keeps host)
  intro spawned
  cases spawned with
  | none => exact KeepsBooks.pure _
  | some workerId => exact KeepsBooks.pure _

theorem obtainWorker_keeps (wantPrewarmed : Bool) : KeepsBooks (obtainWorker host wantPrewarmed) := by
  cases wantPrewarmed with
  | false => exact spawnOr_keeps host _
  | true =>
      intro books h
      cases hidle : books.pool.idle with
      | nil =>
          have hspawn := spawnOr_keeps host "failed to acquire prewarmed worker" books h
          simpa [obtainWorker, hidle] using hspawn
      | cons workerId idle =>
          have hrun : obtainWorker host true books =
              (.ok workerId, ⟨{ books.pool with idle := idle }, books.log⟩) := by
            simp [obtainWorker, hidle]
          rw [hrun]
          exact ⟨trivial, h.move rfl rfl⟩

theorem acquireForSession_keeps (sessionId : String) (wantPrewarmed : Bool) :
    KeepsBooks (acquireForSession host sessionId wantPrewarmed) := by
  apply KeepsBooks.bind (obtainWorker_keeps host wantPrewarmed)
  intro obtained
  cases obtained with
  | error failure => exact KeepsBooks.pure _
  | ok workerId =>
      apply KeepsBooks.bind (requestWorker_keeps host workerId .resetSession)
      intro asked
      cases asked with
      | none => exact KeepsBooks.pure _
      | some r =>
          cases r with
          | error err => exact KeepsBooks.pure _
          | ok resp =>
              apply Keeps.ite
              · intro _
                exact KeepsBooks.bind (inPool_keeps (fun _ => rfl) (fun _ => rfl))
                  fun _ => KeepsBooks.pure _
              · intro _
                exact KeepsBooks.pure _

theorem releaseForSession_keeps (sessionId : String) :
    KeepsBooks (releaseForSession host sessionId) := by
  intro books h
  refine ⟨trivial, ?_⟩
  cases hbusy : books.pool.busyBySession.lookup sessionId with
  | none =>
      simp only [releaseForSession, hbusy]
      exact h
  | some workerId =>
      have hreleased : Kept { books with
          pool := { books.pool with busyBySession := books.pool.busyBySession.erase sessionId } } :=
        h.move rfl rfl
      by_cases hroom : books.pool.idle.length < books.pool.cfg.maxIdle
      · simp only [releaseForSession, hbusy, if_pos hroom]
        exact (requestWorker_keeps host workerId .resetSession _ hreleased).2.move rfl rfl
      · simp only [releaseForSession, hbusy, if_neg hroom]
        exact (removeWorker_keeps workerId _ hreleased).2

theorem trimLoop_keeps (excess : Nat) : KeepsBooks (trimLoop excess : Act (Books P) Unit) := by
  induction excess with
  | zero => exact KeepsBooks.pure ()
  | succ excess ih =>
      intro books h
      refine ⟨trivial, ?_⟩
      cases hlast : books.pool.idle.getLast? with
      | none =>
          simp only [trimLoop, hlast]
          exact (ih books h).2
      | some workerId =>
          have htrimmed : Kept { books with
              pool := { books.pool with idle := books.pool.idle.dropLast } } := h.move rfl rfl
          simp only [trimLoop, hlast]
          exact (ih _ (removeWorker_keeps workerId _ htrimmed).2).2

theorem use_keeps (books : Books P) (u : Use) (h : Kept books) : Kept (u.booked host books) := by
  cases u with
  | request workerId req => exact (requestWorker_keeps host workerId req books h).2
  | turn op =>
      cases op with
      | acquireForSession sessionId wantPrewarmed =>
          exact (acquireForSession_keeps host sessionId wantPrewarmed books h).2
      | releaseForSession sessionId => exact (releaseForSession_keeps host sessionId books h).2
      | trimIdle => exact (trimLoop_keeps _ books h).2
      | prewarm => exact (prewarm_keeps host books h).2

theorem opened_keeps (cfg : PoolConfig) : Kept (opened host cfg) := by
  have hempty : Kept (⟨⟨cfg, 0, [], ∅, ∅⟩, []⟩ : Books P) :=
    ⟨rfl, fun id hid => absurd hid List.not_mem_nil, fun id => Nat.zero_le 1⟩
  rw [opened]
  split
  · exact (prewarm_keeps host _ hempty).2
  · exact hempty

end

theorem walk_perm (order keys : List String) : (walk order keys).Perm keys := by
  rw [walk]
  split
  · next h => exact h
  · exact List.Perm.refl keys

theorem dropped_account {books : Books P} (h : Kept books) (order : List String) :
    account (dropped order books).log = some 0 := by
  have hkeys := Multiset.coe_eq_coe.mpr (walk_perm order books.pool.workers.keys)
  have hgiven := foldl_gives (walk order books.pool.workers.keys) 0
  rw [Multiset.add_zero] at hgiven
  rw [dropped, account_append, h.account, ← hkeys, hgiven]

/-- However the pool is used, each request goes to a subprocess that has been started and not
killed, the registry holds what runs, and each subprocess has been killed once when the pool
is gone. -/
theorem subprocesses_are_killed_once (host : Host P) (cfg : PoolConfig) (uses : List Use)
    (order : List String) :
    let books := run (Use.booked host) (opened host cfg) uses
    books.pool = run (Use.plain host.machine) (WorkerPool.new host.machine cfg) uses ∧
      account books.log = some (books.pool.workers.keys : Multiset String) ∧
      (∀ past id, past ++ [.uses id] <+: books.log → .gains id ∈ past ∧ .gives id ∉ past) ∧
      ∀ id, (dropped order books).log.count (.gives id) =
          (dropped order books).log.count (.gains id) ∧
        (dropped order books).log.count (.gains id) ≤ 1 := by
  have hkept : Kept (run (Use.booked host) (opened host cfg) uses) :=
    run_invariant Kept (use_keeps host) (opened_keeps host cfg) uses
  refine ⟨run_beside host cfg uses, hkept.account, ?_, ?_⟩
  · intro past id hpast
    exact used_between hpast hkept.account (hkept.once id)
  · intro id
    have hcount := count_account id (dropped_account hkept order)
    rw [Multiset.count_zero, Nat.add_zero] at hcount
    have hgains : (dropped order (run (Use.booked host) (opened host cfg) uses)).log.count
        (.gains id) = (run (Use.booked host) (opened host cfg) uses).log.count (.gains id) := by
      have hnone (keys : List String) : Mark.gains id ∉ keys.map Mark.gives := by simp
      rw [dropped, List.count_append, List.count_eq_zero_of_not_mem (hnone _), Nat.add_zero]
    exact ⟨hcount.symm, hgains ▸ hkept.once id⟩

def OfUses (m : Machine P) (op : Act (WorkerPool P) α) : Prop :=
  ∀ pool, ∃ uses, (op pool).2 = run (Use.plain m) pool uses

section

variable {m : Machine P}

theorem OfUses.pure (a : α) : OfUses m (pure a : Act (WorkerPool P) α) := fun _ => ⟨[], rfl⟩

theorem OfUses.bind {β : Type} {x : Act (WorkerPool P) α} {f : α → Act (WorkerPool P) β}
    (hx : OfUses m x) (hf : ∀ a, OfUses m (f a)) : OfUses m (x >>= f) := by
  intro pool
  obtain ⟨first, hfirst⟩ := hx pool
  obtain ⟨rest, hrest⟩ := hf (x pool).1 (x pool).2
  exact ⟨first ++ rest, by rw [bind_run, hrest, hfirst, run_append]⟩

theorem OfUses.one {op : Act (WorkerPool P) α} (u : Use) (h : ∀ pool, (op pool).2 = u.plain m pool) :
    OfUses m op := fun pool => ⟨[u], h pool⟩

theorem requestOr_ofUses (workerId : String) (req : WorkerIpcRequest) (missing : String)
    (transport : String → String) (refused : WorkerIpcResponse → String) :
    OfUses m (requestOr m workerId req missing transport refused) := by
  apply OfUses.bind (OfUses.one (.request workerId req) fun _ => rfl)
  intro answer
  rcases answer with _ | _ | resp
  · exact OfUses.pure _
  · exact OfUses.pure _
  · dsimp only
    split
    · exact OfUses.pure _
    · exact OfUses.pure _

theorem forward_ofUses (workerId what : String) (req : WorkerIpcRequest) :
    OfUses m (forward m workerId what req) := requestOr_ofUses workerId req _ _ _

theorem snapshotOrNothing_ofUses (workerId : String) : OfUses m (snapshotOrNothing m workerId) := by
  apply OfUses.bind (forward_ofUses workerId _ _)
  intro answer
  cases answer with
  | ok resp => exact OfUses.pure _
  | error e => exact OfUses.pure _

theorem refuseKey_ofUses (sessionId workerId : String) (lastSeq : UInt64) :
    OfUses m (refuseKey m sessionId workerId lastSeq) := by
  apply OfUses.bind (forward_ofUses workerId _ _)
  intro answer
  cases answer with
  | ok resp => exact OfUses.pure _
  | error message => exact OfUses.pure _

theorem applyKey_ofUses (sessionId workerId : String) (event : KeyEvent) :
    OfUses m (applyKey m sessionId workerId event) := by
  apply OfUses.bind (forward_ofUses workerId _ _)
  intro answer
  cases answer with
  | ok resp => exact OfUses.pure _
  | error message => exact OfUses.bind (snapshotOrNothing_ofUses workerId) fun _ => OfUses.pure _

theorem applyQuery_ofUses (workerId : String) (req : QueryCandidatesRequest) :
    OfUses m (applyQuery m workerId req) := by
  apply OfUses.bind (forward_ofUses workerId _ _)
  intro answer
  cases answer with
  | ok resp => exact OfUses.pure _
  | error message => exact OfUses.bind (snapshotOrNothing_ofUses workerId) fun _ => OfUses.pure _

theorem applyCommit_ofUses (workerId : String) (req : CommitSelectionRequest) :
    OfUses m (applyCommit m workerId req) := by
  apply OfUses.bind (requestOr_ofUses workerId _ _ _ _)
  intro answer
  cases answer with
  | ok resp => exact OfUses.pure _
  | error message => exact OfUses.bind (snapshotOrNothing_ofUses workerId) fun _ => OfUses.pure _

theorem applyReset_ofUses (sessionId workerId : String) :
    OfUses m (applyReset m sessionId workerId) := by
  apply OfUses.bind (forward_ofUses workerId _ _)
  intro answer
  cases answer with
  | ok resp => exact OfUses.pure _
  | error message => exact OfUses.pure _

theorem releaseAll_ofUses (expired : List String) : OfUses m (releaseAll m expired) := by
  induction expired with
  | nil => exact OfUses.pure ()
  | cons sessionId rest ih =>
      apply OfUses.bind (OfUses.one (.turn (.releaseForSession sessionId)) fun _ => rfl)
      intro _
      exact ih

theorem recycle_ofUses (expired : List String) : OfUses m (recycle m expired) := by
  apply OfUses.bind (releaseAll_ofUses expired)
  intro _
  apply OfUses.bind (OfUses.one (.turn .trimIdle) fun _ => rfl)
  intro _
  exact OfUses.one (.turn .prewarm) fun _ => rfl

end

section

variable (m : Machine P)

theorem advance_uses (now : Nat) (handler : Handler) (s : GatewayState P) :
    ∃ uses, (advance m now handler s).2.pool = run (Use.plain m) s.pool uses := by
  have hrests (ha : asking handler = none)
      (hopen : ∀ sessionId req, handler ≠ .begun (.openSession sessionId req)) :
      ∃ uses, (advance m now handler s).2.pool = run (Use.plain m) s.pool uses :=
    ⟨[], pool_resting m now s ha hopen⟩
  cases handler with
  | begun call =>
      cases call with
      | openSession sessionId req =>
          refine ⟨[.turn (.acquireForSession sessionId req.wantPrewarmedWorker)], ?_⟩
          exact openSession_pool m sessionId req s.pool
      | sendKeyEvent | queryCandidates | commitSelection | resetSession =>
          exact hrests rfl fun _ _ h => by cases h
  | assigned | done | freshKey => exact hrests rfl fun _ _ h => by cases h
  | staleKey sessionId workerId lastSeq => exact refuseKey_ofUses sessionId workerId lastSeq s.pool
  | applyKey sessionId workerId event => exact applyKey_ofUses sessionId workerId event s.pool
  | applyQuery workerId req => exact applyQuery_ofUses workerId req s.pool
  | applyCommit workerId req => exact applyCommit_ofUses workerId req s.pool
  | applyReset sessionId workerId => exact applyReset_ofUses sessionId workerId s.pool

theorem reap_uses (now : Nat) (order : List String) (reaper : Reaper) (s : GatewayState P) :
    ∃ uses, (reap m now order reaper s).2.pool = run (Use.plain m) s.pool uses := by
  cases reaper with
  | sleeping | woken | listed => exact ⟨[], rfl⟩
  | removed expired => exact recycle_ofUses expired s.pool

theorem step_uses (sys : System P) (e : Event) :
    ∃ uses, (Service.step m sys e).state.pool = run (Use.plain m) sys.state.pool uses := by
  cases e with
  | arrive call => exact ⟨[], rfl⟩
  | tick elapsed => exact ⟨[], rfl⟩
  | reap order => exact reap_uses m sys.clock order sys.reaper sys.state
  | resume i =>
      rcases resume_cases m sys i with ⟨-, hrun⟩ | ⟨before, handler, after, hresumes⟩
      · exact ⟨[], congrArg (fun sys => sys.state.pool) hrun⟩
      · obtain ⟨uses, huses⟩ := advance_uses m sys.clock handler sys.state
        have hrun : Service.step m sys (.resume i) = _ := hresumes.run
        exact ⟨uses, by rw [hrun, huses]⟩

theorem gateway_uses (events : List Event) (sys : System P) :
    ∃ uses, (run (Service.step m) sys events).state.pool = run (Use.plain m) sys.state.pool uses := by
  induction events generalizing sys with
  | nil => exact ⟨[], rfl⟩
  | cons e events ih =>
      obtain ⟨first, hfirst⟩ := step_uses m sys e
      obtain ⟨rest, hrest⟩ := ih (Service.step m sys e)
      exact ⟨first ++ rest, by rw [run_cons, hrest, hfirst, run_append]⟩

end

/-- In every run of the gateway the pool is one of those whose books are kept. -/
theorem gateway_books (host : Host P) (cfg : PoolConfig) (sessionIdleTtl : Nat)
    (events : List Event) :
    ∃ uses, (run (Service.step host.machine) (start host.machine cfg sessionIdleTtl)
        events).state.pool = (run (Use.booked host) (opened host cfg) uses).pool := by
  obtain ⟨uses, huses⟩ := gateway_uses host.machine events (start host.machine cfg sessionIdleTtl)
  exact ⟨uses, by rw [huses, run_beside]; rfl⟩

end RimeWinime.ProcessAccount
