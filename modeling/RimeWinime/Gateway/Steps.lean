import RimeWinime.Gateway.Service

namespace RimeWinime.Steps

open World Worker Table Pool Service

variable {P α β : Type}

/-- The session and the worker of a handler that is about to put a request to
the worker. -/
def asking : Handler → Option (String × String)
  | .staleKey sessionId workerId _ => some (sessionId, workerId)
  | .applyKey sessionId workerId _ => some (sessionId, workerId)
  | .applyQuery workerId req => some (req.sessionId, workerId)
  | .applyCommit workerId req => some (req.sessionId, workerId)
  | .applyReset sessionId workerId => some (sessionId, workerId)
  | _ => none

/-- The session and the worker id that a handler has copied out of the table. -/
def holding : Handler → Option (String × String)
  | .freshKey sessionId workerId _ => some (sessionId, workerId)
  | handler => asking handler

/-- The session that a handler is about to write, and how. -/
def updating : Handler → Option (String × (SessionState → SessionState))
  | .begun (.queryCandidates req) => some (req.sessionId, queried req)
  | .begun (.commitSelection req) => some (req.sessionId, committed req)
  | .begun (.resetSession req) => some (req.sessionId, id)
  | .freshKey sessionId _ event => some (sessionId, keyed event)
  | _ => none

def opening : Handler → Option String
  | .begun (.openSession sessionId _) => some sessionId
  | .assigned sessionId _ _ _ => some sessionId
  | _ => none

/-- The number of resets that a worker has answered: what it holds is younger. -/
def era (worker : WorkerProcess P) : Nat := worker.resets.count true

/-- A request has been put to `workerId`, or none: the lists are the same and
so are the other workers. -/
structure Served (workerId : String) (pool pool' : WorkerPool P) : Prop where
  cfg : pool'.cfg = pool.cfg
  counter : pool'.nextWorkerId = pool.nextWorkerId
  idle : pool'.idle = pool.idle
  busy : pool'.busyBySession = pool.busyBySession
  others : ∀ id, id ≠ workerId → pool'.workers.lookup id = pool.workers.lookup id
  same : ∀ worker', pool'.workers.lookup workerId = some worker' →
    ∃ worker, pool.workers.lookup workerId = some worker ∧ era worker ≤ era worker'

theorem Served.refl (workerId : String) (pool : WorkerPool P) : Served workerId pool pool :=
  ⟨rfl, rfl, rfl, rfl, fun _ _ => rfl, fun worker h => ⟨worker, h, Nat.le_refl _⟩⟩

theorem Served.trans {workerId : String} {a b c : WorkerPool P} (hab : Served workerId a b)
    (hbc : Served workerId b c) : Served workerId a c := by
  refine ⟨hbc.cfg.trans hab.cfg, hbc.counter.trans hab.counter, hbc.idle.trans hab.idle,
    hbc.busy.trans hab.busy, fun id hne => (hbc.others id hne).trans (hab.others id hne), ?_⟩
  intro worker'' h
  obtain ⟨worker', h', hle'⟩ := hbc.same worker'' h
  obtain ⟨worker, hw, hle⟩ := hab.same worker' h'
  exact ⟨worker, hw, hle.trans hle'⟩

theorem era_request (m : Machine P) (req : WorkerIpcRequest) (worker : WorkerProcess P) :
    era worker ≤ era (WorkerProcess.request m req worker).2 := by
  simp only [WorkerProcess.request, era]
  split
  · exact (List.sublist_cons_self _ _).count_le true
  · exact Nat.le_refl _

theorem requestWorker_served (m : Machine P) (workerId : String) (req : WorkerIpcRequest)
    (pool : WorkerPool P) : Served workerId pool (requestWorker m workerId req pool).2 := by
  rw [requestWorker]
  split
  · exact Served.refl workerId pool
  · next worker hw =>
      refine ⟨rfl, rfl, rfl, rfl, fun id hne => AList.lookup_insert_ne hne, ?_⟩
      intro worker' h
      rw [AList.lookup_insert] at h
      cases h
      exact ⟨worker, hw, era_request m req worker⟩

/-- Both pools have the worker, and what it holds is the same. -/
def Alike (workerId : String) (pool pool' : WorkerPool P) : Prop :=
  ∃ worker worker', pool.workers.lookup workerId = some worker ∧
    pool'.workers.lookup workerId = some worker' ∧ worker.process = worker'.process

/-- The action only puts requests to the worker, what it returns has the property, and all
that it finds in the pool is what the worker holds. -/
structure Serves (workerId : String) (Q : α → Prop) (x : Act (WorkerPool P) α) : Prop where
  result : ∀ pool, Q (x pool).1
  served : ∀ pool, Served workerId pool (x pool).2
  alike : ∀ pool pool', Alike workerId pool pool' →
    (x pool).1 = (x pool').1 ∧ Alike workerId (x pool).2 (x pool').2

def Anything (_ : α) : Prop := True

def Finished (handler : Handler) : Prop := ∃ reply, handler = .done reply

theorem Serves.pure {workerId : String} {Q : α → Prop} {a : α} (h : Q a) :
    Serves workerId Q (pure a : Act (WorkerPool P) α) :=
  ⟨fun _ => h, fun pool => Served.refl workerId pool, fun _ _ halike => ⟨rfl, halike⟩⟩

theorem Serves.bind {workerId : String} {Q : β → Prop} {x : Act (WorkerPool P) α}
    {f : α → Act (WorkerPool P) β} (hx : Serves workerId Anything x)
    (hf : ∀ a, Serves workerId Q (f a)) : Serves workerId Q (x >>= f) := by
  refine ⟨fun pool => (hf _).result _, fun pool => (hx.served pool).trans ((hf _).served _), ?_⟩
  intro pool pool' halike
  obtain ⟨hsame, hnext⟩ := hx.alike pool pool' halike
  rw [bind_run, bind_run, ← hsame]
  exact (hf _).alike _ _ hnext

theorem Serves.ite {workerId : String} {Q : α → Prop} {c : Prop} [Decidable c]
    {x y : Act (WorkerPool P) α} (hx : Serves workerId Q x) (hy : Serves workerId Q y) :
    Serves workerId Q (if c then x else y) := by
  split
  · exact hx
  · exact hy

theorem anything_serves (workerId : String) (a : α) :
    Serves workerId Anything (pure a : Act (WorkerPool P) α) := Serves.pure trivial

theorem done_serves (workerId : String) (reply : Reply) :
    Serves workerId Finished (pure (.done reply) : Act (WorkerPool P) Handler) :=
  Serves.pure ⟨reply, rfl⟩

theorem request_serves (m : Machine P) (workerId : String) (req : WorkerIpcRequest) :
    Serves workerId Anything (requestWorker m workerId req) := by
  refine ⟨fun _ => trivial, fun pool => requestWorker_served m workerId req pool, ?_⟩
  rintro pool pool' ⟨worker, worker', hw, hw', hsame⟩
  simp only [requestWorker, hw, hw', WorkerProcess.request, hsame, true_and]
  exact ⟨_, _, AList.lookup_insert _, AList.lookup_insert _, rfl⟩

/-- What `forward` and `commitSelection` do, each with its own messages. -/
def requestOr (m : Machine P) (workerId : String) (req : WorkerIpcRequest) (missing : String)
    (transport : String → String) (refused : WorkerIpcResponse → String) :
    Act (WorkerPool P) (Except String WorkerIpcResponse) := do
  match ← requestWorker m workerId req with
  | none => pure (.error missing)
  | some (.error e) => pure (.error (transport e))
  | some (.ok resp) => if resp.ok then pure (.ok resp) else pure (.error (refused resp))

theorem requestOr_serves (m : Machine P) (workerId : String) (req : WorkerIpcRequest)
    (missing : String) (transport : String → String) (refused : WorkerIpcResponse → String) :
    Serves workerId Anything (requestOr m workerId req missing transport refused) := by
  apply Serves.bind (request_serves m workerId req)
  intro answer
  rcases answer with _ | _ | resp
  · exact anything_serves workerId _
  · exact anything_serves workerId _
  · exact Serves.ite (anything_serves workerId _) (anything_serves workerId _)

theorem forward_serves (m : Machine P) (workerId what : String) (req : WorkerIpcRequest) :
    Serves workerId Anything (forward m workerId what req) :=
  requestOr_serves m workerId req _ _ _

theorem commitSelection_serves (m : Machine P) (workerId committedText : String) (index : Nat) :
    Serves workerId Anything (commitSelection m workerId committedText index) :=
  requestOr_serves m workerId _ _ _ _

theorem snapshotOrNothing_serves (m : Machine P) (workerId : String) :
    Serves workerId Anything (snapshotOrNothing m workerId) := by
  apply Serves.bind (forward_serves m workerId _ _)
  intro answer
  cases answer <;> exact anything_serves workerId _

theorem refuseKey_serves (m : Machine P) (sessionId workerId : String) (lastSeq : UInt64) :
    Serves workerId Finished (refuseKey m sessionId workerId lastSeq) := by
  apply Serves.bind (forward_serves m workerId _ _)
  intro answer
  cases answer <;> exact done_serves workerId _

theorem applyKey_serves (m : Machine P) (sessionId workerId : String) (event : KeyEvent) :
    Serves workerId Finished (applyKey m sessionId workerId event) := by
  apply Serves.bind (forward_serves m workerId _ _)
  intro answer
  cases answer with
  | ok resp => exact done_serves workerId _
  | error message => exact (snapshotOrNothing_serves m workerId).bind fun _ => done_serves workerId _

theorem applyQuery_serves (m : Machine P) (workerId : String) (req : QueryCandidatesRequest) :
    Serves workerId Finished (applyQuery m workerId req) := by
  apply Serves.bind (forward_serves m workerId _ _)
  intro answer
  cases answer with
  | ok resp => exact done_serves workerId _
  | error message => exact (snapshotOrNothing_serves m workerId).bind fun _ => done_serves workerId _

theorem applyCommit_serves (m : Machine P) (workerId : String) (req : CommitSelectionRequest) :
    Serves workerId Finished (applyCommit m workerId req) := by
  apply Serves.bind (commitSelection_serves m workerId _ _)
  intro answer
  cases answer with
  | ok resp => exact done_serves workerId _
  | error message => exact (snapshotOrNothing_serves m workerId).bind fun _ => done_serves workerId _

theorem applyReset_serves (m : Machine P) (sessionId workerId : String) :
    Serves workerId Finished (applyReset m sessionId workerId) := by
  apply Serves.bind (forward_serves m workerId _ _)
  intro answer
  cases answer <;> exact done_serves workerId _

section

variable (m : Machine P) (now : Nat) {handler : Handler} (s : GatewayState P)

theorem asking_serves {sessionId workerId : String}
    (h : asking handler = some (sessionId, workerId)) :
    ∃ op, Serves workerId Finished op ∧ ∀ now s, advance m now handler s = withPool op s := by
  cases handler with
  | staleKey => cases h; exact ⟨_, refuseKey_serves m _ _ _, fun _ _ => rfl⟩
  | applyKey => cases h; exact ⟨_, applyKey_serves m _ _ _, fun _ _ => rfl⟩
  | applyQuery => cases h; exact ⟨_, applyQuery_serves m _ _, fun _ _ => rfl⟩
  | applyCommit => cases h; exact ⟨_, applyCommit_serves m _ _, fun _ _ => rfl⟩
  | applyReset => cases h; exact ⟨_, applyReset_serves m _ _, fun _ _ => rfl⟩
  | begun | assigned | freshKey | done => cases h

theorem advance_asking {sessionId workerId : String}
    (h : asking handler = some (sessionId, workerId)) :
    ∃ reply pool', advance m now handler s = (.done reply, { s with pool := pool' }) ∧
      Served workerId s.pool pool' := by
  obtain ⟨op, hop, hrun⟩ := asking_serves m h
  obtain ⟨reply, hreply⟩ := hop.result s.pool
  refine ⟨reply, (op s.pool).2, ?_, hop.served s.pool⟩
  rw [hrun, withPool, hreply]

theorem advance_alike {sessionId workerId : String}
    (h : asking handler = some (sessionId, workerId)) (now' : Nat) {s s' : GatewayState P}
    (halike : Alike workerId s.pool s'.pool) :
    (advance m now handler s).1 = (advance m now' handler s').1 ∧
      Alike workerId (advance m now handler s).2.pool (advance m now' handler s').2.pool := by
  obtain ⟨op, hop, hrun⟩ := asking_serves m h
  rw [hrun, hrun]
  exact hop.alike s.pool s'.pool halike

def following (handler : Handler) (session : SessionState) : Handler :=
  match handler with
  | .begun (.queryCandidates req) => .applyQuery session.workerId req
  | .begun (.commitSelection req) => .applyCommit session.workerId req
  | .begun (.resetSession req) => .applyReset req.sessionId session.workerId
  | .freshKey sessionId workerId event => .applyKey sessionId workerId event
  | handler => handler

theorem advance_updating {sessionId : String} {change : SessionState → SessionState}
    (h : updating handler = some (sessionId, change)) :
    (s.sessions.lookup sessionId = none ∧ advance m now handler s = (sessionNotFound, s)) ∨
      ∃ session, s.sessions.lookup sessionId = some session ∧
        advance m now handler s =
          (following handler ((change session).touch now),
            { s with sessions := s.sessions.insert sessionId ((change session).touch now) }) := by
  have hwritten (next : SessionState → Handler) :
      (s.sessions.lookup sessionId = none ∧
          withSession now sessionId change next s = (sessionNotFound, s)) ∨
        ∃ session, s.sessions.lookup sessionId = some session ∧
          withSession now sessionId change next s =
            (next ((change session).touch now),
              { s with sessions := s.sessions.insert sessionId ((change session).touch now) }) := by
    cases hs : s.sessions.lookup sessionId with
    | none => exact Or.inl ⟨rfl, by rw [withSession, hs]⟩
    | some session => exact Or.inr ⟨session, rfl, by rw [withSession, hs]⟩
  cases handler with
  | begun call =>
      cases call with
      | openSession | sendKeyEvent => cases h
      | queryCandidates req => cases h; exact hwritten fun session => .applyQuery session.workerId req
      | commitSelection req =>
          cases h; exact hwritten fun session => .applyCommit session.workerId req
      | resetSession req =>
          cases h; exact hwritten fun session => .applyReset req.sessionId session.workerId
  | freshKey sessionId workerId event =>
      cases h; exact hwritten fun _ => .applyKey sessionId workerId event
  | assigned | staleKey | applyKey | applyQuery | applyCommit | applyReset | done => cases h

theorem advance_ttl : (advance m now handler s).2.sessionIdleTtl = s.sessionIdleTtl := by
  have hupdated {p : String × (SessionState → SessionState)} (hu : updating handler = some p) :
      (advance m now handler s).2.sessionIdleTtl = s.sessionIdleTtl := by
    rcases advance_updating m now s hu with ⟨-, hrun⟩ | ⟨session, -, hrun⟩ <;> rw [hrun]
  cases handler with
  | begun call =>
      cases call with
      | openSession => rfl
      | sendKeyEvent req =>
          simp only [advance, checkSeq]
          split
          · rfl
          · split
            · rfl
            · split <;> rfl
      | queryCandidates => exact hupdated rfl
      | commitSelection => exact hupdated rfl
      | resetSession => exact hupdated rfl
  | freshKey => exact hupdated rfl
  | assigned | staleKey | applyKey | applyQuery | applyCommit | applyReset | done => rfl

theorem checkSeq_cases (req : SendKeyEventRequest) :
    (∃ reply, checkSeq req s = (.done reply, s)) ∨
      ∃ event session, req.keyEvent = some event ∧
        s.sessions.lookup req.sessionId = some session ∧
        ((event.seq ≤ session.lastSeq ∧
            checkSeq req s = (.staleKey req.sessionId session.workerId session.lastSeq, s)) ∨
          (session.lastSeq < event.seq ∧
            checkSeq req s = (.freshKey req.sessionId session.workerId event, s))) := by
  cases he : req.keyEvent with
  | none => exact Or.inl ⟨_, by rw [checkSeq, he]⟩
  | some event =>
      cases hs : s.sessions.lookup req.sessionId with
      | none => exact Or.inl ⟨_, by simp only [checkSeq, he, hs]; rfl⟩
      | some session =>
          refine Or.inr ⟨event, session, rfl, rfl, ?_⟩
          by_cases hseq : event.seq ≤ session.lastSeq
          · exact Or.inl ⟨hseq, by simp only [checkSeq, he, hs, if_pos hseq]⟩
          · exact Or.inr ⟨UInt64.not_le.mp hseq, by simp only [checkSeq, he, hs, if_neg hseq]⟩

theorem pool_resting (ha : asking handler = none)
    (hopen : ∀ sessionId req, handler ≠ .begun (.openSession sessionId req)) :
    (advance m now handler s).2.pool = s.pool := by
  have hupdated {p : String × (SessionState → SessionState)} (hu : updating handler = some p) :
      (advance m now handler s).2.pool = s.pool := by
    rcases advance_updating m now s hu with ⟨-, hrun⟩ | ⟨session, -, hrun⟩
    · rw [hrun]
    · rw [hrun]
  cases handler with
  | begun call =>
      cases call with
      | openSession sessionId req => exact absurd rfl (hopen sessionId req)
      | sendKeyEvent req =>
          rw [advance]
          rcases checkSeq_cases s req with ⟨reply, hcheck⟩ | ⟨event, session, -, -, hcheck⟩
          · rw [hcheck]
          · rcases hcheck with ⟨-, hcheck⟩ | ⟨-, hcheck⟩
            · rw [hcheck]
            · rw [hcheck]
      | queryCandidates => exact hupdated rfl
      | commitSelection => exact hupdated rfl
      | resetSession => exact hupdated rfl
  | freshKey => exact hupdated rfl
  | assigned => rfl
  | done => rfl
  | staleKey | applyKey | applyQuery | applyCommit | applyReset => cases ha

theorem openSession_cases (sessionId : String) (req : OpenSessionRequest) (pool : WorkerPool P) :
    (∃ e, (openSession m sessionId req pool).1 = .done (.failed (.internal e)) ∧
        (acquireForSession m sessionId req.wantPrewarmedWorker pool).1 = .error e) ∨
      ∃ workerId version idle,
        (openSession m sessionId req pool).1 = .assigned sessionId workerId version idle ∧
          (acquireForSession m sessionId req.wantPrewarmedWorker pool).1 = .ok (workerId, version) := by
  cases hacquired : (acquireForSession m sessionId req.wantPrewarmedWorker pool).1 with
  | error e => exact Or.inl ⟨e, by simp [openSession, hacquired], rfl⟩
  | ok r =>
      obtain ⟨workerId, version⟩ := r
      exact Or.inr ⟨workerId, version, _, by simp only [openSession, bind_run, hacquired]; rfl, rfl⟩

theorem openSession_pool (sessionId : String) (req : OpenSessionRequest) (pool : WorkerPool P) :
    (openSession m sessionId req pool).2 =
      (acquireForSession m sessionId req.wantPrewarmedWorker pool).2 := by
  cases hacquired : (acquireForSession m sessionId req.wantPrewarmedWorker pool).1 with
  | error e => simp [openSession, hacquired]
  | ok r => simp [openSession, hacquired]

theorem updating_workerId {sessionId : String} {change : SessionState → SessionState}
    (h : updating handler = some (sessionId, change)) (session : SessionState) :
    (change session).workerId = session.workerId := by
  cases handler with
  | begun call =>
      cases call with
      | openSession | sendKeyEvent => cases h
      | queryCandidates req =>
          cases h
          simp only [queried]
          split <;> rfl
      | commitSelection | resetSession => cases h; rfl
  | freshKey => cases h; rfl
  | assigned | staleKey | applyKey | applyQuery | applyCommit | applyReset | done => cases h

theorem opening_after : opening (advance m now handler s).1 = none ∨
    ((∃ sessionId req, handler = .begun (.openSession sessionId req)) ∧
      opening (advance m now handler s).1 = opening handler) := by
  have hasked {p : String × String} (ha : asking handler = some p) :
      opening (advance m now handler s).1 = none := by
    obtain ⟨reply, pool', hrun, -⟩ := advance_asking m now s ha
    rw [hrun]
    rfl
  have hupdated {p : String × (SessionState → SessionState)} (hu : updating handler = some p)
      (hnext : ∀ session, opening (following handler session) = none) :
      opening (advance m now handler s).1 = none := by
    rcases advance_updating m now s hu with ⟨-, hrun⟩ | ⟨session, -, hrun⟩
    · rw [hrun]
      rfl
    · rw [hrun]
      exact hnext _
  cases handler with
  | begun call =>
      cases call with
      | openSession j req =>
          rcases openSession_cases m j req s.pool with ⟨e, hrun, -⟩ | ⟨w, v, i, hrun, -⟩
          · left
            simp only [advance, withPool, hrun]
            rfl
          · right
            simp only [advance, withPool, hrun]
            exact ⟨⟨j, req, rfl⟩, rfl⟩
      | sendKeyEvent req =>
          left
          rcases checkSeq_cases s req with ⟨reply, hrun⟩ | ⟨event, session, -, -, hcheck⟩
          · rw [advance, hrun]
            rfl
          · rcases hcheck with ⟨-, hrun⟩ | ⟨-, hrun⟩ <;>
              · rw [advance, hrun]
                rfl
      | queryCandidates => exact Or.inl (hupdated rfl fun _ => rfl)
      | commitSelection => exact Or.inl (hupdated rfl fun _ => rfl)
      | resetSession => exact Or.inl (hupdated rfl fun _ => rfl)
  | freshKey => exact Or.inl (hupdated rfl fun _ => rfl)
  | staleKey => exact Or.inl (hasked rfl)
  | applyKey => exact Or.inl (hasked rfl)
  | applyQuery => exact Or.inl (hasked rfl)
  | applyCommit => exact Or.inl (hasked rfl)
  | applyReset => exact Or.inl (hasked rfl)
  | assigned => exact Or.inl rfl
  | done => exact Or.inl rfl

theorem holding_of_asking {p : String × String} (h : asking handler = some p) :
    holding handler = some p := by
  cases handler with
  | freshKey => cases h
  | begun | assigned | staleKey | applyKey | applyQuery | applyCommit | applyReset | done => exact h

theorem sessions_after {sessionId : String} {session' : SessionState}
    (h : (advance m now handler s).2.sessions.lookup sessionId = some session') :
    s.sessions.lookup sessionId = some session' ∨
      (∃ change session, updating handler = some (sessionId, change) ∧
        s.sessions.lookup sessionId = some session ∧ session' = (change session).touch now) ∨
      ∃ workerId version idle, handler = .assigned sessionId workerId version idle ∧
        session' = ⟨workerId, 0, now⟩ := by
  have hasked {p : String × String} (ha : asking handler = some p) :
      s.sessions.lookup sessionId = some session' := by
    obtain ⟨reply, pool', hrun, -⟩ := advance_asking m now s ha
    rwa [hrun] at h
  have hupdated {j : String} {change : SessionState → SessionState}
      (hu : updating handler = some (j, change)) :
      s.sessions.lookup sessionId = some session' ∨
        ∃ change session, updating handler = some (sessionId, change) ∧
          s.sessions.lookup sessionId = some session ∧ session' = (change session).touch now := by
    rcases advance_updating m now s hu with ⟨-, hrun⟩ | ⟨session, hs, hrun⟩
    · rw [hrun] at h
      exact Or.inl h
    · rw [hrun, lookup_insert_eq] at h
      split at h
      · next he =>
          cases h
          rw [he]
          exact Or.inr ⟨change, session, hu, hs, rfl⟩
      · exact Or.inl h
  cases handler with
  | begun call =>
      cases call with
      | openSession => exact Or.inl h
      | sendKeyEvent req =>
          rcases checkSeq_cases s req with ⟨reply, hrun⟩ | ⟨event, session, -, -, hcheck⟩
          · rw [advance, hrun] at h
            exact Or.inl h
          · rcases hcheck with ⟨-, hrun⟩ | ⟨-, hrun⟩ <;>
              rw [advance, hrun] at h <;> exact Or.inl h
      | queryCandidates => exact (hupdated rfl).imp_right Or.inl
      | commitSelection => exact (hupdated rfl).imp_right Or.inl
      | resetSession => exact (hupdated rfl).imp_right Or.inl
  | assigned j workerId version idle =>
      simp only [advance, insertSession, lookup_insert_eq] at h
      split at h
      · next he =>
          cases h
          rw [he]
          exact Or.inr (Or.inr ⟨workerId, version, idle, rfl, rfl⟩)
      · exact Or.inl h
  | freshKey => exact (hupdated rfl).imp_right Or.inl
  | staleKey => exact Or.inl (hasked rfl)
  | applyKey => exact Or.inl (hasked rfl)
  | applyQuery => exact Or.inl (hasked rfl)
  | applyCommit => exact Or.inl (hasked rfl)
  | applyReset => exact Or.inl (hasked rfl)
  | done => exact Or.inl h

theorem holding_after {sessionId workerId : String}
    (h : holding (advance m now handler s).1 = some (sessionId, workerId)) :
    holding handler = some (sessionId, workerId) ∨
      ∃ session, s.sessions.lookup sessionId = some session ∧ session.workerId = workerId := by
  have hasked {p : String × String} (ha : asking handler = some p) : False := by
    obtain ⟨reply, pool', hrun, -⟩ := advance_asking m now s ha
    rw [hrun] at h
    cases h
  have hupdated {j : String} {change : SessionState → SessionState}
      (hu : updating handler = some (j, change))
      (hnext : ∀ session, holding (following handler session) = some (j, session.workerId)) :
      ∃ session, s.sessions.lookup sessionId = some session ∧ session.workerId = workerId := by
    rcases advance_updating m now s hu with ⟨-, hrun⟩ | ⟨session, hs, hrun⟩
    · rw [hrun] at h
      cases h
    · rw [hrun, hnext] at h
      cases h
      exact ⟨session, hs, (updating_workerId hu session).symm⟩
  cases handler with
  | begun call =>
      cases call with
      | openSession j req =>
          rcases openSession_cases m j req s.pool with ⟨e, hrun, -⟩ | ⟨w, v, i, hrun, -⟩ <;>
            · have hthen : (advance m now (.begun (.openSession j req)) s).1 = _ := hrun
              rw [hthen] at h
              cases h
      | sendKeyEvent req =>
          rcases checkSeq_cases s req with ⟨reply, hrun⟩ | ⟨event, session, -, hs, hcheck⟩
          · rw [advance, hrun] at h
            cases h
          · rcases hcheck with ⟨-, hrun⟩ | ⟨-, hrun⟩ <;>
              · rw [advance, hrun] at h
                cases h
                exact Or.inr ⟨session, hs, rfl⟩
      | queryCandidates => exact Or.inr (hupdated rfl fun _ => rfl)
      | commitSelection => exact Or.inr (hupdated rfl fun _ => rfl)
      | resetSession => exact Or.inr (hupdated rfl fun _ => rfl)
  | freshKey j w event =>
      left
      have hu : updating (.freshKey j w event) = some (j, keyed event) := rfl
      rcases advance_updating m now s hu with ⟨-, hrun⟩ | ⟨session, -, hrun⟩
      · rw [hrun] at h
        cases h
      · rwa [hrun] at h
  | staleKey => exact (hasked rfl).elim
  | applyKey => exact (hasked rfl).elim
  | applyQuery => exact (hasked rfl).elim
  | applyCommit => exact (hasked rfl).elim
  | applyReset => exact (hasked rfl).elim
  | assigned => cases h
  | done => cases h

/-- The handler at place `i` is resumed, and nothing happens to the others. -/
structure Resumes (m : Machine P) (sys : System P) (i : Nat) (before : List Handler)
    (handler : Handler) (after : List Handler) : Prop where
  here : sys.handlers[i]? = some handler
  split : sys.handlers = before ++ handler :: after
  run : sys.resume m i =
    { sys with
      state := (advance m sys.clock handler sys.state).2
      handlers := before ++ (advance m sys.clock handler sys.state).1 :: after }

theorem resume_cases (sys : System P) (i : Nat) :
    (sys.handlers[i]? = none ∧ sys.resume m i = sys) ∨
      ∃ before handler after, Resumes m sys i before handler after := by
  cases hi : sys.handlers[i]? with
  | none => exact Or.inl ⟨rfl, by rw [System.resume, hi]⟩
  | some handler =>
      obtain ⟨hlt, hget⟩ := List.getElem?_eq_some_iff.mp hi
      have hset := List.set_eq_take_append_cons_drop (l := sys.handlers) (i := i)
        (a := (advance m sys.clock handler sys.state).1)
      rw [if_pos hlt] at hset
      refine Or.inr ⟨sys.handlers.take i, handler, sys.handlers.drop (i + 1), hi, ?_, ?_⟩
      · rw [← hget, ← List.drop_eq_getElem_cons hlt]
        exact (List.take_append_drop i sys.handlers).symm
      · simp only [System.resume, hi, hset]

theorem Resumes.mem {sys : System P} {i : Nat} {before after : List Handler}
    (h : Resumes m sys i before handler after) : handler ∈ sys.handlers := by
  rw [h.split]
  exact List.mem_append_right _ List.mem_cons_self

end

theorem mem_expired {s : GatewayState P} {now : Nat} {order : List String} {sessionId : String}
    (h : sessionId ∈ (walk order s.sessions.keys).filter (expiredAt s now)) :
    ∃ session, s.sessions.lookup sessionId = some session ∧
      s.sessionIdleTtl < now - session.lastActive := by
  have hexpired := (List.mem_filter.mp h).2
  rw [expiredAt] at hexpired
  split at hexpired
  · cases hexpired
  · next session hs => exact ⟨session, hs, of_decide_eq_true hexpired⟩

theorem mem_removeSessions {sessionId : String} {expired : List String}
    {sessions : Map String SessionState} (h : sessionId ∈ removeSessions sessions expired) :
    sessionId ∈ sessions ∧ sessionId ∉ expired := by
  induction expired generalizing sessions with
  | nil => exact ⟨h, List.not_mem_nil⟩
  | cons j rest ih =>
      obtain ⟨herased, hrest⟩ := ih h
      obtain ⟨hne, hmem⟩ := AList.mem_erase.mp herased
      exact ⟨hmem, fun hin => (List.mem_cons.mp hin).elim hne hrest⟩

theorem lookup_removeSessions {sessionId : String} {expired : List String}
    {sessions : Map String SessionState} {session : SessionState}
    (h : (removeSessions sessions expired).lookup sessionId = some session) :
    sessions.lookup sessionId = some session := by
  induction expired generalizing sessions with
  | nil => exact h
  | cons j rest ih =>
      have herased := ih h
      rw [lookup_erase_eq] at herased
      split at herased
      · cases herased
      · exact herased

theorem reap_lookup {m : Machine P} {now : Nat} {order : List String} {reaper : Reaper}
    {s : GatewayState P} {sessionId : String} {session : SessionState}
    (h : (reap m now order reaper s).2.sessions.lookup sessionId = some session) :
    s.sessions.lookup sessionId = some session := by
  cases reaper with
  | sleeping | woken | removed => exact h
  | listed now expired => exact lookup_removeSessions h

theorem reap_mem {m : Machine P} {now : Nat} {order : List String} {reaper : Reaper}
    {s : GatewayState P} {sessionId : String}
    (h : sessionId ∈ (reap m now order reaper s).2.sessions) : sessionId ∈ s.sessions := by
  obtain ⟨session, hs⟩ := exists_lookup h
  exact mem_of_lookup (reap_lookup hs)

end RimeWinime.Steps
