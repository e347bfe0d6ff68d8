import RimeWinime.Gateway.Solo
import RimeWinime.Gateway.WorkerIsolation

namespace RimeWinime.Observation

open World Worker Table Pool Service Steps Run Trace Lending WorkerIsolation Solo
open RimeWinime.Partition (answered answersReset)

variable {P : Type}

/-- The gateway with the handlers that have put their requests to a worker, and with what
its worker held when a session was opened. -/
structure Watched (P : Type) where
  traced : Traced P
  past : List Handler
  opened : Map String P

def puts (sys : System P) : Event → Option Handler
  | .resume i => if (asks sys (.resume i)).isSome then sys.handlers[i]? else none
  | _ => none

def lent (pool : WorkerPool P) : Handler → Option (String × P)
  | .assigned sessionId workerId _ _ =>
      (pool.workers.lookup workerId).map fun worker => (sessionId, worker.process)
  | _ => none

def opens (sys : System P) : Event → Option (String × P)
  | .resume i => sys.handlers[i]?.bind (lent sys.state.pool)
  | _ => none

def watch (m : Machine P) (v : Watched P) (e : Event) : Watched P :=
  let traced := trace m v.traced e
  { traced := traced
    past := v.past ++ (puts v.traced.sys e).toList
    opened := (opens traced.sys e).elim v.opened fun p => v.opened.insert p.1 p.2 }

def watched (m : Machine P) (cfg : PoolConfig) (sessionIdleTtl : Nat) : Watched P :=
  ⟨begin m cfg sessionIdleTtl, [], ∅⟩

def ofSession (sessionId : String) (past : List Handler) : List Handler :=
  past.filter fun handler => (asking handler).any fun p => p.1 = sessionId

/-- A reset that a worker answers when it is lent leaves nothing in it. -/
def Clears (m : Machine P) (empty : P → Prop) (t : Traced P) (e : Event) : Prop :=
  ∀ i sessionId req workerId held worker, e = .resume i →
    t.sys.handlers[i]? = some (.begun (.openSession sessionId req)) →
    obtainWorker m req.wantPrewarmedWorker t.sys.state.pool = (.ok workerId, held) →
    held.workers.lookup workerId = some worker → answersReset m worker.process = true →
      empty (m.request .resetSession worker.process).2

/-- The reply to a session is that of a worker which was empty when the session was opened
and has had the requests of the session since, and no others. -/
def ObservesOwn (m : Machine P) (empty : P → Prop) (v : Watched P) (e : Event) : Prop :=
  ∀ i handler sessionId workerId, e = .resume i → puts v.traced.sys e = some handler →
    asking handler = some (sessionId, workerId) →
      ∃ start, v.opened.lookup sessionId = some start ∧ empty start ∧
        (step m v.traced.sys e).handlers[i]? =
          some (solo m handler (soloRun m (ofSession sessionId v.past) start)).1

/-- What a lent worker holds is what its session has made of an empty one. -/
structure Explained (m : Machine P) (empty : P → Prop) (v : Watched P) : Prop where
  logged : ∀ handler ∈ v.past, ∀ p, asking handler = some p →
    ∃ asked ∈ v.traced.log, asked.sessionId = p.1
  own : ∀ sessionId workerId worker, busyWith v.traced.sys.state sessionId = some workerId →
    v.traced.sys.state.pool.workers.lookup workerId = some worker →
      ∃ start, v.opened.lookup sessionId = some start ∧ empty start ∧
        worker.process = soloRun m (ofSession sessionId v.past) start

theorem puts_some {sys : System P} {i : Nat} {handler : Handler}
    (h : puts sys (.resume i) = some handler) :
    sys.handlers[i]? = some handler ∧ ∃ asked, asks sys (.resume i) = some asked := by
  rw [puts] at h
  split at h
  · next hasked => exact ⟨h, Option.isSome_iff_exists.mp hasked⟩
  · cases h

theorem ofSession_own {sessionId : String} {handler : Handler} {workerId : String}
    (h : asking handler = some (sessionId, workerId)) (past : List Handler) :
    ofSession sessionId (past ++ [handler]) = ofSession sessionId past ++ [handler] := by
  simp [ofSession, h]

theorem ofSession_other {sessionId other workerId : String} {handler : Handler}
    (h : asking handler = some (other, workerId)) (hne : other ≠ sessionId) (past : List Handler) :
    ofSession sessionId (past ++ [handler]) = ofSession sessionId past := by
  simp [ofSession, h, hne]

theorem lent_after (m : Machine P) (now : Nat) {handler : Handler} (s : GatewayState P)
    (hopen : ∀ sessionId req, handler ≠ .begun (.openSession sessionId req)) (pool : WorkerPool P) :
    lent pool (advance m now handler s).1 = none := by
  rcases @opening_after _ m now handler s with hnone | ⟨⟨sessionId, req, rfl⟩, -⟩
  · cases hafter : (advance m now handler s).1 with
    | assigned =>
        rw [hafter] at hnone
        cases hnone
    | begun | staleKey | freshKey | applyKey | applyQuery | applyCommit | applyReset | done => rfl
  · exact absurd rfl (hopen sessionId req)

section

variable {m : Machine P} {empty : P → Prop} {v : Watched P}

theorem past_watch {e : Event} {put : Option Handler} (hputs : puts v.traced.sys e = put) :
    (watch m v e).past = v.past ++ put.toList := by
  rw [watch, hputs]

theorem opened_watch {e : Event} {opened : Option (String × P)}
    (hopens : opens (step m v.traced.sys e) e = opened) :
    (watch m v e).opened = opened.elim v.opened fun p => v.opened.insert p.1 p.2 := by
  have hsys : opens (trace m v.traced e).sys e = opened := hopens
  rw [watch, hsys]

/-- Whoever has put a request to a worker is in the log of its requests. -/
theorem logged_watch (h : Explained m empty v) (e : Event) :
    ∀ handler ∈ (watch m v e).past, ∀ p, asking handler = some p →
      ∃ asked ∈ (watch m v e).traced.log, asked.sessionId = p.1 := by
  intro handler hin p hp
  rcases List.mem_append.mp hin with hold | hnew
  · obtain ⟨asked, hasked, hsame⟩ := h.logged handler hold p hp
    exact ⟨asked, List.mem_append_left _ hasked, hsame⟩
  · have hputs := Option.mem_toList.mp hnew
    cases e with
    | arrive | reap | tick => cases hputs
    | resume i =>
        obtain ⟨hhere, asked, hasked⟩ := puts_some hputs
        obtain ⟨hasking, -⟩ := asks_resume hhere hasked
        cases hasking.symm.trans hp
        exact ⟨asked, List.mem_append_right _ (Option.mem_toList.mpr hasked), rfl⟩

theorem Explained.quiet (h : Explained m empty v) {e : Event}
    (hputs : puts v.traced.sys e = none) (hopens : opens (step m v.traced.sys e) e = none)
    (hbusy : ∀ sessionId workerId, busyWith (step m v.traced.sys e).state sessionId = some workerId →
      busyWith v.traced.sys.state sessionId = some workerId ∧
        (step m v.traced.sys e).state.pool.workers.lookup workerId =
          v.traced.sys.state.pool.workers.lookup workerId) : Explained m empty (watch m v e) := by
  refine ⟨logged_watch h e, fun sessionId workerId worker hlent hw => ?_⟩
  obtain ⟨hbefore, hsame⟩ := hbusy sessionId workerId hlent
  rw [past_watch hputs, opened_watch hopens, Option.toList_none, List.append_nil]
  exact h.own sessionId workerId worker hbefore (hsame.symm.trans hw)

theorem resumed_at (m : Machine P) {sys : System P} {i : Nat} {handler : Handler}
    (hi : sys.handlers[i]? = some handler) :
    (sys.resume m i).handlers[i]? = some (advance m sys.clock handler sys.state).1 := by
  have hlt := (List.getElem?_eq_some_iff.mp hi).1
  simp only [System.resume, hi]
  exact List.getElem?_set_self hlt

variable {i : Nat} {before after : List Handler} {handler : Handler}

theorem puts_unasking (hr : Resumes m v.traced.sys i before handler after)
    (ha : asking handler = none) : puts v.traced.sys (.resume i) = none := by
  simp [puts, asks, hr.here, ha]

theorem asks_registered (hr : Resumes m v.traced.sys i before handler after)
    {sessionId workerId : String} (ha : asking handler = some (sessionId, workerId))
    {worker : WorkerProcess P} (hw : v.traced.sys.state.pool.workers.lookup workerId = some worker) :
    asks v.traced.sys (.resume i) = some ⟨sessionId, workerId, era worker, keySeq handler⟩ ∧
      puts v.traced.sys (.resume i) = some handler := by
  have hasked : asks v.traced.sys (.resume i) =
      some ⟨sessionId, workerId, era worker, keySeq handler⟩ := by
    simp [asks, hr.here, ha, hw]
  refine ⟨hasked, ?_⟩
  rw [puts, hasked]
  exact hr.here

theorem opens_resumed (hr : Resumes m v.traced.sys i before handler after) :
    opens (step m v.traced.sys (.resume i)) (.resume i) =
      lent (advance m v.traced.sys.clock handler v.traced.sys.state).2.pool
        (advance m v.traced.sys.clock handler v.traced.sys.state).1 := by
  have hnow := resumed_at m hr.here
  have hstate : (v.traced.sys.resume m i).state =
      (advance m v.traced.sys.clock handler v.traced.sys.state).2 := by rw [hr.run]
  rw [opens, step, hnow, hstate]
  rfl

theorem explained_asking (h : Explained m empty v) (hiso : Isolated v.traced)
    (hr : Resumes m v.traced.sys i before handler after) {sessionId workerId : String}
    (ha : asking handler = some (sessionId, workerId)) :
    Explained m empty (watch m v (.resume i)) := by
  obtain ⟨reply, pool', hadvance, hserved⟩ :=
    advance_asking m v.traced.sys.clock v.traced.sys.state ha
  have hstate : (step m v.traced.sys (.resume i)).state =
      { v.traced.sys.state with pool := pool' } := by
    rw [step, hr.run, hadvance]
  have hopens : opens (step m v.traced.sys (.resume i)) (.resume i) = none := by
    rw [opens_resumed hr, hadvance]
    rfl
  cases hw : v.traced.sys.state.pool.workers.lookup workerId with
  | none =>
      have hputs : puts v.traced.sys (.resume i) = none := by
        simp [puts, asks, hr.here, ha, hw]
      refine h.quiet hputs hopens fun k id hbusy => ?_
      rw [hstate] at hbusy ⊢
      refine ⟨(congrArg (·.lookup k) hserved.busy).symm.trans hbusy, ?_⟩
      by_cases hid : id = workerId
      · subst hid
        rw [hw]
        cases hnew : pool'.workers.lookup id with
        | none => rfl
        | some worker' =>
            obtain ⟨worker, hold, -⟩ := hserved.same worker' hnew
            cases hw.symm.trans hold
      · exact hserved.others id hid
  | some worker =>
      obtain ⟨hasked, hputs⟩ := asks_registered hr ha hw
      have hbusy : busyWith v.traced.sys.state sessionId = some workerId :=
        (asked_busy hiso.lent hasked).1
      have hpast : (watch m v (.resume i)).past = v.past ++ [handler] := past_watch hputs
      have hopened : (watch m v (.resume i)).opened = v.opened := opened_watch hopens
      constructor
      · exact logged_watch h (.resume i)
      · intro k id worker' hlent hnew
        have hpool : (watch m v (.resume i)).traced.sys.state =
            { v.traced.sys.state with pool := pool' } := hstate
        rw [hpool] at hlent hnew
        have hlentBefore : busyWith v.traced.sys.state k = some id :=
          (congrArg (·.lookup k) hserved.busy).symm.trans hlent
        rw [hpast, hopened]
        by_cases hk : sessionId = k
        · subst hk
          cases hbusy.symm.trans hlentBefore
          obtain ⟨start, hstart, hempty, hheld⟩ := h.own _ _ worker hbusy hw
          obtain ⟨-, made, hmade, hsolo⟩ := solo_of_advance m v.traced.sys.clock ha hw
          rw [hadvance] at hmade
          cases hmade.symm.trans hnew
          refine ⟨start, hstart, hempty, ?_⟩
          rw [hsolo, ofSession_own ha, soloRun_append, hheld]
        · have hother : id ≠ workerId := by
            rintro rfl
            exact hk (hiso.lent.listed.busy_injective hbusy hlentBefore)
          rw [ofSession_other ha hk]
          exact h.own k id worker' hlentBefore ((hserved.others id hother).symm.trans hnew)

theorem explained_open (h : Explained m empty v) (hiso : Isolated v.traced) {sessionId : String}
    {req : OpenSessionRequest}
    (hr : Resumes m v.traced.sys i before (.begun (.openSession sessionId req)) after)
    (hclears : Clears m empty v.traced (.resume i)) : Explained m empty (watch m v (.resume i)) := by
  have hfresh : sessionId ∉ v.traced.sys.state.pool.busyBySession := hiso.lent.handlers _ hr.mem
  have hopening : sessionId ∈ openings v.traced := List.mem_filterMap.mpr ⟨_, hr.mem, rfl⟩
  have hunasked : ofSession sessionId v.past = [] := by
    rw [ofSession, List.filter_eq_nil_iff]
    intro handler hin hsame
    obtain ⟨p, hp, hown⟩ := (Option.any_eq_true _ _).mp hsame
    obtain ⟨asked, hasked, hsession⟩ := h.logged handler hin p hp
    rw [← of_decide_eq_true hown, ← hsession] at hopening
    exact (hiso.apart.known _ (.logged hasked rfl)).2 hopening
  have hputs : puts v.traced.sys (.resume i) = none := puts_unasking hr rfl
  have hlisted := hiso.lent.listed
  have hacquired := acquire_acquired m req.wantPrewarmedWorker hlisted hfresh
  have hhanded := acquire_handed m sessionId req.wantPrewarmedWorker hlisted
  have hpool := openSession_pool m sessionId req v.traced.sys.state.pool
  have hcases := openSession_cases m sessionId req v.traced.sys.state.pool
  have hrun : advance m v.traced.sys.clock (.begun (.openSession sessionId req)) v.traced.sys.state =
      ((openSession m sessionId req v.traced.sys.state.pool).1,
        { v.traced.sys.state with
          pool := (openSession m sessionId req v.traced.sys.state.pool).2 }) := rfl
  have hopens := opens_resumed hr
  have hstate : (step m v.traced.sys (.resume i)).state =
      { v.traced.sys.state with
        pool := (openSession m sessionId req v.traced.sys.state.pool).2 } := by
    rw [step, hr.run, hrun]
  rw [hrun] at hopens
  rw [hpool] at hopens hstate
  generalize acquireForSession m sessionId req.wantPrewarmedWorker v.traced.sys.state.pool = r
    at hacquired hhanded hcases hopens hstate
  cases hhanded with
  | @failed pool' e hspares =>
      cases hacquired with
      | failed _ hturns =>
          rcases hcases with ⟨e', hdone, -⟩ | ⟨w, version, k, -, hok⟩
          · rw [hdone] at hopens
            refine h.quiet hputs hopens fun k id hbusy => ?_
            rw [hstate] at hbusy ⊢
            exact ⟨hturns.fewer k id hbusy, hspares k id hbusy⟩
          · cases hok
  | @lent held pool' workerId worker version hobtained hfound hcleared hnow hbusy hothers =>
      rcases hcases with ⟨e, -, herr⟩ | ⟨w, version', k, hassigned, hok⟩
      · cases herr
      · cases hok
        have hempty : empty (answered m worker).process :=
          hclears i sessionId req workerId held worker rfl hr.here hobtained hfound hcleared
        have hlends : opens (step m v.traced.sys (.resume i)) (.resume i) =
            some (sessionId, (answered m worker).process) := by
          rw [hopens, hassigned, lent, hnow]
          rfl
        have hpast : (watch m v (.resume i)).past = v.past :=
          (past_watch hputs).trans (List.append_nil _)
        have hopened : (watch m v (.resume i)).opened =
            v.opened.insert sessionId (answered m worker).process := opened_watch hlends
        constructor
        · exact logged_watch h (.resume i)
        · intro k id worker' hlent hnew
          have hpool' : (watch m v (.resume i)).traced.sys.state =
              { v.traced.sys.state with pool := pool' } := hstate
          rw [hpool'] at hlent hnew
          rw [busyWith, hbusy, lookup_insert_eq] at hlent
          rw [hpast, hopened, lookup_insert_eq]
          split at hlent
          · next hk =>
              cases hlent
              subst hk
              cases hnow.symm.trans hnew
              refine ⟨_, if_pos rfl, hempty, ?_⟩
              rw [hunasked]
              rfl
          · next hk =>
              rw [if_neg hk]
              exact h.own k id worker' hlent ((hothers k id hlent).symm.trans hnew)

theorem explained_resting (h : Explained m empty v)
    (hr : Resumes m v.traced.sys i before handler after) (ha : asking handler = none)
    (hopen : ∀ sessionId req, handler ≠ .begun (.openSession sessionId req)) :
    Explained m empty (watch m v (.resume i)) := by
  have hpool : (step m v.traced.sys (.resume i)).state.pool = v.traced.sys.state.pool := by
    rw [step, hr.run]
    exact pool_resting m v.traced.sys.clock v.traced.sys.state ha hopen
  have hopens : opens (step m v.traced.sys (.resume i)) (.resume i) = none := by
    rw [opens_resumed hr]
    exact lent_after m v.traced.sys.clock v.traced.sys.state hopen _
  refine h.quiet (puts_unasking hr ha) hopens fun k id hbusy => ?_
  rw [busyWith, hpool] at hbusy
  rw [hpool]
  exact ⟨hbusy, rfl⟩

theorem explained_resume (h : Explained m empty v) (hiso : Isolated v.traced) (i : Nat)
    (hclears : Clears m empty v.traced (.resume i)) : Explained m empty (watch m v (.resume i)) := by
  rcases resume_cases m v.traced.sys i with ⟨hi, hrun⟩ | ⟨before, handler, after, hr⟩
  · have hputs : puts v.traced.sys (.resume i) = none := by simp [puts, asks, hi]
    have hopens : opens (step m v.traced.sys (.resume i)) (.resume i) = none := by
      simp [opens, step, hrun, hi]
    refine h.quiet hputs hopens fun k id hbusy => ?_
    rw [step, hrun] at hbusy ⊢
    exact ⟨hbusy, rfl⟩
  · cases ha : asking handler with
    | some p => exact explained_asking h hiso hr ha
    | none =>
        by_cases hopen : ∃ sessionId req, handler = .begun (.openSession sessionId req)
        · obtain ⟨sessionId, req, rfl⟩ := hopen
          exact explained_open h hiso hr hclears
        · exact explained_resting h hr ha fun sessionId req he => hopen ⟨sessionId, req, he⟩

theorem explained_reap (h : Explained m empty v) (hiso : Isolated v.traced) (order : List String) :
    Explained m empty (watch m v (.reap order)) := by
  have hsame (hpool : (step m v.traced.sys (.reap order)).state.pool = v.traced.sys.state.pool) :
      Explained m empty (watch m v (.reap order)) := by
    refine h.quiet rfl rfl fun k id hbusy => ?_
    rw [busyWith, hpool] at hbusy
    rw [hpool]
    exact ⟨hbusy, rfl⟩
  cases hreaper : v.traced.sys.reaper with
  | sleeping =>
      apply hsame
      simp only [step, hreaper, reap]
      rfl
  | woken now =>
      apply hsame
      simp only [step, hreaper, reap]
  | listed now expired =>
      apply hsame
      simp only [step, hreaper, reap]
  | removed expired =>
      have hpool : (step m v.traced.sys (.reap order)).state.pool =
          (recycle m expired v.traced.sys.state.pool).2 := by
        simp only [step, hreaper, reap]
        rfl
      refine h.quiet rfl rfl fun k id hbusy => ?_
      rw [busyWith, hpool] at hbusy
      rw [hpool]
      exact ⟨(recycle_turns m expired _).fewer k id hbusy,
        recycle_spares m hiso.lent.listed expired k id hbusy⟩

theorem explained_step (h : Explained m empty v) (hiso : Isolated v.traced) (e : Event)
    (hclears : Clears m empty v.traced e) : Explained m empty (watch m v e) := by
  cases e with
  | arrive call => exact h.quiet rfl rfl fun _ _ hbusy => ⟨hbusy, rfl⟩
  | tick elapsed => exact h.quiet rfl rfl fun _ _ hbusy => ⟨hbusy, rfl⟩
  | resume i => exact explained_resume h hiso i hclears
  | reap order => exact explained_reap h hiso order

theorem explained_begin (m : Machine P) (empty : P → Prop) (cfg : PoolConfig)
    (sessionIdleTtl : Nat) : Explained m empty (watched m cfg sessionIdleTtl) := by
  constructor
  · intro handler hin
    cases hin
  intro sessionId workerId worker hbusy
  exact absurd (mem_of_lookup hbusy) ((listed_new m cfg).2 sessionId)

theorem Explained.observes (h : Explained m empty v) (hiso : Isolated v.traced) (e : Event) :
    ObservesOwn m empty v e := by
  rintro i handler sessionId workerId rfl hputs ha
  obtain ⟨hhere, asked, hasked⟩ := puts_some hputs
  obtain ⟨hasking, -⟩ := asks_resume hhere hasked
  obtain ⟨hbusy, worker, hw, -⟩ := asked_busy hiso.lent hasked
  cases ha.symm.trans hasking
  obtain ⟨start, hstart, hempty, hheld⟩ := h.own _ _ worker hbusy hw
  obtain ⟨hreply, -⟩ := solo_of_advance m v.traced.sys.clock ha hw
  refine ⟨start, hstart, hempty, ?_⟩
  rw [step, resumed_at m hhere, hreply, hheld]

end

theorem watched_explained (m : Machine P) (empty : P → Prop) (cfg : PoolConfig)
    (sessionIdleTtl : Nat) {events : List Event}
    (h : Allowed (trace m) (fun t e => (UuidFresh t e ∧ ReleasesUnheld m t e) ∧ Clears m empty t e)
      (begin m cfg sessionIdleTtl) events) :
    Allowed (watch m) (ObservesOwn m empty) (watched m cfg sessionIdleTtl) events := by
  have hseen := allowed_map (watch m) Watched.traced (fun _ _ => rfl)
    (watched m cfg sessionIdleTtl) h
  refine allowed_imp_of_invariant (fun v => Isolated v.traced ∧ Explained m empty v) ?_ ?_ ?_ hseen
  · rintro v e ⟨hiso, hexplained⟩ -
    exact hexplained.observes hiso e
  · rintro v e ⟨hiso, hexplained⟩ ⟨⟨hfresh, hunheld⟩, hclears⟩
    exact ⟨isolated_step hiso hfresh hunheld, explained_step hexplained hiso e hclears⟩
  · exact ⟨isolated_begin m cfg sessionIdleTtl, explained_begin m empty cfg sessionIdleTtl⟩

/-- Worker isolation over every interleaving in which the reaper keeps no
worker that a handler still waits to use. -/
theorem workers_isolated (m : Machine P) (cfg : PoolConfig) (sessionIdleTtl : Nat)
    (events : List Event) (huuid : Allowed (trace m) UuidFresh (begin m cfg sessionIdleTtl) events)
    (hunheld : Allowed (trace m) (ReleasesUnheld m) (begin m cfg sessionIdleTtl) events) :
    Allowed (trace m) AppliedToOwn (begin m cfg sessionIdleTtl) events ∧
      Always (trace m) SeesOwn (begin m cfg sessionIdleTtl) events ∧
      ∀ empty, Allowed (trace m) (Clears m empty) (begin m cfg sessionIdleTtl) events →
        Allowed (watch m) (ObservesOwn m empty) (watched m cfg sessionIdleTtl) events := by
  have hstep (t : Traced P) (e : Event) (h : Isolated t)
      (hok : UuidFresh t e ∧ ReleasesUnheld m t e) : Isolated (trace m t e) :=
    isolated_step h hok.1 hok.2
  have hbegin := isolated_begin m cfg sessionIdleTtl
  have hboth := allowed_and huuid hunheld
  refine ⟨?_, ?_, ?_⟩
  · exact allowed_imp_of_invariant _ (fun t e h _ => h.applied e) hstep hbegin hboth
  · exact always_of_invariant _ (fun t h => h.seen.own) hstep hbegin hboth
  · intro empty hclears
    exact watched_explained m empty cfg sessionIdleTtl (allowed_and hboth hclears)

/-- The session "s" is open, its key event is stored and waits for the pool. -/
def waitingKey : List Event :=
  [.arrive (.openSession "s" ⟨true⟩), .resume 0, .resume 0, .arrive (keyDown "s" 0x41), .resume 1,
    .resume 1]

def handedOver : List Event :=
  [.tick 31, .reap [], .reap [], .reap [], .reap [], .arrive (.openSession "t" ⟨true⟩), .resume 2,
    .resume 2]

/-- The key event of "s" reaches the worker of "t", whose own key then finds
the "a" there. -/
theorem workers_not_isolated :
    ¬Allowed (trace stubMachine) AppliedToOwn stub (waitingKey ++ handedOver ++ [.resume 1]) ∧
      (run (trace stubMachine) stub (waitingKey ++ handedOver ++
        [.resume 1, .arrive (keyDown "t" 0x42), .resume 3, .resume 3, .resume 3])).sys.handlers[3]? =
          some (.done (.sendKeyEvent ⟨"t", 1, 8, "ab", "", ""⟩)) := by
  constructor
  · intro h
    have hlast := (allowed_append.mp h).2.1
    exact absurd (hlast ⟨"s", "worker-000001", 4, some 1⟩ (by decide)).1 (by decide)
  · rfl

def Blank (r : WorkerRuntime) : Prop :=
  r = { WorkerRuntime.new with backendStateVersion := r.backendStateVersion }

theorem stub_clears (t : Traced WorkerRuntime) (e : Event) : Clears stubMachine Blank t e := by
  intro i sessionId req workerId held worker _ _ _ _ _
  rfl

def keyBeforeReaper : List Event :=
  waitingKey ++ [.resume 1] ++ handedOver ++
    [.arrive (keyDown "t" 0x42), .resume 3, .resume 3, .resume 3]

theorem workers_isolated_in_order :
    (Allowed (trace stubMachine) AppliedToOwn stub keyBeforeReaper ∧
      Always (trace stubMachine) SeesOwn stub keyBeforeReaper ∧
      Allowed (watch stubMachine) (ObservesOwn stubMachine Blank)
        (watched stubMachine ⟨1, 4, true⟩ 30) keyBeforeReaper) ∧
      (run (trace stubMachine) stub keyBeforeReaper).sys.handlers[3]? =
        some (.done (.sendKeyEvent ⟨"t", 1, 8, "b", "", ""⟩)) := by
  obtain ⟨happlied, hsees, hobserves⟩ :=
    workers_isolated stubMachine ⟨1, 4, true⟩ 30 keyBeforeReaper (by decide) (by decide)
  have hclears : Allowed (trace stubMachine) (Clears stubMachine Blank) stub keyBeforeReaper :=
    allowed_of_forall stub_clears stub keyBeforeReaper
  exact ⟨⟨happlied, hsees, hobserves Blank hclears⟩, rfl⟩

end RimeWinime.Observation
