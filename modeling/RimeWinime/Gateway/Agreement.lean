import RimeWinime.Gateway.WorkerIsolation

namespace RimeWinime.Agreement

open World Worker Table Pool Service Steps Run Trace Lending WorkerIsolation
open RimeWinime.Partition
  (withSpawned spawnOr_cases obtainWorker_cases release_cases acquire_of_obtained)

variable {P : Type}

/-- `cancel`: the client of a call has gone, and the handler is dropped at the lock
that it waits for. -/
inductive Happening
  | gateway (e : Event)
  | cancel (handler : Nat)

def happen (m : Machine P) (t : Traced P) : Happening → Traced P
  | .gateway e => trace m t e
  | .cancel i => { t with sys := { t.sys with handlers := t.sys.handlers.eraseIdx i } }

def workerOf (s : GatewayState P) (sessionId : String) : Option String :=
  (s.sessions.lookup sessionId).map (·.workerId)

def TablesAgree (s : GatewayState P) : Prop := ∀ sessionId, busyWith s sessionId = workerOf s sessionId

def reaperRound (m : Machine P) (sys : System P) (order : List String) : System P :=
  run (step m) sys (List.replicate 4 (.reap order))

/-- A busy worker whose session has gone idle is taken back in the next round. -/
def Reclaims (m : Machine P) (sys : System P) : Prop :=
  ∀ sessionId workerId, busyWith sys.state sessionId = some workerId →
    ∃ session, sys.state.sessions.lookup sessionId = some session ∧ session.workerId = workerId ∧
      (sys.state.sessionIdleTtl < sys.clock - session.lastActive → ∀ order,
        busyWith (reaperRound m sys order).state sessionId = none ∧
          workerOf (reaperRound m sys order).state sessionId = none)

structure AtRest (sys : System P) : Prop where
  handlers : ∀ handler ∈ sys.handlers, Finished handler
  reaper : sys.reaper = .sleeping

def AgreesAtRest (m : Machine P) (t : Traced P) : Prop :=
  AtRest t.sys → TablesAgree t.sys.state ∧ Reclaims m t.sys

def DrawsFresh (t : Traced P) : Happening → Prop
  | .gateway e => UuidFresh t e
  | .cancel _ => True

def isAssigned : Handler → Bool
  | .assigned _ _ _ _ => true
  | _ => false

/-- No open is dropped between the lock under which it has got its worker and the
one under which it enters its session. -/
def KeepsAssigned (t : Traced P) : Happening → Prop
  | .gateway _ => True
  | .cancel i => ∀ handler ∈ t.sys.handlers[i]?, isAssigned handler = false

section

variable (m : Machine P) {pool : WorkerPool P}

theorem obtainWorker_busy (wantPrewarmed : Bool) (pool : WorkerPool P) :
    (obtainWorker m wantPrewarmed pool).2.busyBySession = pool.busyBySession := by
  rcases obtainWorker_cases m wantPrewarmed pool with ⟨id, rest, -, -, hrun⟩ | ⟨failure, -, hrun⟩
  · rw [hrun]
  · rw [hrun]
    rcases spawnOr_cases m failure pool with ⟨hspawn, -⟩ | ⟨process, -, hspawn⟩
    · rw [hspawn]
    · rw [hspawn, withSpawned]

theorem acquire_busy (sessionId : String) (wantPrewarmed : Bool) (pool : WorkerPool P) :
    (∃ failure, (acquireForSession m sessionId wantPrewarmed pool).1 = .error failure ∧
      (acquireForSession m sessionId wantPrewarmed pool).2.busyBySession = pool.busyBySession) ∨
    ∃ workerId version,
      (acquireForSession m sessionId wantPrewarmed pool).1 = .ok (workerId, version) ∧
        (acquireForSession m sessionId wantPrewarmed pool).2.busyBySession =
          pool.busyBySession.insert sessionId workerId := by
  have hbusy := obtainWorker_busy m wantPrewarmed pool
  rcases hrun : obtainWorker m wantPrewarmed pool with ⟨failure | id, held⟩
  · rw [hrun] at hbusy
    refine Or.inl ⟨failure, ?_⟩
    simpa [acquireForSession, hrun] using hbusy
  · rw [hrun] at hbusy
    cases hw : held.workers.lookup id with
    | none =>
        refine Or.inl ⟨"worker disappeared from registry", ?_⟩
        simpa [acquireForSession, hrun, requestWorker, hw] using hbusy
    | some worker =>
        rcases acquire_of_obtained hrun hw sessionId with
          ⟨-, version, hlent⟩ | ⟨-, failure, hfail⟩
        · refine Or.inr ⟨id, version, by rw [hlent], ?_⟩
          rw [hlent]
          exact congrArg (·.insert sessionId id) hbusy
        · refine Or.inl ⟨failure, by rw [hfail], ?_⟩
          rw [hfail]
          exact hbusy

theorem release_frees (sessionId : String) (pool : WorkerPool P) :
    (releaseForSession m sessionId pool).2.busyBySession.lookup sessionId = none := by
  rcases release_cases m sessionId pool with ⟨hbusy, hsame⟩ | ⟨workerId, -, hcase⟩
  · rw [hsame, hbusy]
  · have hserved := requestWorker_served m workerId .resetSession
      { pool with busyBySession := pool.busyBySession.erase sessionId }
    rcases hcase with ⟨-, hrun⟩ | ⟨-, hrun⟩
    · rw [hrun]
      exact (congrArg (·.lookup sessionId) hserved.busy).trans (AList.lookup_erase _ _)
    · rw [hrun]
      exact AList.lookup_erase _ _

theorem releaseAll_frees {sessionId : String} {sessionIds : List String} (h : sessionId ∈ sessionIds)
    (pool : WorkerPool P) :
    (releaseAll m sessionIds pool).2.busyBySession.lookup sessionId = none := by
  induction sessionIds generalizing pool with
  | nil => cases h
  | cons j rest ih =>
      rcases List.mem_cons.mp h with rfl | hrest
      · have hfreed := release_frees m sessionId pool
        have hturns := releaseAll_turns m rest (releaseForSession m sessionId pool).2
        rw [Option.eq_none_iff_forall_ne_some]
        intro workerId hbusy
        cases hfreed.symm.trans (hturns.fewer sessionId workerId hbusy)
      · exact ih hrest _

theorem recycle_frees {sessionId : String} {expired : List String} (h : sessionId ∈ expired)
    (pool : WorkerPool P) :
    (recycle m expired pool).2.busyBySession.lookup sessionId = none := by
  have hfreed := releaseAll_frees m h pool
  have htrimmed : Turns [] (releaseAll m expired pool).2 (trimIdle (releaseAll m expired pool).2).2 :=
    trimLoop_turns _ _
  have hwarmed := prewarmLoop_turns m
    ((trimIdle (releaseAll m expired pool).2).2.cfg.minIdle -
      (trimIdle (releaseAll m expired pool).2).2.idle.length) (trimIdle (releaseAll m expired pool).2).2
  have hkept := (htrimmed.trans hwarmed).kept sessionId List.not_mem_nil
  exact hkept.trans hfreed

end

def Opens (s : GatewayState P) : Handler → Prop
  | .begun (.openSession sessionId _) => busyWith s sessionId = none
  | .assigned sessionId workerId _ _ => busyWith s sessionId = some workerId
  | _ => True

/-- The session is not in the table: its worker is on the way there, or about to
be taken back. -/
structure OnTheWay (sys : System P) (sessionId : String) : Prop where
  absent : workerOf sys.state sessionId = none
  why : (∃ handler ∈ sys.handlers, isAssigned handler = true ∧ opening handler = some sessionId) ∨
    sessionId ∈ removedIds sys.reaper

structure Settled (t : Traced P) : Prop where
  apart : Apart t
  drawn : ∀ sessionId workerId, busyWith t.sys.state sessionId = some workerId → sessionId ∈ t.issued
  opens : ∀ handler ∈ t.sys.handlers, Opens t.sys.state handler
  removed : ∀ sessionId ∈ removedIds t.sys.reaper, workerOf t.sys.state sessionId = none
  agree : ∀ sessionId, busyWith t.sys.state sessionId = workerOf t.sys.state sessionId ∨
    OnTheWay t.sys sessionId

theorem Opens.keep {s s' : GatewayState P} {handler : Handler} (h : Opens s handler)
    (hkept : ∀ sessionId ∈ opening handler, busyWith s' sessionId = busyWith s sessionId) :
    Opens s' handler := by
  cases handler with
  | begun call =>
      cases call with
      | openSession sessionId req => exact (hkept sessionId rfl).trans h
      | sendKeyEvent | queryCandidates | commitSelection | resetSession => trivial
  | assigned sessionId workerId => exact (hkept sessionId rfl).trans h
  | staleKey | freshKey | applyKey | applyQuery | applyCommit | applyReset | done => trivial

theorem opens_of_not_opening {handler : Handler} (h : opening handler = none) (s : GatewayState P) :
    Opens s handler := by
  cases handler with
  | begun call =>
      cases call with
      | openSession => cases h
      | sendKeyEvent | queryCandidates | commitSelection | resetSession => trivial
  | assigned => cases h
  | staleKey | freshKey | applyKey | applyQuery | applyCommit | applyReset | done => trivial

theorem workerOf_none {s : GatewayState P} {sessionId : String} (h : sessionId ∉ s.sessions) :
    workerOf s sessionId = none := by
  rw [workerOf, AList.lookup_eq_none.mpr h]
  rfl

section

variable {m : Machine P} {t : Traced P} {i : Nat} {before after : List Handler} {handler : Handler}

theorem removed_listed {sessionId : String} (h : sessionId ∈ removedIds t.sys.reaper) :
    sessionId ∈ Trace.listed t.sys.reaper := by
  cases hreaper : t.sys.reaper with
  | sleeping | woken | listed =>
      rw [hreaper] at h
      cases h
  | removed expired => rwa [hreaper] at h

theorem Settled.unknown (h : Settled t) {sessionId : String} (hopening : sessionId ∈ openings t) :
    workerOf t.sys.state sessionId = none ∧ sessionId ∉ removedIds t.sys.reaper := by
  constructor
  · exact workerOf_none fun hin => (h.apart.known sessionId (.entered hin)).2 hopening
  · exact fun hin => (h.apart.known sessionId (.listed (removed_listed hin))).2 hopening

theorem Settled.resumed (h : Settled t) (hr : Resumes m t.sys i before handler after)
    (hkept : ∀ sessionId, opening handler ≠ some sessionId →
      busyWith (advance m t.sys.clock handler t.sys.state).2 sessionId =
          busyWith t.sys.state sessionId ∧
        workerOf (advance m t.sys.clock handler t.sys.state).2 sessionId =
          workerOf t.sys.state sessionId)
    (hown : ∀ sessionId ∈ opening handler,
      busyWith (advance m t.sys.clock handler t.sys.state).2 sessionId =
          workerOf (advance m t.sys.clock handler t.sys.state).2 sessionId ∨
        workerOf (advance m t.sys.clock handler t.sys.state).2 sessionId = none ∧
          isAssigned (advance m t.sys.clock handler t.sys.state).1 = true ∧
          opening (advance m t.sys.clock handler t.sys.state).1 = some sessionId)
    (hnew : Opens (advance m t.sys.clock handler t.sys.state).2
      (advance m t.sys.clock handler t.sys.state).1) :
    Settled (trace m t (.resume i)) := by
  have hsys : (trace m t (.resume i)).sys = _ := hr.run
  have hopened {sessionId : String} (ho : opening handler = some sessionId) :
      sessionId ∈ openings t := List.mem_filterMap.mpr ⟨handler, hr.mem, ho⟩
  refine ⟨apart_resume h.apart i, fun j w hj => ?_, ?_, fun j hj => ?_, fun j => ?_⟩
  · refine List.mem_append_left _ ?_
    rw [hsys] at hj
    by_cases ho : opening handler = some j
    · exact h.apart.drawn j (hopened ho)
    · exact h.drawn j w ((hkept j ho).1.symm.trans hj)
  · rw [hsys]
    refine replaced hr.split (fun other hmem hold => ?_) hnew
    refine (h.opens other hmem).keep fun j hj => (hkept j fun ho => ?_).1
    refine others_apart h.apart hr.split ho hold ?_
    rw [concerns, hj]
    rfl
  · rw [hsys] at hj ⊢
    have ho : opening handler ≠ some j := fun ho => (h.unknown (hopened ho)).2 hj
    exact (hkept j ho).2.trans (h.removed j hj)
  · rw [hsys]
    by_cases ho : opening handler = some j
    · rcases hown j ho with hsame | ⟨habsent, hassigned, hopens⟩
      · exact Or.inl hsame
      · refine Or.inr ⟨habsent, Or.inl ⟨_, ?_, hassigned, hopens⟩⟩
        exact List.mem_append_right _ List.mem_cons_self
    · obtain ⟨hbusy, hworker⟩ := hkept j ho
      rcases h.agree j with hsame | ⟨habsent, hwhy⟩
      · exact Or.inl (hbusy.trans (hsame.trans hworker.symm))
      · refine Or.inr ⟨hworker.trans habsent, hwhy.imp_left ?_⟩
        rintro ⟨other, hin, hassigned, hopens⟩
        refine ⟨other, ?_, hassigned, hopens⟩
        rw [hr.split, List.mem_append, List.mem_cons] at hin
        rw [List.mem_append, List.mem_cons]
        rcases hin with hin | rfl | hin
        · exact Or.inl hin
        · exact absurd hopens ho
        · exact Or.inr (Or.inr hin)

theorem Settled.quiet (h : Settled t) (hr : Resumes m t.sys i before handler after)
    (hno : opening handler = none)
    (hno' : opening (advance m t.sys.clock handler t.sys.state).1 = none)
    (hbusy : ∀ sessionId, busyWith (advance m t.sys.clock handler t.sys.state).2 sessionId =
      busyWith t.sys.state sessionId)
    (hworker : ∀ sessionId, workerOf (advance m t.sys.clock handler t.sys.state).2 sessionId =
      workerOf t.sys.state sessionId) : Settled (trace m t (.resume i)) := by
  refine h.resumed hr (fun j _ => ⟨hbusy j, hworker j⟩) (fun j hj => ?_)
    (opens_of_not_opening hno' _)
  cases hno.symm.trans hj

theorem Settled.asking (h : Settled t) (hr : Resumes m t.sys i before handler after)
    {p : String × String} (ha : asking handler = some p) (hno : opening handler = none) :
    Settled (trace m t (.resume i)) := by
  obtain ⟨reply, pool', hadvance, hserved⟩ := advance_asking m t.sys.clock t.sys.state ha
  apply h.quiet hr hno <;> rw [hadvance]
  · rfl
  · exact fun j => congrArg (·.lookup j) hserved.busy
  · exact fun _ => rfl

theorem Settled.updating (h : Settled t) (hr : Resumes m t.sys i before handler after)
    {j : String} {change : SessionState → SessionState} (hu : updating handler = some (j, change))
    (hno : opening handler = none) (hnext : ∀ session, opening (following handler session) = none) :
    Settled (trace m t (.resume i)) := by
  rcases advance_updating m t.sys.clock t.sys.state hu with ⟨-, hadvance⟩ | ⟨session, hs, hadvance⟩
  · apply h.quiet hr hno <;> rw [hadvance]
    · rfl
    · exact fun _ => rfl
    · exact fun _ => rfl
  · apply h.quiet hr hno <;> rw [hadvance]
    · exact hnext _
    · exact fun _ => rfl
    · intro k
      simp only [workerOf, lookup_insert_eq]
      split
      · next he =>
          rw [he, hs]
          exact congrArg some (updating_workerId hu session)
      · rfl

theorem Settled.checked (h : Settled t) {req : SendKeyEventRequest}
    (hr : Resumes m t.sys i before (.begun (.sendKeyEvent req)) after) :
    Settled (trace m t (.resume i)) := by
  rcases checkSeq_cases t.sys.state req with
    ⟨reply, hcheck⟩ | ⟨event, session, -, hs, ⟨-, hcheck⟩ | ⟨-, hcheck⟩⟩ <;>
    · apply h.quiet hr rfl <;> rw [advance, hcheck]
      · rfl
      · exact fun _ => rfl
      · exact fun _ => rfl

theorem Settled.assigned (h : Settled t) {sessionId workerId : String} {version : UInt64}
    {idle : UInt32} (hr : Resumes m t.sys i before (.assigned sessionId workerId version idle) after) :
    Settled (trace m t (.resume i)) := by
  have hholds : busyWith t.sys.state sessionId = some workerId := h.opens _ hr.mem
  refine h.resumed hr (fun j hj => ⟨rfl, ?_⟩) (fun j hj => Or.inl ?_) trivial
  · have hne : j ≠ sessionId := fun he => hj (he ▸ rfl)
    simp only [advance, insertSession, workerOf, AList.lookup_insert_ne hne]
  · cases hj
    simp only [advance, insertSession, workerOf, AList.lookup_insert]
    exact hholds

theorem Settled.opened (h : Settled t) {sessionId : String} {req : OpenSessionRequest}
    (hr : Resumes m t.sys i before (.begun (.openSession sessionId req)) after) :
    Settled (trace m t (.resume i)) := by
  have hfree : busyWith t.sys.state sessionId = none := h.opens _ hr.mem
  have habsent := (h.unknown (List.mem_filterMap.mpr ⟨_, hr.mem, rfl⟩)).1
  have hpool : (openSession m sessionId req t.sys.state.pool).2.busyBySession = _ :=
    congrArg (·.busyBySession) (openSession_pool m sessionId req t.sys.state.pool)
  have hcases := openSession_cases m sessionId req t.sys.state.pool
  rcases acquire_busy m sessionId req.wantPrewarmedWorker t.sys.state.pool with
    ⟨failure, hfailed, hbusy⟩ | ⟨workerId, version, hlent, hbusy⟩
  · have hsame (j : String) : busyWith
        (advance m t.sys.clock (.begun (.openSession sessionId req)) t.sys.state).2 j =
          busyWith t.sys.state j := congrArg (·.lookup j) (hpool.trans hbusy)
    rcases hcases with ⟨e, hrun, -⟩ | ⟨w, v, k, -, hok⟩
    · refine h.resumed hr (fun j _ => ⟨hsame j, rfl⟩) (fun j hj => Or.inl ?_) ?_
      · cases hj
        exact (hsame sessionId).trans (hfree.trans habsent.symm)
      · simp only [advance, withPool, hrun]
        trivial
    · cases hfailed.symm.trans hok
  · have hnow (j : String) : busyWith
        (advance m t.sys.clock (.begun (.openSession sessionId req)) t.sys.state).2 j =
          if j = sessionId then some workerId else busyWith t.sys.state j :=
      (congrArg (·.lookup j) (hpool.trans hbusy)).trans (lookup_insert_eq _ _ _ _)
    rcases hcases with ⟨e, -, herr⟩ | ⟨w, v, k, hrun, hok⟩
    · cases hlent.symm.trans herr
    · cases hlent.symm.trans hok
      refine h.resumed hr (fun j hj => ⟨?_, rfl⟩) (fun j hj => Or.inr ?_) ?_
      · rw [hnow, if_neg]
        exact fun he => hj (he ▸ rfl)
      · cases hj
        simp only [advance, withPool, hrun]
        exact ⟨habsent, rfl, rfl⟩
      · have hown := hnow sessionId
        rw [if_pos rfl] at hown
        simp only [advance, withPool, hrun] at hown ⊢
        exact hown

theorem settled_resume (h : Settled t) (i : Nat) : Settled (trace m t (.resume i)) := by
  rcases resume_cases m t.sys i with ⟨hi, hrun⟩ | ⟨before, handler, after, hr⟩
  · have hsys : (trace m t (.resume i)).sys = t.sys := hrun
    refine ⟨apart_resume h.apart i, fun j w hj => ?_, ?_, ?_, ?_⟩
    · rw [hsys] at hj
      exact List.mem_append_left _ (h.drawn j w hj)
    · rw [hsys]
      exact h.opens
    · rw [hsys]
      exact h.removed
    · rw [hsys]
      exact h.agree
  cases handler with
  | begun call =>
      cases call with
      | openSession => exact h.opened hr
      | sendKeyEvent => exact h.checked hr
      | queryCandidates => exact h.updating hr rfl rfl fun _ => rfl
      | commitSelection => exact h.updating hr rfl rfl fun _ => rfl
      | resetSession => exact h.updating hr rfl rfl fun _ => rfl
  | assigned => exact h.assigned hr
  | freshKey => exact h.updating hr rfl rfl fun _ => rfl
  | staleKey => exact h.asking hr rfl rfl
  | applyKey => exact h.asking hr rfl rfl
  | applyQuery => exact h.asking hr rfl rfl
  | applyCommit => exact h.asking hr rfl rfl
  | applyReset => exact h.asking hr rfl rfl
  | done reply => exact h.quiet hr rfl rfl (fun _ => rfl) fun _ => rfl

theorem workerOf_removeSessions (s : GatewayState P) (expired : List String) (sessionId : String) :
    workerOf { s with sessions := removeSessions s.sessions expired } sessionId =
      if sessionId ∈ expired then none else workerOf s sessionId := by
  split
  · next hin => exact workerOf_none fun hmem => (mem_removeSessions hmem).2 hin
  · next hout =>
      have hkept (table : Map String SessionState) :
          (removeSessions table expired).lookup sessionId = table.lookup sessionId := by
        clear s
        induction expired generalizing table with
        | nil => rfl
        | cons j rest ih =>
            rw [List.mem_cons, not_or] at hout
            exact (ih hout.2 (table.erase j)).trans (AList.lookup_erase_ne hout.1)
      exact congrArg (Option.map _) (hkept s.sessions)

theorem settled_reap (h : Settled t) (order : List String) : Settled (trace m t (.reap order)) := by
  have hissued {j : String} (hj : j ∈ t.issued) : j ∈ (trace m t (.reap order)).issued :=
    List.mem_append_left _ hj
  have hapart := apart_step (m := m) h.apart (.reap order) (fun _ hj => by cases hj)
  have hidle (reaper : Reaper) (hnone : removedIds t.sys.reaper = [])
      (hsys : (trace m t (.reap order)).sys = { t.sys with reaper := reaper })
      (hnone' : removedIds reaper = []) : Settled (trace m t (.reap order)) := by
    refine ⟨hapart, fun j w hj => hissued (h.drawn j w (by rwa [hsys] at hj)), ?_, ?_, fun j => ?_⟩
    · rw [hsys]
      exact h.opens
    · rw [hsys, hnone']
      exact fun j hj => absurd hj List.not_mem_nil
    · rw [hsys]
      refine (h.agree j).imp_right fun hway => ⟨hway.absent, hway.why.imp_right fun hin => ?_⟩
      rw [hnone] at hin
      cases hin
  cases hreaper : t.sys.reaper with
  | sleeping =>
      refine hidle (.woken t.sys.clock) (by rw [hreaper]; rfl) ?_ rfl
      simp [trace, step, hreaper, reap]
  | woken now =>
      by_cases hnone : (walk order t.sys.state.sessions.keys).filter (expiredAt t.sys.state now) = []
      · refine hidle .sleeping (by rw [hreaper]; rfl) ?_ rfl
        simp only [trace, step, hreaper, reap, if_pos hnone]
      · refine hidle (.listed now ((walk order t.sys.state.sessions.keys).filter
          (expiredAt t.sys.state now))) (by rw [hreaper]; rfl) ?_ rfl
        simp only [trace, step, hreaper, reap, if_neg hnone]
  | listed now expired =>
      have hsys : (trace m t (.reap order)).sys = { t.sys with
          state := { t.sys.state with sessions := removeSessions t.sys.state.sessions expired }
          reaper := .removed expired } := by
        simp only [trace, step, hreaper, reap]
      refine ⟨hapart, fun j w hj => hissued (h.drawn j w (by rwa [hsys] at hj)), ?_, fun j hj => ?_,
        fun j => ?_⟩
      · rw [hsys]
        exact fun handler hin => (h.opens handler hin).keep fun _ _ => rfl
      · rw [hsys] at hj ⊢
        exact (workerOf_removeSessions _ _ _).trans (if_pos hj)
      · rw [hsys]
        by_cases hin : j ∈ expired
        · exact Or.inr ⟨by rw [workerOf_removeSessions, if_pos hin], Or.inr hin⟩
        · rcases h.agree j with hsame | hway
          · refine Or.inl (hsame.trans ?_)
            rw [workerOf_removeSessions, if_neg hin]
          · refine Or.inr ⟨?_, Or.inl (hway.why.resolve_right fun hr => ?_)⟩
            · rw [workerOf_removeSessions, if_neg hin]
              exact hway.absent
            · rw [hreaper] at hr
              cases hr
  | removed expired =>
      have hsys : (trace m t (.reap order)).sys = { t.sys with
          state := { t.sys.state with pool := (recycle m expired t.sys.state.pool).2 }
          reaper := .sleeping } := by
        simp [trace, step, hreaper, reap, withPool]
      have hturns := recycle_turns m expired t.sys.state.pool
      have hfreed {j : String} (hj : j ∈ expired) := recycle_frees m hj t.sys.state.pool
      refine ⟨hapart, fun j w hj => hissued (h.drawn j w (hturns.fewer j w (by rwa [hsys] at hj))), ?_,
        ?_, fun j => ?_⟩
      · rw [hsys]
        intro handler hin
        refine (h.opens handler hin).keep fun j hj => hturns.kept j fun hexpired => ?_
        refine (h.unknown (List.mem_filterMap.mpr ⟨handler, hin, hj⟩)).2 ?_
        rw [hreaper]
        exact hexpired
      · rw [hsys]
        exact fun j hj => absurd hj List.not_mem_nil
      · rw [hsys]
        by_cases hin : j ∈ expired
        · refine Or.inl ((hfreed hin).trans (h.removed j ?_).symm)
          rw [hreaper]
          exact hin
        · rcases h.agree j with hsame | hway
          · exact Or.inl ((hturns.kept j hin).trans hsame)
          · refine Or.inr ⟨hway.absent, Or.inl (hway.why.resolve_right fun hr => hin ?_)⟩
            rwa [hreaper] at hr

theorem settled_gateway (h : Settled t) {e : Event} (hfresh : UuidFresh t e) :
    Settled (trace m t e) := by
  have hapart := apart_step (m := m) h.apart e hfresh
  cases e with
  | resume i => exact settled_resume h i
  | reap order => exact settled_reap h order
  | tick elapsed =>
      exact ⟨hapart, fun j w hj => List.mem_append_left _ (h.drawn j w hj), h.opens, h.removed,
        fun j => (h.agree j).imp_right fun hway => ⟨hway.absent, hway.why⟩⟩
  | arrive call =>
      refine ⟨hapart, fun j w hj => List.mem_append_left _ (h.drawn j w hj), fun handler hin => ?_,
        h.removed, fun j => (h.agree j).imp_right fun hway => ⟨hway.absent, hway.why.imp_left ?_⟩⟩
      · rcases List.mem_append.mp hin with hin | hin
        · exact h.opens handler hin
        · rw [List.mem_singleton.mp hin]
          cases call with
          | openSession sessionId req =>
              rw [Opens, Option.eq_none_iff_forall_ne_some]
              exact fun w hw => hfresh sessionId rfl (h.drawn sessionId w hw)
          | sendKeyEvent | queryCandidates | commitSelection | resetSession => trivial
      · rintro ⟨handler, hin, hrest⟩
        exact ⟨handler, List.mem_append_left _ hin, hrest⟩

theorem settled_cancel (h : Settled t) (i : Nat) (hok : KeepsAssigned t (.cancel i)) :
    Settled (happen m t (.cancel i)) := by
  have hless {handler : Handler} (hin : handler ∈ t.sys.handlers.eraseIdx i) :
      handler ∈ t.sys.handlers := (List.eraseIdx_sublist t.sys.handlers i).mem hin
  have hopenings : (openings (happen m t (.cancel i))).Sublist (openings t) :=
    (List.eraseIdx_sublist t.sys.handlers i).filterMap opening
  have hknown {j : String} (hj : Known (happen m t (.cancel i)) j) : Known t j := by
    cases hj with
    | entered hin => exact .entered hin
    | held hmem hheld => exact .held (hless hmem) hheld
    | logged hmem hlogged => exact .logged hmem hlogged
    | listed hin => exact .listed hin
  constructor
  case apart =>
    refine ⟨hopenings.nodup h.apart.nodup, fun j hj => h.apart.drawn j (hopenings.subset hj), ?_⟩
    intro j hj
    obtain ⟨hdrawn, hapart⟩ := h.apart.known j (hknown hj)
    exact ⟨hdrawn, fun hin => hapart (hopenings.subset hin)⟩
  case drawn => exact h.drawn
  case opens => exact fun handler hin => h.opens handler (hless hin)
  case removed => exact h.removed
  case agree =>
    refine fun j => (h.agree j).imp_right fun hway => ⟨hway.absent, hway.why.imp_left ?_⟩
    rintro ⟨handler, hin, hassigned, hopens⟩
    obtain ⟨k, hk⟩ := List.mem_iff_getElem?.mp hin
    refine ⟨handler, List.mem_eraseIdx_iff_getElem?.mpr ⟨k, fun he => ?_, hk⟩, hassigned, hopens⟩
    subst he
    cases hassigned.symm.trans (hok handler hk)

theorem settled_happen (h : Settled t) {e : Happening} (hfresh : DrawsFresh t e)
    (hok : KeepsAssigned t e) : Settled (happen m t e) := by
  cases e with
  | gateway e => exact settled_gateway h hfresh
  | cancel i => exact settled_cancel h i hok

end

theorem settled_begin (m : Machine P) (cfg : PoolConfig) (sessionIdleTtl : Nat) :
    Settled (begin m cfg sessionIdleTtl) := by
  have hfree (j : String) : busyWith (begin m cfg sessionIdleTtl).sys.state j = none :=
    AList.lookup_eq_none.mpr ((listed_new m cfg).2 j)
  refine ⟨apart_begin m cfg sessionIdleTtl, fun j w hj => ?_, (fun _ hin => nomatch hin),
    (fun _ hj => nomatch hj), fun j => Or.inl (hfree j)⟩
  cases (hfree j).symm.trans hj

theorem agree_of_settled {t : Traced P} (h : Settled t) (hrest : AtRest t.sys) :
    TablesAgree t.sys.state := by
  intro j
  refine (h.agree j).resolve_right fun hway => ?_
  rcases hway.why with ⟨handler, hin, hassigned, -⟩ | hin
  · obtain ⟨reply, rfl⟩ := hrest.handlers handler hin
    cases hassigned
  · rw [hrest.reaper] at hin
    cases hin

theorem mem_walk {order keys : List String} {k : String} : k ∈ walk order keys ↔ k ∈ keys := by
  rw [walk]
  split
  · next hperm => exact hperm.mem_iff
  · exact Iff.rfl

theorem reaperRound_frees (m : Machine P) {sys : System P} (hreaper : sys.reaper = .sleeping)
    {sessionId : String} {session : SessionState}
    (hs : sys.state.sessions.lookup sessionId = some session)
    (hidle : sys.state.sessionIdleTtl < sys.clock - session.lastActive) (order : List String) :
    busyWith (reaperRound m sys order).state sessionId = none ∧
      workerOf (reaperRound m sys order).state sessionId = none := by
  have hin : sessionId ∈
      (walk order sys.state.sessions.keys).filter (expiredAt sys.state sys.clock) := by
    refine List.mem_filter.mpr ⟨mem_walk.mpr (mem_of_lookup hs), ?_⟩
    rw [expiredAt, hs]
    exact decide_eq_true hidle
  have hsome : (walk order sys.state.sessions.keys).filter (expiredAt sys.state sys.clock) ≠ [] :=
    List.ne_nil_of_mem hin
  have hround : (reaperRound m sys order).state =
      { sys.state with
        sessions := removeSessions sys.state.sessions
          ((walk order sys.state.sessions.keys).filter (expiredAt sys.state sys.clock))
        pool := (recycle m ((walk order sys.state.sessions.keys).filter
          (expiredAt sys.state sys.clock)) sys.state.pool).2 } := by
    simp [reaperRound, List.replicate, step, hreaper, reap, hsome, withPool]
  rw [hround]
  exact ⟨recycle_frees m hin _, workerOf_none fun hmem => (mem_removeSessions hmem).2 hin⟩

/-- The two tables agree whenever nothing is under way, in every run in which no
open is dropped with a worker in hand. -/
theorem tables_agree (m : Machine P) (cfg : PoolConfig) (sessionIdleTtl : Nat)
    (events : List Happening)
    (huuid : Allowed (happen m) DrawsFresh (begin m cfg sessionIdleTtl) events)
    (hkeeps : Allowed (happen m) KeepsAssigned (begin m cfg sessionIdleTtl) events) :
    Always (happen m) (AgreesAtRest m) (begin m cfg sessionIdleTtl) events := by
  refine always_of_invariant Settled (fun t h hrest => ?_)
    (fun t e h hok => settled_happen h hok.1 hok.2) (settled_begin m cfg sessionIdleTtl)
    (allowed_and huuid hkeeps)
  have hagree := agree_of_settled h hrest
  refine ⟨hagree, fun j workerId hbusy => ?_⟩
  obtain ⟨session, hs, hworker⟩ := Option.map_eq_some_iff.mp ((hagree j).symm.trans hbusy)
  exact ⟨session, hs, hworker, fun hidle order => reaperRound_frees m hrest.reaper hs hidle order⟩

instance (t : Traced P) (e : Happening) : Decidable (DrawsFresh t e) :=
  match e with
  | .gateway e => inferInstanceAs (Decidable (UuidFresh t e))
  | .cancel _ => inferInstanceAs (Decidable True)

instance (t : Traced P) (e : Happening) : Decidable (KeepsAssigned t e) :=
  match e with
  | .gateway _ => inferInstanceAs (Decidable True)
  | .cancel i => inferInstanceAs (Decidable (∀ handler ∈ t.sys.handlers[i]?, isAssigned handler = false))

/-- The client of an open goes away before the handler has had a lock, and the
client of another one after it has got the session. -/
def goingAway : List Happening :=
  [.gateway (.arrive (.openSession "s" ⟨true⟩)), .cancel 0,
    .gateway (.arrive (.openSession "t" ⟨true⟩)), .gateway (.resume 0), .gateway (.resume 0),
    .cancel 0, .gateway (.tick 31), .gateway (.reap []), .gateway (.reap []), .gateway (.reap []),
    .gateway (.reap [])]

/-- The client of an open goes away while the handler waits for the session table. -/
def leavingEarly : List Happening :=
  [.gateway (.arrive (.openSession "s" ⟨true⟩)), .gateway (.resume 0), .cancel 0]

theorem going_away_agrees : Always (happen stubMachine) (AgreesAtRest stubMachine) stub goingAway :=
  tables_agree stubMachine ⟨1, 4, true⟩ 30 goingAway (by decide) (by decide)

/-- Nothing is under way, "s" has a worker and no entry. -/
theorem leaving_early_disagrees :
    AtRest (run (happen stubMachine) stub leavingEarly).sys ∧
      busyWith (run (happen stubMachine) stub leavingEarly).sys.state "s" = some "worker-000001" ∧
      workerOf (run (happen stubMachine) stub leavingEarly).sys.state "s" = none ∧
      ¬AgreesAtRest stubMachine (run (happen stubMachine) stub leavingEarly) := by
  have hrest : AtRest (run (happen stubMachine) stub leavingEarly).sys :=
    ⟨(fun _ hin => nomatch hin), rfl⟩
  have hbusy : busyWith (run (happen stubMachine) stub leavingEarly).sys.state "s" =
      some "worker-000001" := by decide
  have habsent : workerOf (run (happen stubMachine) stub leavingEarly).sys.state "s" = none := by
    decide
  refine ⟨hrest, hbusy, habsent, fun hagrees => ?_⟩
  cases hbusy.symm.trans (((hagrees hrest).1 "s").trans habsent)

end RimeWinime.Agreement
