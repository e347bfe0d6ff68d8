import RimeWinime.Gateway.Lending
import RimeWinime.Gateway.Trace

namespace RimeWinime.WorkerIsolation

open World Worker Table Pool Service Steps Run Trace Lending

variable {P : Type}

def busyWith (s : GatewayState P) (sessionId : String) : Option String :=
  s.pool.busyBySession.lookup sessionId

/-- A request goes to the worker that is lent to its session, and to no other
session. -/
def AppliedToOwn (t : Traced P) (e : Event) : Prop :=
  ∀ asked ∈ asks t.sys e,
    busyWith t.sys.state asked.sessionId = some asked.workerId ∧
      asked.workerId ∉ t.sys.state.pool.idle ∧
      ∀ sessionId, busyWith t.sys.state sessionId = some asked.workerId →
        sessionId = asked.sessionId

/-- From one reset that it answers to the next, a worker sees the requests of
one session. -/
def SeesOwn (t : Traced P) : Prop :=
  ∀ a ∈ t.log, ∀ b ∈ t.log, a.workerId = b.workerId → a.era = b.era → a.sessionId = b.sessionId

def removedIds : Reaper → List String
  | .removed expired => expired
  | _ => []

/-- No handler waits for the pool with a worker that the reaper takes from its
session and keeps. -/
def ReleasesUnheld (m : Machine P) (t : Traced P) : Event → Prop
  | .reap _ =>
      ∀ handler ∈ t.sys.handlers, ∀ held ∈ asking handler, held.1 ∈ removedIds t.sys.reaper →
        held.2 ∉ (recycle m (removedIds t.sys.reaper) t.sys.state.pool).2.workers
  | _ => True

instance decidableReleasesUnheld (m : Machine P) (t : Traced P) :
    (e : Event) → Decidable (ReleasesUnheld m t e)
  | .reap _ =>
      inferInstanceAs (Decidable (∀ handler ∈ t.sys.handlers, ∀ held ∈ asking handler,
        held.1 ∈ removedIds t.sys.reaper →
          held.2 ∉ (recycle m (removedIds t.sys.reaper) t.sys.state.pool).2.workers))
  | .arrive _ | .resume _ | .tick _ => inferInstanceAs (Decidable True)

/-- The worker has been shut down, and its name is not given out again. -/
def Gone (pool : WorkerPool P) (id : String) : Prop := Named pool id ∧ id ∉ pool.workers

theorem Gone.ages {pool pool' : WorkerPool P} {id : String} (h : Gone pool id)
    (hages : Ages pool pool') : Gone pool' id := by
  refine ⟨h.1.mono hages.counter, fun hin => ?_⟩
  obtain ⟨worker', hw⟩ := exists_lookup hin
  rcases hages.workers id worker' hw with ⟨worker, hold, -⟩ | hnew
  · exact h.2 (mem_of_lookup hold)
  · exact hnew h.1

/-- What a worker has seen since its last answered reset comes from the session
that it is lent to. -/
structure Seen (log : List Asked) (pool : WorkerPool P) : Prop where
  named : ∀ asked ∈ log, Named pool asked.workerId
  older : ∀ asked ∈ log, ∀ worker, pool.workers.lookup asked.workerId = some worker →
    asked.era ≤ era worker
  lent : ∀ asked ∈ log, ∀ worker, pool.workers.lookup asked.workerId = some worker →
    asked.era = era worker → ∀ sessionId,
      pool.busyBySession.lookup sessionId = some asked.workerId → sessionId = asked.sessionId
  own : ∀ a ∈ log, ∀ b ∈ log, a.workerId = b.workerId → a.era = b.era → a.sessionId = b.sessionId

section

variable {log : List Asked} {pool pool' : WorkerPool P}

theorem Seen.older_ages (h : Seen log pool) (hages : Ages pool pool') {asked : Asked}
    (hin : asked ∈ log) {worker' : WorkerProcess P}
    (hw' : pool'.workers.lookup asked.workerId = some worker') :
    ∃ worker, pool.workers.lookup asked.workerId = some worker ∧ asked.era ≤ era worker ∧
      era worker ≤ era worker' := by
  rcases hages.workers _ worker' hw' with ⟨worker, hw, hle⟩ | hnew
  · exact ⟨worker, hw, h.older asked hin worker hw, hle⟩
  · exact absurd (h.named asked hin) hnew

theorem Seen.turns (h : Seen log pool) {released : List String} (ht : Turns released pool pool') :
    Seen log pool' := by
  refine ⟨fun asked hin => (h.named asked hin).mono ht.ages.counter, ?_, ?_, h.own⟩
  · intro asked hin worker' hw'
    obtain ⟨worker, -, hold, hle⟩ := h.older_ages ht.ages hin hw'
    omega
  · intro asked hin worker' hw' hera sessionId hbusy
    obtain ⟨worker, hw, hold, hle⟩ := h.older_ages ht.ages hin hw'
    exact h.lent asked hin worker hw (by omega) sessionId (ht.fewer sessionId _ hbusy)

theorem Seen.lend (h : Seen log pool) (hages : Ages pool pool') {sessionId workerId : String}
    (hbusy : pool'.busyBySession = pool.busyBySession.insert sessionId workerId)
    (holder : ∀ worker worker', pool.workers.lookup workerId = some worker →
      pool'.workers.lookup workerId = some worker' → era worker < era worker') : Seen log pool' := by
  refine ⟨fun asked hin => (h.named asked hin).mono hages.counter, ?_, ?_, h.own⟩
  · intro asked hin worker' hw'
    obtain ⟨worker, -, hold, hle⟩ := h.older_ages hages hin hw'
    omega
  · intro asked hin worker' hw' hera j hj
    obtain ⟨worker, hw, hold, hle⟩ := h.older_ages hages hin hw'
    rw [hbusy, lookup_insert_eq] at hj
    split at hj
    · cases hj
      have := holder worker worker' hw hw'
      omega
    · exact h.lent asked hin worker hw (by omega) j hj

theorem Seen.ask (h : Seen log pool) (hlisted : Listed [] pool) {asked : Asked}
    (hbusy : pool.busyBySession.lookup asked.sessionId = some asked.workerId)
    {worker : WorkerProcess P} (hw : pool.workers.lookup asked.workerId = some worker)
    (hera : era worker = asked.era) : Seen (log ++ [asked]) pool := by
  have hnew (b : Asked) (hb : b ∈ log) (hworker : b.workerId = asked.workerId)
      (hsame : b.era = asked.era) : asked.sessionId = b.sessionId :=
    h.lent b hb worker (hworker ▸ hw) (hsame.trans hera.symm) _ (hworker ▸ hbusy)
  constructor
  case named =>
    intro b hb
    rcases List.mem_append.mp hb with hb | hb
    · exact h.named b hb
    · rw [List.mem_singleton.mp hb]
      exact hlisted.registry _ (mem_of_lookup hw)
  case older =>
    intro b hb w hbw
    rcases List.mem_append.mp hb with hb | hb
    · exact h.older b hb w hbw
    · rw [List.mem_singleton.mp hb] at hbw ⊢
      cases hw.symm.trans hbw
      exact Nat.le_of_eq hera.symm
  case lent =>
    intro b hb w hbw hsame j hj
    rcases List.mem_append.mp hb with hb | hb
    · exact h.lent b hb w hbw hsame j hj
    · rw [List.mem_singleton.mp hb] at hj ⊢
      exact hlisted.busy_injective hj hbusy
  case own =>
    intro a ha b hb hworker hsame
    rcases List.mem_append.mp ha with ha | ha <;> rcases List.mem_append.mp hb with hb | hb
    · exact h.own a ha b hb hworker hsame
    · rw [List.mem_singleton.mp hb] at hworker hsame ⊢
      exact (hnew a ha hworker hsame).symm
    · rw [List.mem_singleton.mp ha] at hworker hsame ⊢
      exact hnew b hb hworker.symm hsame.symm
    · rw [List.mem_singleton.mp ha, List.mem_singleton.mp hb]

end

def Holds (s : GatewayState P) : Handler → Prop
  | .begun (.openSession sessionId _) => sessionId ∉ s.pool.busyBySession
  | .assigned sessionId workerId _ _ => busyWith s sessionId = some workerId
  | .freshKey sessionId workerId _ =>
      ∀ session, s.sessions.lookup sessionId = some session → session.workerId = workerId
  | handler => ∀ sessionId workerId, asking handler = some (sessionId, workerId) →
      busyWith s sessionId = some workerId ∨ Gone s.pool workerId

def concerns (handler : Handler) : Option String :=
  (opening handler).or ((holding handler).map (·.1))

theorem Holds.of_asking {s : GatewayState P} {handler : Handler} (h : Holds s handler)
    {sessionId workerId : String} (ha : asking handler = some (sessionId, workerId)) :
    busyWith s sessionId = some workerId ∨ Gone s.pool workerId := by
  cases handler with
  | begun | assigned | freshKey | done => cases ha
  | staleKey | applyKey | applyQuery | applyCommit | applyReset => exact h _ _ ha

theorem holds_asking {s : GatewayState P} {handler : Handler} {p : String × String}
    (ha : asking handler = some p) (h : busyWith s p.1 = some p.2 ∨ Gone s.pool p.2) :
    Holds s handler := by
  cases handler with
  | begun | assigned | freshKey | done => cases ha
  | staleKey | applyKey | applyQuery | applyCommit | applyReset =>
      intro sessionId workerId ha'
      cases ha.symm.trans ha'
      exact h

/-- Nothing has happened to the session, as far as its worker goes. -/
structure Kept (s s' : GatewayState P) (sessionId : String) : Prop where
  busy : busyWith s' sessionId = busyWith s sessionId
  table : ∀ session', s'.sessions.lookup sessionId = some session' →
    ∃ session, s.sessions.lookup sessionId = some session ∧ session.workerId = session'.workerId

theorem Holds.keep {s s' : GatewayState P} {handler : Handler} (h : Holds s handler)
    (hages : Ages s.pool s'.pool) (hkept : ∀ sessionId ∈ concerns handler, Kept s s' sessionId) :
    Holds s' handler := by
  have hasked {p : String × String} (ha : asking handler = some p) : Holds s' handler := by
    have hconcerns : p.1 ∈ concerns handler := by
      rw [concerns, holding_of_asking ha]
      cases handler with
      | begun | assigned | freshKey | done => cases ha
      | staleKey | applyKey | applyQuery | applyCommit | applyReset => rfl
    refine holds_asking ha ?_
    rw [(hkept _ hconcerns).busy]
    exact (h.of_asking ha).imp_right fun hgone => hgone.ages hages
  cases handler with
  | begun call =>
      cases call with
      | openSession sessionId req =>
          have hnone : busyWith s sessionId = none := AList.lookup_eq_none.mpr h
          exact AList.lookup_eq_none.mp ((hkept sessionId rfl).busy.trans hnone)
      | sendKeyEvent | queryCandidates | commitSelection | resetSession =>
          exact fun _ _ ha => nomatch ha
  | assigned sessionId workerId => exact (hkept sessionId rfl).busy.trans h
  | freshKey sessionId workerId =>
      intro session' hs'
      obtain ⟨session, hs, he⟩ := (hkept sessionId rfl).table session' hs'
      rw [← he]
      exact h session hs
  | staleKey => exact hasked rfl
  | applyKey => exact hasked rfl
  | applyQuery => exact hasked rfl
  | applyCommit => exact hasked rfl
  | applyReset => exact hasked rfl
  | done => exact fun _ _ ha => nomatch ha

/-- Every session of the table has its worker lent to it, and every handler
that carries a worker id has it from there. -/
structure Lent (issued : List String) (sys : System P) : Prop where
  listed : Listed [] sys.state.pool
  drawn : ∀ sessionId ∈ sys.state.pool.busyBySession, sessionId ∈ issued
  table : ∀ sessionId session, sys.state.sessions.lookup sessionId = some session →
    busyWith sys.state sessionId = some session.workerId
  removed : ∀ sessionId ∈ removedIds sys.reaper, sessionId ∉ sys.state.sessions
  handlers : ∀ handler ∈ sys.handlers, Holds sys.state handler

/-- The workers stay with their sessions. -/
structure Calm (s s' : GatewayState P) : Prop where
  turns : Turns [] s.pool s'.pool
  table : ∀ sessionId session', s'.sessions.lookup sessionId = some session' →
    ∃ session, s.sessions.lookup sessionId = some session ∧ session.workerId = session'.workerId

theorem Calm.refl (s : GatewayState P) : Calm s s :=
  ⟨Turns.refl s.pool, fun _ session h => ⟨session, h, rfl⟩⟩

theorem calm_of_turns {s : GatewayState P} {pool' : WorkerPool P} (h : Turns [] s.pool pool') :
    Calm s { s with pool := pool' } := ⟨h, fun _ session hs => ⟨session, hs, rfl⟩⟩

theorem Calm.kept {s s' : GatewayState P} (h : Calm s s') (sessionId : String) :
    Kept s s' sessionId := ⟨h.turns.kept sessionId List.not_mem_nil, h.table sessionId⟩

theorem turns_of_served {workerId : String} {pool pool' : WorkerPool P}
    (h : Served workerId pool pool') : Turns [] pool pool' :=
  turns_of_same_busy (fun hl => hl.served h) (ages_of_served h) h.busy

section

variable {issued : List String} {sys : System P}

theorem Lent.calm (h : Lent issued sys) {s' : GatewayState P} (hcalm : Calm sys.state s') :
    Lent issued { sys with state := s' } := by
  constructor
  case listed => exact hcalm.turns.listed h.listed
  case drawn =>
    intro j hj
    obtain ⟨w, hw⟩ := exists_lookup hj
    exact h.drawn j (mem_of_lookup (hcalm.turns.fewer j w hw))
  case table =>
    intro j session' hs'
    obtain ⟨session, hs, he⟩ := hcalm.table j session' hs'
    exact (hcalm.kept j).busy.trans (he ▸ h.table j session hs)
  case removed =>
    intro j hj hin
    obtain ⟨session', hs'⟩ := exists_lookup hin
    obtain ⟨session, hs, -⟩ := hcalm.table j session' hs'
    exact h.removed j hj (mem_of_lookup hs)
  case handlers =>
    exact fun handler hin =>
      (h.handlers handler hin).keep hcalm.turns.ages fun j _ => hcalm.kept j

theorem replaced {Q : Handler → Prop} {handlers before after : List Handler}
    {old new : Handler} (hsplit : handlers = before ++ old :: after)
    (hothers : ∀ other ∈ handlers, other ∈ before ∨ other ∈ after → Q other) (hnew : Q new) :
    ∀ other ∈ before ++ new :: after, Q other := by
  intro other hin
  have hkeep (hold : other ∈ before ∨ other ∈ after) : Q other := by
    refine hothers other ?_ hold
    rw [hsplit, List.mem_append, List.mem_cons]
    exact hold.imp_right Or.inr
  rcases List.mem_append.mp hin with hin | hin
  · exact hkeep (Or.inl hin)
  · rcases List.mem_cons.mp hin with rfl | hin
    · exact hnew
    · exact hkeep (Or.inr hin)

theorem Lent.replace (h : Lent issued sys) {before after : List Handler} {old new : Handler}
    (hsplit : sys.handlers = before ++ old :: after) (hnew : Holds sys.state new) :
    Lent issued { sys with handlers := before ++ new :: after } := by
  refine ⟨h.listed, h.drawn, h.table, h.removed, replaced hsplit ?_ hnew⟩
  exact fun other hmem _ => h.handlers other hmem

theorem Lent.idle (h : Lent issued sys) (reaper : Reaper) (hnone : removedIds reaper = []) :
    Lent issued { sys with reaper := reaper } := by
  refine ⟨h.listed, h.drawn, h.table, ?_, h.handlers⟩
  rw [hnone]
  exact fun j hj => nomatch hj

end

/-- The step keeps the workers with their sessions, and mixes nothing up. -/
def Onward (issued : List String) (sys sys' : System P) : Prop :=
  Lent issued sys' ∧ ∀ log, Seen log sys.state.pool → Seen log sys'.state.pool

theorem onward_calm {issued : List String} {sys : System P} (h : Lent issued sys)
    {s' : GatewayState P} (hcalm : Calm sys.state s') {before after : List Handler}
    {old new : Handler} (hsplit : sys.handlers = before ++ old :: after) (hnew : Holds s' new) :
    Onward issued sys { sys with state := s', handlers := before ++ new :: after } :=
  ⟨(h.calm hcalm).replace hsplit hnew, fun _ hseen => hseen.turns hcalm.turns⟩

theorem holds_done (s : GatewayState P) (reply : Reply) : Holds s (.done reply) :=
  fun _ _ ha => nomatch ha

section

variable {m : Machine P} {issued : List String} {sys : System P} {i : Nat}
  {before after : List Handler} {handler : Handler}

theorem onward_asking (h : Lent issued sys) (hr : Resumes m sys i before handler after)
    {p : String × String} (ha : asking handler = some p) :
    Onward issued sys (sys.resume m i) := by
  obtain ⟨reply, pool', hadvance, hserved⟩ := advance_asking m sys.clock sys.state ha
  rw [hr.run, hadvance]
  exact onward_calm h (calm_of_turns (turns_of_served hserved)) hr.split (holds_done _ reply)

theorem asking_following {j : String} {change : SessionState → SessionState}
    (hu : updating handler = some (j, change)) {s : GatewayState P} (hholds : Holds s handler)
    {session : SessionState} (hs : s.sessions.lookup j = some session) (now : Nat) :
    asking (following handler ((change session).touch now)) = some (j, session.workerId) := by
  have hsame : ((change session).touch now).workerId = session.workerId :=
    updating_workerId hu session
  cases handler with
  | begun call =>
      cases call with
      | openSession | sendKeyEvent => cases hu
      | queryCandidates | commitSelection | resetSession =>
          cases hu
          simp only [following, asking, hsame]
  | freshKey j' workerId event =>
      cases hu
      simp only [following, asking, hholds session hs]
  | assigned | staleKey | applyKey | applyQuery | applyCommit | applyReset | done => cases hu

theorem onward_updating (h : Lent issued sys) (hr : Resumes m sys i before handler after)
    {j : String} {change : SessionState → SessionState}
    (hu : updating handler = some (j, change)) : Onward issued sys (sys.resume m i) := by
  rw [hr.run]
  rcases advance_updating m sys.clock sys.state hu with ⟨-, hadvance⟩ | ⟨session, hs, hadvance⟩
  · rw [hadvance]
    exact onward_calm h (Calm.refl _) hr.split (holds_done _ _)
  · have hcalm : Calm sys.state { sys.state with
        sessions := sys.state.sessions.insert j ((change session).touch sys.clock) } := by
      refine ⟨Turns.refl _, fun k session' hs' => ?_⟩
      rw [lookup_insert_eq] at hs'
      split at hs'
      · next he =>
          cases hs'
          exact ⟨session, he ▸ hs, (updating_workerId hu session).symm⟩
      · exact ⟨session', hs', rfl⟩
    rw [hadvance]
    refine onward_calm h hcalm hr.split ?_
    refine holds_asking (asking_following hu (h.handlers handler hr.mem) hs _) (Or.inl ?_)
    exact h.table j session hs

theorem onward_checked (h : Lent issued sys) {req : SendKeyEventRequest}
    (hr : Resumes m sys i before (.begun (.sendKeyEvent req)) after) :
    Onward issued sys (sys.resume m i) := by
  rw [hr.run, advance]
  rcases checkSeq_cases sys.state req with
    ⟨reply, hcheck⟩ | ⟨event, session, -, hs, ⟨-, hcheck⟩ | ⟨-, hcheck⟩⟩
  · rw [hcheck]
    exact onward_calm h (Calm.refl _) hr.split (holds_done _ reply)
  · rw [hcheck]
    refine onward_calm h (Calm.refl _) hr.split (holds_asking rfl (Or.inl ?_))
    exact h.table _ session hs
  · rw [hcheck]
    refine onward_calm h (Calm.refl _) hr.split fun session' hs' => ?_
    cases hs.symm.trans hs'
    rfl

end

section

variable {m : Machine P} {t : Traced P} {i : Nat} {before after : List Handler} {handler : Handler}
  {j : String}

theorem others_apart (hapart : Apart t) (hsplit : t.sys.handlers = before ++ handler :: after)
    (ho : opening handler = some j) {other : Handler} (hin : other ∈ before ∨ other ∈ after) :
    j ∉ concerns other := by
  have hopenings : openings t = before.filterMap opening ++ j :: after.filterMap opening := by
    rw [openings, hsplit, List.filterMap_append, List.filterMap_cons_some ho]
  have hnodup := hapart.nodup
  rw [hopenings] at hnodup
  have hfresh := (List.nodup_cons.mp (List.nodup_middle.mp hnodup)).1
  have hj : j ∈ openings t := by
    rw [hopenings]
    exact List.mem_append_right _ List.mem_cons_self
  have hmem : other ∈ t.sys.handlers := by
    rw [hsplit, List.mem_append, List.mem_cons]
    exact hin.imp_right Or.inr
  intro hconcerns
  rcases Option.or_eq_some_iff.mp hconcerns with hopening | ⟨-, hholding⟩
  · apply hfresh
    rw [List.mem_append, List.mem_filterMap, List.mem_filterMap]
    exact hin.imp (fun h => ⟨other, h, hopening⟩) fun h => ⟨other, h, hopening⟩
  · obtain ⟨p, hp, rfl⟩ := Option.map_eq_some_iff.mp hholding
    exact (hapart.known p.1 (.held hmem hp)).2 hj

theorem Lent.enters (h : Lent t.issued t.sys) (hapart : Apart t)
    (hsplit : t.sys.handlers = before ++ handler :: after) (ho : opening handler = some j)
    {s' : GatewayState P} {new : Handler} (hlisted : Listed [] s'.pool)
    (hages : Ages t.sys.state.pool s'.pool) (hkept : ∀ k, k ≠ j → Kept t.sys.state s' k)
    (hown : ∀ session, s'.sessions.lookup j = some session →
      busyWith s' j = some session.workerId) (hnew : Holds s' new) :
    Lent t.issued { t.sys with state := s', handlers := before ++ new :: after } := by
  have hj : j ∈ openings t := by
    rw [openings, hsplit]
    exact List.mem_filterMap.mpr ⟨handler, List.mem_append_right _ List.mem_cons_self, ho⟩
  constructor
  case listed => exact hlisted
  case drawn =>
    intro k hk
    by_cases he : k = j
    · rw [he]
      exact hapart.drawn j hj
    · obtain ⟨w, hw⟩ := exists_lookup hk
      exact h.drawn k (mem_of_lookup ((hkept k he).busy.symm.trans hw))
  case table =>
    intro k session' hs'
    by_cases he : k = j
    · subst he
      exact hown session' hs'
    · obtain ⟨session, hs, hsame⟩ := (hkept k he).table session' hs'
      exact (hkept k he).busy.trans (hsame ▸ h.table k session hs)
  case removed =>
    intro k hk hin
    have hlistedK : k ∈ Trace.listed t.sys.reaper := by
      cases hreaper : t.sys.reaper with
      | sleeping | woken | listed =>
          rw [hreaper] at hk
          cases hk
      | removed expired => rwa [hreaper] at hk
    have hne : k ≠ j := fun he => (hapart.known k (.listed hlistedK)).2 (he ▸ hj)
    obtain ⟨session', hs'⟩ := exists_lookup hin
    obtain ⟨session, hs, -⟩ := (hkept k hne).table session' hs'
    exact h.removed k hk (mem_of_lookup hs)
  case handlers =>
    refine replaced hsplit (fun other hmem hold => ?_) hnew
    refine (h.handlers other hmem).keep hages fun k hk => hkept k ?_
    exact fun he => others_apart hapart hsplit ho hold (he ▸ hk)

theorem onward_assigned (h : Lent t.issued t.sys) (hapart : Apart t) {workerId : String}
    {version : UInt64} {idle : UInt32}
    (hr : Resumes m t.sys i before (.assigned j workerId version idle) after) :
    Onward t.issued t.sys (t.sys.resume m i) := by
  have hholds : busyWith t.sys.state j = some workerId := h.handlers _ hr.mem
  rw [hr.run]
  refine ⟨h.enters hapart hr.split rfl h.listed (Ages.refl _) ?_ ?_ (holds_done _ _),
    fun _ hseen => hseen⟩
  · intro k hne
    refine ⟨rfl, fun session' hs' => ⟨session', ?_, rfl⟩⟩
    exact (AList.lookup_insert_ne hne).symm.trans hs'
  · intro session hs
    have hentry : some ⟨workerId, 0, t.sys.clock⟩ = some session :=
      (AList.lookup_insert _).symm.trans hs
    cases hentry
    exact hholds

theorem onward_opened (h : Lent t.issued t.sys) (hapart : Apart t) {req : OpenSessionRequest}
    (hr : Resumes m t.sys i before (.begun (.openSession j req)) after) :
    Onward t.issued t.sys (t.sys.resume m i) := by
  have hfresh : j ∉ t.sys.state.pool.busyBySession := h.handlers _ hr.mem
  have hj : j ∈ openings t := List.mem_filterMap.mpr ⟨_, hr.mem, rfl⟩
  have hacquired := acquire_acquired m req.wantPrewarmedWorker h.listed hfresh
  have hpool := openSession_pool m j req t.sys.state.pool
  have hcases := openSession_cases m j req t.sys.state.pool
  rw [hr.run]
  simp only [advance, withPool, hpool]
  generalize acquireForSession m j req.wantPrewarmedWorker t.sys.state.pool = r at hacquired hcases ⊢
  cases hacquired with
  | @failed pool' e hturns =>
      rcases hcases with ⟨e', hrun, -⟩ | ⟨w, v, k, -, hok⟩
      · rw [hrun]
        exact onward_calm h (calm_of_turns hturns) hr.split (holds_done _ _)
      · cases hok
  | @lent pool' workerId version hlisted hages hbusy holder =>
      rcases hcases with ⟨e, -, herr⟩ | ⟨w, v, k, hrun, hok⟩
      · cases herr
      · cases hok
        rw [hrun]
        refine ⟨h.enters hapart hr.split rfl hlisted hages ?_ ?_ ?_,
          fun _ hseen => hseen.lend hages hbusy holder⟩
        · intro k' hne
          refine ⟨?_, fun session hs => ⟨session, hs, rfl⟩⟩
          simp only [busyWith, hbusy]
          exact AList.lookup_insert_ne hne
        · intro session hs
          exact absurd hj (hapart.known j (.entered (mem_of_lookup hs))).2
        · simp only [Holds, busyWith, hbusy]
          exact AList.lookup_insert _

theorem onward_resume (h : Lent t.issued t.sys) (hapart : Apart t) (i : Nat) :
    Onward t.issued t.sys (t.sys.resume m i) := by
  rcases resume_cases m t.sys i with ⟨-, hrun⟩ | ⟨before, handler, after, hr⟩
  · rw [hrun]
    exact ⟨h, fun _ hseen => hseen⟩
  cases handler with
  | begun call =>
      cases call with
      | openSession => exact onward_opened h hapart hr
      | sendKeyEvent => exact onward_checked h hr
      | queryCandidates => exact onward_updating h hr rfl
      | commitSelection => exact onward_updating h hr rfl
      | resetSession => exact onward_updating h hr rfl
  | assigned => exact onward_assigned h hapart hr
  | freshKey => exact onward_updating h hr rfl
  | staleKey => exact onward_asking h hr rfl
  | applyKey => exact onward_asking h hr rfl
  | applyQuery => exact onward_asking h hr rfl
  | applyCommit => exact onward_asking h hr rfl
  | applyReset => exact onward_asking h hr rfl
  | done reply =>
      rw [hr.run]
      exact onward_calm h (Calm.refl _) hr.split (holds_done _ reply)

theorem onward_recycled (h : Lent t.issued t.sys) (hapart : Apart t) {expired : List String}
    (hreaper : t.sys.reaper = .removed expired)
    (hok : ∀ handler ∈ t.sys.handlers, ∀ held ∈ asking handler, held.1 ∈ expired →
      held.2 ∉ (recycle m expired t.sys.state.pool).2.workers) :
    Onward t.issued t.sys { t.sys with
      state := { t.sys.state with pool := (recycle m expired t.sys.state.pool).2 }
      reaper := .sleeping } := by
  have hturns := recycle_turns m expired t.sys.state.pool
  have hkept (k : String) (hk : k ∉ expired) : Kept t.sys.state
      { t.sys.state with pool := (recycle m expired t.sys.state.pool).2 } k :=
    ⟨hturns.kept k hk, fun session hs => ⟨session, hs, rfl⟩⟩
  have hremoved (k : String) (hk : k ∈ expired) : k ∉ t.sys.state.sessions :=
    h.removed k (by rw [hreaper]; exact hk)
  refine ⟨⟨hturns.listed h.listed, ?_, ?_, (fun _ hj => nomatch hj), ?_⟩,
    fun _ hseen => hseen.turns hturns⟩
  · intro k hk
    obtain ⟨w, hw⟩ := exists_lookup hk
    exact h.drawn k (mem_of_lookup (hturns.fewer k w hw))
  · intro k session hs
    have hk : k ∉ expired := fun hin => hremoved k hin (mem_of_lookup hs)
    exact (hkept k hk).busy.trans (h.table k session hs)
  · intro handler hin
    have hknown : ∀ k ∈ opening handler, k ∉ expired := by
      intro k hk hexpired
      have hlisted : Known t k := .listed (by rw [hreaper]; exact hexpired)
      exact (hapart.known k hlisted).2 (List.mem_filterMap.mpr ⟨handler, hin, hk⟩)
    have hcarried {p : String × String} (ha : asking handler = some p) : Holds
        { t.sys.state with pool := (recycle m expired t.sys.state.pool).2 } handler := by
      apply holds_asking ha
      rcases (h.handlers handler hin).of_asking ha with hbusy | hgone
      · by_cases hexpired : p.1 ∈ expired
        · refine Or.inr ⟨?_, hok handler hin p ha hexpired⟩
          have hplaced : p.2 ∈ Partition.placed t.sys.state.pool :=
            List.mem_append_right _ (mem_values.mpr ⟨p.1, hbusy⟩)
          exact (h.listed.named p.2 hplaced).mono hturns.ages.counter
        · exact Or.inl ((hkept p.1 hexpired).busy.trans hbusy)
      · exact Or.inr (hgone.ages hturns.ages)
    have hholds := h.handlers handler hin
    cases handler with
    | begun | assigned | done =>
        apply hholds.keep hturns.ages
        intro k hk
        have hopening : (opening _).or none = some k := hk
        rw [Option.or_none] at hopening
        exact hkept k (hknown k hopening)
    | freshKey => exact hholds
    | staleKey => exact hcarried rfl
    | applyKey => exact hcarried rfl
    | applyQuery => exact hcarried rfl
    | applyCommit => exact hcarried rfl
    | applyReset => exact hcarried rfl

theorem onward_reap (h : Lent t.issued t.sys) (hapart : Apart t) {order : List String}
    (hok : ReleasesUnheld m t (.reap order)) :
    Onward t.issued t.sys (step m t.sys (.reap order)) := by
  have hnone {reaper : Reaper} (hempty : removedIds reaper = []) :
      Onward t.issued t.sys { t.sys with reaper := reaper } :=
    ⟨h.idle reaper hempty, fun _ hseen => hseen⟩
  cases hreaper : t.sys.reaper with
  | sleeping =>
      simp only [step, hreaper, reap]
      exact hnone rfl
  | woken now =>
      simp only [step, hreaper, reap]
      split
      · exact hnone rfl
      · exact hnone rfl
  | listed now expired =>
      have hcalm : Calm t.sys.state { t.sys.state with
          sessions := removeSessions t.sys.state.sessions expired } :=
        ⟨Turns.refl _, fun _ session hs => ⟨session, lookup_removeSessions hs, rfl⟩⟩
      have hrest := h.calm hcalm
      simp only [step, hreaper, reap]
      refine ⟨⟨hrest.listed, hrest.drawn, hrest.table, ?_, hrest.handlers⟩, fun _ hseen => hseen⟩
      exact fun k hk hin => (mem_removeSessions hin).2 hk
  | removed expired =>
      rw [ReleasesUnheld, hreaper] at hok
      simp only [step, hreaper, reap]
      exact onward_recycled h hapart hreaper hok

theorem lent_arrive (h : Lent t.issued t.sys) {call : Call} (hfresh : UuidFresh t (.arrive call)) :
    Lent (trace m t (.arrive call)).issued (trace m t (.arrive call)).sys := by
  refine ⟨h.listed, fun k hk => List.mem_append_left _ (h.drawn k hk), h.table, h.removed, ?_⟩
  intro handler hin
  rcases List.mem_append.mp hin with hin | hin
  · exact h.handlers handler hin
  · rw [List.mem_singleton.mp hin]
    cases call with
    | openSession sessionId req => exact fun hbusy => hfresh sessionId rfl (h.drawn sessionId hbusy)
    | sendKeyEvent | queryCandidates | commitSelection | resetSession =>
        exact fun _ _ ha => nomatch ha

theorem asked_busy (h : Lent t.issued t.sys) {e : Event} {asked : Asked}
    (hasked : asks t.sys e = some asked) :
    busyWith t.sys.state asked.sessionId = some asked.workerId ∧
      ∃ worker, t.sys.state.pool.workers.lookup asked.workerId = some worker ∧
        era worker = asked.era := by
  cases e with
  | arrive | reap | tick => cases hasked
  | resume i =>
      cases hi : t.sys.handlers[i]? with
      | none =>
          rw [asks, hi] at hasked
          cases hasked
      | some handler =>
          obtain ⟨hasking, -, worker, hw, hera⟩ := asks_resume hi hasked
          refine ⟨?_, worker, hw, hera⟩
          rcases (h.handlers handler (List.mem_of_getElem? hi)).of_asking hasking with hbusy | hgone
          · exact hbusy
          · exact absurd (mem_of_lookup hw) hgone.2

end

structure Isolated (t : Traced P) : Prop where
  apart : Apart t
  lent : Lent t.issued t.sys
  seen : Seen t.log t.sys.state.pool

theorem Isolated.applied {t : Traced P} (h : Isolated t) (e : Event) :
    AppliedToOwn t e := by
  intro asked hasked
  obtain ⟨hbusy, -⟩ := asked_busy h.lent hasked
  refine ⟨hbusy, h.lent.listed.busy_not_idle hbusy, fun sessionId hother => ?_⟩
  exact h.lent.listed.busy_injective hother hbusy

theorem isolated_step {m : Machine P} {t : Traced P} (h : Isolated t) {e : Event}
    (hfresh : UuidFresh t e) (hok : ReleasesUnheld m t e) : Isolated (trace m t e) := by
  have hseen : Seen (trace m t e).log t.sys.state.pool := by
    cases hasked : asks t.sys e with
    | none =>
        have hlog : (trace m t e).log = t.log := by
          rw [trace, hasked]
          exact List.append_nil _
        rw [hlog]
        exact h.seen
    | some asked =>
        have hlog : (trace m t e).log = t.log ++ [asked] := by
          rw [trace, hasked]
          rfl
        obtain ⟨hbusy, worker, hw, hera⟩ := asked_busy h.lent hasked
        rw [hlog]
        exact h.seen.ask h.lent.listed hbusy hw hera
  have hissued (hnone : issues e = none) : (trace m t e).issued = t.issued := by
    rw [trace, hnone]
    exact List.append_nil _
  refine ⟨apart_step h.apart e hfresh, ?_, ?_⟩
  · cases e with
    | arrive call => exact lent_arrive h.lent hfresh
    | tick elapsed =>
        rw [hissued rfl]
        exact ⟨h.lent.listed, h.lent.drawn, h.lent.table, h.lent.removed, h.lent.handlers⟩
    | resume i =>
        rw [hissued rfl]
        exact (onward_resume h.lent h.apart i).1
    | reap order =>
        rw [hissued rfl]
        exact (onward_reap h.lent h.apart hok).1
  · cases e with
    | arrive | tick => exact hseen
    | resume i => exact (onward_resume h.lent h.apart i).2 _ hseen
    | reap order => exact (onward_reap h.lent h.apart hok).2 _ hseen

theorem listed_new (m : Machine P) (cfg : PoolConfig) :
    Listed [] (WorkerPool.new m cfg) ∧ ∀ j, j ∉ (WorkerPool.new m cfg).busyBySession := by
  have hempty : Listed [] (⟨cfg, 0, [], ∅, ∅⟩ : WorkerPool P) :=
    ⟨List.nodup_nil, (fun _ hj => nomatch hj), fun j hj => absurd hj (AList.notMem_empty j)⟩
  rw [WorkerPool.new]
  split
  · have hturns := prewarmLoop_turns m (cfg.minIdle - 0) (⟨cfg, 0, [], ∅, ∅⟩ : WorkerPool P)
    refine ⟨hturns.listed hempty, fun j => AList.lookup_eq_none.mp ?_⟩
    exact hturns.kept j List.not_mem_nil
  · exact ⟨hempty, fun j => AList.notMem_empty j⟩

theorem isolated_begin (m : Machine P) (cfg : PoolConfig) (sessionIdleTtl : Nat) :
    Isolated (begin m cfg sessionIdleTtl) := by
  obtain ⟨hlisted, hbusy⟩ := listed_new m cfg
  refine ⟨apart_begin m cfg sessionIdleTtl, ⟨hlisted, ?_, ?_, ?_, ?_⟩, ?_⟩
  · exact fun j hj => absurd hj (hbusy j)
  · intro j session hs
    cases (AList.lookup_empty j).symm.trans hs
  · exact fun j hj => nomatch hj
  · exact fun handler hin => nomatch hin
  · refine ⟨?_, ?_, ?_, ?_⟩ <;> exact fun asked hin => nomatch hin

def keyDown (sessionId : String) (virtualKey : UInt32) : Call :=
  .sendKeyEvent
    ⟨sessionId, some ⟨1, true, virtualKey, 0, false, false, false, false, false, 0, 0, 0⟩⟩

def stub : Traced WorkerRuntime := begin stubMachine ⟨1, 4, true⟩ 30

end RimeWinime.WorkerIsolation
