import RimeWinime.Gateway.Trace

namespace RimeWinime.Sequence

open World Worker Table Pool Service Steps Run Trace

variable {P : Type}

def appliedSeqs (sessionId : String) (log : List Asked) : List UInt64 :=
  log.filterMap fun asked => if asked.sessionId = sessionId then asked.seq else none

def waitingSeq (sessionId : String) : Handler → Option UInt64
  | .applyKey j _ event => if j = sessionId then some event.seq else none
  | _ => none

/-- The key events of the session whose seq is stored and which are still to
reach the worker. -/
def waitingSeqs (sessionId : String) (sys : System P) : List UInt64 :=
  sys.handlers.filterMap (waitingSeq sessionId)

def InOrder (t : Traced P) : Option Handler → Prop
  | some (.freshKey sessionId _ event) =>
      ∀ session ∈ t.sys.state.sessions.lookup sessionId,
        session.lastSeq ≤ event.seq ∧ event.seq ∉ appliedSeqs sessionId t.log ∧
          event.seq ∉ waitingSeqs sessionId t.sys
  | some (.applyKey sessionId _ event) => ∀ seq ∈ waitingSeqs sessionId t.sys, event.seq ≤ seq
  | _ => True

/-- A seq is stored over one that is not greater and belongs to no key event
stored before; a key event reaches the worker before those with greater seqs. -/
def KeepsOrder (t : Traced P) : Event → Prop
  | .resume i => InOrder t t.sys.handlers[i]?
  | _ => True

def StrictlyApplied (t : Traced P) : Prop :=
  ∀ sessionId, (appliedSeqs sessionId t.log).Pairwise (· < ·)

def LastSeqGrows (m : Machine P) (t : Traced P) (e : Event) : Prop :=
  ∀ sessionId session session', t.sys.state.sessions.lookup sessionId = some session →
    (trace m t e).sys.state.sessions.lookup sessionId = some session' →
      session.lastSeq ≤ session'.lastSeq

/-- The seqs of a session, in the order of their way: applied, then waiting,
and none above `last_seq`. -/
structure InSequence (t : Traced P) (sessionId : String) : Prop where
  applied : (appliedSeqs sessionId t.log).Pairwise (· < ·)
  waiting : (waitingSeqs sessionId t.sys).Nodup
  behind : ∀ a ∈ appliedSeqs sessionId t.log, ∀ n ∈ waitingSeqs sessionId t.sys, a < n
  stored : ∀ session, t.sys.state.sessions.lookup sessionId = some session →
    ∀ n, n ∈ appliedSeqs sessionId t.log ∨ n ∈ waitingSeqs sessionId t.sys → n ≤ session.lastSeq

theorem le_max_seq (a b : UInt64) : a ≤ max a b := by
  have hmax : max a b = if a ≤ b then b else a := rfl
  rw [hmax]
  split
  · next h => exact h
  · exact UInt64.le_refl a

theorem updating_lastSeq {handler : Handler} {sessionId : String}
    {change : SessionState → SessionState} (h : updating handler = some (sessionId, change)) :
    (∃ workerId event, handler = .freshKey sessionId workerId event ∧ change = keyed event) ∨
      ((∀ session, session.lastSeq ≤ (change session).lastSeq) ∧
        ∀ j session, waitingSeq j (following handler session) = none) := by
  cases handler with
  | begun call =>
      cases call with
      | openSession | sendKeyEvent => cases h
      | queryCandidates req =>
          cases h
          refine Or.inr ⟨fun session => ?_, fun _ _ => rfl⟩
          simp only [queried]
          split
          · exact le_max_seq _ _
          · exact UInt64.le_refl _
      | commitSelection req =>
          cases h
          exact Or.inr ⟨fun session => le_max_seq _ _, fun _ _ => rfl⟩
      | resetSession req =>
          cases h
          exact Or.inr ⟨fun session => UInt64.le_refl _, fun _ _ => rfl⟩
  | freshKey j workerId event =>
      cases h
      exact Or.inl ⟨workerId, event, rfl, rfl⟩
  | assigned | staleKey | applyKey | applyQuery | applyCommit | applyReset | done => cases h

theorem appliedSeqs_append (sessionId : String) (log : List Asked) (asked : Option Asked) :
    appliedSeqs sessionId (log ++ asked.toList) =
      appliedSeqs sessionId log ++ appliedSeqs sessionId asked.toList :=
  List.filterMap_append

theorem InSequence.keep {t t' : Traced P} {sessionId : String} (h : InSequence t sessionId)
    (happlied : appliedSeqs sessionId t'.log = appliedSeqs sessionId t.log)
    (hwaiting : waitingSeqs sessionId t'.sys = waitingSeqs sessionId t.sys)
    (hstored : ∀ session', t'.sys.state.sessions.lookup sessionId = some session' →
      ∀ n, n ∈ appliedSeqs sessionId t.log ∨ n ∈ waitingSeqs sessionId t.sys →
        n ≤ session'.lastSeq) : InSequence t' sessionId := by
  refine ⟨happlied ▸ h.applied, hwaiting ▸ h.waiting, ?_, ?_⟩
  · rw [happlied, hwaiting]
    exact h.behind
  · rw [happlied, hwaiting]
    exact hstored

theorem lastSeq_grows {m : Machine P} {t : Traced P} {e : Event} (hapart : Apart t)
    (hok : KeepsOrder t e) : LastSeqGrows m t e := by
  intro sessionId session session' hs hs'
  have hkept (hsame : (trace m t e).sys.state.sessions.lookup sessionId =
      t.sys.state.sessions.lookup sessionId) : session.lastSeq ≤ session'.lastSeq := by
    rw [hsame] at hs'
    cases hs.symm.trans hs'
    exact UInt64.le_refl _
  cases e with
  | arrive call => exact hkept rfl
  | tick elapsed => exact hkept rfl
  | reap order =>
      cases hs.symm.trans (reap_lookup hs')
      exact UInt64.le_refl _
  | resume i =>
      rcases resume_cases m t.sys i with ⟨hi, hrun⟩ | ⟨before, handler, after, hr⟩
      · apply hkept
        have hsys : (trace m t (.resume i)).sys = t.sys := hrun
        rw [hsys]
      · have hsys : (trace m t (.resume i)).sys = _ := hr.run
        rw [hsys] at hs'
        rcases sessions_after m t.sys.clock t.sys.state hs' with hold | hnew | hnew
        · cases hs.symm.trans hold
          exact UInt64.le_refl _
        · obtain ⟨change, old, hupdating, hold, rfl⟩ := hnew
          cases hs.symm.trans hold
          rcases updating_lastSeq hupdating with ⟨workerId, event, rfl, rfl⟩ | ⟨hgrow, -⟩
          · rw [KeepsOrder, hr.here] at hok
            exact (hok session hs).1
          · exact hgrow session
        · obtain ⟨workerId, version, idle, rfl, -⟩ := hnew
          have hopening : sessionId ∈ openings t := List.mem_filterMap.mpr ⟨_, hr.mem, rfl⟩
          exact absurd hopening (hapart.known sessionId (.entered (mem_of_lookup hs))).2

theorem appliedSeqs_other {sessionId : String} {sys : System P} {e : Event}
    (h : ∀ asked ∈ asks sys e, asked.sessionId = sessionId → asked.seq = none) :
    appliedSeqs sessionId (asks sys e).toList = [] := by
  rw [appliedSeqs, List.filterMap_eq_nil_iff]
  intro asked hasked
  split
  · next hj => exact h asked (Option.mem_toList.mp hasked) hj
  · rfl

theorem waitingSeqs_split (sessionId : String) {sys : System P} {before after : List Handler}
    {handler : Handler} (h : sys.handlers = before ++ handler :: after) :
    waitingSeqs sessionId sys = before.filterMap (waitingSeq sessionId) ++
      ((waitingSeq sessionId handler).toList ++ after.filterMap (waitingSeq sessionId)) := by
  rw [waitingSeqs, h, List.filterMap_append]
  cases hw : waitingSeq sessionId handler <;> simp [hw]

section

variable {m : Machine P} {t : Traced P} {sessionId : String} {i : Nat} {before after : List Handler}
  {handler : Handler}

theorem waitingSeqs_resumed (sessionId : String) (hr : Resumes m t.sys i before handler after) :
    waitingSeqs sessionId (t.sys.resume m i) = before.filterMap (waitingSeq sessionId) ++
      ((waitingSeq sessionId (advance m t.sys.clock handler t.sys.state).1).toList ++
        after.filterMap (waitingSeq sessionId)) := by
  apply waitingSeqs_split
  rw [hr.run]

theorem inSequence_quiet (h : InSequence t sessionId) (hr : Resumes m t.sys i before handler after)
    (hseq : ∀ workerId, asking handler = some (sessionId, workerId) → keySeq handler = none)
    (hbefore : waitingSeq sessionId handler = none)
    (hafter : waitingSeq sessionId (advance m t.sys.clock handler t.sys.state).1 = none)
    (hstored : ∀ session',
      (advance m t.sys.clock handler t.sys.state).2.sessions.lookup sessionId = some session' →
        ∀ n, n ∈ appliedSeqs sessionId t.log ∨ n ∈ waitingSeqs sessionId t.sys →
          n ≤ session'.lastSeq) :
    InSequence (trace m t (.resume i)) sessionId := by
  have hsys : (trace m t (.resume i)).sys = _ := hr.run
  apply h.keep
  · have hnone : appliedSeqs sessionId (asks t.sys (.resume i)).toList = [] := by
      apply appliedSeqs_other
      intro asked hasked hj
      obtain ⟨hasking, hkey, -⟩ := asks_resume hr.here hasked
      rw [← hkey]
      exact hseq asked.workerId (hj ▸ hasking)
    rw [trace, appliedSeqs_append, hnone, List.append_nil]
  · have hwaiting := waitingSeqs_resumed sessionId hr
    rw [hafter] at hwaiting
    rw [waitingSeqs_split sessionId hr.split, hbefore]
    exact hwaiting
  · rw [hsys]
    exact hstored

theorem inSequence_aside (h : InSequence t sessionId) (hr : Resumes m t.sys i before handler after)
    (hkey : keySeq handler = none) (hbefore : waitingSeq sessionId handler = none)
    (hafter : waitingSeq sessionId (advance m t.sys.clock handler t.sys.state).1 = none)
    (hsame : (advance m t.sys.clock handler t.sys.state).2.sessions = t.sys.state.sessions) :
    InSequence (trace m t (.resume i)) sessionId := by
  apply inSequence_quiet h hr (fun _ _ => hkey) hbefore hafter
  rw [hsame]
  exact h.stored

theorem inSequence_asked (h : InSequence t sessionId) (hr : Resumes m t.sys i before handler after)
    {p : String × String} (ha : asking handler = some p) (hkey : keySeq handler = none)
    (hbefore : waitingSeq sessionId handler = none) :
    InSequence (trace m t (.resume i)) sessionId := by
  obtain ⟨reply, pool', hadvance, -⟩ := advance_asking m t.sys.clock t.sys.state ha
  apply inSequence_aside h hr hkey hbefore
  · rw [hadvance]
    rfl
  · rw [hadvance]

theorem inSequence_updated (h : InSequence t sessionId)
    (hr : Resumes m t.sys i before handler after) {j : String}
    {change : SessionState → SessionState} (hu : updating handler = some (j, change))
    (hkey : ∀ workerId event, handler ≠ .freshKey j workerId event)
    (hask : asking handler = none) (hbefore : waitingSeq sessionId handler = none) :
    InSequence (trace m t (.resume i)) sessionId := by
  rcases updating_lastSeq hu with ⟨workerId, event, he, -⟩ | ⟨hgrow, hnext⟩
  · exact absurd he (hkey workerId event)
  rcases advance_updating m t.sys.clock t.sys.state hu with ⟨-, hadvance⟩ | ⟨session, hs, hadvance⟩
  · apply inSequence_quiet h hr (fun _ hasking => nomatch hask.symm.trans hasking) hbefore
    · rw [hadvance]
      rfl
    · rw [hadvance]
      exact h.stored
  · apply inSequence_quiet h hr (fun _ hasking => nomatch hask.symm.trans hasking) hbefore
    · rw [hadvance]
      exact hnext sessionId _
    · rw [hadvance]
      intro session' hs' n hn
      rw [lookup_insert_eq] at hs'
      split at hs'
      · next he =>
          cases hs'
          exact UInt64.le_trans (h.stored session (he ▸ hs) n hn) (hgrow session)
      · exact h.stored session' hs' n hn

theorem inSequence_entered (h : InSequence t sessionId) (hapart : Apart t) {j workerId : String}
    {version : UInt64} {idle : UInt32}
    (hr : Resumes m t.sys i before (.assigned j workerId version idle) after) :
    InSequence (trace m t (.resume i)) sessionId := by
  apply inSequence_quiet h hr (fun _ hasking => nomatch hasking) rfl rfl
  intro session' hs' n hn
  simp only [advance, insertSession, lookup_insert_eq] at hs'
  split at hs'
  · next he =>
      have hopening : sessionId ∈ openings t := List.mem_filterMap.mpr ⟨_, hr.mem, congrArg some he.symm⟩
      refine absurd hopening (hapart.known sessionId ?_).2
      rcases hn with hn | hn
      · obtain ⟨asked, hmem, hseq⟩ := List.mem_filterMap.mp hn
        split at hseq
        · next hj => exact .logged hmem hj
        · cases hseq
      · obtain ⟨handler, hmem, hwaits⟩ := List.mem_filterMap.mp hn
        cases handler with
        | applyKey k w event =>
            simp only [waitingSeq] at hwaits
            split at hwaits
            · next hk =>
                subst hk
                exact .held hmem rfl
            · cases hwaits
        | begun | assigned | staleKey | freshKey | applyQuery | applyCommit | applyReset | done =>
            cases hwaits
  · exact h.stored session' hs' n hn

theorem inSequence_stored (h : InSequence t sessionId) {workerId : String} {event : KeyEvent}
    (hr : Resumes m t.sys i before (.freshKey sessionId workerId event) after)
    {session : SessionState} (hs : t.sys.state.sessions.lookup sessionId = some session)
    (hok : session.lastSeq ≤ event.seq ∧ event.seq ∉ appliedSeqs sessionId t.log ∧
      event.seq ∉ waitingSeqs sessionId t.sys) :
    InSequence (trace m t (.resume i)) sessionId := by
  obtain ⟨hle, hnew, hout⟩ := hok
  have hadvance : advance m t.sys.clock (.freshKey sessionId workerId event) t.sys.state =
      (.applyKey sessionId workerId event, { t.sys.state with
        sessions := t.sys.state.sessions.insert sessionId
          ((keyed event session).touch t.sys.clock) }) := by
    simp only [advance, storeSeq, withSession, hs]
  have hsys : (trace m t (.resume i)).sys = _ := hr.run
  rw [hadvance] at hsys
  have hlog : (trace m t (.resume i)).log = t.log := by
    simp [trace, asks, hr.here, asking]
  have hold : waitingSeqs sessionId t.sys = before.filterMap (waitingSeq sessionId) ++
      after.filterMap (waitingSeq sessionId) := waitingSeqs_split sessionId hr.split
  have hwaiting : waitingSeqs sessionId (trace m t (.resume i)).sys =
      before.filterMap (waitingSeq sessionId) ++
        event.seq :: after.filterMap (waitingSeq sessionId) := by
    have hresumed := waitingSeqs_resumed sessionId hr
    rw [hadvance] at hresumed
    exact hresumed.trans (by simp [waitingSeq])
  have hmem (n : UInt64) : n ∈ waitingSeqs sessionId (trace m t (.resume i)).sys ↔
      n = event.seq ∨ n ∈ waitingSeqs sessionId t.sys := by
    rw [hwaiting, hold]
    simp only [List.mem_append, List.mem_cons]
    tauto
  have hsession : (trace m t (.resume i)).sys.state.sessions.lookup sessionId =
      some ((keyed event session).touch t.sys.clock) := by
    rw [hsys]
    exact AList.lookup_insert _
  constructor
  case applied =>
    rw [hlog]
    exact h.applied
  case waiting =>
    rw [hwaiting]
    refine List.nodup_middle.mpr (List.nodup_cons.mpr ?_)
    rw [← hold]
    exact ⟨hout, h.waiting⟩
  case behind =>
    rw [hlog]
    intro a ha n hn
    rcases (hmem n).mp hn with rfl | hn
    · have hbelow := UInt64.le_trans (h.stored session hs a (Or.inl ha)) hle
      exact UInt64.lt_of_le_of_ne hbelow fun he => hnew (he ▸ ha)
    · exact h.behind a ha n hn
  case stored =>
    rw [hlog, hsession]
    intro session' hs' n hn
    cases hs'
    rcases hn with ha | hw
    · exact UInt64.le_trans (h.stored session hs n (Or.inl ha)) hle
    · rcases (hmem n).mp hw with rfl | hw
      · exact UInt64.le_refl _
      · exact UInt64.le_trans (h.stored session hs n (Or.inr hw)) hle

theorem inSequence_applied (h : InSequence t sessionId) {workerId : String} {event : KeyEvent}
    (hr : Resumes m t.sys i before (.applyKey sessionId workerId event) after)
    (hok : ∀ seq ∈ waitingSeqs sessionId t.sys, event.seq ≤ seq) :
    InSequence (trace m t (.resume i)) sessionId := by
  have hasking : asking (.applyKey sessionId workerId event) = some (sessionId, workerId) := rfl
  obtain ⟨reply, pool', hadvance, -⟩ := advance_asking m t.sys.clock t.sys.state hasking
  have hsys : (trace m t (.resume i)).sys = _ := hr.run
  rw [hadvance] at hsys
  have hold : waitingSeqs sessionId t.sys = before.filterMap (waitingSeq sessionId) ++
      event.seq :: after.filterMap (waitingSeq sessionId) := by
    rw [waitingSeqs_split sessionId hr.split]
    simp [waitingSeq]
  have hwaiting : waitingSeqs sessionId (trace m t (.resume i)).sys =
      before.filterMap (waitingSeq sessionId) ++ after.filterMap (waitingSeq sessionId) := by
    have hresumed := waitingSeqs_resumed sessionId hr
    rw [hadvance] at hresumed
    exact hresumed
  have hmem (n : UInt64) : n ∈ waitingSeqs sessionId t.sys ↔
      n = event.seq ∨ n ∈ waitingSeqs sessionId (trace m t (.resume i)).sys := by
    rw [hwaiting, hold]
    simp only [List.mem_append, List.mem_cons]
    tauto
  have hnodup := List.nodup_cons.mp (List.nodup_middle.mp (hold ▸ h.waiting))
  rw [← hwaiting] at hnodup
  -- the event itself is the only seq that may be added to those applied
  have happlied : ∀ a, a ∈ appliedSeqs sessionId (asks t.sys (.resume i)).toList → a = event.seq := by
    intro a ha
    obtain ⟨asked, hasked, hseq⟩ := List.mem_filterMap.mp ha
    obtain ⟨-, hkey, -⟩ := asks_resume hr.here (Option.mem_toList.mp hasked)
    split at hseq
    · exact (Option.some.inj (hkey.trans hseq)).symm
    · cases hseq
  have hlog : appliedSeqs sessionId (trace m t (.resume i)).log =
      appliedSeqs sessionId t.log ++ appliedSeqs sessionId (asks t.sys (.resume i)).toList :=
    appliedSeqs_append sessionId t.log _
  constructor
  case applied =>
    rw [hlog, List.pairwise_append]
    refine ⟨h.applied, ?_, ?_⟩
    · cases hasks : asks t.sys (.resume i) with
      | none => exact List.Pairwise.nil
      | some asked =>
          have hone : (appliedSeqs sessionId [asked]).length ≤ 1 := List.length_filterMap_le _ _
          match appliedSeqs sessionId [asked], hone with
          | [], _ => exact List.Pairwise.nil
          | [a], _ => exact List.pairwise_singleton _ a
    · intro a ha b hb
      rw [happlied b hb]
      exact h.behind a ha event.seq ((hmem _).mpr (Or.inl rfl))
  case waiting => exact hnodup.2
  case behind =>
    rw [hlog]
    intro a ha n hn
    rcases List.mem_append.mp ha with ha | ha
    · exact h.behind a ha n ((hmem n).mpr (Or.inr hn))
    · rw [happlied a ha]
      refine UInt64.lt_of_le_of_ne (hok n ((hmem n).mpr (Or.inr hn))) fun he => ?_
      exact hnodup.1 (he ▸ hn)
  case stored =>
    rw [hlog]
    intro session hs n hn
    have hs₀ : t.sys.state.sessions.lookup sessionId = some session := by rwa [hsys] at hs
    rcases hn with ha | hw
    · rcases List.mem_append.mp ha with ha | ha
      · exact h.stored session hs₀ n (Or.inl ha)
      · rw [happlied n ha]
        exact h.stored session hs₀ event.seq (Or.inr ((hmem _).mpr (Or.inl rfl)))
    · exact h.stored session hs₀ n (Or.inr ((hmem n).mpr (Or.inr hw)))

theorem inSequence_stored_aside (h : InSequence t sessionId) {j workerId : String} {event : KeyEvent}
    (hr : Resumes m t.sys i before (.freshKey j workerId event) after)
    (haside : t.sys.state.sessions.lookup j = none ∨ j ≠ sessionId) :
    InSequence (trace m t (.resume i)) sessionId := by
  have hu : updating (.freshKey j workerId event) = some (j, keyed event) := rfl
  rcases advance_updating m t.sys.clock t.sys.state hu with
    ⟨-, hadvance⟩ | ⟨session, hs, hadvance⟩
  · apply inSequence_aside h hr rfl rfl <;> rw [hadvance]
    rfl
  · have hne : j ≠ sessionId := haside.resolve_left fun hnone => nomatch hs.symm.trans hnone
    apply inSequence_quiet h hr (fun _ hasking => nomatch hasking) rfl
    · rw [hadvance]
      exact if_neg hne
    · rw [hadvance]
      intro session' hs'
      rw [AList.lookup_insert_ne hne.symm] at hs'
      exact h.stored session' hs'

end

theorem inSequence_resume {m : Machine P} {t : Traced P} {sessionId : String}
    (h : InSequence t sessionId) (hapart : Apart t) {i : Nat} (hok : KeepsOrder t (.resume i)) :
    InSequence (trace m t (.resume i)) sessionId := by
  rcases resume_cases m t.sys i with ⟨hi, hrun⟩ | ⟨before, handler, after, hr⟩
  · have hsys : (trace m t (.resume i)).sys = t.sys := hrun
    have hlog : (trace m t (.resume i)).log = t.log := by simp [trace, asks, hi]
    apply h.keep
    · rw [hlog]
    · rw [hsys]
    · rw [hsys]
      exact h.stored
  cases handler with
  | begun call =>
      cases call with
      | openSession j req =>
          apply inSequence_aside h hr rfl rfl
          · rcases openSession_cases m j req t.sys.state.pool with
              ⟨e, hopen, -⟩ | ⟨w, v, k, hopen, -⟩ <;>
              · simp only [advance, withPool, hopen]
                rfl
          · rfl
      | sendKeyEvent req =>
          rcases checkSeq_cases t.sys.state req with
            ⟨reply, hcheck⟩ | ⟨event, session, -, -, ⟨-, hcheck⟩ | ⟨-, hcheck⟩⟩ <;>
            · apply inSequence_aside h hr rfl rfl <;> rw [advance, hcheck]
              rfl
      | queryCandidates => exact inSequence_updated h hr rfl (fun _ _ he => by cases he) rfl rfl
      | commitSelection => exact inSequence_updated h hr rfl (fun _ _ he => by cases he) rfl rfl
      | resetSession => exact inSequence_updated h hr rfl (fun _ _ he => by cases he) rfl rfl
  | assigned => exact inSequence_entered h hapart hr
  | freshKey j workerId event =>
      by_cases hj : j = sessionId
      · subst hj
        cases hs : t.sys.state.sessions.lookup j with
        | none => exact inSequence_stored_aside h hr (Or.inl hs)
        | some session =>
            rw [KeepsOrder, hr.here] at hok
            exact inSequence_stored h hr hs (hok session hs)
      · exact inSequence_stored_aside h hr (Or.inr hj)
  | applyKey j workerId event =>
      by_cases hj : j = sessionId
      · subst hj
        rw [KeepsOrder, hr.here] at hok
        exact inSequence_applied h hr hok
      · have ha : asking (.applyKey j workerId event) = some (j, workerId) := rfl
        obtain ⟨reply, pool', hadvance, -⟩ := advance_asking m t.sys.clock t.sys.state ha
        apply inSequence_quiet h hr (fun w hasking => ?_) (if_neg hj)
        · rw [hadvance]
          rfl
        · rw [hadvance]
          exact h.stored
        · cases hasking
          exact absurd rfl hj
  | staleKey => exact inSequence_asked h hr rfl rfl rfl
  | applyQuery => exact inSequence_asked h hr rfl rfl rfl
  | applyCommit => exact inSequence_asked h hr rfl rfl rfl
  | applyReset => exact inSequence_asked h hr rfl rfl rfl
  | done => exact inSequence_aside h hr rfl rfl rfl rfl

theorem inSequence_step {m : Machine P} {t : Traced P} {sessionId : String}
    (h : InSequence t sessionId) (hapart : Apart t) {e : Event} (hok : KeepsOrder t e) :
    InSequence (trace m t e) sessionId := by
  have hlog (hnone : asks t.sys e = none) : (trace m t e).log = t.log := by
    rw [trace, hnone]
    exact List.append_nil _
  cases e with
  | resume i => exact inSequence_resume h hapart hok
  | tick elapsed =>
      apply h.keep
      · rw [hlog rfl]
      · rfl
      · exact h.stored
  | arrive call =>
      apply h.keep
      · rw [hlog rfl]
      · simp [waitingSeqs, trace, step, waitingSeq]
      · exact h.stored
  | reap order =>
      apply h.keep
      · rw [hlog rfl]
      · rfl
      · exact fun session' hs' => h.stored session' (reap_lookup hs')

theorem inSequence_begin (m : Machine P) (cfg : PoolConfig) (sessionIdleTtl : Nat)
    (sessionId : String) : InSequence (begin m cfg sessionIdleTtl) sessionId := by
  refine ⟨List.Pairwise.nil, List.nodup_nil, (fun a ha => nomatch ha), fun session hs => ?_⟩
  cases (AList.lookup_empty sessionId).symm.trans hs

/-- Sequence monotonicity over every interleaving whose stores and applications
keep the order of the seqs. -/
theorem seqs_monotone (m : Machine P) (cfg : PoolConfig) (sessionIdleTtl : Nat)
    (events : List Event) (huuid : Allowed (trace m) UuidFresh (begin m cfg sessionIdleTtl) events)
    (horder : Allowed (trace m) KeepsOrder (begin m cfg sessionIdleTtl) events) :
    Always (trace m) StrictlyApplied (begin m cfg sessionIdleTtl) events ∧
      Allowed (trace m) (LastSeqGrows m) (begin m cfg sessionIdleTtl) events := by
  have hstep (t : Traced P) (e : Event)
      (h : Apart t ∧ ∀ sessionId, InSequence t sessionId) (hok : UuidFresh t e ∧ KeepsOrder t e) :
      Apart (trace m t e) ∧ ∀ sessionId, InSequence (trace m t e) sessionId :=
    ⟨apart_step h.1 e hok.1, fun sessionId => inSequence_step (h.2 sessionId) h.1 hok.2⟩
  have hbegin : Apart (begin m cfg sessionIdleTtl) ∧
      ∀ sessionId, InSequence (begin m cfg sessionIdleTtl) sessionId :=
    ⟨apart_begin m cfg sessionIdleTtl, inSequence_begin m cfg sessionIdleTtl⟩
  have hboth := allowed_and huuid horder
  constructor
  · exact always_of_invariant _ (fun t h sessionId => (h.2 sessionId).applied) hstep hbegin hboth
  · exact allowed_imp_of_invariant _ (fun t e h hok => lastSeq_grows h.1 hok.2) hstep hbegin hboth

instance decidableInOrder (t : Traced P) : (handler : Option Handler) → Decidable (InOrder t handler)
  | some (.freshKey sessionId _ event) =>
      inferInstanceAs (Decidable (∀ session ∈ t.sys.state.sessions.lookup sessionId,
        session.lastSeq ≤ event.seq ∧ event.seq ∉ appliedSeqs sessionId t.log ∧
          event.seq ∉ waitingSeqs sessionId t.sys))
  | some (.applyKey sessionId _ event) =>
      List.decidableBAll (event.seq ≤ ·) (waitingSeqs sessionId t.sys)
  | none | some (.begun _) | some (.assigned _ _ _ _) | some (.staleKey _ _ _)
  | some (.applyQuery _ _) | some (.applyCommit _ _) | some (.applyReset _ _) | some (.done _) =>
      inferInstanceAs (Decidable True)

instance decidableKeepsOrder (t : Traced P) : (e : Event) → Decidable (KeepsOrder t e)
  | .resume i => inferInstanceAs (Decidable (InOrder t t.sys.handlers[i]?))
  | .arrive _ | .reap _ | .tick _ => inferInstanceAs (Decidable True)

def key (seq : UInt64) (virtualKey : UInt32) : Call :=
  .sendKeyEvent
    ⟨"s", some ⟨seq, true, virtualKey, 0, false, false, false, false, false, 0, 0, 0⟩⟩

def stub : Traced WorkerRuntime := begin stubMachine ⟨1, 4, true⟩ 30

def checkedKeys (a b : Call) : List Event :=
  [.arrive (.openSession "s" ⟨true⟩), .resume 0, .resume 0, .arrive a, .arrive b, .resume 1,
    .resume 2]

/-- One seq, sent twice, reaches the worker twice; and the store of seq 1 after
that of seq 2 lowers `last_seq`. -/
theorem seqs_not_monotone :
    ¬Always (trace stubMachine) StrictlyApplied stub
        (checkedKeys (key 1 0x41) (key 1 0x41) ++ [.resume 1, .resume 2, .resume 1, .resume 2]) ∧
      ¬Allowed (trace stubMachine) (LastSeqGrows stubMachine) stub
        (checkedKeys (key 1 0x41) (key 2 0x42) ++ [.resume 2, .resume 1]) := by
  constructor
  · intro h
    have htwice : appliedSeqs "s" (run (trace stubMachine) stub
        (checkedKeys (key 1 0x41) (key 1 0x41) ++
          [.resume 1, .resume 2, .resume 1, .resume 2])).log = [1, 1] := by decide
    have hstrict := h _ (List.prefix_refl _) "s"
    rw [htwice] at hstrict
    exact absurd hstrict (by decide)
  · intro h
    have hgrows := (allowed_append.mp h).2.2.1 "s"
    exact absurd (hgrows ⟨"worker-000001", 2, 0⟩ ⟨"worker-000001", 1, 0⟩ (by decide) (by decide))
      (by decide)

/-- Two keys in flight together, and a query between their steps. -/
theorem seqs_monotone_in_order :
    Always (trace stubMachine) StrictlyApplied stub
        (checkedKeys (key 1 0x41) (key 2 0x42) ++
          [.resume 1, .arrive (.queryCandidates ⟨"s", 2, "", 0⟩), .resume 3, .resume 2, .resume 1,
            .resume 2, .resume 3]) ∧
      Allowed (trace stubMachine) (LastSeqGrows stubMachine) stub
        (checkedKeys (key 1 0x41) (key 2 0x42) ++
          [.resume 1, .arrive (.queryCandidates ⟨"s", 2, "", 0⟩), .resume 3, .resume 2, .resume 1,
            .resume 2, .resume 3]) :=
  seqs_monotone stubMachine ⟨1, 4, true⟩ 30 _ (by decide) (by decide)

end RimeWinime.Sequence
