import RimeWinime.Remote.Engines

namespace RimeWinime.Ownership

open World Table Client ClientPool Engines

def opensRemote (client : Nat) (remoteId : String) : SessionRpc → Bool
  | .openSession k _ rid => k = client && rid = remoteId
  | .destroySession _ _ _ => false

def destroysRemote (client : Nat) (remoteId : String) : SessionRpc → Bool
  | .openSession _ _ _ => false
  | .destroySession k _ rid => k = client && rid = remoteId

def opened (c : Clients) (client : Nat) (remoteId : String) : Nat :=
  c.calls.countP (opensRemote client remoteId)

def destroyed (c : Clients) (client : Nat) (remoteId : String) : Nat :=
  c.calls.countP (destroysRemote client remoteId)

/-- The client's server has a session with this id. -/
def Live (c : Clients) (client : Nat) (remoteId : String) : Prop :=
  destroyed c client remoteId < opened c client remoteId

/-- A session of the server is mapped for one local id, or it has been destroyed
once for each time that its id was handed out. -/
structure Owned (c : Clients) : Prop where
  unshared : ∀ client j k remoteId, mappedAt c client j = some remoteId →
    mappedAt c client k = some remoteId → j = k
  mapped : ∀ client j remoteId, mappedAt c client j = some remoteId →
    opened c client remoteId = destroyed c client remoteId + 1
  gone : ∀ client remoteId, (∀ j, mappedAt c client j ≠ some remoteId) →
    opened c client remoteId = destroyed c client remoteId

/-- An id that was handed out once is mapped for one local id and not destroyed,
or not mapped and destroyed once. -/
theorem Owned.once {c : Clients} (h : Owned c) {client : Nat} {remoteId : String}
    (hone : opened c client remoteId = 1) :
    (∃! j, mappedAt c client j = some remoteId) ∧ destroyed c client remoteId = 0 ∨
      (∀ j, mappedAt c client j ≠ some remoteId) ∧ destroyed c client remoteId = 1 := by
  by_cases hmapped : ∃ j, mappedAt c client j = some remoteId
  · obtain ⟨j, hj⟩ := hmapped
    have hpaid := h.mapped client j remoteId hj
    refine Or.inl ⟨⟨j, hj, fun k hk => h.unshared client k j remoteId hk hj⟩, ?_⟩
    omega
  · have hnone : ∀ j, mappedAt c client j ≠ some remoteId := fun j hj => hmapped ⟨j, hj⟩
    have hpaid := h.gone client remoteId hnone
    exact Or.inr ⟨hnone, by omega⟩

structure Accounted (c : Clients) : Prop where
  oneEach : OneEach c
  named : ∀ client j remoteId, mappedAt c client j = some remoteId → remoteId ≠ ""
  owned : Owned c

theorem accounted_noClients : Accounted noClients where
  oneEach := ⟨nofun, nofun⟩
  named := fun _ _ _ h => by cases h
  owned := ⟨nofun, nofun, fun _ _ _ => rfl⟩

section

variable {c c' : Clients} {client sessionId : Nat} {remoteId : String}

theorem accounted_of_same (h : Accounted c) (hsame : SameSessions c c') (hone : OneEach c') :
    Accounted c' := by
  refine ⟨hone, fun client j rid hj => ?_, ?_, ?_, ?_⟩
  · exact h.named client j rid (hsame.mapped client j ▸ hj)
  · intro client j k rid hj hk
    exact h.owned.unshared client j k rid (hsame.mapped client j ▸ hj) (hsame.mapped client k ▸ hk)
  · intro client j rid hj
    rw [opened, destroyed, hsame.calls]
    exact h.owned.mapped client j rid (hsame.mapped client j ▸ hj)
  · intro client rid hnone
    rw [opened, destroyed, hsame.calls]
    exact h.owned.gone client rid fun j => hsame.mapped client j ▸ hnone j

theorem live_iff (h : Owned c) : Live c client remoteId ↔
    ∃ j, mappedAt c client j = some remoteId := by
  constructor
  · intro hlive
    by_contra hno
    have hgone := h.gone client remoteId fun j hj => hno ⟨j, hj⟩
    rw [Live] at hlive
    omega
  · rintro ⟨j, hj⟩
    have hpaid := h.mapped client j remoteId hj
    rw [Live]
    omega

theorem opened_openSession (hne : remoteId ≠ "") (k : Nat) (rid : String) :
    opened (openSession client sessionId (some remoteId) c).2 k rid =
      opened c k rid + if client = k ∧ remoteId = rid then 1 else 0 := by
  rw [opened, openSession_calls hne, List.countP_append, List.countP_singleton, opensRemote]
  congr 1
  exact if_congr (by simp) rfl rfl

theorem destroyed_openSession (hne : remoteId ≠ "") (k : Nat) (rid : String) :
    destroyed (openSession client sessionId (some remoteId) c).2 k rid = destroyed c k rid := by
  rw [destroyed, openSession_calls hne, List.countP_append]
  rfl

theorem accounted_openSession (h : Accounted c) (hlt : client < c.made.length)
    (hfree : mappedAt c client sessionId = none) (hne : remoteId ≠ "")
    (hfresh : ¬Live c client remoteId) :
    Accounted (openSession client sessionId (some remoteId) c).2 := by
  have hafter := mappedAt_openSession hlt hne sessionId
  have hnew : ∀ j, mappedAt c client j ≠ some remoteId :=
    fun j hj => hfresh ((live_iff h.owned).mpr ⟨j, hj⟩)
  refine ⟨(openSession_sessionsOnly _ _ _ c).oneEach h.oneEach, fun k j rid hj => ?_, fun k j j' rid hj hj' => ?_,
    fun k j rid hj => ?_, fun k rid hnone => ?_⟩
  · rw [hafter] at hj
    split at hj
    · cases hj
      exact hne
    · exact h.named k j rid hj
  · rw [hafter] at hj hj'
    split at hj <;> split at hj'
    · next hhere hhere' => exact hhere.2.trans hhere'.2.symm
    · next hhere _ =>
      cases hj
      exact absurd (hhere.1 ▸ hj') (hnew j')
    · next _ hhere' =>
      cases hj'
      exact absurd (hhere'.1 ▸ hj) (hnew j)
    · exact h.owned.unshared k j j' rid hj hj'
  · rw [opened_openSession hne, destroyed_openSession hne]
    rw [hafter] at hj
    split at hj
    · next hhere =>
      cases hj
      rw [if_pos ⟨hhere.1.symm, rfl⟩, hhere.1, h.owned.gone client remoteId hnew]
    · have hother : ¬(client = k ∧ remoteId = rid) := by
        rintro ⟨rfl, rfl⟩
        exact hnew j hj
      rw [if_neg hother]
      exact h.owned.mapped k j rid hj
  · have hother : ¬(client = k ∧ remoteId = rid) := by
      rintro ⟨rfl, rfl⟩
      apply hnone sessionId
      rw [hafter, if_pos ⟨rfl, rfl⟩]
    rw [opened_openSession hne, destroyed_openSession hne, if_neg hother]
    apply h.owned.gone k rid
    intro j hj
    apply hnone j
    rw [hafter, if_neg, hj]
    rintro ⟨rfl, rfl⟩
    rw [hfree] at hj
    cases hj

theorem not_owned_of_reused (h : Accounted c) (hlt : client < c.made.length) (hne : remoteId ≠ "")
    (hlive : Live c client remoteId) :
    ¬Owned (openSession client sessionId (some remoteId) c).2 := by
  intro howned
  obtain ⟨j, hj⟩ := (live_iff h.owned).mp hlive
  have hpaid := h.owned.mapped client j remoteId hj
  have hnow : mappedAt (openSession client sessionId (some remoteId) c).2 client sessionId =
      some remoteId := by
    rw [mappedAt_openSession hlt hne sessionId, if_pos ⟨rfl, rfl⟩]
  have htwice := howned.mapped client sessionId remoteId hnow
  rw [opened_openSession hne, destroyed_openSession hne, if_pos ⟨rfl, rfl⟩] at htwice
  omega

theorem not_owned_of_overwritten (h : Accounted c) (hlt : client < c.made.length)
    (hmapped : mappedAt c client sessionId ≠ none) (hne : remoteId ≠ "")
    (hfresh : ¬Live c client remoteId) :
    ¬Owned (openSession client sessionId (some remoteId) c).2 := by
  intro howned
  obtain ⟨old, hmapped⟩ := Option.ne_none_iff_exists'.mp hmapped
  have hafter := mappedAt_openSession hlt hne sessionId
  have hdiffer : remoteId ≠ old := by
    rintro rfl
    exact hfresh ((live_iff h.owned).mpr ⟨sessionId, hmapped⟩)
  have hgone := howned.gone client old fun j hj => by
    rw [hafter] at hj
    split at hj
    · exact hdiffer (Option.some.inj hj)
    · next hother => exact hother ⟨rfl, h.owned.unshared client j sessionId old hj hmapped⟩
  rw [opened_openSession hne, destroyed_openSession hne, if_neg (fun hsame => hdiffer hsame.2)] at hgone
  have hpaid := h.owned.mapped client sessionId old hmapped
  omega

/-- An `OpenSession` keeps the owners exactly if it is for a local id that has no
session, under an id that the server does not use. -/
theorem owned_openSession_iff (h : Accounted c) (hlt : client < c.made.length) (hne : remoteId ≠ "") :
    Owned (openSession client sessionId (some remoteId) c).2 ↔
      mappedAt c client sessionId = none ∧ ¬Live c client remoteId := by
  constructor
  · intro howned
    have hfresh : ¬Live c client remoteId :=
      fun hlive => not_owned_of_reused h hlt hne hlive howned
    refine ⟨?_, hfresh⟩
    by_contra hmapped
    exact not_owned_of_overwritten h hlt hmapped hne hfresh howned
  · rintro ⟨hfree, hfresh⟩
    exact (accounted_openSession h hlt hfree hne hfresh).owned

/-- What a call that ends sessions of one client does: the ones that it ends are
destroyed once each, and the others stay. -/
structure Ended (c c' : Clients) (client : Nat) (ends : Nat → Prop) : Prop where
  oneEach : OneEach c'
  kept : ∀ k j, ¬(k = client ∧ ends j) → mappedAt c' k j = mappedAt c k j
  unmapped : ∀ j, ends j → mappedAt c' client j = none
  opened : ∀ k rid, opened c' k rid = opened c k rid
  same : ∀ k rid, (∀ j, ends j → k = client → mappedAt c client j ≠ some rid) →
    destroyed c' k rid = destroyed c k rid
  once : ∀ j rid, ends j → mappedAt c client j = some rid →
    destroyed c' client rid = destroyed c client rid + 1

theorem accounted_of_ended {ends : Nat → Prop} (h : Accounted c) (hended : Ended c c' client ends) :
    Accounted c' := by
  have hback : ∀ k j rid, mappedAt c' k j = some rid → mappedAt c k j = some rid ∧
      ∀ j', ends j' → k = client → mappedAt c client j' ≠ some rid := by
    intro k j rid hj
    have hhere : ¬(k = client ∧ ends j) := by
      rintro ⟨rfl, hends⟩
      rw [hended.unmapped j hends] at hj
      cases hj
    have hold : mappedAt c k j = some rid := (hended.kept k j hhere) ▸ hj
    refine ⟨hold, fun j' hends hk hj' => hhere ⟨hk, ?_⟩⟩
    rw [h.owned.unshared k j j' rid hold (hk ▸ hj')]
    exact hends
  refine ⟨hended.oneEach, fun k j rid hj => ?_, fun k j j' rid hj hj' => ?_, fun k j rid hj => ?_,
    fun k rid hnone => ?_⟩
  · exact h.named k j rid (hback k j rid hj).1
  · exact h.owned.unshared k j j' rid (hback k j rid hj).1 (hback k j' rid hj').1
  · obtain ⟨hold, hothers⟩ := hback k j rid hj
    rw [hended.opened, hended.same k rid hothers]
    exact h.owned.mapped k j rid hold
  · by_cases hends : ∃ j, ends j ∧ k = client ∧ mappedAt c client j = some rid
    · obtain ⟨j, hj, rfl, hmapped⟩ := hends
      rw [hended.opened, hended.once j rid hj hmapped]
      exact h.owned.mapped k j rid hmapped
    · have hothers : ∀ j, ends j → k = client → mappedAt c client j ≠ some rid :=
        fun j hj hk hmapped => hends ⟨j, hj, hk, hmapped⟩
      rw [hended.opened, hended.same k rid hothers]
      apply h.owned.gone k rid
      intro j hj
      by_cases hhere : k = client ∧ ends j
      · exact hothers j hhere.2 hhere.1 (hhere.1 ▸ hj)
      · exact hnone j ((hended.kept k j hhere).trans hj)

theorem mappedAt_destroySession_named (h : Accounted c) (client sessionId k j : Nat) :
    mappedAt (destroySession client sessionId c).2 k j =
      if k = client ∧ j = sessionId then none else mappedAt c k j := by
  cases hmapped : mappedAt c client sessionId with
  | none =>
      rw [destroySession_unmapped hmapped]
      split
      · next hhere => rw [hhere.1, hhere.2, hmapped]
      · rfl
  | some remoteId =>
      exact mappedAt_destroySession hmapped (h.named client sessionId remoteId hmapped) k j

theorem accounted_destroySession (h : Accounted c) (client sessionId : Nat) :
    Accounted (destroySession client sessionId c).2 := by
  cases hmapped : mappedAt c client sessionId with
  | none =>
      rw [destroySession_unmapped hmapped]
      exact h
  | some remoteId =>
      have hne := h.named client sessionId remoteId hmapped
      have hafter := mappedAt_destroySession hmapped hne
      have hcalls := destroySession_calls hmapped hne
      have hone := (destroySession_sessionsOnly client sessionId c).oneEach h.oneEach
      have hended : Ended c (destroySession client sessionId c).2 client (· = sessionId) := by
        refine ⟨hone, fun k j hother => ?_, fun j hj => ?_, fun k rid => ?_,
          fun k rid hothers => ?_, fun j rid hj hrid => ?_⟩
        · rw [hafter, if_neg hother]
        · rw [hafter, if_pos ⟨rfl, hj⟩]
        · rw [opened, hcalls, List.countP_append]
          rfl
        · have hother : destroysRemote k rid (.destroySession client sessionId remoteId) = false := by
            rw [destroysRemote, Bool.and_eq_false_iff, decide_eq_false_iff_not,
              decide_eq_false_iff_not]
            by_contra hboth
            push Not at hboth
            exact hothers sessionId rfl hboth.1.symm (hboth.2 ▸ hmapped)
          rw [destroyed, hcalls, List.countP_append, List.countP_singleton, hother]
          rfl
        · subst hj
          cases hmapped.symm.trans hrid
          rw [destroyed, hcalls, List.countP_append, List.countP_singleton, if_pos, destroyed]
          simp [destroysRemote]
      exact accounted_of_ended h hended

section

variable {o : PooledClient} (ho : c.made[client]? = some o) (hstub : o.stub = true)

include ho hstub

theorem shutdown_run :
    (shutdown client c).2 =
      { c with
        made := c.made.modify client fun o => { o with sessions := ∅, stub := false }
        calls := c.calls ++
          o.sessions.entries.map fun entry => .destroySession client entry.1 entry.2 } := by
  rw [shutdown, ho]
  simp [hstub]

theorem mappedAt_shutdown (k j : Nat) :
    mappedAt (shutdown client c).2 k j = if k = client then none else mappedAt c k j := by
  rw [shutdown_run ho hstub]
  simp only [mappedAt, List.getElem?_modify]
  by_cases hk : client = k
  · subst hk
    simp [ho]
  · rw [if_neg (Ne.symm hk)]
    simp [hk]

theorem opened_shutdown (k : Nat) (rid : String) :
    opened (shutdown client c).2 k rid = opened c k rid := by
  rw [opened, shutdown_run ho hstub, List.countP_append, List.countP_map]
  exact congrArg (opened c k rid + ·) (List.countP_eq_zero.mpr fun entry _ => Bool.false_ne_true)

theorem destroyed_shutdown (k : Nat) (rid : String) :
    destroyed (shutdown client c).2 k rid =
      destroyed c k rid + if client = k then (values o.sessions).count rid else 0 := by
  rw [destroyed, shutdown_run ho hstub, List.countP_append, List.countP_map, ← destroyed]
  congr 1
  split
  · next hk =>
    rw [values, List.count, List.countP_map]
    congr 1
    funext entry
    simp [destroysRemote, hk, beq_eq_decide]
  · next hk =>
    rw [List.countP_eq_zero]
    intro entry _
    simp [destroysRemote, hk]

end

theorem accounted_shutdown (h : Accounted c) (client : Nat) : Accounted (shutdown client c).2 := by
  cases ho : c.made[client]? with
  | none =>
      rw [shutdown, ho]
      exact h
  | some o =>
      cases hstub : o.stub with
      | false =>
          rw [shutdown, ho]
          simpa [hstub] using h
      | true =>
          have hlookup : ∀ j, mappedAt c client j = o.sessions.lookup j := by
            intro j
            rw [mappedAt, ho, Option.bind_some]
          have hone : OneEach (shutdown client c).2 := by
            rw [shutdown_run ho hstub]
            exact oneEach_modify h.oneEach client _ _
          have hended : Ended c (shutdown client c).2 client fun _ => True := by
            refine ⟨hone, fun k j hother => ?_, fun j _ => ?_, opened_shutdown ho hstub,
              fun k rid hothers => ?_, fun j rid _ hrid => ?_⟩
            · rw [mappedAt_shutdown ho hstub, if_neg fun hk => hother ⟨hk, trivial⟩]
            · rw [mappedAt_shutdown ho hstub, if_pos rfl]
            · rw [destroyed_shutdown ho hstub]
              split
              · next hk =>
                rw [count_values_absent fun j => hlookup j ▸ hothers j trivial hk.symm]
                rfl
              · rfl
            · rw [destroyed_shutdown ho hstub, if_pos rfl,
                count_values_unique (hlookup j ▸ hrid) fun j' hj' =>
                  h.owned.unshared client j' j rid ((hlookup j').trans hj') hrid]
          exact accounted_of_ended h hended

theorem accounted_shutdownEach (h : Accounted c) (clients : List Nat) :
    Accounted (shutdownEach clients c).2 := by
  induction clients generalizing c with
  | nil => exact h
  | cons client rest ih => exact ih (accounted_shutdown h client)

theorem accounted_shutdownAll (h : Accounted c) : Accounted (shutdownAll c).2 := by
  have heach := accounted_shutdownEach h (values c.pool)
  exact ⟨⟨nofun, nofun⟩, heach.named, heach.owned.unshared, heach.owned.mapped, heach.owned.gone⟩

end

end RimeWinime.Ownership
