import Mathlib.Data.List.Range
import RimeWinime.Host.Resources
import RimeWinime.Lib.Run

namespace RimeWinime.SessionTable

open World Win32 Session Backend Run Resources

inductive Op
  | openSession (hostMade childMade : Bool)
  | destroySession (id : Nat)
  | drop

/-- The adapter and its world, the sessions it has opened with the ids it gave
for them, and whether it is still there. -/
structure TableState where
  hosted : Hosted ResourceWorld
  opened : List (Nat × WinImmSession)
  alive : Bool

def TableState.sessions (st : TableState) : AList (fun _ : Nat => WinImmSession) :=
  st.hosted.1.sessions

def TableState.log (st : TableState) : List Effect := st.hosted.2.log

def returnedId (st : TableState) : Op → Option Nat
  | .openSession hostMade childMade =>
      if st.alive then (openSession (resourceApi hostMade childMade) st.hosted).1 else none
  | _ => none

def record (id : Option Nat) (sessions : AList (fun _ : Nat => WinImmSession)) :
    List (Nat × WinImmSession) :=
  match id with
  | none => []
  | some id => ((sessions.lookup id).map fun s => (id, s)).toList

def step (st : TableState) (op : Op) : TableState :=
  if st.alive then
    match op with
    | .openSession hostMade childMade =>
        let r := openSession (resourceApi hostMade childMade) st.hosted
        { st with hosted := r.2, opened := st.opened ++ record r.1 r.2.1.sessions }
    | .destroySession id =>
        { st with hosted := (destroySession (resourceApi true true) id st.hosted).2 }
    | .drop => { st with hosted := (dropAdapter (resourceApi true true) st.hosted).2, alive := false }
  else st

def start (showWindow : Bool) (w : ResourceWorld) : TableState :=
  ⟨(⟨some resourceIme, ∅, showWindow⟩, { w with log := [] }), [], true⟩

/-- Every session that was opened is in the map and untouched, or is not in the
map and was released once; and the id that was given for it leads to no other
session. -/
def Integrity (st : TableState) : Prop :=
  ∀ p ∈ st.opened,
    (((∃ id, st.sessions.lookup id = some p.2) ∧ Times st.log p.2 0) ∨
      ((∀ id, st.sessions.lookup id ≠ some p.2) ∧ Times st.log p.2 1)) ∧
    ∀ s, st.sessions.lookup p.1 = some s → s = p.2

def Intact (st : TableState) (op : Op) : Prop :=
  (∀ id, returnedId st op = some id → st.sessions.lookup id = none) ∧ Integrity (step st op)

def OpensBeforeDestroys (st : TableState) (op : Op) : Prop :=
  returnedId st op ≠ none → ∀ p ∈ st.opened, st.sessions.lookup p.1 = some p.2

/-- The table after operations that opened no session after one was destroyed. -/
structure Sound (st : TableState) : Prop where
  ime : st.hosted.1.imeFunctions = some resourceIme
  ids : st.opened.map (·.1) = List.range' 1 st.opened.length
  known : ∀ id s, st.sessions.lookup id = some s → (id, s) ∈ st.opened
  made : ∀ p ∈ st.opened, MadeBetween 0 st.hosted.2.made p.2
  logged : ∀ effect ∈ st.log, effect.handle < st.hosted.2.made
  apart : ∀ p ∈ st.opened, ∀ q ∈ st.opened, p.1 ≠ q.1 → Apart p.2 q.2
  accounted : ∀ p ∈ st.opened,
    (st.sessions.lookup p.1 = some p.2 ∧ Times st.log p.2 0) ∨
      (st.sessions.lookup p.1 = none ∧ Times st.log p.2 1)

theorem mem_ids {st : TableState} (h : Sound st) {id : Nat} :
    (∃ s, (id, s) ∈ st.opened) ↔ 1 ≤ id ∧ id ≤ st.opened.length := by
  have hids : id ∈ st.opened.map (·.1) ↔ id ∈ List.range' 1 st.opened.length := by rw [h.ids]
  rw [List.mem_range'_1] at hids
  constructor
  · rintro ⟨s, hs⟩
    have hmem := hids.mp (List.mem_map.mpr ⟨(id, s), hs, rfl⟩)
    omega
  · intro hle
    obtain ⟨⟨j, s⟩, hs, rfl⟩ := List.mem_map.mp (hids.mpr (by omega))
    exact ⟨s, hs⟩

theorem session_unique {st : TableState} (h : Sound st) {id : Nat} {s t : WinImmSession}
    (hs : (id, s) ∈ st.opened) (ht : (id, t) ∈ st.opened) : s = t := by
  have hnodup : (st.opened.map (·.1)).Nodup := by
    rw [h.ids]
    exact List.nodup_range'
  exact congrArg Prod.snd (List.inj_on_of_nodup_map hnodup hs ht rfl)

theorem next_id_of_live {st : TableState} (h : Sound st)
    (hlive : ∀ p ∈ st.opened, st.sessions.lookup p.1 = some p.2) :
    st.sessions.entries.length = st.opened.length := by
  have hkeys : st.sessions.keys.length = st.sessions.entries.length := List.length_map ..
  have hids : (st.opened.map (·.1)).length = st.opened.length := List.length_map ..
  have hnodup : (st.opened.map (·.1)).Nodup := by
    rw [h.ids]
    exact List.nodup_range'
  have hle : st.sessions.keys ⊆ st.opened.map (·.1) := by
    intro id hid
    obtain ⟨s, hs⟩ := Option.isSome_iff_exists.mp (AList.lookup_isSome.mpr hid)
    exact List.mem_map.mpr ⟨(id, s), h.known id s hs, rfl⟩
  have hge : st.opened.map (·.1) ⊆ st.sessions.keys := by
    intro id hid
    obtain ⟨⟨j, s⟩, hp, rfl⟩ := List.mem_map.mp hid
    exact AList.lookup_isSome.mp (by rw [hlive _ hp]; rfl)
  have h1 := (List.subperm_of_subset st.sessions.keys_nodup hle).length_le
  have h2 := (List.subperm_of_subset hnodup hge).length_le
  omega

theorem next_id_of_destroyed {st : TableState} (h : Sound st) {p : Nat × WinImmSession}
    (hp : p ∈ st.opened) (hgone : st.sessions.lookup p.1 = none) :
    st.sessions.entries.length < st.opened.length := by
  have hkeys : st.sessions.keys.length = st.sessions.entries.length := List.length_map ..
  have hmem : p.1 ∈ st.opened.map (·.1) := List.mem_map.mpr ⟨p, hp, rfl⟩
  have hle : st.sessions.keys ⊆ (st.opened.map (·.1)).erase p.1 := by
    intro id hid
    obtain ⟨s, hs⟩ := Option.isSome_iff_exists.mp (AList.lookup_isSome.mpr hid)
    have hne : id ≠ p.1 := by
      rintro rfl
      rw [hgone] at hs
      cases hs
    exact (List.mem_erase_of_ne hne).mpr (List.mem_map.mpr ⟨(id, s), h.known id s hs, rfl⟩)
  have hlen := (List.subperm_of_subset st.sessions.keys_nodup hle).length_le
  rw [List.length_erase_of_mem hmem, List.length_map] at hlen
  have hpos := List.length_pos_of_mem hp
  omega

theorem integrity_of_sound {st : TableState} (h : Sound st) : Integrity st := by
  intro p hp
  refine ⟨?_, fun s hs => session_unique h (h.known p.1 s hs) hp⟩
  rcases h.accounted p hp with ⟨hlive, htimes⟩ | ⟨hgone, htimes⟩
  · exact Or.inl ⟨⟨p.1, hlive⟩, htimes⟩
  · refine Or.inr ⟨fun id hid => ?_, htimes⟩
    by_cases he : id = p.1
    · rw [he, hgone] at hid
      cases hid
    · exact (h.apart _ (h.known id p.2 hid) p hp he).1 rfl

theorem open_spec {h : Hosted ResourceWorld} (hi : h.1.imeFunctions = some resourceIme)
    (childMade : Bool) :
    ∃ s w', openSession (resourceApi true childMade) h =
        (some (h.1.sessions.entries.length + 1),
          { h.1 with sessions := h.1.sessions.insert (h.1.sessions.entries.length + 1) s }, w') ∧
      w'.log = h.2.log ++ [.select s.himc true] ∧ MadeBetween h.2.made w'.made s := by
  obtain ⟨s, w, hcreate, hlog, hmade⟩ :=
    create_makes childMade (h.1.sessions.entries.length + 1) resourceIme.hModule h.1.showWindow h.2
  refine ⟨s, note (.select s.himc true) w, ?_, ?_, hmade⟩
  · simp only [openSession, hi, hcreate, activate_log]
  · rw [note, hlog]

theorem open_fails {h : Hosted ResourceWorld} (hi : h.1.imeFunctions = some resourceIme)
    (childMade : Bool) : openSession (resourceApi false childMade) h = (none, h) := by
  simp only [openSession, hi, create_fails]

theorem sound_open {st : TableState} (h : Sound st) (ha : st.alive = true) (childMade : Bool)
    (hlive : ∀ p ∈ st.opened, st.sessions.lookup p.1 = some p.2) :
    Sound (step st (.openSession true childMade)) := by
  obtain ⟨s, w, hopen, hlog, hmade⟩ := open_spec h.ime childMade
  have hlen : st.hosted.1.sessions.entries.length = st.opened.length := next_id_of_live h hlive
  have hgrown : st.hosted.2.made ≤ w.made := Nat.le_of_lt (Nat.lt_of_le_of_lt hmade.1.1 hmade.1.2)
  have hstep : step st (.openSession true childMade) =
      { st with
        hosted := ({ st.hosted.1 with
          sessions := st.hosted.1.sessions.insert (st.opened.length + 1) s }, w)
        opened := st.opened ++ [(st.opened.length + 1, s)] } := by
    simp [step, ha, hopen, record, hlen]
  have hold : ∀ p ∈ st.opened, p.1 ≠ st.opened.length + 1 := by
    intro p hp
    have hle := (mem_ids h).mp ⟨p.2, hp⟩
    omega
  rw [hstep]
  constructor
  case ime => exact h.ime
  case ids =>
    rw [List.map_append, h.ids, List.length_append, List.length_singleton, List.range'_1_concat,
      Nat.add_comm 1]
    rfl
  case known =>
    intro id t ht
    by_cases hid : id = st.opened.length + 1
    · subst hid
      have hst : s = t := Option.some.inj ((AList.lookup_insert _).symm.trans ht)
      rw [hst]
      exact List.mem_append_right _ List.mem_cons_self
    · exact List.mem_append_left _ (h.known id t ((AList.lookup_insert_ne hid).symm.trans ht))
  case made =>
    intro p hp
    rcases List.mem_append.mp hp with hp | hp
    · obtain ⟨h1, h2, h3⟩ := h.made p hp
      exact ⟨⟨h1.1, Nat.lt_of_lt_of_le h1.2 hgrown⟩, ⟨h2.1, Nat.lt_of_lt_of_le h2.2 hgrown⟩,
        ⟨h3.1, Nat.lt_of_lt_of_le h3.2 hgrown⟩⟩
    · obtain rfl := List.mem_singleton.mp hp
      obtain ⟨h1, h2, h3⟩ := hmade
      exact ⟨⟨Nat.zero_le _, h1.2⟩, ⟨Nat.zero_le _, h2.2⟩, ⟨Nat.zero_le _, h3.2⟩⟩
  case logged =>
    intro effect he
    have he' : effect ∈ st.log ++ [.select s.himc true] := hlog ▸ he
    rcases List.mem_append.mp he' with he | he
    · exact Nat.lt_of_lt_of_le (h.logged effect he) hgrown
    · obtain rfl := List.mem_singleton.mp he
      exact hmade.1.2
  case apart =>
    intro p hp q hq hne
    rcases List.mem_append.mp hp with hp | hp <;> rcases List.mem_append.mp hq with hq | hq
    · exact h.apart p hp q hq hne
    · obtain rfl := List.mem_singleton.mp hq
      exact (apart_of_between (h.made p hp) hmade).1
    · obtain rfl := List.mem_singleton.mp hp
      exact (apart_of_between (h.made q hq) hmade).2
    · obtain rfl := List.mem_singleton.mp hp
      obtain rfl := List.mem_singleton.mp hq
      exact absurd rfl hne
  case accounted =>
    intro p hp
    have hactive (n : Nat) (ht : Times st.log p.2 n) : Times w.log p.2 n := by
      rw [hlog]
      exact ht.append (times_activation p.2 s.himc)
    rcases List.mem_append.mp hp with hp | hp
    · have hlookup : (st.sessions.insert (st.opened.length + 1) s).lookup p.1 = st.sessions.lookup p.1 :=
        AList.lookup_insert_ne (hold p hp)
      rcases h.accounted p hp with ⟨hl, ht⟩ | ⟨hl, ht⟩
      · exact Or.inl ⟨hlookup.trans hl, hactive 0 ht⟩
      · exact Or.inr ⟨hlookup.trans hl, hactive 1 ht⟩
    · obtain rfl := List.mem_singleton.mp hp
      exact Or.inl ⟨AList.lookup_insert _, hactive 0 (times_of_earlier hmade h.logged)⟩

theorem sound_destroy {st : TableState} (h : Sound st) (ha : st.alive = true) (id : Nat) :
    Sound (step st (.destroySession id)) := by
  cases hid : st.hosted.1.sessions.lookup id with
  | none =>
      have hsame : (destroySession (resourceApi true true) id st.hosted).2 = st.hosted := by
        rw [destroySession, hid]
      simp only [step, ha, if_true, hsame]
      rw [← ha]
      exact h
  | some s =>
      have hs : (id, s) ∈ st.opened := h.known id s hid
      have hstep : step st (.destroySession id) =
          { st with hosted := ({ st.hosted.1 with sessions := st.hosted.1.sessions.erase id },
            { st.hosted.2 with log := st.log ++ releaseLog s }) } := by
        simp [step, ha, destroySession, hid, h.ime, releaseSession_log, TableState.log]
      rw [hstep]
      constructor
      case ime => exact h.ime
      case ids => exact h.ids
      case known =>
        intro j t ht
        by_cases hj : j = id
        · rw [hj] at ht
          exact absurd ((AList.lookup_erase id _).symm.trans ht) (by simp)
        · exact h.known j t ((AList.lookup_erase_ne hj).symm.trans ht)
      case made => exact h.made
      case logged =>
        intro effect he
        rcases List.mem_append.mp he with he | he
        · exact h.logged effect he
        · exact (duty_handle (h.made _ hs) (mem_releaseLog he)).2
      case apart => exact h.apart
      case accounted =>
        intro p hp
        by_cases hpid : p.1 = id
        · have hps : p.2 = s := session_unique h hp (hpid ▸ hs)
          refine Or.inr ⟨hpid ▸ AList.lookup_erase id _, ?_⟩
          rcases h.accounted p hp with ⟨-, ht⟩ | ⟨hl, -⟩
          · rw [hps] at ht ⊢
            exact (Nat.zero_add 1) ▸ ht.append (count_release_own s)
          · rw [hpid, TableState.sessions, hid] at hl
            cases hl
        · have hlookup := AList.lookup_erase_ne (s := st.sessions) hpid
          have hother := count_release_other (h.apart p hp (id, s) hs hpid)
          rcases h.accounted p hp with ⟨hl, ht⟩ | ⟨hl, ht⟩
          · exact Or.inl ⟨hlookup.trans hl, ht.append hother⟩
          · exact Or.inr ⟨hlookup.trans hl, ht.append hother⟩

theorem sound_drop {st : TableState} (h : Sound st) (ha : st.alive = true) : Sound (step st .drop) := by
  have hstep : step st .drop =
      { st with
        hosted := ({ st.hosted.1 with sessions := ∅ }, { st.hosted.2 with
          log := st.log ++ (st.sessions.entries.map (·.2)).flatMap releaseLog })
        alive := false } := by
    simp [step, ha, dropAdapter, h.ime, releaseAll_log, TableState.log, TableState.sessions]
  have hknown : ∀ e ∈ st.sessions.entries, (e.1, e.2) ∈ st.opened :=
    fun e he => h.known e.1 e.2 (AList.mem_lookup_iff.mpr he)
  have hpairwise : (st.sessions.entries.map (·.2)).Pairwise fun t u => Apart t u ∧ Apart u t := by
    rw [List.pairwise_map]
    refine (List.nodupKeys_iff_pairwise.mp st.sessions.nodupKeys).imp_of_mem ?_
    intro a b ha hb hne
    exact ⟨h.apart _ (hknown a ha) _ (hknown b hb) hne,
      h.apart _ (hknown b hb) _ (hknown a ha) (Ne.symm hne)⟩
  rw [hstep]
  constructor
  case ime => exact h.ime
  case ids => exact h.ids
  case known => exact fun id s hs => absurd hs (by simp [TableState.sessions])
  case made => exact h.made
  case logged =>
    intro effect he
    rcases List.mem_append.mp he with he | he
    · exact h.logged effect he
    · obtain ⟨s, hs, he⟩ := List.mem_flatMap.mp he
      obtain ⟨e, hmem, rfl⟩ := List.mem_map.mp hs
      exact (duty_handle (h.made _ (hknown e hmem)) (mem_releaseLog he)).2
  case apart => exact h.apart
  case accounted =>
    intro p hp
    refine Or.inr ⟨AList.lookup_empty _, ?_⟩
    rcases h.accounted p hp with ⟨hl, ht⟩ | ⟨hl, ht⟩
    · have hmem : p.2 ∈ st.sessions.entries.map (·.2) :=
        List.mem_map.mpr ⟨⟨p.1, p.2⟩, AList.mem_lookup_iff.mp hl, rfl⟩
      exact (Nat.zero_add 1) ▸ ht.append (times_releases_own hmem hpairwise)
    · refine ht.append (times_releases_other ?_)
      intro t hmem
      obtain ⟨e, he, rfl⟩ := List.mem_map.mp hmem
      refine h.apart p hp _ (hknown e he) ?_
      intro hpe
      rw [hpe, AList.mem_lookup_iff.mpr he] at hl
      cases hl

theorem sound_step {st : TableState} (h : Sound st) (op : Op) (hop : OpensBeforeDestroys st op) :
    Sound (step st op) := by
  cases ha : st.alive with
  | false =>
      have hstep : step st op = st := by simp [step, ha]
      rw [hstep]
      exact h
  | true =>
      cases op with
      | openSession hostMade childMade =>
          cases hostMade with
          | false =>
              simp only [step, ha, if_true, open_fails h.ime, record, List.append_nil]
              rw [← ha]
              exact h
          | true =>
              refine sound_open h ha childMade (hop ?_)
              obtain ⟨s, w, hopen, -⟩ := open_spec h.ime childMade
              simp [returnedId, ha, hopen]
      | destroySession id => exact sound_destroy h ha id
      | drop => exact sound_drop h ha

theorem returned_cases {st : TableState} (h : Sound st) {op : Op} {id : Nat}
    (hid : returnedId st op = some id) :
    st.alive = true ∧ id = st.sessions.entries.length + 1 ∧
      ∃ childMade, op = .openSession true childMade := by
  cases op with
  | destroySession j => cases hid
  | drop => cases hid
  | openSession hostMade childMade =>
      rw [returnedId] at hid
      cases ha : st.alive with
      | false => simp [ha] at hid
      | true =>
          cases hostMade with
          | false => simp [ha, open_fails h.ime] at hid
          | true =>
              obtain ⟨s, w, hopen, -⟩ := open_spec h.ime childMade
              rw [ha, if_pos rfl, hopen] at hid
              exact ⟨rfl, (Option.some.inj hid).symm, childMade, rfl⟩

theorem reused_id {st : TableState} (h : Sound st) {op : Op} (hop : ¬OpensBeforeDestroys st op) :
    ¬Integrity (step st op) := by
  rw [OpensBeforeDestroys, Classical.not_imp] at hop
  obtain ⟨hreturned, hlive⟩ := hop
  obtain ⟨id, hid⟩ := Option.ne_none_iff_exists'.mp hreturned
  obtain ⟨ha, -, childMade, rfl⟩ := returned_cases h hid
  have hgone : ∃ p ∈ st.opened, st.sessions.lookup p.1 = none := by
    by_contra hno
    apply hlive
    intro p hp
    rcases h.accounted p hp with ⟨hl, -⟩ | ⟨hl, -⟩
    · exact hl
    · exact absurd ⟨p, hp, hl⟩ hno
  obtain ⟨p, hp, hpgone⟩ := hgone
  have hlt := next_id_of_destroyed h hp hpgone
  obtain ⟨t, ht⟩ := (mem_ids h).mpr (show 1 ≤ st.sessions.entries.length + 1 ∧ _ by omega)
  obtain ⟨s, w, hopen, -, hmade⟩ := open_spec h.ime childMade
  intro hintegrity
  have hst : s = t := by
    refine (hintegrity (st.sessions.entries.length + 1, t) ?_).2 s ?_
    · simp only [step, ha, if_true]
      exact List.mem_append_left _ ht
    · simp only [step, ha, if_true, hopen]
      exact AList.lookup_insert _
  have hearlier := (h.made _ ht).1.2
  have hlater := hmade.1.1
  rw [hst] at hlater
  exact absurd hearlier (Nat.not_lt.mpr hlater)

theorem intact_iff {st : TableState} (h : Sound st) (op : Op) :
    Intact st op ↔ OpensBeforeDestroys st op := by
  constructor
  · intro hi
    by_contra hop
    exact reused_id h hop hi.2
  · intro hop
    refine ⟨?_, integrity_of_sound (sound_step h op hop)⟩
    intro id hid
    have hlive := hop (by rw [hid]; exact Option.some_ne_none id)
    obtain ⟨-, hnext, -⟩ := returned_cases h hid
    have hlen := next_id_of_live h hlive
    by_contra hused
    obtain ⟨s, hs⟩ := Option.ne_none_iff_exists'.mp hused
    have hle := (mem_ids h).mp ⟨s, h.known id s hs⟩
    omega

theorem sound_start (showWindow : Bool) (w : ResourceWorld) : Sound (start showWindow w) := by
  constructor
  case ime => rfl
  case ids => rfl
  case known => exact fun id s hs => absurd hs (by simp [start, TableState.sessions])
  case made => exact fun _ hp => nomatch hp
  case logged => exact fun _ he => nomatch he
  case apart => exact fun _ hp => nomatch hp
  case accounted => exact fun _ hp => nomatch hp

/-- The session table stays intact through a run exactly when no session is
opened after one was destroyed. -/
theorem table_intact_iff (showWindow : Bool) (w : ResourceWorld) (ops : List Op) :
    Allowed step Intact (start showWindow w) ops ↔
      Allowed step OpensBeforeDestroys (start showWindow w) ops :=
  @allowed_iff_of_invariant _ _ step Intact OpensBeforeDestroys Sound
    (fun _ op h => intact_iff h op) (fun _ op h hop => sound_step h op hop) _
    (sound_start showWindow w) ops

def twoOpened : List Op := [.openSession true true, .openSession true true, .destroySession 1]

/-- After two sessions were opened and the first was destroyed, the next one gets
the id of the second, which is live. The second is never released. -/
theorem reopened_id_is_live :
    returnedId (run step (start false ⟨1, []⟩) twoOpened) (.openSession true true) = some 2 ∧
      ((run step (start false ⟨1, []⟩) twoOpened).sessions.lookup 2).map (·.himc) = some 4 ∧
      (run step (start false ⟨1, []⟩) (twoOpened ++ [.openSession true true, .drop])).log.count
        (.select 4 false) = 0 := by
  decide

end RimeWinime.SessionTable
