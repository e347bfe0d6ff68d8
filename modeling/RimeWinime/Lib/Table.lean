import Mathlib.Data.List.AList

namespace RimeWinime.Table

variable {κ ν : Type} [DecidableEq κ]

abbrev Map (κ ν : Type) := AList (fun _ : κ => ν)

def values (t : Map κ ν) : List ν := t.entries.map (·.2)

theorem values_insert {t : Map κ ν} {k : κ} (h : k ∉ t) (v : ν) :
    values (t.insert k v) = v :: values t := by
  rw [values, AList.entries_insert_of_notMem h]
  rfl

/-- The entry of `k` can be moved to the front. -/
theorem entries_perm_erase {t : Map κ ν} {k : κ} {v : ν} (h : t.lookup k = some v) :
    t.entries.Perm (⟨k, v⟩ :: (t.erase k).entries) := by
  have hmem : (⟨k, v⟩ : Sigma fun _ : κ => ν) ∈ t.entries := AList.mem_lookup_iff.mp h
  obtain ⟨w, l, r, hl, he, hk⟩ := List.exists_of_kerase (List.mem_keys_of_mem hmem)
  have hin : (⟨k, w⟩ : Sigma fun _ : κ => ν) ∈ t.entries := by
    rw [he]
    exact List.mem_append_right l List.mem_cons_self
  have hw : w = v := by
    have hlook : t.lookup k = some w := AList.mem_lookup_iff.mpr hin
    exact Option.some.inj (hlook.symm.trans h)
  have her : (t.erase k).entries = l ++ r := hk
  rw [her, he, hw]
  exact List.perm_middle

theorem values_perm_erase {t : Map κ ν} {k : κ} {v : ν} (h : t.lookup k = some v) :
    (values t).Perm (v :: values (t.erase k)) := by
  simpa [values] using (entries_perm_erase h).map (·.2)

theorem keys_perm_insert {t : Map κ ν} {k : κ} (h : k ∈ t) (v : ν) :
    (t.insert k v).keys.Perm t.keys := by
  rw [AList.keys_insert]
  exact (List.perm_cons_erase h).symm

theorem keys_insert_fresh {t : Map κ ν} {k : κ} (h : k ∉ t) (v : ν) :
    (t.insert k v).keys = k :: t.keys := by
  rw [AList.keys_insert, List.erase_of_not_mem h]

theorem mem_of_lookup {t : Map κ ν} {k : κ} {v : ν} (h : t.lookup k = some v) : k ∈ t := by
  rw [← AList.lookup_isSome, h]
  rfl

theorem mem_values {t : Map κ ν} {v : ν} : v ∈ values t ↔ ∃ k, t.lookup k = some v := by
  rw [values, List.mem_map]
  constructor
  · rintro ⟨⟨k, w⟩, hp, rfl⟩
    exact ⟨k, AList.mem_lookup_iff.mpr hp⟩
  · rintro ⟨k, hk⟩
    exact ⟨⟨k, v⟩, AList.mem_lookup_iff.mp hk, rfl⟩

theorem count_values_absent [DecidableEq ν] {t : Map κ ν} {v : ν} (h : ∀ k, t.lookup k ≠ some v) :
    (values t).count v = 0 := by
  apply List.count_eq_zero_of_not_mem
  intro hv
  obtain ⟨k, hk⟩ := mem_values.mp hv
  exact h k hk

/-- A value that one key has is there once. -/
theorem count_values_unique [DecidableEq ν] {t : Map κ ν} {k : κ} {v : ν} (h : t.lookup k = some v)
    (honly : ∀ j, t.lookup j = some v → j = k) : (values t).count v = 1 := by
  have hrest : (values (t.erase k)).count v = 0 := by
    apply count_values_absent
    intro j hj
    by_cases hjk : j = k
    · rw [hjk, AList.lookup_erase] at hj
      cases hj
    · rw [AList.lookup_erase_ne hjk] at hj
      exact hjk (honly j hj)
  rw [(values_perm_erase h).count_eq, List.count_cons_self, hrest]

theorem exists_lookup {t : Map κ ν} {k : κ} (h : k ∈ t) : ∃ v, t.lookup k = some v :=
  Option.isSome_iff_exists.mp (AList.lookup_isSome.mpr h)

theorem lookup_insert_eq (t : Map κ ν) (j k : κ) (v : ν) :
    (t.insert k v).lookup j = if j = k then some v else t.lookup j := by
  split
  · next h => rw [h, AList.lookup_insert]
  · next h => exact AList.lookup_insert_ne h

theorem lookup_erase_eq (t : Map κ ν) (j k : κ) :
    (t.erase k).lookup j = if j = k then none else t.lookup j := by
  split
  · next h => rw [h, AList.lookup_erase]
  · next h => exact AList.lookup_erase_ne h

end RimeWinime.Table
