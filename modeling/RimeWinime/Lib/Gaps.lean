import Mathlib.Data.List.Range

namespace RimeWinime.Gaps

variable {α : Type}

def present (f : Nat → Option α) (start n : Nat) : List α := (List.range' start n).filterMap f

/-- No empty slot stands before a filled one. -/
def NoGap (f : Nat → Option α) (start n : Nat) : Prop :=
  ∀ i j, i < j → j < n → f (start + j) ≠ none → f (start + i) ≠ none

def InPlace (f : Nat → Option α) (start : Nat) (values : List α) : Prop :=
  ∀ i x, values[i]? = some x → f (start + i) = some x

theorem present_some {f : Nat → Option α} {start : Nat} {x : α} (h : f start = some x) (n : Nat) :
    present f start (n + 1) = x :: present f (start + 1) n := by
  rw [present, List.range'_succ, List.filterMap_cons_some h]
  rfl

theorem present_none {f : Nat → Option α} {start : Nat} (h : f start = none) (n : Nat) :
    present f start (n + 1) = present f (start + 1) n := by
  rw [present, List.range'_succ, List.filterMap_cons_none h]
  rfl

theorem present_append (f : Nat → Option α) (start m n : Nat) :
    present f start (m + n) = present f start m ++ present f (start + m) n := by
  rw [present, ← List.range'_append_1, List.filterMap_append]
  rfl

theorem length_present_le (f : Nat → Option α) (start n : Nat) : (present f start n).length ≤ n :=
  (List.length_filterMap_le f _).trans_eq List.length_range'

theorem present_eq_nil {f : Nat → Option α} {start n : Nat} :
    present f start n = [] ↔ ∀ i, i < n → f (start + i) = none := by
  rw [present, List.filterMap_eq_nil_iff]
  constructor
  · intro h i hi
    exact h _ (List.mem_range'_1.mpr ⟨Nat.le_add_right _ _, Nat.add_lt_add_left hi _⟩)
  · intro h slot hslot
    obtain ⟨hle, hlt⟩ := List.mem_range'_1.mp hslot
    have hi := h (slot - start) (by omega)
    rwa [Nat.add_sub_cancel' hle] at hi

theorem next_slot (start i : Nat) : start + 1 + i = start + (i + 1) := by omega

theorem noGap_some {f : Nat → Option α} {start : Nat} {x : α} (h : f start = some x) (n : Nat) :
    NoGap f start (n + 1) ↔ NoGap f (start + 1) n := by
  constructor
  · intro hgap i j hij hj hfilled
    rw [next_slot] at hfilled ⊢
    exact hgap (i + 1) (j + 1) (Nat.succ_lt_succ hij) (Nat.succ_lt_succ hj) hfilled
  · intro hgap i j hij hj hfilled
    cases i with
    | zero =>
        rw [Nat.add_zero, h]
        exact Option.some_ne_none x
    | succ i =>
        obtain ⟨j, rfl⟩ : ∃ k, j = k + 1 := ⟨j - 1, by omega⟩
        rw [← next_slot] at hfilled ⊢
        exact hgap i j (Nat.lt_of_succ_lt_succ hij) (Nat.lt_of_succ_lt_succ hj) hfilled

theorem noGap_none {f : Nat → Option α} {start : Nat} (h : f start = none) (n : Nat) :
    NoGap f start (n + 1) ↔ present f (start + 1) n = [] := by
  rw [present_eq_nil]
  constructor
  · intro hgap i hi
    rw [next_slot]
    by_contra hfilled
    exact hgap 0 (i + 1) (Nat.succ_pos i) (Nat.succ_lt_succ hi) hfilled h
  · intro hempty i j hij hj hfilled
    obtain ⟨j, rfl⟩ : ∃ k, j = k + 1 := ⟨j - 1, by omega⟩
    have hnone := hempty j (Nat.lt_of_succ_lt_succ hj)
    rw [next_slot] at hnone
    exact absurd hnone hfilled

theorem inPlace_cons {f : Nat → Option α} {start : Nat} {x : α} (h : f start = some x)
    (values : List α) : InPlace f start (x :: values) ↔ InPlace f (start + 1) values := by
  constructor
  · intro hplace i y hy
    rw [next_slot]
    exact hplace (i + 1) y hy
  · intro hplace i y hy
    cases i with
    | zero =>
        cases hy
        exact h
    | succ i =>
        rw [← next_slot]
        exact hplace i y hy

theorem inPlace_none {f : Nat → Option α} {start : Nat} (h : f start = none) (values : List α) :
    InPlace f start values ↔ values = [] := by
  constructor
  · intro hplace
    cases values with
    | nil => rfl
    | cons x values => cases (hplace 0 x rfl).symm.trans h
  · rintro rfl i x hx
    cases hx

/-- Values keep their positions exactly when nothing is dropped before one. -/
theorem inPlace_iff (f : Nat → Option α) (start n : Nat) :
    InPlace f start (present f start n) ↔ NoGap f start n := by
  induction n generalizing start with
  | zero =>
      refine iff_of_true (fun i x h => ?_) fun i j _ hj => absurd hj (Nat.not_lt_zero j)
      cases h
  | succ n ih =>
      cases h : f start with
      | some x => rw [present_some h, inPlace_cons h, noGap_some h, ih]
      | none => rw [present_none h, inPlace_none h, noGap_none h]

theorem length_present {f : Nat → Option α} {start n : Nat}
    (h : ∀ i, i < n → f (start + i) ≠ none) : (present f start n).length = n := by
  induction n generalizing start with
  | zero => rfl
  | succ n ih =>
      obtain ⟨x, hx⟩ := Option.ne_none_iff_exists'.mp (h 0 (Nat.succ_pos n))
      rw [Nat.add_zero] at hx
      rw [present_some hx, List.length_cons, ih]
      intro i hi
      rw [next_slot]
      exact h (i + 1) (Nat.succ_lt_succ hi)

/-- A filled slot with no empty one before it is at its place among those present. -/
theorem present_at {f : Nat → Option α} {start n p : Nat} {x : α} (hp : p < n)
    (hx : f (start + p) = some x) (hbefore : ∀ i, i < p → f (start + i) ≠ none) :
    (present f start n)[p]? = some x := by
  obtain ⟨rest, rfl⟩ : ∃ rest, n = p + (rest + 1) := ⟨n - p - 1, by omega⟩
  have hlength := length_present hbefore
  rw [present_append, List.getElem?_append_right hlength.le, hlength, Nat.sub_self, present_some hx]
  rfl

end RimeWinime.Gaps
