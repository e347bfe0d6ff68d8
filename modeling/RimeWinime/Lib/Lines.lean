import Mathlib.Data.List.Basic

namespace RimeWinime.Lines

variable {α : Type} [DecidableEq α]

/-- The lines that a stream completes after the beginning of one, and the line that
it leaves open. -/
def cut (nl : α) : List α → List α → List (List α) × List α
  | carry, [] => ([], carry)
  | carry, a :: as =>
      if a = nl then (carry :: (cut nl [] as).1, (cut nl [] as).2) else cut nl (carry ++ [a]) as

def complete (nl : α) (stream : List α) : List (List α) := (cut nl [] stream).1

def openLine (nl : α) (stream : List α) : List α := (cut nl [] stream).2

variable {nl : α}

theorem cut_newline (carry as : List α) :
    cut nl carry (nl :: as) = (carry :: (cut nl [] as).1, (cut nl [] as).2) := by
  simp [cut]

theorem cut_of_ne {a : α} (h : a ≠ nl) (carry as : List α) :
    cut nl carry (a :: as) = cut nl (carry ++ [a]) as := by
  simp [cut, h]

theorem cut_append (carry a b : List α) :
    cut nl carry (a ++ b) =
      ((cut nl carry a).1 ++ (cut nl (cut nl carry a).2 b).1, (cut nl (cut nl carry a).2 b).2) := by
  induction a generalizing carry with
  | nil => rfl
  | cons c a ih =>
      by_cases hc : c = nl
      · subst c
        simp only [List.cons_append, cut_newline, ih]
      · simp only [List.cons_append, cut_of_ne hc, ih]

theorem cut_of_not_mem {as : List α} (h : nl ∉ as) (carry : List α) :
    cut nl carry as = ([], carry ++ as) := by
  induction as generalizing carry with
  | nil => simp [cut]
  | cons a as ih =>
      rw [List.mem_cons, not_or] at h
      rw [cut_of_ne (Ne.symm h.1), ih h.2, List.append_assoc, List.singleton_append]

theorem not_mem_open {carry : List α} (h : nl ∉ carry) (as : List α) : nl ∉ (cut nl carry as).2 := by
  induction as generalizing carry with
  | nil => exact h
  | cons a as ih =>
      by_cases ha : a = nl
      · subst a
        rw [cut_newline]
        exact ih List.not_mem_nil
      · rw [cut_of_ne ha]
        apply ih
        rw [List.mem_append, List.mem_singleton]
        rintro (hmem | rfl)
        · exact h hmem
        · exact ha rfl

theorem not_mem_openLine (as : List α) : nl ∉ openLine nl as := not_mem_open List.not_mem_nil as

theorem join_cut (carry as : List α) :
    (cut nl carry as).1.flatMap (· ++ [nl]) ++ (cut nl carry as).2 = carry ++ as := by
  induction as generalizing carry with
  | nil => simp [cut]
  | cons a as ih =>
      by_cases ha : a = nl
      · subst a
        rw [cut_newline, List.flatMap_cons, List.append_assoc, ih]
        simp
      · rw [cut_of_ne ha, ih]
        simp

theorem complete_append (a b : List α) :
    complete nl (a ++ b) = complete nl a ++ (cut nl (openLine nl a) b).1 := by
  rw [complete, cut_append]
  rfl

theorem openLine_append (a b : List α) :
    openLine nl (a ++ b) = (cut nl (openLine nl a) b).2 := by
  rw [openLine, cut_append]
  rfl

/-- A line that is open grows into one of those that come of it. -/
theorem exists_of_carry (nl : α) (carry as : List α) :
    ∃ line ∈ (cut nl carry as).1 ++ [(cut nl carry as).2], carry <+: line := by
  induction as generalizing carry with
  | nil => exact ⟨carry, by simp [cut], List.prefix_rfl⟩
  | cons a as ih =>
      by_cases ha : a = nl
      · subst a
        exact ⟨carry, by simp [cut_newline], List.prefix_rfl⟩
      · obtain ⟨line, hline, hcarry⟩ := ih (carry ++ [a])
        rw [cut_of_ne ha]
        exact ⟨line, hline, (List.prefix_append carry [a]).trans hcarry⟩

/-- No line of a stream, the open one included, has this length or more. -/
def Shorter (nl : α) (n : Nat) (stream : List α) : Prop :=
  ∀ line ∈ complete nl stream ++ [openLine nl stream], line.length < n

instance (n : Nat) (stream : List α) : Decidable (Shorter nl n stream) :=
  inferInstanceAs (Decidable (∀ line ∈ complete nl stream ++ [openLine nl stream], line.length < n))

theorem Shorter.of_append {n : Nat} {a b : List α} (h : Shorter nl n (a ++ b)) : Shorter nl n a := by
  intro line hline
  rw [List.mem_append, List.mem_singleton] at hline
  rcases hline with hline | rfl
  · apply h
    rw [complete_append, List.append_assoc]
    exact List.mem_append_left _ hline
  · obtain ⟨longer, hlonger, hgrown⟩ := exists_of_carry nl (openLine nl a) b
    have hmem : longer ∈ complete nl (a ++ b) ++ [openLine nl (a ++ b)] := by
      rw [complete_append, openLine_append, List.append_assoc]
      exact List.mem_append_right _ hlonger
    exact Nat.lt_of_le_of_lt hgrown.length_le (h longer hmem)

end RimeWinime.Lines
