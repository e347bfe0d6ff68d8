import Mathlib.Data.List.Basic

namespace RimeWinime.Text

def copies : Nat → String → String
  | 0, _ => ""
  | n + 1, t => t ++ copies n t

@[simp] theorem copies_zero (t : String) : copies 0 t = "" := rfl

@[simp] theorem copies_one (t : String) : copies 1 t = t := by simp [copies]

@[simp] theorem copies_empty (n : Nat) : copies n "" = "" := by
  induction n with
  | zero => rfl
  | succ n ih => rw [copies, ih, String.append_empty]

theorem copies_add (a b : Nat) (t : String) : copies a t ++ copies b t = copies (a + b) t := by
  induction a with
  | zero => simp
  | succ a ih => rw [copies, String.append_assoc, ih, Nat.succ_add, copies]

theorem length_copies (n : Nat) (t : String) : (copies n t).length = n * t.length := by
  induction n with
  | zero => simp
  | succ n ih => rw [copies, String.length_append, ih, Nat.succ_mul, Nat.add_comm]

theorem length_pos {t : String} (ht : t ≠ "") : 0 < t.length :=
  Nat.pos_of_ne_zero (fun h => ht (String.length_eq_zero_iff.mp h))

theorem copies_eq_empty {n : Nat} {t : String} (ht : t ≠ "") : copies n t = "" ↔ n = 0 := by
  rw [← String.length_eq_zero_iff, length_copies, Nat.mul_eq_zero, or_iff_left]
  exact Nat.ne_of_gt (length_pos ht)

/-- A text stands in place of its copies only when there is one copy. -/
theorem copies_eq_self {n : Nat} {t : String} (ht : t ≠ "") : copies n t = t ↔ n = 1 := by
  constructor
  · intro h
    have hl := congrArg String.length h
    rw [length_copies] at hl
    exact Nat.eq_of_mul_eq_mul_right (length_pos ht) (by rw [hl, Nat.one_mul])
  · rintro rfl
    exact copies_one t

/-- A text stands after another, in place of its copies, only when one of the two is
not there: it is no copy and the other is the text, or it is one after nothing. -/
theorem append_copies_eq_self {b t : String} {n : Nat} (ht : t ≠ "") :
    b ++ copies n t = t ↔ n = 0 ∧ t = b ∨ n = 1 ∧ b = "" := by
  constructor
  · intro h
    have hl := congrArg String.length h
    rw [String.length_append, length_copies] at hl
    have hpos := length_pos ht
    have hn : n = 0 ∨ n = 1 := by
      by_contra hmore
      have htwo : 2 * t.length ≤ n * t.length := Nat.mul_le_mul_right _ (by omega)
      omega
    rcases hn with rfl | rfl
    · rw [copies_zero, String.append_empty] at h
      exact Or.inl ⟨rfl, h.symm⟩
    · exact Or.inr ⟨rfl, String.length_eq_zero_iff.mp (by omega)⟩
  · rintro (⟨rfl, rfl⟩ | ⟨rfl, rfl⟩)
    · rw [copies_zero, String.append_empty]
    · rw [copies_one, String.empty_append]

def concat : List String → String
  | [] => ""
  | t :: ts => t ++ concat ts

@[simp] theorem concat_nil : concat [] = "" := rfl

@[simp] theorem concat_append (a b : List String) : concat (a ++ b) = concat a ++ concat b := by
  induction a with
  | nil => simp
  | cons t a ih => rw [List.cons_append, concat, ih, concat, String.append_assoc]

@[simp] theorem concat_singleton (t : String) : concat [t] = t := String.append_empty

/-- What a text has more than its beginning. -/
def addedText (before after : String) : String := String.ofList (after.toList.drop before.toList.length)

theorem append_addedText {before after : String} (h : ∃ t, after = before ++ t) :
    after = before ++ addedText before after := by
  obtain ⟨t, rfl⟩ := h
  rw [addedText, String.toList_append, List.drop_left, String.ofList_toList]

theorem size_ofList_cons (c : Char) (cs : List Char) :
    (String.ofList (c :: cs)).utf8ByteSize = c.utf8Size + (String.ofList cs).utf8ByteSize := by
  rw [← List.singleton_append, String.ofList_append, String.utf8ByteSize_append,
    ← String.singleton_eq_ofList, String.utf8ByteSize_singleton]

end RimeWinime.Text
