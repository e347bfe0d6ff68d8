import Mathlib.Data.List.Basic

namespace RimeWinime.Until

variable {α : Type}

/-- The elements up to the first with `p`, that one included. -/
def upTo (p : α → Bool) : List α → List α
  | [] => []
  | a :: as => if p a then [a] else a :: upTo p as

variable {p : α → Bool}

theorem upTo_of_pos {a : α} (h : p a = true) (as : List α) : upTo p (a :: as) = [a] := by
  simp [upTo, h]

theorem upTo_of_neg {a : α} (h : p a = false) (as : List α) : upTo p (a :: as) = a :: upTo p as := by
  simp [upTo, h]

theorem upTo_append_of_none {as : List α} (h : as.any p = false) (bs : List α) :
    upTo p (as ++ bs) = as ++ upTo p bs := by
  induction as with
  | nil => rfl
  | cons a as ih =>
      rw [List.any_cons, Bool.or_eq_false_iff] at h
      rw [List.cons_append, upTo_of_neg h.1, ih h.2, List.cons_append]

theorem upTo_append_of_any {as : List α} (h : as.any p = true) (bs : List α) :
    upTo p (as ++ bs) = upTo p as := by
  induction as with
  | nil => cases h
  | cons a as ih =>
      cases ha : p a with
      | true => rw [List.cons_append, upTo_of_pos ha, upTo_of_pos ha]
      | false =>
          rw [List.any_cons, ha, Bool.false_or] at h
          rw [List.cons_append, upTo_of_neg ha, upTo_of_neg ha, ih h]

theorem upTo_eq_self {as : List α} : upTo p as = as ↔ as.dropLast.any p = false := by
  induction as with
  | nil => simp [upTo]
  | cons a as ih =>
      cases as with
      | nil => cases ha : p a <;> simp [upTo]
      | cons b as =>
          cases ha : p a with
          | true => simp [upTo_of_pos ha, ha]
          | false => simp [upTo_of_neg ha, ha, ih]

end RimeWinime.Until
