import Mathlib.Data.List.Basic

namespace RimeWinime.Drain

variable {α : Type}

/-- Take the first `n` elements with `p` out of a queue, in order, and leave
the others where they are. -/
def drain (p : α → Bool) : Nat → List α → List α × List α
  | 0, q => ([], q)
  | n + 1, q =>
      match q.find? p with
      | none => ([], q)
      | some a => (a :: (drain p n (q.eraseP p)).1, (drain p n (q.eraseP p)).2)

theorem drain_step {p : α → Bool} {q : List α} {a : α} (h : q.find? p = some a) (n : Nat) :
    drain p (n + 1) q = (a :: (drain p n (q.eraseP p)).1, (drain p n (q.eraseP p)).2) := by
  simp [drain, h]

theorem drain_stop {p : α → Bool} {q : List α} (h : q.find? p = none) (n : Nat) :
    drain p n q = ([], q) := by
  cases n <;> simp [drain, h]

theorem drain_cons_of_pos {p : α → Bool} {a : α} (ha : p a = true) (n : Nat) (q : List α) :
    drain p (n + 1) (a :: q) = (a :: (drain p n q).1, (drain p n q).2) := by
  rw [drain_step (List.find?_cons_of_pos ha), List.eraseP_cons_of_pos ha]

theorem drain_cons_of_neg {p : α → Bool} {a : α} (ha : ¬p a = true) (n : Nat) (q : List α) :
    drain p n (a :: q) = ((drain p n q).1, a :: (drain p n q).2) := by
  induction n generalizing q with
  | zero => rfl
  | succ n ih =>
      cases h : q.find? p with
      | none =>
          have h' : (a :: q).find? p = none := by rw [List.find?_cons_of_neg ha, h]
          rw [drain_stop h, drain_stop h']
      | some b =>
          have h' : (a :: q).find? p = some b := by rw [List.find?_cons_of_neg ha, h]
          rw [drain_step h, drain_step h', List.eraseP_cons_of_neg ha, ih]

/-- What comes out are the first `n` elements of the filtered queue. -/
theorem drain_fst (p : α → Bool) (n : Nat) (q : List α) :
    (drain p n q).1 = (q.filter p).take n := by
  induction q generalizing n with
  | nil => rw [drain_stop rfl]; simp
  | cons a q ih =>
      by_cases ha : p a = true
      · cases n with
        | zero => simp [drain]
        | succ n => rw [drain_cons_of_pos ha, List.filter_cons_of_pos ha, ih, List.take_succ_cons]
      · rw [drain_cons_of_neg ha, List.filter_cons_of_neg ha, ih]

theorem drain_all (n : Nat) (q : List α) : drain (fun _ => true) n q = (q.take n, q.drop n) := by
  induction q generalizing n with
  | nil => rw [drain_stop rfl]; simp
  | cons a q ih =>
      cases n with
      | zero => rfl
      | succ n => rw [drain_cons_of_pos rfl, ih, List.take_succ_cons, List.drop_succ_cons]

theorem mem_drain {p : α → Bool} {n : Nat} {q : List α} {a : α} (h : a ∈ (drain p n q).2) :
    a ∈ q := by
  induction q generalizing n with
  | nil => rwa [drain_stop rfl] at h
  | cons b q ih =>
      by_cases hb : p b = true
      · cases n with
        | zero => exact h
        | succ n =>
            rw [drain_cons_of_pos hb] at h
            exact List.mem_cons_of_mem b (ih h)
      · rw [drain_cons_of_neg hb, List.mem_cons] at h
        rcases h with rfl | h
        · exact List.mem_cons_self
        · exact List.mem_cons_of_mem b (ih h)

theorem drain_snd_eq_nil (p : α → Bool) (n : Nat) (q : List α) :
    (drain p n q).2 = [] ↔ (∀ a ∈ q, p a = true) ∧ q.length ≤ n := by
  induction q generalizing n with
  | nil => rw [drain_stop rfl]; simp
  | cons a q ih =>
      by_cases ha : p a = true
      · cases n with
        | zero => simp [drain]
        | succ n => rw [drain_cons_of_pos ha]; simp [ih, ha]
      · rw [drain_cons_of_neg ha]; simp [ha]

end RimeWinime.Drain
