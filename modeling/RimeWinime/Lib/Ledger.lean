import Mathlib.Data.Multiset.AddSub

namespace RimeWinime.Ledger

variable {R : Type}

inductive Mark (R : Type)
  | other
  | gains (r : R)
  | gives (r : R)
  | uses (r : R)
deriving DecidableEq

variable [DecidableEq R]

/-- There is no account once something has been used or given back that was not held. -/
def enter (held : Option (Multiset R)) : Mark R → Option (Multiset R)
  | .other => held
  | .gains r => held.map (r ::ₘ ·)
  | .gives r => held.bind (fun h => if r ∈ h then some (h.erase r) else none)
  | .uses r => held.bind (fun h => if r ∈ h then some h else none)

def account (marks : List (Mark R)) : Option (Multiset R) := marks.foldl enter (some 0)

@[simp] theorem enter_other (held : Option (Multiset R)) : enter held .other = held := rfl

@[simp] theorem enter_gains (h : Multiset R) (r : R) : enter (some h) (.gains r) = some (r ::ₘ h) :=
  rfl

theorem enter_gives {h : Multiset R} {r : R} (hr : r ∈ h) :
    enter (some h) (.gives r) = some (h.erase r) := if_pos hr

theorem enter_uses {h : Multiset R} {r : R} (hr : r ∈ h) : enter (some h) (.uses r) = some h :=
  if_pos hr

@[simp] theorem enter_gains_gives (held : Option (Multiset R)) (r : R) :
    enter (enter held (.gains r)) (.gives r) = held := by
  cases held with
  | none => rfl
  | some h =>
      rw [enter_gains, enter_gives (Multiset.mem_cons_self r h), Multiset.erase_cons_head]

@[simp] theorem enter_none (m : Mark R) : enter (none : Option (Multiset R)) m = none := by
  cases m <;> rfl

theorem foldl_enter_none (marks : List (Mark R)) : marks.foldl enter none = none := by
  induction marks with
  | nil => rfl
  | cons m marks ih => rw [List.foldl_cons, enter_none, ih]

theorem account_append (past marks : List (Mark R)) :
    account (past ++ marks) = marks.foldl enter (account past) := List.foldl_append

theorem foldl_gives (things : List R) (rest : Multiset R) :
    (things.map Mark.gives).foldl enter (some ((things : Multiset R) + rest)) = some rest := by
  induction things with
  | nil => rw [List.map_nil, List.foldl_nil, Multiset.coe_nil, Multiset.zero_add]
  | cons r things ih =>
      have hmem : r ∈ ((r :: things : List R) : Multiset R) + rest := by simp
      have hrest : (((r :: things : List R) : Multiset R) + rest).erase r =
          (things : Multiset R) + rest := by
        rw [← Multiset.cons_coe, Multiset.cons_add, Multiset.erase_cons_head]
      rw [List.map_cons, List.foldl_cons, enter_gives hmem, hrest, ih]

theorem account_of_prefix {past marks : List (Mark R)} {h : Multiset R} (hpast : past <+: marks)
    (hmarks : account marks = some h) : ∃ h', account past = some h' := by
  obtain ⟨rest, rfl⟩ := hpast
  rw [account, List.foldl_append] at hmarks
  cases hp : account past with
  | none =>
      rw [account] at hp
      rw [hp, foldl_enter_none] at hmarks
      cases hmarks
  | some h' => exact ⟨h', rfl⟩

theorem count_foldl (r : R) (marks : List (Mark R)) {start h : Multiset R}
    (hmarks : marks.foldl enter (some start) = some h) :
    start.count r + marks.count (.gains r) = marks.count (.gives r) + h.count r := by
  induction marks generalizing start with
  | nil =>
      obtain rfl := Option.some.inj hmarks
      simp
  | cons m marks ih =>
      rw [List.foldl_cons] at hmarks
      cases m with
      | other =>
          have hrest := ih hmarks
          simpa using hrest
      | gains r' =>
          have hrest := ih hmarks
          by_cases hr : r = r'
          · subst hr
            rw [Multiset.count_cons_self] at hrest
            rw [List.count_cons_self, List.count_cons_of_ne (by simp)]
            omega
          · rw [Multiset.count_cons_of_ne hr] at hrest
            rw [List.count_cons_of_ne (fun h => hr (Mark.gains.inj h).symm),
              List.count_cons_of_ne (by simp)]
            exact hrest
      | gives r' =>
          by_cases hmem : r' ∈ start
          · rw [enter_gives hmem] at hmarks
            have hrest := ih hmarks
            by_cases hr : r = r'
            · subst hr
              have hpos := Multiset.count_pos.mpr hmem
              rw [Multiset.count_erase_self] at hrest
              rw [List.count_cons_self, List.count_cons_of_ne (by simp)]
              omega
            · rw [Multiset.count_erase_of_ne hr] at hrest
              rw [List.count_cons_of_ne (by simp),
                List.count_cons_of_ne (fun h => hr (Mark.gives.inj h).symm)]
              exact hrest
          · rw [enter, Option.bind_some, if_neg hmem, foldl_enter_none] at hmarks
            cases hmarks
      | uses r' =>
          by_cases hmem : r' ∈ start
          · rw [enter_uses hmem] at hmarks
            have hrest := ih hmarks
            simpa using hrest
          · rw [enter, Option.bind_some, if_neg hmem, foldl_enter_none] at hmarks
            cases hmarks

theorem count_account (r : R) {marks : List (Mark R)} {h : Multiset R}
    (hmarks : account marks = some h) :
    marks.count (.gains r) = marks.count (.gives r) + h.count r := by
  have hcount := count_foldl r marks hmarks
  rwa [Multiset.count_zero, Nat.zero_add] at hcount

theorem used_is_held {r : R} {past marks : List (Mark R)} {h : Multiset R}
    (hpast : past ++ [.uses r] <+: marks) (hmarks : account marks = some h) :
    past.count (.gives r) < past.count (.gains r) := by
  obtain ⟨h', hh'⟩ := account_of_prefix hpast hmarks
  rw [account, List.foldl_append, List.foldl_cons, List.foldl_nil] at hh'
  cases hbefore : past.foldl enter (some 0) with
  | none =>
      rw [hbefore, enter_none] at hh'
      cases hh'
  | some before =>
      rw [hbefore, enter, Option.bind_some] at hh'
      split at hh'
      · next hmem =>
          have hcount := count_account r hbefore
          have hpos := Multiset.count_pos.mpr hmem
          omega
      · cases hh'

/-- What is there once is used after it has been gained and before it is given back. -/
theorem used_between {r : R} {past marks : List (Mark R)} {h : Multiset R}
    (hpast : past ++ [.uses r] <+: marks) (hmarks : account marks = some h)
    (honce : marks.count (.gains r) ≤ 1) : .gains r ∈ past ∧ .gives r ∉ past := by
  have hheld := used_is_held hpast hmarks
  have hearlier : past <+: marks := (List.prefix_append past [.uses r]).trans hpast
  have hmore : past.count (.gains r) ≤ marks.count (.gains r) := hearlier.sublist.count_le _
  refine ⟨List.count_pos_iff.mp (by omega), fun hgiven => ?_⟩
  have hpos := List.count_pos_iff.mpr hgiven
  omega

/-- Nothing is given back more often than it has been gained, at any time. -/
theorem gives_le_gains (r : R) {past marks : List (Mark R)} {h : Multiset R}
    (hpast : past <+: marks) (hmarks : account marks = some h) :
    past.count (.gives r) ≤ past.count (.gains r) := by
  obtain ⟨h', hh'⟩ := account_of_prefix hpast hmarks
  have hcount := count_account r hh'
  omega

end RimeWinime.Ledger
