import Mathlib.Data.List.Infix
import RimeWinime.Lib.Ledger

namespace RimeWinime.Nesting

open Ledger

variable {R : Type} [DecidableEq R]

/-- Nothing is held any more, and nothing can be, once the wrong thing has been given back or used. -/
def pass (inside : Option (List R)) : Mark R → Option (List R)
  | .other => inside
  | .gains r => inside.map (r :: ·)
  | .gives r => inside.bind fun stack => if stack.head? = some r then some stack.tail else none
  | .uses r => inside.bind fun stack => if r ∈ stack then some stack else none

def nested (marks : List (Mark R)) : Option (List R) := marks.foldl pass (some [])

theorem pass_gives (r : R) (stack : List R) : pass (some (r :: stack)) (.gives r) = some stack :=
  if_pos rfl

@[simp] theorem pass_gains_gives (inside : Option (List R)) (r : R) :
    pass (pass inside (.gains r)) (.gives r) = inside := by
  cases inside with
  | none => rfl
  | some stack => exact pass_gives r stack

@[simp] theorem pass_none (m : Mark R) : pass (none : Option (List R)) m = none := by
  cases m <;> rfl

theorem foldl_pass_none (marks : List (Mark R)) : marks.foldl pass none = none := by
  induction marks with
  | nil => rfl
  | cons m marks ih => rw [List.foldl_cons, pass_none, ih]

theorem nested_of_prefix {past marks : List (Mark R)} {stack : List R} (hpast : past <+: marks)
    (hmarks : nested marks = some stack) : ∃ inside, nested past = some inside := by
  obtain ⟨rest, rfl⟩ := hpast
  rw [nested, List.foldl_append] at hmarks
  cases hp : nested past with
  | none =>
      rw [nested] at hp
      rw [hp, foldl_pass_none] at hmarks
      cases hmarks
  | some inside => exact ⟨inside, rfl⟩

end RimeWinime.Nesting
