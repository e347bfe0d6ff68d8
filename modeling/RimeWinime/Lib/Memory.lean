import Mathlib.Data.List.Basic

namespace RimeWinime.Memory

variable {α : Type}

/-- What lies in a block of memory, and nothing if part of it lies outside. -/
def load (mem : List α) (pos n : Nat) : Option (List α) :=
  if pos + n ≤ mem.length then some ((mem.drop pos).take n) else none

def store (mem : List α) (pos : Nat) (block : List α) : Option (List α) :=
  if pos + block.length ≤ mem.length then
    some (mem.take pos ++ (block ++ mem.drop (pos + block.length)))
  else none

theorem load_append (before block after : List α) :
    load (before ++ (block ++ after)) before.length block.length = some block := by
  have hin : before.length + block.length ≤ (before ++ (block ++ after)).length := by
    simp only [List.length_append]
    omega
  rw [load, if_pos hin, List.drop_left, List.take_left]

theorem store_of_le {mem : List α} {pos : Nat} {block : List α}
    (h : pos + block.length ≤ mem.length) :
    ∃ after, store mem pos block = some (mem.take pos ++ (block ++ after)) ∧
      (mem.take pos ++ (block ++ after)).length = mem.length := by
  refine ⟨mem.drop (pos + block.length), by rw [store, if_pos h], ?_⟩
  simp only [List.length_append, List.length_take, List.length_drop]
  omega

end RimeWinime.Memory
