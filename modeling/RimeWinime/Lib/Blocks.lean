import Mathlib.Algebra.Order.Group.Multiset
import RimeWinime.Lib.Ledger
import RimeWinime.Lib.World

namespace RimeWinime.Blocks

open World Ledger

variable {α β : Type}

/-- Blocks are numbered from one as they are made. Number zero is the null pointer. -/
structure Heap where
  made : Nat
  log : List (Mark Nat)

def empty : Heap := ⟨0, []⟩

/-- A pointer that is not null, and what stands in its block. -/
structure Ptr (α : Type) where
  block : Nat
  holds : α
deriving DecidableEq

def alloc : Act Heap Nat := fun heap =>
  (heap.made + 1, ⟨heap.made + 1, heap.log ++ [.gains (heap.made + 1)]⟩)

def access (block : Nat) : Act Heap Unit :=
  change fun heap => { heap with log := heap.log ++ [.uses block] }

def free (block : Nat) : Act Heap Unit :=
  change fun heap => { heap with log := heap.log ++ [.gives block] }

def wild : Act Heap Unit := access 0

/-- Just these blocks are held, and no number has been given out twice. -/
structure Holds (heap : Heap) (blocks : Multiset Nat) : Prop where
  live : account heap.log = some blocks
  known : ∀ block, .gains block ∈ heap.log → block ≤ heap.made
  once : ∀ block, heap.log.count (.gains block) ≤ 1

theorem holds_empty : Holds empty 0 :=
  ⟨rfl, fun _ h => absurd h List.not_mem_nil, fun _ => Nat.zero_le 1⟩

/-- The action turns the blocks that it is given into those that it leaves, and touches no
others. -/
def Owns (given : Multiset Nat) (x : Act Heap α) (left : α → Multiset Nat) : Prop :=
  ∀ heap others, Holds heap (given + others) → Holds (x heap).2 (left (x heap).1 + others)

section

variable {given : Multiset Nat} {left : α → Multiset Nat}

variable (left) in
theorem Owns.pure (a : α) : Owns (left a) (pure a) left := fun _ _ h => h

theorem Owns.bind {mid : α → Multiset Nat} {left : β → Multiset Nat} {x : Act Heap α}
    {f : α → Act Heap β} (hx : Owns given x mid) (hf : ∀ a, Owns (mid a) (f a) left) :
    Owns given (x >>= f) left := fun heap others h => hf _ _ others (hx heap others h)

theorem Owns.frame {x : Act Heap α} (hx : Owns given x left) (kept : Multiset Nat) :
    Owns (kept + given) x fun a => kept + left a := by
  intro heap others h
  rw [Multiset.add_comm kept, Multiset.add_assoc] at h
  have hafter := hx heap (kept + others) h
  rw [← Multiset.add_assoc, Multiset.add_comm (left _)] at hafter
  exact hafter

theorem Owns.congr {given' : Multiset Nat} {left' : α → Multiset Nat} {x : Act Heap α}
    (hx : Owns given x left) (hgiven : given' = given) (hleft : ∀ a, left' a = left a) :
    Owns given' x left' := by
  intro heap others h
  rw [hgiven] at h
  rw [hleft]
  exact hx heap others h

theorem Owns.ite {c : Prop} [Decidable c] {x y : Act Heap α} (hx : c → Owns given x left)
    (hy : ¬c → Owns given y left) : Owns given (if c then x else y) left := by
  split
  · next h => exact hx h
  · next h => exact hy h

end

def Returns (P : α → Prop) (x : Act Heap α) : Prop := ∀ heap, P (x heap).1

theorem Returns.pure {P : α → Prop} {a : α} (h : P a) : Returns P (pure a) := fun _ => h

theorem Returns.bind {P : α → Prop} {Q : β → Prop} {x : Act Heap α} {f : α → Act Heap β}
    (hx : Returns P x) (hf : ∀ a, P a → Returns Q (f a)) : Returns Q (x >>= f) :=
  fun heap => hf _ (hx heap) _

theorem Returns.after {Q : β → Prop} {x : Act Heap α} {f : α → Act Heap β}
    (hf : ∀ a, Returns Q (f a)) : Returns Q (x >>= f) := fun _ => hf _ _

theorem Returns.ite {P : α → Prop} {c : Prop} [Decidable c] {x y : Act Heap α}
    (hx : c → Returns P x) (hy : ¬c → Returns P y) : Returns P (if c then x else y) := by
  split
  · next h => exact hx h
  · next h => exact hy h

theorem Owns.bind_of {given : Multiset Nat} {mid : α → Multiset Nat} {left : β → Multiset Nat}
    {P : α → Prop} {x : Act Heap α} {f : α → Act Heap β} (hx : Owns given x mid) (hp : Returns P x)
    (hf : ∀ a, P a → Owns (mid a) (f a) left) : Owns given (x >>= f) left :=
  fun heap others h => hf _ (hp heap) _ others (hx heap others h)

theorem Holds.mark {heap : Heap} {before after : Multiset Nat} (h : Holds heap before)
    {mark : Mark Nat} (hmark : ∀ block, mark ≠ .gains block)
    (henter : enter (some before) mark = some after) :
    Holds { heap with log := heap.log ++ [mark] } after := by
  refine ⟨?_, fun block hblock => ?_, fun block => ?_⟩
  · rw [account_append, h.live, List.foldl_cons, List.foldl_nil, henter]
  · rcases List.mem_append.mp hblock with hold | hnew
    · exact h.known block hold
    · exact absurd (List.mem_singleton.mp hnew).symm (hmark block)
  · have hnew : Mark.gains block ∉ [mark] := fun hin =>
      hmark block (List.mem_singleton.mp hin).symm
    rw [List.count_append, List.count_eq_zero_of_not_mem hnew, Nat.add_zero]
    exact h.once block

theorem alloc_owns : Owns 0 alloc fun block => {block} := by
  intro heap others h
  rw [Multiset.zero_add] at h
  have hfresh : Mark.gains (heap.made + 1) ∉ heap.log := fun hold => by
    have hle := h.known _ hold
    omega
  refine ⟨?_, fun block hblock => ?_, fun block => ?_⟩
  · rw [alloc, account_append, h.live, List.foldl_cons, List.foldl_nil, enter_gains,
      Multiset.singleton_add]
  · rcases List.mem_append.mp hblock with hold | hnew
    · exact Nat.le_succ_of_le (h.known block hold)
    · obtain rfl := Mark.gains.inj (List.mem_singleton.mp hnew)
      exact Nat.le_refl _
  · rw [alloc, List.count_append]
    by_cases hblock : block = heap.made + 1
    · subst hblock
      rw [List.count_eq_zero_of_not_mem hfresh, Nat.zero_add]
      exact List.count_le_length
    · have hnew : Mark.gains block ∉ [Mark.gains (heap.made + 1)] := fun hin =>
        hblock (Mark.gains.inj (List.mem_singleton.mp hin))
      rw [List.count_eq_zero_of_not_mem hnew, Nat.add_zero]
      exact h.once block

theorem free_owns (block : Nat) : Owns {block} (free block) fun _ => 0 := by
  intro heap others h
  rw [Multiset.singleton_add] at h
  rw [Multiset.zero_add]
  apply h.mark (fun _ hmark => by cases hmark)
  rw [enter_gives (Multiset.mem_cons_self _ _), Multiset.erase_cons_head]

theorem access_owns {given : Multiset Nat} {block : Nat} (hblock : block ∈ given) :
    Owns given (access block) fun _ => given := by
  intro heap others h
  apply h.mark (fun _ hmark => by cases hmark)
  exact enter_uses (Multiset.mem_add.mpr (Or.inl hblock))

end RimeWinime.Blocks
