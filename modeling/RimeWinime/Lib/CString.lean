import Mathlib.Data.List.Basic
import RimeWinime.Lib.Memory

namespace RimeWinime.CString

open Memory

def cString {α : Type} [OfNat α 0] [DecidableEq α] (mem : List α) : List α :=
  mem.takeWhile (fun a => a ≠ 0)

/-- `snprintf(mem + pos, room, …)` for what the format makes. It returns the length of
that, also when not all of it fits. -/
def snprintf (mem : List UInt8) (pos room : Nat) (text : List UInt8) :
    Option (List UInt8 × Nat) := do
  if room = 0 then some (mem, text.length)
  else
    let mem ← store mem pos (text.take (room - 1) ++ [0])
    some (mem, text.length)

def Printed (text mem : List UInt8) : Prop :=
  ∃ rest, mem = text.take (mem.length - 1) ++ 0 :: rest

theorem not_mem_cString {α : Type} [OfNat α 0] [DecidableEq α] (mem : List α) :
    (0 : α) ∉ cString mem := by
  intro h
  have hall := List.all_eq_true.mp (List.all_takeWhile (p := fun a : α => a ≠ 0) (l := mem)) 0 h
  simp at hall

theorem cString_append {α : Type} [OfNat α 0] [DecidableEq α] {text : List α} (h : (0 : α) ∉ text)
    (rest : List α) : cString (text ++ 0 :: rest) = text := by
  induction text with
  | nil => simp [cString]
  | cons a text ih =>
      rw [List.mem_cons, not_or] at h
      have ha : a ≠ 0 := Ne.symm h.1
      rw [cString] at ih ⊢
      rw [List.cons_append, List.takeWhile_cons_of_pos (by simpa using ha), ih h.2]

theorem cString_printed {text mem : List UInt8} (h : Printed text mem) (hnul : 0 ∉ text) :
    cString mem = text.take (mem.length - 1) := by
  obtain ⟨rest, hmem⟩ := h
  have hpart : (0 : UInt8) ∉ text.take (mem.length - 1) := fun h0 => hnul (List.mem_of_mem_take h0)
  calc cString mem = cString (text.take (mem.length - 1) ++ 0 :: rest) := by rw [← hmem]
    _ = text.take (mem.length - 1) := cString_append hpart rest

theorem nul_mem_printed {text mem : List UInt8} (h : Printed text mem) : 0 ∈ mem := by
  obtain ⟨rest, hmem⟩ := h
  rw [hmem]
  exact List.mem_append_right _ List.mem_cons_self

theorem snprintf_spec {mem full rest : List UInt8} {size : Nat} (hsize : mem.length = size)
    (hpos : 0 < size) (hmem : mem = full.take (size - 1) ++ rest) (text : List UInt8) :
    ∃ after, snprintf mem (full.take (size - 1)).length (size - (full.take (size - 1)).length) text =
        some (after, text.length) ∧ after.length = size ∧ Printed (full ++ text) after := by
  have hlen : (full.take (size - 1)).length ≤ size - 1 := List.length_take_le _ _
  generalize hpast : full.take (size - 1) = past at hmem hlen ⊢
  have hroom : size - past.length ≠ 0 := by omega
  have hfit : past.length + (text.take (size - past.length - 1) ++ [0]).length ≤ mem.length := by
    rw [List.length_append, List.length_take, List.length_singleton]
    omega
  obtain ⟨behind, hstore, hafter⟩ := store_of_le hfit
  have htake : mem.take past.length = past := by rw [hmem, List.take_left]
  rw [htake] at hstore hafter
  refine ⟨past ++ (text.take (size - past.length - 1) ++ [0] ++ behind), ?_, by rw [hafter, hsize],
    behind, ?_⟩
  · rw [snprintf, if_neg hroom, hstore]
    rfl
  · have hboth : (full ++ text).take (size - 1) = past ++ text.take (size - past.length - 1) := by
      rw [List.take_append, hpast]
      congr 2
      rw [← hpast, List.length_take]
      omega
    rw [hafter, hsize, hboth]
    simp

end RimeWinime.CString
