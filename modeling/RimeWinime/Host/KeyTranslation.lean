import RimeWinime.Host.Adapter
import Mathlib.Data.List.Pairwise

namespace RimeWinime.KeyTranslation

open World Win32 Proto Session Adapter VkMap

variable {W : Type}

structure KeyPress where
  vk : UInt16
  shift : Bool
  ctrl : Bool
  alt : Bool
  isKeyup : Bool
deriving DecidableEq

def KeyPress.modifiers (p : KeyPress) : UInt32 :=
  (if p.shift then 1 else 0) ||| (if p.ctrl then 2 else 0) ||| (if p.alt then 4 else 0)

def has (mask bits : UInt32) : Bool := (mask &&& bits) != 0

/-- The key that `process_key` passes on, unless it refuses it. -/
def delivered (vkKeyScan : UInt16 → UInt16) (key : KeyEvent) : Option KeyPress :=
  if refusedUpFront key then none
  else
    some
      { vk := rimeToVk vkKeyScan key.keycode
        shift := has key.modifier 1 || isShiftedChar key.keycode
        ctrl := has key.modifier 4
        alt := has key.modifier 8
        isKeyup := has key.modifier RELEASE_MASK }

theorem processKey_delivers (api : Api W) (ime : ImeFunctions W) (s : WinImmSession)
    (key : KeyEvent) :
    processKey api ime s key =
      match delivered api.vkKeyScan key with
      | none => pure (false, s)
      | some p => processVk api ime s p.vk p.modifiers p.isKeyup := by
  rw [processKey, delivered]
  split
  · rfl
  · rfl

/-- The same key to the IME, which takes the low byte for the physical key. -/
structure Alike (p q : KeyPress) : Prop where
  key : p.vk &&& 0xFF = q.vk &&& 0xFF
  shift : p.shift = q.shift
  ctrl : p.ctrl = q.ctrl
  alt : p.alt = q.alt
  isKeyup : p.isKeyup = q.isKeyup

def letters : List UInt32 := (List.range 26).map fun i => 0x61 + UInt32.ofNat i

def capitals : List UInt32 := (List.range 26).map fun i => 0x41 + UInt32.ofNat i

def digits : List UInt32 := (List.range 10).map fun i => 0x30 + UInt32.ofNat i

def symbolPairs : List (UInt32 × UInt32) :=
  [(0x3B, 0x3A), (0x3D, 0x2B), (0x2C, 0x3C), (0x2D, 0x5F), (0x2E, 0x3E), (0x2F, 0x3F),
    (0x60, 0x7E), (0x5B, 0x7B), (0x5C, 0x7C), (0x5D, 0x7D), (0x27, 0x22),
    (0x31, 0x21), (0x32, 0x40), (0x33, 0x23), (0x34, 0x24), (0x35, 0x25), (0x36, 0x5E),
    (0x37, 0x26), (0x38, 0x2A), (0x39, 0x28), (0x30, 0x29)] ++
  letters.zip capitals

def SameKey (k l : UInt32) : Prop := k = l ∨ (k, l) ∈ symbolPairs ∨ (l, k) ∈ symbolPairs

/-- The keysyms that `rime_to_vk` lists, one by one or by a range. -/
def Listed (k : UInt32) : Prop :=
  (listedKeys.lookup k).isSome ∨ (0x41 ≤ k ∧ k ≤ 0x5A) ∨ (0x61 ≤ k ∧ k ≤ 0x7A) ∨
    (0x30 ≤ k ∧ k ≤ 0x39)

def symbols : List UInt32 :=
  listedKeys.map (·.1) ++ capitals ++ letters ++ digits

def unshifted (k : UInt32) : UInt32 :=
  ((symbolPairs.find? fun p => p.2 = k).map (·.1)).getD k

def keyByte (k : UInt32) : UInt16 := rimeToVk (fun _ => 0) k &&& 0xFF

theorem agree_of_pairwise {α β γ : Type} {f : α → β} {g : α → γ} {table : List α}
    (h : table.Pairwise fun a b => f a = f b → g a = g b) {a b : α} (ha : a ∈ table)
    (hb : b ∈ table) (heq : f a = f b) : g a = g b := by
  have hback : table.Pairwise (flip fun a b => f a = f b → g a = g b) :=
    h.imp fun hsame heq => (hsame heq.symm).symm
  exact h.forall_of_forall_of_flip (fun _ _ _ => rfl) hback ha hb heq

theorem keyByte_pairwise :
    (symbols.map fun k => (keyByte k, unshifted k)).Pairwise fun p q => p.1 = q.1 → p.2 = q.2 := by
  decide +kernel

theorem symbolPairs_listed : ∀ p ∈ symbolPairs, Listed p.1 ∧ Listed p.2 := by
  simp only [← List.forall_iff_forall_mem, Listed]
  decide +kernel

theorem symbolPairs_unique : ∀ p ∈ symbolPairs, ∀ q ∈ symbolPairs, p.1 = q.1 → p = q := by
  have hpairs : symbolPairs.Pairwise fun p q => p.1 = q.1 → p = q := by decide +kernel
  intro p hp q hq
  exact agree_of_pairwise hpairs hp hq

theorem mem_range {lo k : UInt32} {n : Nat} (hlo : lo ≤ k) (hn : k.toNat < lo.toNat + n) :
    k ∈ (List.range n).map fun i => lo + UInt32.ofNat i := by
  have hle : lo.toNat ≤ k.toNat := UInt32.le_iff_toNat_le.mp hlo
  have hk := k.toNat_lt
  refine List.mem_map.mpr ⟨k.toNat - lo.toNat, List.mem_range.mpr (by omega), ?_⟩
  apply UInt32.toNat_inj.mp
  rw [UInt32.toNat_add, UInt32.toNat_ofNat']
  omega

theorem mem_symbols {k : UInt32} (h : Listed k) : k ∈ symbols := by
  simp only [symbols, List.mem_append]
  rcases h with h | ⟨hlo, hhi⟩ | ⟨hlo, hhi⟩ | ⟨hlo, hhi⟩
  · obtain ⟨p, hp, hkey⟩ := List.lookup_isSome_iff.mp h
    exact Or.inl (Or.inl (Or.inl (List.mem_map.mpr ⟨p, hp, (beq_iff_eq.mp hkey).symm⟩)))
  · exact Or.inl (Or.inl (Or.inr (mem_range hlo (Nat.lt_succ_of_le (UInt32.le_iff_toNat_le.mp hhi)))))
  · exact Or.inl (Or.inr (mem_range hlo (Nat.lt_succ_of_le (UInt32.le_iff_toNat_le.mp hhi))))
  · exact Or.inr (mem_range hlo (Nat.lt_succ_of_le (UInt32.le_iff_toNat_le.mp hhi)))

theorem rimeToVk_listed {k : UInt32} (h : Listed k) (vkKeyScan : UInt16 → UInt16) :
    rimeToVk vkKeyScan k &&& 0xFF = keyByte k := by
  rw [keyByte, rimeToVk, rimeToVk]
  rcases h with h | h | h | h
  · obtain ⟨vk, hvk⟩ := Option.isSome_iff_exists.mp h
    rw [hvk]
  all_goals
    split
    · rfl
    · simp only [h, and_self, if_true]

theorem unshifted_cases (k : UInt32) : unshifted k = k ∨ (unshifted k, k) ∈ symbolPairs := by
  rw [unshifted]
  cases hfind : symbolPairs.find? fun p => p.2 = k with
  | none => exact Or.inl rfl
  | some p =>
      have hp : p.2 = k := by simpa using List.find?_some hfind
      refine Or.inr ?_
      rw [← hp]
      exact List.mem_of_find?_eq_some hfind

theorem sameKey_of_unshifted {k l : UInt32} (h : unshifted k = unshifted l) : SameKey k l := by
  rcases unshifted_cases k with hk | hk <;> rcases unshifted_cases l with hl | hl
  · exact Or.inl (hk.symm.trans (h.trans hl))
  · rw [← h, hk] at hl
    exact Or.inr (Or.inl hl)
  · rw [h, hl] at hk
    exact Or.inr (Or.inr hk)
  · rw [h] at hk
    exact Or.inl (Prod.mk.inj (symbolPairs_unique _ hk _ hl rfl)).2

theorem sameKey_of_keyByte {k l : UInt32} (hk : Listed k) (hl : Listed l)
    (h : keyByte k = keyByte l) : SameKey k l := by
  apply sameKey_of_unshifted
  exact agree_of_pairwise (List.pairwise_map.mp keyByte_pairwise) (mem_symbols hk) (mem_symbols hl) h

def CONTROL_MASK : UInt32 := 0x4
def ALT_MASK : UInt32 := 0x8
def SUPER_MASK : UInt32 := 0x4000000
def HYPER_MASK : UInt32 := 0x8000000
def META_MASK : UInt32 := 0x10000000

def Agree (modifiers : List UInt32) (m n : UInt32) : Prop := ∀ bit ∈ modifiers, has m bit = has n bit

structure Unconfused (k l : KeyEvent) : Prop where
  key : SameKey k.keycode l.keycode
  modifiers : Agree [CONTROL_MASK, ALT_MASK, SUPER_MASK, HYPER_MASK, META_MASK] k.modifier l.modifier

theorem delivered_some {vkKeyScan : UInt16 → UInt16} {k : KeyEvent} {p : KeyPress}
    (h : delivered vkKeyScan k = some p) :
    p.vk = rimeToVk vkKeyScan k.keycode ∧ p.ctrl = has k.modifier CONTROL_MASK ∧
      p.alt = has k.modifier ALT_MASK := by
  rw [delivered] at h
  split at h
  · cases h
  · cases h
    exact ⟨rfl, rfl, rfl⟩

/-- Two keys that the IME gets as one are not confused exactly when both keysyms
are in the table, or are the same, and the masks agree where nothing looks. -/
theorem unconfused_iff (vkKeyScan : UInt16 → UInt16) (k l : KeyEvent) (p q : KeyPress)
    (hk : delivered vkKeyScan k = some p) (hl : delivered vkKeyScan l = some q)
    (halike : Alike p q) :
    Unconfused k l ↔
      (k.keycode = l.keycode ∨ Listed k.keycode ∧ Listed l.keycode) ∧
        Agree [SUPER_MASK, HYPER_MASK, META_MASK] k.modifier l.modifier := by
  obtain ⟨hvk, hctrl, halt⟩ := delivered_some hk
  obtain ⟨hvl, hctrl', halt'⟩ := delivered_some hl
  constructor
  · rintro ⟨hkey, hmodifiers⟩
    refine ⟨?_, fun bit hbit => hmodifiers bit (List.mem_cons_of_mem _ (List.mem_cons_of_mem _ hbit))⟩
    rcases hkey with heq | hpair | hpair
    · exact Or.inl heq
    · exact Or.inr (symbolPairs_listed _ hpair)
    · exact Or.inr (symbolPairs_listed _ hpair).symm
  · rintro ⟨hkeys, hmodifiers⟩
    constructor
    · rcases hkeys with heq | ⟨hlisted, hlisted'⟩
      · exact Or.inl heq
      · apply sameKey_of_keyByte hlisted hlisted'
        rw [← rimeToVk_listed hlisted vkKeyScan, ← rimeToVk_listed hlisted' vkKeyScan, ← hvk, ← hvl]
        exact halike.key
    · intro bit hbit
      rcases List.mem_cons.mp hbit with rfl | hbit
      · rw [← hctrl, ← hctrl', halike.ctrl]
      · rcases List.mem_cons.mp hbit with rfl | hbit
        · rw [← halt, ← halt', halike.alt]
        · exact hmodifiers bit hbit

/-- `:` and `;` with Shift. -/
theorem colon_unconfused : Unconfused ⟨0x3A, 0⟩ ⟨0x3B, 1⟩ :=
  (unconfused_iff (fun _ => 0) ⟨0x3A, 0⟩ ⟨0x3B, 1⟩ ⟨0xBA, true, false, false, false⟩
    ⟨0xBA, true, false, false, false⟩ (by decide) (by decide) ⟨rfl, rfl, rfl, rfl, rfl⟩).mpr
    ⟨Or.inr ⟨Or.inl (by decide), Or.inl (by decide)⟩, List.forall_iff_forall_mem.mp (by decide)⟩

/-- F1 is delivered as the key of the period. -/
theorem f1_is_period :
    delivered (fun _ => 0) ⟨0xFFBE, 0⟩ = some ⟨0xFFBE, false, false, false, false⟩ ∧
      delivered (fun _ => 0) ⟨0x2E, 0⟩ = some ⟨0xBE, false, false, false, false⟩ ∧
      Alike ⟨0xFFBE, false, false, false, false⟩ ⟨0xBE, false, false, false, false⟩ ∧
      ¬Unconfused ⟨0xFFBE, 0⟩ ⟨0x2E, 0⟩ := by
  refine ⟨by decide, by decide, ⟨by decide, rfl, rfl, rfl, rfl⟩, fun h => ?_⟩
  have hdifferent : ¬SameKey 0xFFBE 0x2E := by
    unfold SameKey
    decide +kernel
  exact hdifferent h.key

end RimeWinime.KeyTranslation
