import Mathlib.Data.List.Basic

namespace RimeWinime.Utf8

/-- A character that has begun: its value so far, how many bytes it still needs,
and what the next one may be. -/
structure Pending where
  value : Nat
  owed : Nat
  low : UInt8
  high : UInt8

def replacement : Char := Char.ofNat 0xFFFD

/-- The first byte of a longer character. -/
def lead (b : UInt8) : Option Pending :=
  if 0xC2 ≤ b ∧ b ≤ 0xDF then some ⟨b.toNat - 0xC0, 1, 0x80, 0xBF⟩
  else if b = 0xE0 then some ⟨0, 2, 0xA0, 0xBF⟩
  else if b = 0xED then some ⟨0xD, 2, 0x80, 0x9F⟩
  else if 0xE1 ≤ b ∧ b ≤ 0xEF then some ⟨b.toNat - 0xE0, 2, 0x80, 0xBF⟩
  else if b = 0xF0 then some ⟨0, 3, 0x90, 0xBF⟩
  else if b = 0xF4 then some ⟨4, 3, 0x80, 0x8F⟩
  else if 0xF1 ≤ b ∧ b ≤ 0xF3 then some ⟨b.toNat - 0xF0, 3, 0x80, 0xBF⟩
  else none

/-- The characters that are done with a byte between two characters, and the one
that has begun. -/
def fresh (b : UInt8) : List Char × Option Pending :=
  if b < 0x80 then ([Char.ofNat b.toNat], none)
  else
    match lead b with
    | some pending => ([], some pending)
    | none => ([replacement], none)

def advance : Option Pending → UInt8 → List Char × Option Pending
  | none, b => fresh b
  | some p, b =>
      if p.low ≤ b ∧ b ≤ p.high then
        let value := 64 * p.value + (b.toNat - 0x80)
        if p.owed = 1 then ([Char.ofNat value], none)
        else ([], some ⟨value, p.owed - 1, 0x80, 0xBF⟩)
      else (replacement :: (fresh b).1, (fresh b).2)

def decodeFrom : Option Pending → List UInt8 → List Char
  | none, [] => []
  | some _, [] => [replacement]
  | pending, b :: bytes => (advance pending b).1 ++ decodeFrom (advance pending b).2 bytes

def fromUtf8Lossy (bytes : List UInt8) : String := String.ofList (decodeFrom none bytes)

theorem decodeFrom_ascii {head : List UInt8} (h : ∀ b ∈ head, b < 0x80) (bytes : List UInt8) :
    decodeFrom none (head ++ bytes) =
      head.map (fun b => Char.ofNat b.toNat) ++ decodeFrom none bytes := by
  induction head with
  | nil => rfl
  | cons b head ih =>
      have hrest : ∀ b ∈ head, b < 0x80 := fun b hb => h b (List.mem_cons_of_mem _ hb)
      rw [List.cons_append, decodeFrom, advance, fresh, if_pos (h b List.mem_cons_self), ih hrest]
      rfl

example : fromUtf8Lossy [0x61, 0xE4, 0xBD, 0xA0, 0xE4, 0xBD, 0x62, 0x80] =
    String.ofList ['a', '你', replacement, 'b', replacement] := by decide

def encode (text : String) : List UInt8 := text.toList.flatMap String.utf8EncodeChar

theorem char_range (c : Char) :
    c.val.toNat < 0xD800 ∨ 0xDFFF < c.val.toNat ∧ c.val.toNat < 0x110000 := c.valid

theorem toNat_byte {n : Nat} (h : n < 256) : (UInt8.ofNat n).toNat = n :=
  UInt8.toNat_ofNat_of_lt' h

/-- A byte of ASCII stands for its character only. -/
theorem toNat_of_mem_encodeChar {c : Char} {b : UInt8} (hb : b ∈ String.utf8EncodeChar c)
    (h : b.toNat < 0x80) : b.toNat = c.toNat := by
  have hc := char_range c
  rw [String.utf8EncodeChar] at hb
  change b.toNat = c.val.toNat
  generalize hv : c.val.toNat = v at hb hc ⊢
  split at hb
  · rw [List.mem_singleton.mp hb, toNat_byte (by omega)]
  · exfalso
    split at hb
    · rw [List.mem_cons, List.mem_singleton] at hb
      rcases hb with rfl | rfl <;> rw [toNat_byte (by omega)] at h <;> omega
    · split at hb
      · rw [List.mem_cons, List.mem_cons, List.mem_singleton] at hb
        rcases hb with rfl | rfl | rfl <;> rw [toNat_byte (by omega)] at h <;> omega
      · rw [List.mem_cons, List.mem_cons, List.mem_cons, List.mem_singleton] at hb
        rcases hb with rfl | rfl | rfl | rfl <;> rw [toNat_byte (by omega)] at h <;> omega

theorem le_byte {b b' : UInt8} : b ≤ b' ↔ b.toNat ≤ b'.toNat := UInt8.le_iff_toNat_le

theorem lead_two {x : Nat} (h : 2 ≤ x ∧ x < 32) :
    lead (UInt8.ofNat (x + 0xC0)) = some ⟨x, 1, 0x80, 0xBF⟩ := by
  have hb : (UInt8.ofNat (x + 0xC0)).toNat = x + 0xC0 := toNat_byte (by omega)
  rw [lead, if_pos (by simp only [le_byte, hb, UInt8.reduceToNat]; omega), hb]
  simp

/-- What may follow the first byte of a character of three. -/
def secondOfThree (x : Nat) : UInt8 × UInt8 :=
  if x = 0 then (0xA0, 0xBF) else if x = 0xD then (0x80, 0x9F) else (0x80, 0xBF)

theorem ne_byte {b b' : UInt8} (h : b.toNat ≠ b'.toNat) : b ≠ b' := fun he => h (he ▸ rfl)

theorem lead_three {x : Nat} (h : x < 16) :
    lead (UInt8.ofNat (x + 0xE0)) = some ⟨x, 2, (secondOfThree x).1, (secondOfThree x).2⟩ := by
  by_cases hzero : x = 0
  · subst hzero
    rfl
  · by_cases hd : x = 0xD
    · subst hd
      rfl
    · have hb : (UInt8.ofNat (x + 0xE0)).toNat = x + 0xE0 := toNat_byte (by omega)
      have htwo : ¬(0xC2 ≤ UInt8.ofNat (x + 0xE0) ∧ UInt8.ofNat (x + 0xE0) ≤ 0xDF) := by
        simp only [le_byte, hb, UInt8.reduceToNat]
        omega
      have hthree : 0xE1 ≤ UInt8.ofNat (x + 0xE0) ∧ UInt8.ofNat (x + 0xE0) ≤ 0xEF := by
        simp only [le_byte, hb, UInt8.reduceToNat]
        omega
      have hfirst : UInt8.ofNat (x + 0xE0) ≠ 0xE0 := ne_byte (by simp only [hb, UInt8.reduceToNat]; omega)
      have hed : UInt8.ofNat (x + 0xE0) ≠ 0xED := ne_byte (by simp only [hb, UInt8.reduceToNat]; omega)
      rw [lead, if_neg htwo, if_neg hfirst, if_neg hed, if_pos hthree, hb, Nat.add_sub_cancel,
        secondOfThree, if_neg hzero, if_neg hd]

def secondOfFour (x : Nat) : UInt8 × UInt8 :=
  if x = 0 then (0x90, 0xBF) else if x = 4 then (0x80, 0x8F) else (0x80, 0xBF)

theorem lead_four {x : Nat} (h : x < 5) :
    lead (UInt8.ofNat (x + 0xF0)) = some ⟨x, 3, (secondOfFour x).1, (secondOfFour x).2⟩ :=
  match x, h with
  | 0, _ | 1, _ | 2, _ | 3, _ | 4, _ => rfl

theorem advance_last {p : Pending} {b : UInt8} (howed : p.owed = 1) (hlow : p.low ≤ b)
    (hhigh : b ≤ p.high) :
    advance (some p) b = ([Char.ofNat (64 * p.value + (b.toNat - 0x80))], none) := by
  rw [advance, if_pos ⟨hlow, hhigh⟩, if_pos howed]

theorem advance_more {p : Pending} {b : UInt8} (howed : p.owed ≠ 1) (hlow : p.low ≤ b)
    (hhigh : b ≤ p.high) :
    advance (some p) b =
      ([], some ⟨64 * p.value + (b.toNat - 0x80), p.owed - 1, 0x80, 0xBF⟩) := by
  rw [advance, if_pos ⟨hlow, hhigh⟩, if_neg howed]

theorem fresh_lead {b : UInt8} {p : Pending} (hb : 0x80 ≤ b.toNat) (h : lead b = some p) :
    fresh b = ([], some p) := by
  have hnot : ¬b < 0x80 := by
    rw [UInt8.lt_iff_toNat_lt]
    exact Nat.not_lt.mpr hb
  rw [fresh, if_neg hnot, h]

theorem decodeFrom_cons (pending : Option Pending) (b : UInt8) (bytes : List UInt8) :
    decodeFrom pending (b :: bytes) =
      (advance pending b).1 ++ decodeFrom (advance pending b).2 bytes := by
  cases pending <;> rfl

theorem continuation {n : Nat} (h : n < 0x40) :
    (0x80 : UInt8) ≤ UInt8.ofNat (n + 0x80) ∧ UInt8.ofNat (n + 0x80) ≤ (0xBF : UInt8) ∧
      (UInt8.ofNat (n + 0x80)).toNat = n + 0x80 := by
  have hb : (UInt8.ofNat (n + 0x80)).toNat = n + 0x80 := toNat_byte (by omega)
  refine ⟨?_, ?_, hb⟩
  · simp only [le_byte, hb, UInt8.reduceToNat]
    omega
  · simp only [le_byte, hb, UInt8.reduceToNat]
    omega

theorem second_of_three {x n : Nat} (hn : n < 0x40) (hzero : x = 0 → 0x20 ≤ n)
    (hd : x = 0xD → n < 0x20) :
    (secondOfThree x).1 ≤ UInt8.ofNat (n + 0x80) ∧ UInt8.ofNat (n + 0x80) ≤ (secondOfThree x).2 := by
  have hb : (UInt8.ofNat (n + 0x80)).toNat = n + 0x80 := toNat_byte (by omega)
  rw [le_byte, le_byte, hb, secondOfThree]
  split
  · simp only [UInt8.reduceToNat]
    omega
  · split
    · simp only [UInt8.reduceToNat]
      omega
    · simp only [UInt8.reduceToNat]
      omega

theorem second_of_four {x n : Nat} (hn : n < 0x40) (hzero : x = 0 → 0x10 ≤ n)
    (hfour : x = 4 → n < 0x10) :
    (secondOfFour x).1 ≤ UInt8.ofNat (n + 0x80) ∧ UInt8.ofNat (n + 0x80) ≤ (secondOfFour x).2 := by
  have hb : (UInt8.ofNat (n + 0x80)).toNat = n + 0x80 := toNat_byte (by omega)
  rw [le_byte, le_byte, hb, secondOfFour]
  split
  · simp only [UInt8.reduceToNat]
    omega
  · split
    · simp only [UInt8.reduceToNat]
      omega
    · simp only [UInt8.reduceToNat]
      omega

theorem decode_last {value n : Nat} (h : n < 0x40) (rest : List UInt8) :
    decodeFrom (some ⟨value, 1, 0x80, 0xBF⟩) (UInt8.ofNat (n + 0x80) :: rest) =
      Char.ofNat (64 * value + n) :: decodeFrom none rest := by
  obtain ⟨hlow, hhigh, hb⟩ := continuation h
  rw [decodeFrom_cons, advance_last rfl hlow hhigh, hb, Nat.add_sub_cancel]
  rfl

theorem decode_more {value owed n : Nat} {low high : UInt8} (howed : owed ≠ 1) (h : n < 0x40)
    (hin : low ≤ UInt8.ofNat (n + 0x80) ∧ UInt8.ofNat (n + 0x80) ≤ high) (rest : List UInt8) :
    decodeFrom (some ⟨value, owed, low, high⟩) (UInt8.ofNat (n + 0x80) :: rest) =
      decodeFrom (some ⟨64 * value + n, owed - 1, 0x80, 0xBF⟩) rest := by
  have hb := (continuation h).2.2
  rw [decodeFrom_cons, advance_more howed hin.1 hin.2, hb, Nat.add_sub_cancel]
  rfl

theorem decode_lead {b : UInt8} {p : Pending} (hb : 0x80 ≤ b.toNat) (h : lead b = some p)
    (rest : List UInt8) : decodeFrom none (b :: rest) = decodeFrom (some p) rest := by
  rw [decodeFrom_cons, advance, fresh_lead hb h]
  rfl

theorem decodeFrom_encodeChar (c : Char) (rest : List UInt8) :
    decodeFrom none (String.utf8EncodeChar c ++ rest) = c :: decodeFrom none rest := by
  have hc := char_range c
  have hvalue : Char.ofNat c.val.toNat = c := Char.ofNat_toNat c
  rw [String.utf8EncodeChar]
  generalize hv : c.val.toNat = v at hc hvalue ⊢
  split
  · have hb : (UInt8.ofNat v).toNat = v := toNat_byte (by omega)
    have hascii : UInt8.ofNat v < 0x80 := by
      rw [UInt8.lt_iff_toNat_lt, hb]
      exact Nat.lt_succ_of_le (by omega)
    rw [List.singleton_append, decodeFrom_cons, advance, fresh, if_pos hascii, hb, hvalue]
    rfl
  · split
    · have hlead := lead_two (x := v / 64 % 0x20) (by omega)
      have hfirst : (UInt8.ofNat (v / 64 % 0x20 + 0xC0)).toNat = v / 64 % 0x20 + 0xC0 :=
        toNat_byte (by omega)
      have hsum : 64 * (v / 64 % 0x20) + v % 0x40 = v := by omega
      rw [List.cons_append, decode_lead (by omega) hlead, List.singleton_append,
        decode_last (Nat.mod_lt _ (by omega)), hsum, hvalue]
    · split
      · have hlead := lead_three (x := v / 4096 % 0x10) (by omega)
        have hfirst : (UInt8.ofNat (v / 4096 % 0x10 + 0xE0)).toNat = v / 4096 % 0x10 + 0xE0 :=
          toNat_byte (by omega)
        have hsecond := second_of_three (x := v / 4096 % 0x10) (n := v / 64 % 0x40) (by omega)
          (by omega) (by omega)
        have hsum : 64 * (64 * (v / 4096 % 0x10) + v / 64 % 0x40) + v % 0x40 = v := by omega
        rw [List.cons_append, decode_lead (by omega) hlead, List.cons_append,
          decode_more (by omega) (by omega) hsecond, List.singleton_append,
          decode_last (Nat.mod_lt _ (by omega)), hsum, hvalue]
      · have hlead := lead_four (x := v / 262144 % 0x08) (by omega)
        have hfirst : (UInt8.ofNat (v / 262144 % 0x08 + 0xF0)).toNat = v / 262144 % 0x08 + 0xF0 :=
          toNat_byte (by omega)
        have hsecond := second_of_four (x := v / 262144 % 0x08) (n := v / 4096 % 0x40) (by omega)
          (by omega) (by omega)
        have hthird := continuation (n := v / 64 % 0x40) (by omega)
        have hsum : 64 * (64 * (64 * (v / 262144 % 0x08) + v / 4096 % 0x40) + v / 64 % 0x40) +
            v % 0x40 = v := by omega
        rw [List.cons_append, decode_lead (by omega) hlead, List.cons_append,
          decode_more (by omega) (by omega) hsecond, List.cons_append,
          decode_more (by omega) (by omega) ⟨hthird.1, hthird.2.1⟩, List.singleton_append,
          decode_last (Nat.mod_lt _ (by omega)), hsum, hvalue]

theorem decodeFrom_encodeChars (cs : List Char) (rest : List UInt8) :
    decodeFrom none (cs.flatMap String.utf8EncodeChar ++ rest) = cs ++ decodeFrom none rest := by
  induction cs with
  | nil => rfl
  | cons c cs ih =>
      rw [List.flatMap_cons, List.append_assoc, decodeFrom_encodeChar, ih, List.cons_append]

theorem encode_append (a b : String) : encode (a ++ b) = encode a ++ encode b := by
  simp [encode]

/-- Where an ASCII byte stands in a text there is its character. -/
theorem mem_of_mem_encode {text : String} {b : UInt8} (hb : b ∈ encode text) (h : b.toNat < 0x80) :
    Char.ofNat b.toNat ∈ text.toList := by
  obtain ⟨c, hc, hmem⟩ := List.mem_flatMap.mp hb
  rw [toNat_of_mem_encodeChar hmem h]
  simpa using hc

end RimeWinime.Utf8
