import Mathlib.Data.List.Infix
import RimeWinime.Lib.Text

namespace RimeWinime.Utf16

def isSurrogate (u : UInt16) : Bool := 0xD800 ≤ u && u ≤ 0xDFFF

def isLowSurrogate (u : UInt16) : Bool := 0xDC00 ≤ u && u ≤ 0xDFFF

def replacement : Char := Char.ofNat 0xFFFD

def pairChar (hi lo : UInt16) : Char :=
  Char.ofNat (0x10000 + (hi.toNat - 0xD800) * 0x400 + (lo.toNat - 0xDC00))

/-- A surrogate that is not the first half of a pair decodes to the
replacement character; the unit after it is read again. -/
def decodeLossy : List UInt16 → List Char
  | [] => []
  | [u] => [if isSurrogate u then replacement else Char.ofNat u.toNat]
  | u :: v :: rest =>
      if !isSurrogate u then Char.ofNat u.toNat :: decodeLossy (v :: rest)
      else if isLowSurrogate u then replacement :: decodeLossy (v :: rest)
      else if isLowSurrogate v then pairChar u v :: decodeLossy rest
      else replacement :: decodeLossy (v :: rest)

def fromUtf16Lossy (units : List UInt16) : String := String.ofList (decodeLossy units)

theorem decodeLossy_eq_nil (units : List UInt16) : decodeLossy units = [] ↔ units = [] := by
  constructor
  · intro h
    match units with
    | [] => rfl
    | [u] => simp [decodeLossy] at h
    | u :: v :: rest =>
        unfold decodeLossy at h
        split_ifs at h
  · rintro rfl
    rfl

theorem fromUtf16Lossy_eq_empty (units : List UInt16) : fromUtf16Lossy units = "" ↔ units = [] := by
  rw [fromUtf16Lossy, ← String.ofList_nil, String.ofList_inj, decodeLossy_eq_nil]

def isHighSurrogate (u : UInt16) : Bool := isSurrogate u && !isLowSurrogate u

theorem high_range {u : UInt16} (h : isHighSurrogate u = true) :
    0xD800 ≤ u.toNat ∧ u.toNat < 0xDC00 := by
  simp only [isHighSurrogate, isSurrogate, isLowSurrogate, Bool.and_eq_true, decide_eq_true_eq,
    Bool.not_eq_true', Bool.and_eq_false_iff, decide_eq_false_iff_not, UInt16.le_iff_toNat_le,
    UInt16.reduceToNat] at h
  omega

theorem low_range {u : UInt16} (h : isLowSurrogate u = true) :
    0xDC00 ≤ u.toNat ∧ u.toNat < 0xE000 := by
  simp only [isLowSurrogate, Bool.and_eq_true, decide_eq_true_eq, UInt16.le_iff_toNat_le,
    UInt16.reduceToNat] at h
  omega

theorem surrogate_range (u : UInt16) :
    isSurrogate u = true ↔ 0xD800 ≤ u.toNat ∧ u.toNat < 0xE000 := by
  simp only [isSurrogate, Bool.and_eq_true, decide_eq_true_eq, UInt16.le_iff_toNat_le,
    UInt16.reduceToNat]
  omega

/-- A pair of surrogates has its first half at the end of the one part and its
second at the start of the other. -/
def Splits (a b : List UInt16) : Prop :=
  ∃ hi ∈ a.getLast?, ∃ lo ∈ b.head?, isHighSurrogate hi = true ∧ isLowSurrogate lo = true

/-- What a unit decodes to that is no half of a pair. -/
def unitChar (u : UInt16) : Char := if isSurrogate u then replacement else Char.ofNat u.toNat

theorem not_splits_nil (a : List UInt16) : ¬Splits a [] := by
  rintro ⟨_, -, _, hlo, -⟩
  cases hlo

theorem Splits.cons {a b : List UInt16} (h : Splits a b) (u : UInt16) : Splits (u :: a) b := by
  obtain ⟨hi, hlast, rest⟩ := h
  refine ⟨hi, ?_, rest⟩
  cases a with
  | nil => cases hlast
  | cons v a => simpa using hlast

theorem decodeLossy_single {u : UInt16} {rest : List UInt16} (h : ¬Splits [u] rest) :
    decodeLossy (u :: rest) = unitChar u :: decodeLossy rest := by
  cases rest with
  | nil => rfl
  | cons v rest =>
      rw [decodeLossy]
      by_cases hs : isSurrogate u = true
      · by_cases hl : isLowSurrogate u = true
        · simp [unitChar, hs, hl]
        · have hv : isLowSurrogate v = false := by
            rw [Bool.eq_false_iff]
            intro hv
            exact h ⟨u, rfl, v, rfl, by simp [isHighSurrogate, hs, hl], hv⟩
          simp [unitChar, hs, hl, hv]
      · simp [unitChar, hs]

theorem decodeLossy_pair {hi lo : UInt16} (hhi : isHighSurrogate hi = true)
    (hlo : isLowSurrogate lo = true) (rest : List UInt16) :
    decodeLossy (hi :: lo :: rest) = pairChar hi lo :: decodeLossy rest := by
  obtain ⟨hs, hl⟩ := (Bool.and_eq_true _ _).mp hhi
  rw [decodeLossy]
  simp [hs, (Bool.not_eq_true' _).mp hl, hlo]

/-- Units are read one by one or as pairs. -/
theorem units_induction {motive : List UInt16 → Prop} (nil : motive [])
    (single : ∀ u rest, ¬Splits [u] rest → motive rest → motive (u :: rest))
    (pair : ∀ hi lo rest, isHighSurrogate hi = true → isLowSurrogate lo = true → motive rest →
      motive (hi :: lo :: rest)) : ∀ units, motive units
  | [] => nil
  | [u] => single u [] (not_splits_nil _) nil
  | u :: v :: rest => by
      by_cases h : isHighSurrogate u = true ∧ isLowSurrogate v = true
      · exact pair u v rest h.1 h.2 (units_induction nil single pair rest)
      · refine single u (v :: rest) ?_ (units_induction nil single pair (v :: rest))
        rintro ⟨_, hlast, _, hhead, hpair⟩
        cases hlast
        cases hhead
        exact h hpair

theorem decodeLossy_append {a b : List UInt16} (h : ¬Splits a b) :
    decodeLossy (a ++ b) = decodeLossy a ++ decodeLossy b := by
  induction a using units_induction with
  | nil => rfl
  | single u rest hsingle ih =>
      have hrest : ¬Splits [u] (rest ++ b) := by
        cases rest with
        | nil => exact h
        | cons v rest => exact hsingle
      rw [List.cons_append, decodeLossy_single hrest, decodeLossy_single hsingle,
        ih fun hsplit => h (hsplit.cons u), List.cons_append]
  | pair hi lo rest hhi hlo ih =>
      rw [List.cons_append, List.cons_append, decodeLossy_pair hhi hlo, decodeLossy_pair hhi hlo,
        ih fun hsplit => h ((hsplit.cons lo).cons hi), List.cons_append]

theorem fromUtf16Lossy_append {a b : List UInt16} (h : ¬Splits a b) :
    fromUtf16Lossy (a ++ b) = fromUtf16Lossy a ++ fromUtf16Lossy b := by
  rw [fromUtf16Lossy, decodeLossy_append h, String.ofList_append]
  rfl

/-- Cut through a pair: the first part ends with a replacement character, the
whole has the pair's character there. -/
theorem decodeLossy_cut {a b : List UInt16} (h : Splits a b) :
    ∃ start rest hi lo, isHighSurrogate hi = true ∧ isLowSurrogate lo = true ∧
      decodeLossy a = start ++ [replacement] ∧
      decodeLossy (a ++ b) = start ++ pairChar hi lo :: rest := by
  obtain ⟨hi, hlast, lo, hhead, hhi, hlo⟩ := h
  obtain ⟨start, rfl⟩ := List.getLast?_eq_some_iff.mp hlast
  obtain ⟨rest, rfl⟩ := List.head?_eq_some_iff.mp hhead
  have hwhole (units : List UInt16) : ¬Splits start (hi :: units) := by
    rintro ⟨_, -, _, hhead, -, hlow⟩
    cases hhead
    have hhigh := high_range hhi
    have hlow := low_range hlow
    omega
  have hlone : decodeLossy [hi] = [replacement] := by
    have hs : isSurrogate hi = true := ((Bool.and_eq_true _ _).mp hhi).1
    simp [decodeLossy, hs]
  refine ⟨decodeLossy start, decodeLossy rest, hi, lo, hhi, hlo, ?_, ?_⟩
  · rw [decodeLossy_append (hwhole []), hlone]
  · rw [List.append_assoc, List.singleton_append, decodeLossy_append (hwhole _),
      decodeLossy_pair hhi hlo]

theorem toNat_ofNat {n : Nat} (h : n.isValidChar) : (Char.ofNat n).toNat = n := by
  rw [Char.ofNat, dif_pos h]
  rfl

theorem toNat_pairChar {hi lo : UInt16} (hhi : isHighSurrogate hi = true)
    (hlo : isLowSurrogate lo = true) : (pairChar hi lo).toNat =
      0x10000 + (hi.toNat - 0xD800) * 0x400 + (lo.toNat - 0xDC00) := by
  have hhigh := high_range hhi
  have hlow := low_range hlo
  apply toNat_ofNat
  right
  omega

theorem utf8Size_pairChar {hi lo : UInt16} (hhi : isHighSurrogate hi = true)
    (hlo : isLowSurrogate lo = true) : (pairChar hi lo).utf8Size = 4 := by
  have hvalue := toNat_pairChar hhi hlo
  rw [Char.utf8Size_eq_four_iff, UInt32.lt_iff_toNat_lt]
  change 65535 < (pairChar hi lo).toNat
  omega

theorem replacement_ne_pairChar {hi lo : UInt16} (hhi : isHighSurrogate hi = true)
    (hlo : isLowSurrogate lo = true) : replacement ≠ pairChar hi lo := by
  intro h
  have hsize := utf8Size_pairChar hhi hlo
  rw [← h] at hsize
  exact absurd hsize (by decide)

/-- The decoding of a part is the start of the decoding of the whole exactly when
no pair is cut. -/
theorem decodeLossy_isPrefix_iff (a b : List UInt16) :
    decodeLossy a <+: decodeLossy (a ++ b) ↔ ¬Splits a b := by
  constructor
  · intro hstart hsplit
    obtain ⟨start, rest, hi, lo, hhi, hlo, ha, hab⟩ := decodeLossy_cut hsplit
    rw [ha, hab, List.prefix_append_right_inj, List.singleton_prefix_cons_iff] at hstart
    exact replacement_ne_pairChar hhi hlo hstart
  · intro h
    rw [decodeLossy_append h]
    exact List.prefix_append _ _

theorem size_mono (a b : List UInt16) :
    (fromUtf16Lossy a).utf8ByteSize ≤ (fromUtf16Lossy (a ++ b)).utf8ByteSize := by
  by_cases hsplit : Splits a b
  · obtain ⟨start, rest, hi, lo, hhi, hlo, ha, hab⟩ := decodeLossy_cut hsplit
    have hthree : replacement.utf8Size = 3 := by decide
    have hfour := utf8Size_pairChar hhi hlo
    rw [fromUtf16Lossy, fromUtf16Lossy, ha, hab, String.ofList_append, String.ofList_append,
      String.utf8ByteSize_append, String.utf8ByteSize_append, Text.size_ofList_cons,
      Text.size_ofList_cons]
    have hnil : (String.ofList []).utf8ByteSize = 0 := rfl
    omega
  · rw [fromUtf16Lossy_append hsplit, String.utf8ByteSize_append]
    exact Nat.le_add_right _ _

def encodeChar (c : Char) : List UInt16 :=
  if c.toNat < 0x10000 then [UInt16.ofNat c.toNat]
  else
    [UInt16.ofNat (0xD800 + (c.toNat - 0x10000) / 0x400),
      UInt16.ofNat (0xDC00 + (c.toNat - 0x10000) % 0x400)]

def encode (s : String) : List UInt16 := s.toList.flatMap encodeChar

theorem char_apart (c : Char) : c.toNat < 0xD800 ∨ 0xDFFF < c.toNat ∧ c.toNat < 0x110000 := c.valid

theorem encodeChar_bmp {c : Char} (h : c.toNat < 0x10000) :
    ∃ u, encodeChar c = [u] ∧ isSurrogate u = false ∧ u.toNat = c.toNat := by
  have hu : (UInt16.ofNat c.toNat).toNat = c.toNat := UInt16.toNat_ofNat_of_lt' h
  refine ⟨UInt16.ofNat c.toNat, if_pos h, ?_, hu⟩
  have hc := char_apart c
  rw [Bool.eq_false_iff, ne_eq, surrogate_range, hu]
  omega

theorem encodeChar_pair {c : Char} (h : ¬c.toNat < 0x10000) :
    ∃ hi lo, encodeChar c = [hi, lo] ∧ isHighSurrogate hi = true ∧ isLowSurrogate lo = true ∧
      pairChar hi lo = c := by
  have hc := char_apart c
  have hdiv : (c.toNat - 0x10000) / 0x400 < 0x400 := by omega
  have hmod : (c.toNat - 0x10000) % 0x400 < 0x400 := Nat.mod_lt _ (by omega)
  have hhi : (UInt16.ofNat (0xD800 + (c.toNat - 0x10000) / 0x400)).toNat =
      0xD800 + (c.toNat - 0x10000) / 0x400 := by
    apply UInt16.toNat_ofNat_of_lt'
    simp only [UInt16.size]
    omega
  have hlo : (UInt16.ofNat (0xDC00 + (c.toNat - 0x10000) % 0x400)).toNat =
      0xDC00 + (c.toNat - 0x10000) % 0x400 := by
    apply UInt16.toNat_ofNat_of_lt'
    simp only [UInt16.size]
    omega
  have hhigh : isHighSurrogate (UInt16.ofNat (0xD800 + (c.toNat - 0x10000) / 0x400)) = true := by
    rw [isHighSurrogate, Bool.and_eq_true, surrogate_range, Bool.not_eq_true', Bool.eq_false_iff]
    refine ⟨by omega, fun hl => ?_⟩
    have hlow := low_range hl
    omega
  have hlow : isLowSurrogate (UInt16.ofNat (0xDC00 + (c.toNat - 0x10000) % 0x400)) = true := by
    simp only [isLowSurrogate, Bool.and_eq_true, decide_eq_true_eq, UInt16.le_iff_toNat_le, hlo,
      UInt16.reduceToNat]
    omega
  refine ⟨_, _, if_neg h, hhigh, hlow, ?_⟩
  rw [← Char.toNat_inj, toNat_pairChar hhigh hlow, hhi, hlo]
  omega

theorem fromUtf16Lossy_encode (s : String) : fromUtf16Lossy (encode s) = s := by
  have hchars (cs : List Char) : decodeLossy (cs.flatMap encodeChar) = cs := by
    induction cs with
    | nil => rfl
    | cons c cs ih =>
        rw [List.flatMap_cons]
        by_cases h : c.toNat < 0x10000
        · obtain ⟨u, hunits, hplain, hu⟩ := encodeChar_bmp h
          have hsingle : ¬Splits [u] (cs.flatMap encodeChar) := by
            rintro ⟨v, hlast, _, -, hhigh, -⟩
            have hv : u = v := by simpa using hlast
            rw [← hv, isHighSurrogate, hplain] at hhigh
            cases hhigh
          rw [hunits, List.singleton_append, decodeLossy_single hsingle, ih, unitChar, hplain, hu]
          simp
        · obtain ⟨hi, lo, hunits, hhi, hlo, hpair⟩ := encodeChar_pair h
          rw [hunits]
          simp only [List.cons_append, List.nil_append]
          rw [decodeLossy_pair hhi hlo, ih, hpair]
  rw [fromUtf16Lossy, encode, hchars, String.ofList_toList]

end RimeWinime.Utf16
