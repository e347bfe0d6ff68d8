import Mathlib.Data.List.Forall2
import RimeWinime.Lib.LittleEndian
import RimeWinime.Host.ImmOps

namespace RimeWinime.CandidateLayout

open Win32 Proto ImmOps Utf16 LittleEndian

def words (values : List UInt32) : List UInt8 := values.flatMap fun v => encode 4 v.toNat

def wideText (units : List UInt16) : List UInt8 := units.flatMap fun u => encode 2 u.toNat

/-- `shift` zero slots stand before the offset table: none in the standard
layout. What follows the table, the strings included, is `tail`. -/
structure Layout where
  dwSize : UInt32
  dwStyle : UInt32
  dwSelection : UInt32
  dwPageStart : UInt32
  dwPageSize : UInt32
  texts : List String
  shift : Nat
  offsets : List UInt32
  tail : List UInt8

def Layout.header (l : Layout) : List UInt32 :=
  [l.dwSize, l.dwStyle, UInt32.ofNat l.texts.length, l.dwSelection, l.dwPageStart, l.dwPageSize]

def Layout.bytes (l : Layout) : List UInt8 :=
  words (l.header ++ (List.replicate l.shift 0 ++ l.offsets)) ++ l.tail

/-- The text with its NUL stands at the offset. -/
structure TextAt (bytes : List UInt8) (offset : UInt32) (text : String) : Prop where
  real : 0 < offset.toNat
  inside : offset.toNat < bytes.length
  written : wideText (Utf16.encode text ++ [0]) <+: bytes.drop offset.toNat

structure Layout.Written (l : Layout) : Prop where
  nonempty : l.texts ≠ []
  plain : ∀ text ∈ l.texts, Char.ofNat 0 ∉ text.toList
  placed : List.Forall₂ (TextAt l.bytes) l.offsets l.texts
  small : l.bytes.length < 2 ^ 31

/-- The units of the strings are where units can be read. -/
structure Layout.Encodes (l : Layout) : Prop extends Layout.Written l where
  aligned : ∀ offset ∈ l.offsets, offset.toNat % 2 = 0

theorem ok_bind {ε α β : Type} (a : α) (f : α → Except ε β) : (Except.ok a >>= f) = f a := rfl

theorem readU8_drop {buffer rest : List UInt8} {i : Nat} {b : UInt8}
    (h : buffer.drop i = b :: rest) : readU8 buffer i = .ok b := by
  have hat : buffer[i]? = some b := by
    rw [← Nat.add_zero i, ← List.getElem?_drop, h]
    rfl
  rw [readU8, hat]

theorem drop_next {buffer rest : List UInt8} {i : Nat} {b : UInt8}
    (h : buffer.drop i = b :: rest) : buffer.drop (i + 1) = rest := by
  rw [← List.drop_drop, h]
  rfl

theorem or_shift {low width : Nat} (h : low < 2 ^ width) (high : Nat) :
    low ||| high <<< width = low + 2 ^ width * high := by
  rw [Nat.shiftLeft_eq, Nat.mul_comm high, Nat.or_comm, ← Nat.two_pow_add_eq_or_of_lt h, Nat.add_comm]

theorem or_shift_eight (n : Nat) :
    (UInt8.ofNat n).toUInt16 ||| ((UInt8.ofNat (n / 256)).toUInt16 <<< 8) = UInt16.ofNat n := by
  have hlow : n % 2 ^ 8 < 2 ^ 8 := Nat.mod_lt _ (by omega)
  have hroom : (n / 256 % 2 ^ 8) <<< 8 < 2 ^ 16 := by
    rw [Nat.shiftLeft_eq]
    omega
  rw [← UInt16.toNat_inj, UInt16.toNat_or, UInt16.toNat_shiftLeft, UInt8.toNat_toUInt16,
    UInt8.toNat_toUInt16, UInt8.toNat_ofNat', UInt8.toNat_ofNat', UInt16.toNat_ofNat']
  change n % 2 ^ 8 ||| (n / 256 % 2 ^ 8) <<< 8 % 2 ^ 16 = n % 2 ^ 16
  rw [Nat.mod_eq_of_lt hroom, or_shift hlow]
  omega

theorem or_shift_sixteen (n : Nat) :
    (UInt16.ofNat n).toUInt32 ||| ((UInt16.ofNat (n / 65536)).toUInt32 <<< 16) = UInt32.ofNat n := by
  have hlow : n % 2 ^ 16 < 2 ^ 16 := Nat.mod_lt _ (by omega)
  have hroom : (n / 65536 % 2 ^ 16) <<< 16 < 2 ^ 32 := by
    rw [Nat.shiftLeft_eq]
    omega
  rw [← UInt32.toNat_inj, UInt32.toNat_or, UInt32.toNat_shiftLeft, UInt16.toNat_toUInt32,
    UInt16.toNat_toUInt32, UInt16.toNat_ofNat', UInt16.toNat_ofNat', UInt32.toNat_ofNat']
  change n % 2 ^ 16 ||| (n / 65536 % 2 ^ 16) <<< 16 % 2 ^ 32 = n % 2 ^ 32
  rw [Nat.mod_eq_of_lt hroom, or_shift hlow]
  omega

theorem readU16_drop {buffer rest : List UInt8} {i n : Nat}
    (h : buffer.drop i = encode 2 n ++ rest) : readU16 buffer i = .ok (UInt16.ofNat n) := by
  have h0 : buffer.drop i = UInt8.ofNat n :: UInt8.ofNat (n / 256) :: rest := h
  have h1 := drop_next h0
  rw [readU16, readU8_drop h0, readU8_drop h1, ← or_shift_eight]
  rfl

theorem readU32_drop {buffer rest : List UInt8} {i n : Nat}
    (h : buffer.drop i = encode 4 n ++ rest) : readU32 buffer i = .ok (UInt32.ofNat n) := by
  have hlow : buffer.drop i = encode 2 n ++ (encode 2 (n / 256 / 256) ++ rest) := h
  have hhigh : buffer.drop (i + 2) = encode 2 (n / 65536) ++ rest := by
    rw [← List.drop_drop, hlow, Nat.div_div_eq_div_mul]
    rfl
  rw [readU32, readU16_drop hlow, readU16_drop hhigh, ← or_shift_sixteen]
  rfl

theorem length_words (values : List UInt32) : (words values).length = 4 * values.length := by
  induction values with
  | nil => rfl
  | cons v values ih =>
      rw [words, List.flatMap_cons, List.length_append, length_encode, ← words, ih, List.length_cons]
      omega

theorem words_append (a b : List UInt32) : words (a ++ b) = words a ++ words b :=
  List.flatMap_append

theorem readU32_word {buffer rest : List UInt8} {i : Nat} {v : UInt32}
    (h : buffer.drop i = words [v] ++ rest) : readU32 buffer i = .ok v := by
  have hread := readU32_drop (n := v.toNat) (by rwa [words, List.flatMap_singleton] at h)
  rwa [UInt32.ofNat_toNat] at hread

theorem drop_words (before : List UInt32) (v : UInt32) (after : List UInt32) (tail : List UInt8) :
    (words (before ++ v :: after) ++ tail).drop (4 * before.length) =
      words [v] ++ (words after ++ tail) := by
  rw [words_append, List.append_assoc, List.drop_left' (length_words before),
    ← List.singleton_append, words_append, List.append_assoc]

theorem readU8_total {buffer : List UInt8} {i : Nat} (h : i < buffer.length) :
    ∃ b, readU8 buffer i = .ok b := ⟨buffer[i], by rw [readU8, List.getElem?_eq_getElem h]⟩

theorem readU32_total {buffer : List UInt8} {i : Nat} (h : i + 4 ≤ buffer.length) :
    ∃ v, readU32 buffer i = .ok v := by
  obtain ⟨b0, h0⟩ : ∃ b, readU8 buffer i = .ok b := readU8_total (by omega)
  obtain ⟨b1, h1⟩ : ∃ b, readU8 buffer (i + 1) = .ok b := readU8_total (by omega)
  obtain ⟨b2, h2⟩ : ∃ b, readU8 buffer (i + 2) = .ok b := readU8_total (by omega)
  obtain ⟨b3, h3⟩ : ∃ b, readU8 buffer (i + 2 + 1) = .ok b := readU8_total (by omega)
  rw [readU32, readU16, readU16, h0, h1, h2, h3]
  exact ⟨_, rfl⟩

theorem readSlots_known {buffer : List UInt8} {table : List UInt32} {idx n : Nat}
    (hknown : ∀ j v, table[j]? = some v → readU32 buffer (headerSize + 4 * (idx + j)) = .ok v)
    (hfits : table.length ≤ n) (hroom : headerSize + 4 * (idx + n) ≤ buffer.length) :
    ∃ more, readSlots buffer idx n = .ok (table ++ more) := by
  induction n generalizing idx table with
  | zero =>
      have hnone : table = [] := List.length_eq_zero_iff.mp (Nat.le_zero.mp hfits)
      exact ⟨[], by rw [hnone, readSlots]; rfl⟩
  | succ n ih =>
      cases table with
      | nil =>
          obtain ⟨v, hv⟩ : ∃ v, readU32 buffer (headerSize + 4 * idx) = .ok v :=
            readU32_total (by omega)
          obtain ⟨more, hmore⟩ : ∃ more, readSlots buffer (idx + 1) n = .ok ([] ++ more) :=
            ih (fun _ _ h => by cases h) (Nat.zero_le _) (by omega)
          refine ⟨v :: more, ?_⟩
          rw [readSlots, hv, hmore]
          rfl
      | cons v table =>
          have hv := hknown 0 v rfl
          rw [Nat.add_zero] at hv
          have hnext : ∀ j w, table[j]? = some w →
              readU32 buffer (headerSize + 4 * (idx + 1 + j)) = .ok w := by
            intro j w hw
            have hread := hknown (j + 1) w hw
            rwa [Nat.add_comm j 1, ← Nat.add_assoc] at hread
          obtain ⟨more, hmore⟩ := ih hnext (Nat.le_of_succ_le_succ hfits) (by omega)
          refine ⟨more, ?_⟩
          rw [readSlots, hv, hmore]
          rfl

theorem baseIdx_shift {first size : UInt32} (hreal : 0 < first.toNat)
    (hinside : first.toNat < size.toNat) (shift : Nat) (rest : List UInt32) :
    baseIdx (List.replicate shift 0 ++ first :: rest) size = shift := by
  have hfound : (0 < first && first < size) = true := by
    rw [Bool.and_eq_true, decide_eq_true_eq, decide_eq_true_eq, UInt32.lt_iff_toNat_lt,
      UInt32.lt_iff_toNat_lt]
    exact ⟨hreal, hinside⟩
  have hscan (n : Nat) : (List.replicate n 0 ++ first :: rest).findIdx?
      (fun val => 0 < val && val < size) = some n := by
    induction n with
    | zero =>
        rw [List.replicate_zero, List.nil_append, List.findIdx?_cons, if_pos hfound]
    | succ n ih =>
        rw [List.replicate_succ, List.cons_append, List.findIdx?_cons, ih]
        rfl
  cases shift with
  | zero =>
      have hnonzero : first ≠ 0 := by
        rintro rfl
        exact Nat.lt_irrefl 0 hreal
      exact if_neg hnonzero
  | succ shift =>
      rw [baseIdx, hscan]
      exact if_pos rfl

theorem encode_no_nul {text : String} (h : Char.ofNat 0 ∉ text.toList) :
    ∀ u ∈ Utf16.encode text, u ≠ 0 := by
  rintro u hu rfl
  obtain ⟨c, hc, hunit⟩ := List.mem_flatMap.mp hu
  by_cases hbasic : c.toNat < 0x10000
  · obtain ⟨v, hunits, -, hv⟩ := encodeChar_bmp hbasic
    rw [hunits, List.mem_singleton] at hunit
    rw [← hunit] at hv
    apply h
    rwa [show Char.ofNat 0 = c from Char.toNat_inj.mp hv]
  · obtain ⟨hi, lo, hunits, hhi, hlo, -⟩ := encodeChar_pair hbasic
    rw [hunits] at hunit
    rcases List.mem_pair.mp hunit with rfl | rfl
    · exact absurd hhi (by decide)
    · exact absurd hlo (by decide)

theorem readUnits_even {offset : Nat} (h : offset % 2 = 0) (buffer : List UInt8) (maxChars : Nat) :
    readUnits buffer offset maxChars = unitsAt buffer offset maxChars :=
  if_neg (by omega)

theorem unitsAt_terminated {buffer rest : List UInt8} {units : List UInt16} {offset maxChars : Nat}
    (hplain : ∀ u ∈ units, u ≠ 0) (hfits : units.length < maxChars)
    (h : buffer.drop offset = wideText (units ++ [0]) ++ rest) :
    unitsAt buffer offset maxChars = .ok units := by
  induction units generalizing offset maxChars with
  | nil =>
      cases maxChars with
      | zero => cases hfits
      | succ maxChars =>
          have hread := readU16_drop (n := 0) h
          rw [unitsAt, hread]
          rfl
  | cons u units ih =>
      cases maxChars with
      | zero => cases hfits
      | succ maxChars =>
          have hfirst : buffer.drop offset =
              encode 2 u.toNat ++ (wideText (units ++ [0]) ++ rest) := by
            rw [h, ← List.append_assoc]
            rfl
          have hnext : buffer.drop (offset + 2) = wideText (units ++ [0]) ++ rest := by
            rw [← List.drop_drop, hfirst, List.drop_left' (length_encode 2 _)]
          have hread := readU16_drop hfirst
          rw [UInt16.ofNat_toNat] at hread
          have hu : u ≠ 0 := hplain u List.mem_cons_self
          have hrest := ih (fun v hv => hplain v (List.mem_cons_of_mem u hv))
            (Nat.lt_of_succ_lt_succ hfits) hnext
          rw [unitsAt, hread]
          change (if u = 0 then pure [] else _) = _
          rw [if_neg hu, hrest]
          rfl

theorem length_wideText (units : List UInt16) : (wideText units).length = 2 * units.length := by
  induction units with
  | nil => rfl
  | cons u units ih =>
      rw [wideText, List.flatMap_cons, List.length_append, length_encode, ← wideText, ih,
        List.length_cons]
      omega

theorem readUnits_text {buffer : List UInt8} {offset : UInt32} {text : String}
    (h : TextAt buffer offset text) (heven : offset.toNat % 2 = 0)
    (hplain : Char.ofNat 0 ∉ text.toList) :
    readUnits buffer offset.toNat ((buffer.length - offset.toNat) / 2) = .ok (Utf16.encode text) := by
  obtain ⟨rest, hrest⟩ := h.written
  have hlength := congrArg List.length hrest
  rw [List.length_append, length_wideText, List.length_append, List.length_singleton,
    List.length_drop] at hlength
  rw [readUnits_even heven]
  exact unitsAt_terminated (encode_no_nul hplain) (by omega) hrest.symm

theorem readCandidates_texts {buffer : List UInt8} {slots offsets : List UInt32}
    {texts : List String} (hplaced : List.Forall₂ (TextAt buffer) offsets texts)
    (heven : ∀ offset ∈ offsets, offset.toNat % 2 = 0)
    (hplain : ∀ text ∈ texts, Char.ofNat 0 ∉ text.toList) {base : Nat}
    (hslots : ∀ j v, offsets[j]? = some v → slots[base + j]? = some v) :
    readCandidates buffer buffer.length slots base texts.length =
      .ok (texts.map fun text => ⟨text, ""⟩) := by
  induction hplaced generalizing base with
  | nil => rfl
  | @cons offset text offsets texts htext _ ih =>
      have hslot := hslots 0 offset rfl
      rw [Nat.add_zero] at hslot
      have hreal : ¬(offset.toNat = 0 ∨ buffer.length ≤ offset.toNat) := by
        have hpos := htext.real
        have hlt := htext.inside
        omega
      have hnext : ∀ j v, offsets[j]? = some v → slots[base + 1 + j]? = some v := by
        intro j v hv
        have hat := hslots (j + 1) v hv
        rwa [Nat.add_comm j 1, ← Nat.add_assoc] at hat
      have hrest := ih (fun v hv => heven v (List.mem_cons_of_mem offset hv))
        (fun t ht => hplain t (List.mem_cons_of_mem text ht)) hnext
      have hunits := readUnits_text htext (heven offset List.mem_cons_self)
        (hplain text List.mem_cons_self)
      rw [List.length_cons, readCandidates, hslot]
      dsimp only
      rw [if_neg hreal, hunits, hrest]
      change Except.ok (CandidateProto.mk (fromUtf16Lossy (Utf16.encode text)) "" :: _) = _
      rw [fromUtf16Lossy_encode]
      rfl

theorem readU32_at {values : List UInt32} {i : Nat} {v : UInt32} (h : values[i]? = some v)
    (tail : List UInt8) : readU32 (words values ++ tail) (4 * i) = .ok v := by
  obtain ⟨hlt, hv⟩ := List.getElem?_eq_some_iff.mp h
  have hsplit : values = values.take i ++ v :: values.drop (i + 1) := by
    rw [← hv, ← List.drop_eq_getElem_cons hlt, List.take_append_drop]
  have hlength : (values.take i).length = i := List.length_take_of_le hlt.le
  have hdrop := drop_words (values.take i) v (values.drop (i + 1)) tail
  rw [← hsplit, hlength] at hdrop
  exact readU32_word hdrop

def Layout.shownPageSize (l : Layout) : Nat := if l.dwPageSize = 0 then 10 else l.dwPageSize.toNat

/-- The page size of the menu is the encoded one and the page number the quotient. -/
def UnsignedPages (l : Layout) (menu : MenuProto) : Prop :=
  menu.pageSize.toInt = l.shownPageSize ∧
    menu.pageNo.toInt = (l.dwPageStart.toNat / l.shownPageSize : Nat)

/-- What the menu of a layout is. The page size and the page start are read as
signed numbers. -/
structure Describes (l : Layout) (menu : MenuProto) : Prop where
  candidates : menu.candidates = l.texts.map fun text => ⟨text, ""⟩
  numCandidates : menu.numCandidates.toInt = l.texts.length
  pageSize : menu.pageSize = if l.dwPageSize = 0 then 10 else l.dwPageSize.toInt32
  pageNo : menu.pageNo = if 0 < menu.pageSize then l.dwPageStart.toInt32 / menu.pageSize else 0
  unsigned : l.dwPageStart.toNat < 2 ^ 31 → l.dwPageSize.toNat < 2 ^ 31 → UnsignedPages l menu

def Layout.read (l : Layout) (copied : UInt32) : CandRead :=
  ⟨UInt32.ofNat l.bytes.length, copied, l.bytes⟩

namespace Layout

variable {l : Layout}

theorem readU32_header {i : Nat} {v : UInt32} (h : l.header[i]? = some v) :
    readU32 l.bytes (4 * i) = .ok v := by
  apply readU32_at
  rw [List.getElem?_append_left, h]
  exact (List.getElem?_eq_some_iff.mp h).1

theorem readU32_table {j : Nat} {v : UInt32}
    (h : (List.replicate l.shift 0 ++ l.offsets)[j]? = some v) :
    readU32 l.bytes (headerSize + 4 * (0 + j)) = .ok v := by
  have hindex : headerSize + 4 * (0 + j) = 4 * (l.header.length + j) := by
    have hheader : l.header.length = 6 := rfl
    rw [hheader, headerSize]
    omega
  rw [hindex]
  apply readU32_at
  rw [List.getElem?_append_right (Nat.le_add_right _ _), Nat.add_sub_cancel_left, h]

theorem room (l : Layout) : headerSize + 4 * (l.shift + l.offsets.length) ≤ l.bytes.length := by
  rw [bytes, List.length_append, length_words, List.length_append, List.length_append,
    List.length_replicate]
  have hheader : l.header.length = 6 := rfl
  rw [hheader, headerSize]
  omega

theorem Encodes.base (h : l.Encodes) (more : List UInt32) :
    baseIdx (List.replicate l.shift 0 ++ l.offsets ++ more) (UInt32.ofNat l.bytes.length) =
      l.shift := by
  have hsize : (UInt32.ofNat l.bytes.length).toNat = l.bytes.length := by
    apply UInt32.toNat_ofNat_of_lt'
    have hsmall := h.small
    simp only [UInt32.size]
    omega
  have hplaced := h.placed
  cases hoffsets : l.offsets with
  | nil =>
      rw [hoffsets] at hplaced
      exact absurd (List.forall₂_nil_left_iff.mp hplaced) h.nonempty
  | cons first offsets =>
      rw [hoffsets] at hplaced
      obtain ⟨text, texts, hfirst, -, -⟩ := List.forall₂_cons_left_iff.mp hplaced
      rw [List.append_assoc, List.cons_append]
      exact baseIdx_shift hfirst.real (by rw [hsize]; exact hfirst.inside) l.shift _

theorem Encodes.candidates (h : l.Encodes) (more : List UInt32) :
    readCandidates l.bytes l.bytes.length (List.replicate l.shift 0 ++ l.offsets ++ more) l.shift
      l.texts.length = .ok (l.texts.map fun text => ⟨text, ""⟩) := by
  apply readCandidates_texts h.placed h.aligned h.plain
  intro j v hv
  have hlength : (List.replicate l.shift (0 : UInt32)).length = l.shift := List.length_replicate
  rw [List.append_assoc, List.getElem?_append_right (by omega), hlength, Nat.add_sub_cancel_left,
    List.getElem?_append_left (List.getElem?_eq_some_iff.mp hv).1, hv]

def menu (l : Layout) : MenuProto :=
  menuWith (UInt32.ofNat l.texts.length) l.dwSelection l.dwPageStart l.dwPageSize
    (l.texts.map fun text => ⟨text, ""⟩)

theorem Encodes.decoded (h : l.Encodes) {copied : UInt32} (hcopied : copied ≠ 0) :
    getCandidateList (l.read copied) = .ok (some l.menu) := by
  have hroom := l.room
  have hlengths := h.placed.length_eq
  have hsmall := h.small
  rw [headerSize] at hroom
  have hsize : (UInt32.ofNat l.bytes.length).toNat = l.bytes.length :=
    UInt32.toNat_ofNat_of_lt' (by simp only [UInt32.size]; omega)
  have hcount : (UInt32.ofNat l.texts.length).toNat = l.texts.length :=
    UInt32.toNat_ofNat_of_lt' (by simp only [UInt32.size]; omega)
  have hsome : UInt32.ofNat l.texts.length ≠ 0 := by
    intro hzero
    rw [hzero] at hcount
    exact h.nonempty (List.length_eq_zero_iff.mp hcount.symm)
  have hlong : UInt32.ofNat l.bytes.length ≠ 0 := by
    intro hzero
    rw [hzero] at hsize
    rw [← hsize] at hroom
    exact absurd (Nat.le_of_add_right_le hroom) (by decide)
  have hbuffer : l.bytes.takeD l.bytes.length 0 = l.bytes := by
    rw [List.takeD_eq_take 0 le_rfl, List.take_length]
  have hfits : (List.replicate l.shift 0 ++ l.offsets).length ≤ (l.bytes.length - headerSize) / 4 := by
    rw [List.length_append, List.length_replicate, headerSize]
    omega
  obtain ⟨more, hslots⟩ : ∃ more, readSlots l.bytes 0 ((l.bytes.length - headerSize) / 4) =
      .ok (List.replicate l.shift 0 ++ l.offsets ++ more) :=
    readSlots_known (fun j v => readU32_table) hfits (by rw [headerSize]; omega)
  have hdwCount : readU32 l.bytes 8 = .ok (UInt32.ofNat l.texts.length) := readU32_header (i := 2) rfl
  have hdwSelection : readU32 l.bytes 12 = .ok l.dwSelection := readU32_header (i := 3) rfl
  have hdwPageStart : readU32 l.bytes 16 = .ok l.dwPageStart := readU32_header (i := 4) rfl
  have hdwPageSize : readU32 l.bytes 20 = .ok l.dwPageSize := readU32_header (i := 5) rfl
  have hlarge : ¬l.bytes.length < headerSize := by
    rw [headerSize]
    omega
  rw [getCandidateList]
  simp only [read, if_neg hlong, if_neg hcopied, hsize, hbuffer, hdwCount, hdwSelection,
    hdwPageStart, hdwPageSize, hslots, ok_bind, if_neg hsome, if_neg hlarge, hcount, h.base,
    h.candidates]
  rfl

theorem toInt_toInt32 {v : UInt32} (h : v.toNat < 2 ^ 31) : v.toInt32.toInt = v.toNat := by
  have hv := Int32.toInt_ofNat_of_lt h
  rwa [← UInt32.toInt32_ofNat', UInt32.ofNat_toNat] at hv

theorem menu_pageSize (l : Layout) :
    l.menu.pageSize = if l.dwPageSize = 0 then 10 else l.dwPageSize.toInt32 := by
  rw [menu, menuWith]
  by_cases hzero : l.dwPageSize = 0
  · rw [if_pos hzero, hzero]
    rfl
  · rw [if_neg hzero]
    exact if_pos (UInt32.pos_iff_ne_zero.mpr hzero)

theorem menu_pageNo (l : Layout) : l.menu.pageNo =
    if 0 < l.menu.pageSize then l.dwPageStart.toInt32 / l.menu.pageSize else 0 := rfl

theorem menu_unsigned (hstart : l.dwPageStart.toNat < 2 ^ 31) (hsize : l.dwPageSize.toNat < 2 ^ 31) :
    UnsignedPages l l.menu := by
  have hpage : l.menu.pageSize.toInt = l.shownPageSize := by
    rw [menu_pageSize, shownPageSize]
    by_cases hzero : l.dwPageSize = 0
    · rw [if_pos hzero, if_pos hzero]
      rfl
    · rw [if_neg hzero, if_neg hzero, toInt_toInt32 hsize]
  have hpos : 0 < l.shownPageSize := by
    rw [shownPageSize]
    split
    · omega
    · next hzero => exact UInt32.pos_iff_ne_zero.mpr hzero
  refine ⟨hpage, ?_⟩
  have hsigned : 0 < l.menu.pageSize := by
    rw [Int32.lt_iff_toInt_lt, hpage]
    exact Int.natCast_pos.mpr hpos
  have hother : l.menu.pageSize ≠ -1 := by
    intro hminus
    rw [hminus] at hsigned
    exact absurd hsigned (by decide)
  rw [menu_pageNo, if_pos hsigned, Int32.toInt_div_of_ne_right _ _ hother, toInt_toInt32 hstart,
    hpage]
  rfl

theorem Encodes.describes (h : l.Encodes) : Describes l l.menu := by
  have hroom := l.room
  have hlengths := h.placed.length_eq
  have hsmall := h.small
  rw [headerSize] at hroom
  refine ⟨rfl, ?_, menu_pageSize l, menu_pageNo l, menu_unsigned⟩
  rw [menu, menuWith, UInt32.toInt32_ofNat']
  exact Int32.toInt_ofNat_of_lt (by omega)

end Layout

/-- Two candidates, with one zero slot before the table. -/
def twoShifted : Layout where
  dwSize := 44
  dwStyle := 0
  dwSelection := 0
  dwPageStart := 10
  dwPageSize := 5
  texts := ["a", "b"]
  shift := 1
  offsets := [36, 40]
  tail := [0x61, 0, 0, 0, 0x62, 0, 0, 0]

/-- One candidate in pages of 2 ^ 31. -/
def hugePage : Layout where
  dwSize := 32
  dwStyle := 0
  dwSelection := 0
  dwPageStart := 0
  dwPageSize := 0x80000000
  texts := ["a"]
  shift := 0
  offsets := [28]
  tail := [0x61, 0, 0, 0]

/-- Two candidates, the second at an odd offset. -/
def oddPlaced : Layout where
  dwSize := 41
  dwStyle := 0
  dwSelection := 0
  dwPageStart := 0
  dwPageSize := 5
  texts := ["a", "b"]
  shift := 0
  offsets := [32, 37]
  tail := [0x61, 0, 0, 0, 0, 0x62, 0, 0, 0]

theorem twoShifted_encodes : twoShifted.Encodes where
  nonempty := by decide
  plain := by decide
  placed := .cons ⟨by decide, by decide, by decide⟩ (.cons ⟨by decide, by decide, by decide⟩ .nil)
  small := by decide
  aligned := by simp [twoShifted]

theorem hugePage_encodes : hugePage.Encodes where
  nonempty := by decide
  plain := by decide
  placed := .cons ⟨by decide, by decide, by decide⟩ .nil
  small := by decide
  aligned := by simp [hugePage]

theorem oddPlaced_written : oddPlaced.Written where
  nonempty := by decide
  plain := by decide
  placed := .cons ⟨by decide, by decide, by decide⟩ (.cons ⟨by decide, by decide, by decide⟩ .nil)
  small := by decide

/-- A page size that an `int32` does not hold comes back negative, and a string at an odd
offset cannot be read. -/
theorem layout_not_decoded :
    (hugePage.Encodes ∧ ∃ menu, getCandidateList (hugePage.read 32) = .ok (some menu) ∧
      menu.pageSize.toInt = -2147483648 ∧ ¬UnsignedPages hugePage menu) ∧
      oddPlaced.Written ∧ getCandidateList (oddPlaced.read 41) = .error .misaligned := by
  refine ⟨⟨hugePage_encodes, _, hugePage_encodes.decoded (by decide), by decide, fun hpages => ?_⟩,
    oddPlaced_written, by decide⟩
  exact absurd hpages.1 (by decide)

/-- The decoder inverts the layout, with each string where its units can be read. -/
theorem layout_decoded (l : Layout) (h : l.Encodes) (copied : UInt32) (hcopied : copied ≠ 0) :
    ∃ menu, getCandidateList (l.read copied) = .ok (some menu) ∧ Describes l menu :=
  ⟨l.menu, h.decoded hcopied, h.describes⟩

theorem two_shifted_decoded :
    ∃ menu, getCandidateList (twoShifted.read 44) = .ok (some menu) ∧ Describes twoShifted menu :=
  layout_decoded twoShifted twoShifted_encodes 44 (by decide)

end RimeWinime.CandidateLayout
