import Mathlib.Algebra.Group.Nat.Defs
import Mathlib.Order.Bounds.Basic
import RimeWinime.Host.ImmOps

namespace RimeWinime.CompositionOffsets

open Win32 ImmOps Utf16

def compositionUnits (comp : CompRead) : List UInt16 :=
  (unitBuffer (comp.size.toNat / 2) comp.units).take (comp.copied.toNat / 2)

def attributes (attr : CompRead) : List UInt8 :=
  if attr.size > 0 ∧ attr.copied > 0 then attr.attrs.takeD attr.size.toNat 0 else []

def cursorIndex (units : List UInt16) (cursor : Int) : Nat :=
  if cursor < 0 then units.length else cursor.toNat

def prefixSize (units : List UInt16) (idx : Nat) : Nat :=
  (fromUtf16Lossy (units.take idx)).utf8ByteSize

def IsTarget (attr : UInt8) : Prop := attr = ATTR_TARGET_CONVERTED ∨ attr = ATTR_TARGET_NOTCONVERTED

instance (attr : UInt8) : Decidable (IsTarget attr) := inferInstanceAs (Decidable (_ ∨ _))

def TargetAt (attrs : List UInt8) (i : Nat) : Prop := ∃ attr ∈ attrs[i]?, IsTarget attr

/-- The smallest interval with every target attribute; all of the text when
there is none. -/
inductive IsSpan (attrs : List UInt8) (len : Nat) : Nat → Nat → Prop
  | whole (none : ∀ i, ¬TargetAt attrs i) : IsSpan attrs len 0 len
  | targets {first last : Nat} (hfirst : IsLeast {i | TargetAt attrs i} first)
      (hlast : IsGreatest {i | TargetAt attrs i} last) : IsSpan attrs len first (last + 1)

theorem IsSpan.unique {attrs : List UInt8} {len start stop start' stop' : Nat}
    (h : IsSpan attrs len start stop) (h' : IsSpan attrs len start' stop') :
    start = start' ∧ stop = stop' := by
  cases h with
  | whole none =>
      cases h' with
      | whole => exact ⟨rfl, rfl⟩
      | targets hfirst => exact absurd hfirst.1 (none _)
  | targets hfirst hlast =>
      cases h' with
      | whole none => exact absurd hfirst.1 (none _)
      | targets hfirst' hlast' =>
          exact ⟨hfirst.unique hfirst', congrArg (· + 1) (hlast.unique hlast')⟩

theorem IsSpan.le {attrs : List UInt8} {len start stop : Nat} (h : IsSpan attrs len start stop) :
    start ≤ stop := by
  cases h with
  | whole => exact Nat.zero_le len
  | targets hfirst hlast => exact Nat.le_succ_of_le (hfirst.2 hlast.1)

theorem targetAt_cons (attr : UInt8) (attrs : List UInt8) (i : Nat) :
    TargetAt (attr :: attrs) i ↔ i = 0 ∧ IsTarget attr ∨ ∃ j, i = j + 1 ∧ TargetAt attrs j := by
  cases i with
  | zero => simp [TargetAt]
  | succ i => simp [TargetAt]

theorem targetScan_target {attr : UInt8} (h : IsTarget attr) (attrs : List UInt8) (i : Nat)
    (start stop : Int) : targetScan (attr :: attrs) i (start, stop) =
      targetScan attrs (i + 1) (if start = -1 then i else start, i + 1) := by
  rw [targetScan]
  exact if_pos h

theorem targetScan_other {attr : UInt8} (h : ¬IsTarget attr) (attrs : List UInt8) (i : Nat)
    (span : Int × Int) : targetScan (attr :: attrs) i span = targetScan attrs (i + 1) span := by
  rw [targetScan]
  exact if_neg h

theorem targetScan_none {attrs : List UInt8} (h : ∀ i, ¬TargetAt attrs i) (i : Nat)
    (span : Int × Int) : targetScan attrs i span = span := by
  induction attrs generalizing i with
  | nil => rfl
  | cons attr attrs ih =>
      have hattr : ¬IsTarget attr := fun ht => h 0 ((targetAt_cons _ _ _).mpr (Or.inl ⟨rfl, ht⟩))
      have hrest : ∀ j, ¬TargetAt attrs j := fun j ht =>
        h (j + 1) ((targetAt_cons _ _ _).mpr (Or.inr ⟨j, rfl, ht⟩))
      rw [targetScan_other hattr, ih hrest]

theorem targetScan_some {attrs : List UInt8} (h : ∃ i, TargetAt attrs i) (i : Nat) (start stop : Int) :
    ∃ first last, IsLeast {j | TargetAt attrs j} first ∧ IsGreatest {j | TargetAt attrs j} last ∧
      targetScan attrs i (start, stop) =
        (if start = -1 then ((i + first : Nat) : Int) else start, ((i + last : Nat) : Int) + 1) := by
  induction attrs generalizing i start stop with
  | nil =>
      obtain ⟨j, attr, hattr, -⟩ := h
      cases hattr
  | cons attr attrs ih =>
      by_cases hrest : ∃ j, TargetAt attrs j
      · by_cases hattr : IsTarget attr
        · obtain ⟨first, last, hfirst, hlast, hscan⟩ :=
            ih hrest (i + 1) (if start = -1 then i else start) (i + 1)
          refine ⟨0, last + 1, ⟨?_, ?_⟩, ⟨?_, ?_⟩, ?_⟩
          · exact (targetAt_cons _ _ _).mpr (Or.inl ⟨rfl, hattr⟩)
          · exact fun j _ => Nat.zero_le j
          · exact (targetAt_cons _ _ _).mpr (Or.inr ⟨last, rfl, hlast.1⟩)
          · intro j hj
            rcases (targetAt_cons _ _ _).mp hj with ⟨rfl, -⟩ | ⟨k, rfl, hk⟩
            · exact Nat.zero_le _
            · exact Nat.succ_le_succ (hlast.2 hk)
          · have hi : (i : Int) ≠ -1 := by omega
            rw [targetScan_target hattr, hscan]
            refine Prod.ext ?_ ?_
            · by_cases hstart : start = -1
              · simp [hstart, hi]
              · simp [hstart]
            · dsimp only
              omega
        · obtain ⟨first, last, hfirst, hlast, hscan⟩ := ih hrest (i + 1) start stop
          refine ⟨first + 1, last + 1, ⟨?_, ?_⟩, ⟨?_, ?_⟩, ?_⟩
          · exact (targetAt_cons _ _ _).mpr (Or.inr ⟨first, rfl, hfirst.1⟩)
          · intro j hj
            rcases (targetAt_cons _ _ _).mp hj with ⟨-, ht⟩ | ⟨k, rfl, hk⟩
            · exact absurd ht hattr
            · exact Nat.succ_le_succ (hfirst.2 hk)
          · exact (targetAt_cons _ _ _).mpr (Or.inr ⟨last, rfl, hlast.1⟩)
          · intro j hj
            rcases (targetAt_cons _ _ _).mp hj with ⟨-, ht⟩ | ⟨k, rfl, hk⟩
            · exact absurd ht hattr
            · exact Nat.succ_le_succ (hlast.2 hk)
          · rw [targetScan_other hattr, hscan]
            refine Prod.ext ?_ ?_
            · split_ifs <;> omega
            · dsimp only
              omega
      · have hnone : ∀ j, ¬TargetAt attrs j := fun j hj => hrest ⟨j, hj⟩
        obtain ⟨j, hj⟩ := h
        rcases (targetAt_cons _ _ _).mp hj with ⟨rfl, hattr⟩ | ⟨k, -, hk⟩
        · have honly : ∀ k, TargetAt (attr :: attrs) k → k = 0 := by
            intro k hk
            rcases (targetAt_cons _ _ _).mp hk with ⟨rfl, -⟩ | ⟨l, -, hl⟩
            · rfl
            · exact absurd hl (hnone l)
          refine ⟨0, 0, ⟨hj, fun k _ => Nat.zero_le k⟩, ⟨hj, fun k hk => (honly k hk).le⟩, ?_⟩
          rw [targetScan_target hattr, targetScan_none hnone]
          refine Prod.ext ?_ ?_
          · split_ifs <;> omega
          · dsimp only
            omega
        · exact absurd hk (hnone k)

theorem selectionSpan_isSpan (attr : CompRead) (len : Nat) :
    IsSpan (attributes attr) len (selectionSpan attr len).1.toNat (selectionSpan attr len).2.toNat := by
  have hempty : ∀ i, ¬TargetAt [] i := by
    rintro i ⟨a, ha, -⟩
    cases ha
  by_cases hread : attr.size > 0 ∧ attr.copied > 0
  · have hspan : selectionSpan attr len =
        if (targetScan (attributes attr) 0 (-1, -1)).1 ≠ -1 then
          targetScan (attributes attr) 0 (-1, -1)
        else (0, (len : Int)) := by
      rw [selectionSpan, if_pos hread.1, if_pos hread.2, attributes, if_pos hread]
    rw [hspan]
    by_cases htarget : ∃ i, TargetAt (attributes attr) i
    · obtain ⟨first, last, hfirst, hlast, hscan⟩ := targetScan_some htarget 0 (-1) (-1)
      have hfound : ((first : Nat) : Int) ≠ -1 := by omega
      simp only [hscan, if_true, Nat.zero_add, if_pos hfound, Int.toNat_natCast]
      exact .targets hfirst hlast
    · have hnone : ∀ i, ¬TargetAt (attributes attr) i := fun i hi => htarget ⟨i, hi⟩
      rw [targetScan_none hnone]
      exact .whole hnone
  · have hspan : selectionSpan attr len = (0, (len : Int)) := by
      by_cases hsize : attr.size > 0
      · have hcopied : ¬attr.copied > 0 := fun hcopied => hread ⟨hsize, hcopied⟩
        rw [selectionSpan, if_pos hsize, if_neg hcopied]
      · rw [selectionSpan, if_neg hsize]
    rw [hspan, attributes, if_neg hread]
    exact .whole hempty

theorem utf16ToUtf8Offset_eq (units : List UInt16) (idx : Nat) :
    utf16ToUtf8Offset units idx = Int32.ofNat (prefixSize units idx) := by
  rw [utf16ToUtf8Offset, prefixSize, ← List.take_eq_take_min]

theorem prefixSize_mono (units : List UInt16) {i j : Nat} (h : i ≤ j) :
    prefixSize units i ≤ prefixSize units j := by
  have hsplit := List.take_append_drop i (units.take j)
  rw [List.take_take, Nat.min_eq_left h] at hsplit
  rw [prefixSize, prefixSize, ← hsplit]
  exact size_mono _ _

theorem prefixSize_le (units : List UInt16) (idx : Nat) :
    prefixSize units idx ≤ (fromUtf16Lossy units).utf8ByteSize := by
  have hsize := size_mono (units.take idx) (units.drop idx)
  rwa [List.take_append_drop] at hsize

theorem reported {comp attr : CompRead} {cursor : Int} {data : CompositionData}
    (h : getCompositionString comp cursor attr = some data) :
    data.text = fromUtf16Lossy (compositionUnits comp) ∧
      data.cursorPos = Int32.ofNat (prefixSize (compositionUnits comp)
        (cursorIndex (compositionUnits comp) cursor)) ∧
      ∃ start stop, IsSpan (attributes attr) (compositionUnits comp).length start stop ∧
        data.selStart = Int32.ofNat (prefixSize (compositionUnits comp) start) ∧
        data.selEnd = Int32.ofNat (prefixSize (compositionUnits comp) stop) := by
  unfold getCompositionString at h
  split at h
  · cases h
  · split at h
    · cases h
      have hcursor : (if cursor < 0 then ((compositionUnits comp).length : Int) else cursor).toNat =
          cursorIndex (compositionUnits comp) cursor := by
        rw [cursorIndex]
        split <;> rfl
      refine ⟨rfl, ?_, _, _, selectionSpan_isSpan attr _, ?_, ?_⟩
      · rw [← hcursor]
        exact utf16ToUtf8Offset_eq _ _
      · exact utf16ToUtf8Offset_eq _ _
      · exact utf16ToUtf8Offset_eq _ _
    · cases h

theorem toInt_ofNat_iff (n : Nat) : (Int32.ofNat n).toInt = n ↔ n < 2 ^ 31 := by
  constructor
  · intro h
    have hlt := (Int32.ofNat n).toInt_lt
    omega
  · exact Int32.toInt_ofNat_of_lt

/-- The offset stands between two characters, after the decoding of the units
before the index. -/
def CutsAt (text : String) (offset : Int32) (units : List UInt16) (idx : Nat) : Prop :=
  ∃ before after, text = before ++ after ∧ offset.toInt = before.utf8ByteSize ∧
    before = fromUtf16Lossy (units.take idx)

/-- The index does not part the halves of a pair, and what is before it has a
size that an `i32` holds. -/
structure CutsNoPair (units : List UInt16) (idx : Nat) : Prop where
  whole : ¬Splits (units.take idx) (units.drop idx)
  short : prefixSize units idx < 2 ^ 31

theorem cutsAt_iff (units : List UInt16) (idx : Nat) :
    CutsAt (fromUtf16Lossy units) (Int32.ofNat (prefixSize units idx)) units idx ↔
      CutsNoPair units idx := by
  have hunits := List.take_append_drop idx units
  have hstart : (∃ after, fromUtf16Lossy units = fromUtf16Lossy (units.take idx) ++ after) ↔
      ¬Splits (units.take idx) (units.drop idx) := by
    constructor
    · rintro ⟨after, htext⟩
      rw [← decodeLossy_isPrefix_iff, hunits]
      have hchars := congrArg String.toList htext
      rw [String.toList_append, fromUtf16Lossy, fromUtf16Lossy, String.toList_ofList,
        String.toList_ofList] at hchars
      exact ⟨after.toList, hchars.symm⟩
    · intro hwhole
      refine ⟨fromUtf16Lossy (units.drop idx), ?_⟩
      rw [← fromUtf16Lossy_append hwhole, hunits]
  constructor
  · rintro ⟨before, after, htext, hoffset, rfl⟩
    exact ⟨hstart.mp ⟨after, htext⟩, (toInt_ofNat_iff _).mp hoffset⟩
  · rintro ⟨hwhole, hshort⟩
    obtain ⟨after, htext⟩ := hstart.mpr hwhole
    exact ⟨_, after, htext, (toInt_ofNat_iff _).mpr hshort, rfl⟩

def OffsetsCut (comp attr : CompRead) (cursor : Int) (data : CompositionData) : Prop :=
  let units := compositionUnits comp
  CutsAt data.text data.cursorPos units (cursorIndex units cursor) ∧
    ∀ start stop, IsSpan (attributes attr) units.length start stop →
      CutsAt data.text data.selStart units start ∧ CutsAt data.text data.selEnd units stop

def IndicesCutNoPair (comp attr : CompRead) (cursor : Int) : Prop :=
  let units := compositionUnits comp
  CutsNoPair units (cursorIndex units cursor) ∧
    ∀ start stop, IsSpan (attributes attr) units.length start stop →
      CutsNoPair units start ∧ CutsNoPair units stop

theorem offsetsCut_iff {comp attr : CompRead} {cursor : Int} {data : CompositionData}
    (h : getCompositionString comp cursor attr = some data) :
    OffsetsCut comp attr cursor data ↔ IndicesCutNoPair comp attr cursor := by
  obtain ⟨htext, hcursor, start, stop, hspan, hstart, hstop⟩ := reported h
  have hunique {start' stop' : Nat}
      (hspan' : IsSpan (attributes attr) (compositionUnits comp).length start' stop') :
      (CutsAt data.text data.selStart (compositionUnits comp) start' ∧
          CutsAt data.text data.selEnd (compositionUnits comp) stop') ↔
        CutsNoPair (compositionUnits comp) start' ∧ CutsNoPair (compositionUnits comp) stop' := by
    obtain ⟨rfl, rfl⟩ := hspan.unique hspan'
    rw [htext, hstart, hstop, cutsAt_iff, cutsAt_iff]
  refine and_congr ?_ ?_
  · rw [htext, hcursor, cutsAt_iff]
  · exact forall_congr' fun _ => forall_congr' fun _ => imp_congr_right hunique

/-- The offsets are character boundaries exactly when no index parts a pair. -/
theorem offsets_are_boundaries_iff (comp attr : CompRead) (cursor : Int) (data : CompositionData)
    (h : getCompositionString comp cursor attr = some data) :
    OffsetsCut comp attr cursor data ↔ IndicesCutNoPair comp attr cursor := offsetsCut_iff h

def noAttributes : CompRead := ⟨0, 0, [], []⟩

theorem not_targetAt_nil (i : Nat) : ¬TargetAt [] i := by
  rintro ⟨attr, hattr, -⟩
  cases hattr

theorem cursor_before_pair :
    OffsetsCut ⟨6, 6, [0x61, 0xD83D, 0xDE00], []⟩ noAttributes 1
      ⟨String.ofList ['a', Char.ofNat 0x1F600], 1, 0, 5⟩ := by
  have hread : getCompositionString ⟨6, 6, [0x61, 0xD83D, 0xDE00], []⟩ 1 noAttributes =
      some ⟨String.ofList ['a', Char.ofNat 0x1F600], 1, 0, 5⟩ := by decide +kernel
  apply (offsets_are_boundaries_iff _ _ _ _ hread).mpr
  have hcursor : ¬Splits [0x61] [0xD83D, 0xDE00] := by
    rintro ⟨hi, hlast, lo, -, hhigh, -⟩
    cases hlast
    exact absurd hhigh (by decide)
  refine ⟨⟨hcursor, by decide +kernel⟩, fun start stop hspan => ?_⟩
  obtain ⟨rfl, rfl⟩ := hspan.unique (.whole not_targetAt_nil)
  refine ⟨⟨?_, by decide +kernel⟩, ⟨not_splits_nil _, by decide +kernel⟩⟩
  rintro ⟨hi, hlast, -⟩
  cases hlast

/-- The cursor between the halves of a pair comes back as an offset into its
four bytes. -/
theorem cursor_inside_pair :
    ∃ data, getCompositionString ⟨4, 4, [0xD83D, 0xDE00], []⟩ 1 noAttributes = some data ∧
      data.text.utf8ByteSize = 4 ∧ data.cursorPos = 3 ∧
        ¬OffsetsCut ⟨4, 4, [0xD83D, 0xDE00], []⟩ noAttributes 1 data := by
  have hread : getCompositionString ⟨4, 4, [0xD83D, 0xDE00], []⟩ 1 noAttributes =
      some ⟨String.singleton (Char.ofNat 0x1F600), 3, 0, 4⟩ := by decide +kernel
  refine ⟨_, hread, by decide +kernel, rfl, fun hcut => ?_⟩
  apply ((offsetsCut_iff hread).mp hcut).1.whole
  exact ⟨0xD83D, rfl, 0xDE00, rfl, by decide, by decide⟩

structure InBounds (data : CompositionData) : Prop where
  start : 0 ≤ data.selStart.toInt
  ordered : data.selStart.toInt ≤ data.selEnd.toInt
  stop : data.selEnd.toInt ≤ data.text.utf8ByteSize
  cursor : 0 ≤ data.cursorPos.toInt ∧ data.cursorPos.toInt ≤ data.text.utf8ByteSize

/-- The selection is the smallest interval with the targets, each end clipped to
the text and converted. -/
def Covers (comp : CompRead) (attrs : List UInt8) (data : CompositionData) : Prop :=
  let units := compositionUnits comp
  ∃ start stop, IsSpan attrs units.length start stop ∧
    data.selStart.toInt = prefixSize units (min start units.length) ∧
    data.selEnd.toInt = prefixSize units (min stop units.length)

theorem prefixSize_min (units : List UInt16) (idx : Nat) :
    prefixSize units (min idx units.length) = prefixSize units idx := by
  rw [prefixSize, prefixSize, ← List.take_eq_take_min]

/-- A target beyond the text moves the end of the selection, which is clipped
there: all of "abc", not its first letter. -/
theorem target_beyond_the_text :
    ∃ data, getCompositionString ⟨6, 6, [0x61, 0x62, 0x63], []⟩ 0 ⟨4, 4, [], [1, 0, 0, 1]⟩ =
        some data ∧ data.text = "abc" ∧
      ¬Covers ⟨6, 6, [0x61, 0x62, 0x63], []⟩ ([1, 0, 0, 1].take 3) data := by
  refine ⟨⟨"abc", 0, 0, 3⟩, by decide +kernel, rfl, ?_⟩
  rintro ⟨start, stop, hspan, -, hstop⟩
  have honly : ∀ i, TargetAt [1, 0, 0] i → i = 0 := by
    rintro i ⟨attr, hattr, htarget⟩
    match i with
    | 0 => rfl
    | 1 | 2 =>
        cases hattr
        exact absurd htarget (by decide)
    | _ + 3 => cases hattr
  have hzero : TargetAt [1, 0, 0] 0 := ⟨1, rfl, Or.inl rfl⟩
  have hinside : IsSpan [1, 0, 0] 3 0 1 :=
    .targets ⟨hzero, fun i _ => Nat.zero_le i⟩ ⟨hzero, fun i hi => (honly i hi).le⟩
  obtain ⟨rfl, rfl⟩ := hspan.unique hinside
  exact absurd hstop (by decide +kernel)

theorem selection_in_order (comp attr : CompRead) (cursor : Int) (data : CompositionData)
    (h : getCompositionString comp cursor attr = some data)
    (hshort : data.text.utf8ByteSize < 2 ^ 31) :
    InBounds data ∧ Covers comp (attributes attr) data := by
  obtain ⟨htext, hcursor, start, stop, hspan, hstart, hstop⟩ := reported h
  have hsize (idx : Nat) : prefixSize (compositionUnits comp) idx ≤ data.text.utf8ByteSize := by
    rw [htext]
    exact prefixSize_le _ idx
  have hvalue (idx : Nat) : (Int32.ofNat (prefixSize (compositionUnits comp) idx)).toInt =
      prefixSize (compositionUnits comp) idx :=
    (toInt_ofNat_iff _).mpr ((hsize idx).trans_lt hshort)
  have horder := prefixSize_mono (compositionUnits comp) hspan.le
  constructor
  · refine ⟨?_, ?_, ?_, ?_, ?_⟩
    · rw [hstart, hvalue]
      exact Int.natCast_nonneg _
    · rw [hstart, hstop, hvalue, hvalue]
      exact Int.ofNat_le.mpr horder
    · rw [hstop, hvalue]
      exact Int.ofNat_le.mpr (hsize stop)
    · rw [hcursor, hvalue]
      exact Int.natCast_nonneg _
    · rw [hcursor, hvalue]
      exact Int.ofNat_le.mpr (hsize _)
  · refine ⟨start, stop, hspan, ?_, ?_⟩
    · rw [hstart, hvalue, prefixSize_min]
    · rw [hstop, hvalue, prefixSize_min]

theorem selection_in_abc :
    InBounds ⟨"abc", 0, 0, 3⟩ ∧
      Covers ⟨6, 6, [0x61, 0x62, 0x63], []⟩ (attributes ⟨4, 4, [], [1, 0, 0, 1]⟩)
        ⟨"abc", 0, 0, 3⟩ :=
  selection_in_order ⟨6, 6, [0x61, 0x62, 0x63], []⟩ ⟨4, 4, [], [1, 0, 0, 1]⟩ 0 ⟨"abc", 0, 0, 3⟩
    (by decide +kernel) (by decide +kernel)

end RimeWinime.CompositionOffsets
