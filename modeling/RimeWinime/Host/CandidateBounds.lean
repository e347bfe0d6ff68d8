import RimeWinime.Remote.CandidatePositions

namespace RimeWinime.CandidateBounds

open Win32 Proto ImmOps MenuBounds CandidatePositions
open CandidateLayout (ok_bind readU32_total readSlots_known)
open CandidateLayout.Layout (toInt_toInt32)

def pageSizeOf (r : CandRead) : Nat := if dwPageSize r = 0 then 10 else (dwPageSize r).toNat

/-- The numbers of the menu are those of the header, and none of them is negative. -/
structure Unsigned (r : CandRead) (menu : MenuProto) : Prop where
  numCandidates : menu.numCandidates.toInt = (dwCount r).toNat
  highlighted : menu.highlightedCandidateIndex.toInt = (dwSelection r).toNat
  pageSize : menu.pageSize.toInt = pageSizeOf r
  pageNo : menu.pageNo.toInt = ((dwPageStart r).toNat / pageSizeOf r : Nat)

def LoopEnds (r : CandRead) : Prop :=
  ∀ slot count, readCandidates (candBuffer r) r.size.toNat (offsetTable r) slot count =
    readCandidates (candBuffer r) r.size.toNat (offsetTable r) slot
      (min count ((r.size.toNat - headerSize) / 4))

def headerMenu (r : CandRead) (candidates : List CandidateProto) : MenuProto :=
  menuWith (dwCount r) (dwSelection r) (dwPageStart r) (dwPageSize r) candidates

/-- The reply is read without an underflow and without leaving the buffer, by a loop
that ends, and what is made of the header keeps its value, also where a string at an odd
offset leaves no menu. -/
structure SafelyRead (r : CandRead) : Prop where
  read : ∀ fault, getCandidateList r = .error fault → fault = .misaligned
  loop : LoopEnds r
  unsigned : ∀ menu, getCandidateList r = .ok (some menu) → Unsigned r menu
  narrowed : dwCount r ≠ 0 → headerSize ≤ r.size.toNat →
    ∀ candidates, Unsigned r (headerMenu r candidates)

/-- The count is in the buffer; where it is not 0 the whole header is, and its fields
fit an `i32`. -/
def HeaderFits (r : CandRead) : Prop :=
  12 ≤ r.size.toNat ∧
    (dwCount r = 0 ∨
      headerSize ≤ r.size.toNat ∧ (dwCount r).toNat < 2 ^ 31 ∧ (dwSelection r).toNat < 2 ^ 31 ∧
        (dwPageStart r).toNat < 2 ^ 31 ∧ (dwPageSize r).toNat < 2 ^ 31)

theorem readU8_inside {buffer : List UInt8} {i : Nat} {b : UInt8} (h : readU8 buffer i = .ok b) :
    i < buffer.length := by
  rw [readU8] at h
  split at h
  · next hat => exact (List.getElem?_eq_some_iff.mp hat).1
  · cases h

theorem readU32_inside {buffer : List UInt8} {i : Nat} {v : UInt32} (h : readU32 buffer i = .ok v) :
    i + 4 ≤ buffer.length := by
  rw [readU32] at h
  obtain ⟨low, -, h⟩ := ok_of_bind h
  obtain ⟨high, hhigh, -⟩ := ok_of_bind h
  rw [readU16] at hhigh
  obtain ⟨first, -, hhigh⟩ := ok_of_bind hhigh
  obtain ⟨last, hlast, -⟩ := ok_of_bind hhigh
  have hinside := readU8_inside hlast
  omega

theorem readU8_cases (buffer : List UInt8) (i : Nat) :
    (∃ b, readU8 buffer i = .ok b) ∨ readU8 buffer i = .error .outOfBounds := by
  rw [readU8]
  cases buffer[i]? with
  | none => exact Or.inr rfl
  | some b => exact Or.inl ⟨b, rfl⟩

theorem readU16_cases (buffer : List UInt8) (i : Nat) :
    (∃ v, readU16 buffer i = .ok v) ∨ readU16 buffer i = .error .outOfBounds := by
  rw [readU16]
  rcases readU8_cases buffer i with ⟨first, hfirst⟩ | hfirst
  · rw [hfirst, ok_bind]
    rcases readU8_cases buffer (i + 1) with ⟨last, hlast⟩ | hlast
    · rw [hlast]
      exact Or.inl ⟨_, rfl⟩
    · rw [hlast]
      exact Or.inr rfl
  · rw [hfirst]
    exact Or.inr rfl

theorem readU32_cases (buffer : List UInt8) (i : Nat) :
    (∃ v, readU32 buffer i = .ok v) ∨ readU32 buffer i = .error .outOfBounds := by
  rw [readU32]
  rcases readU16_cases buffer i with ⟨low, hlow⟩ | hlow
  · rw [hlow, ok_bind]
    rcases readU16_cases buffer (i + 2) with ⟨high, hhigh⟩ | hhigh
    · rw [hhigh]
      exact Or.inl ⟨_, rfl⟩
    · rw [hhigh]
      exact Or.inr rfl
  · rw [hlow]
    exact Or.inr rfl

theorem readU32_field {r : CandRead} {i : Nat} (h : i + 4 ≤ r.size.toNat) :
    readU32 (candBuffer r) i = .ok (((readU32 (candBuffer r) i).toOption).getD 0) := by
  obtain ⟨v, hv⟩ : ∃ v, readU32 (candBuffer r) i = .ok v :=
    readU32_total (by rwa [length_candBuffer])
  rw [hv]
  rfl

theorem readSlots_length {buffer : List UInt8} {idx n : Nat} {slots : List UInt32}
    (h : readSlots buffer idx n = .ok slots) : slots.length = n := by
  induction n generalizing idx slots with
  | zero =>
      cases h
      rfl
  | succ n ih =>
      obtain ⟨slot, -, h⟩ := ok_of_bind h
      obtain ⟨rest, hrest, h⟩ := ok_of_bind h
      cases h
      rw [List.length_cons, ih hrest]

theorem readCandidates_turns (buffer : List UInt8) (size : Nat) (slots : List UInt32)
    (slot count : Nat) :
    readCandidates buffer size slots slot count =
      readCandidates buffer size slots slot (min count (slots.length - slot)) := by
  induction count generalizing slot with
  | zero => rw [Nat.zero_min]
  | succ count ih =>
      cases hslot : slots[slot]? with
      | none =>
          have hend : slots.length - slot = 0 := Nat.sub_eq_zero_of_le (List.getElem?_eq_none_iff.mp hslot)
          rw [hend, Nat.min_zero, readCandidates, readCandidates]
          simp only [hslot]
      | some offset =>
          have hinside := (List.getElem?_eq_some_iff.mp hslot).1
          have hturns : min (count + 1) (slots.length - slot) =
              min count (slots.length - (slot + 1)) + 1 := by omega
          rw [hturns, readCandidates, readCandidates, ← ih]

theorem loop_ends (r : CandRead) : LoopEnds r := by
  intro slot count
  have hlength : (offsetTable r).length ≤ (r.size.toNat - headerSize) / 4 := by
    rw [offsetTable]
    cases hslots : readSlots (candBuffer r) 0 ((r.size.toNat - headerSize) / 4) with
    | error e => exact Nat.zero_le _
    | ok slots => exact (readSlots_length hslots).le
  have hturns : min count ((offsetTable r).length - slot) =
      min (min count ((r.size.toNat - headerSize) / 4)) ((offsetTable r).length - slot) := by omega
  exact (readCandidates_turns _ _ _ _ _).trans ((congrArg _ hturns).trans
    (readCandidates_turns _ _ _ _ _).symm)

theorem readUnits_misaligned {buffer : List UInt8} {offset maxChars : Nat} {units : List UInt16}
    (h : unitsAt buffer offset maxChars = .ok units) :
    readUnits buffer offset maxChars = .ok units ∨
      readUnits buffer offset maxChars = .error .misaligned := by
  rw [readUnits, h]
  split
  · exact Or.inr rfl
  · exact Or.inl rfl

theorem readCandidates_misaligned (r : CandRead) (slot count : Nat) :
    (∃ read, readCandidates (candBuffer r) r.size.toNat (offsetTable r) slot count = .ok read) ∨
      readCandidates (candBuffer r) r.size.toNat (offsetTable r) slot count =
        .error .misaligned := by
  induction count generalizing slot with
  | zero => exact Or.inl ⟨[], rfl⟩
  | succ count ih =>
      rw [readCandidates]
      split
      · exact Or.inl ⟨[], rfl⟩
      · next offset hslot =>
          by_cases hskip : offset.toNat = 0 ∨ r.size.toNat ≤ offset.toNat
          · rw [if_pos hskip]
            exact ih (slot + 1)
          · obtain ⟨units, hunits, -⟩ := slotText_usable hslot (by omega) (by omega)
            rw [if_neg hskip]
            rcases readUnits_misaligned hunits with hunits | hunits
            · rw [hunits, ok_bind]
              rcases ih (slot + 1) with ⟨rest, hrest⟩ | hrest
              · rw [hrest]
                exact Or.inl ⟨_, rfl⟩
              · rw [hrest]
                exact Or.inr rfl
            · rw [hunits]
              exact Or.inr rfl

def shownPageSize (r : CandRead) : Int32 :=
  if dwPageSize r > 0 then (dwPageSize r).toInt32 else 10

section

variable {r : CandRead}

theorem list_empty (hsize : r.size ≠ 0) (hcopied : r.copied ≠ 0) (hheader : 12 ≤ r.size.toNat)
    (hnone : dwCount r = 0) : getCandidateList r = .ok none := by
  have hcount : readU32 (r.bytes.takeD r.size.toNat 0) 8 = .ok (dwCount r) := readU32_field hheader
  rw [getCandidateList, if_neg hsize, if_neg hcopied]
  dsimp only
  rw [hcount, ok_bind, if_pos hnone]
  rfl

theorem list_read (hsize : r.size ≠ 0) (hcopied : r.copied ≠ 0) (hheader : headerSize ≤ r.size.toNat)
    (hsome : dwCount r ≠ 0) :
    (∃ candidates, getCandidateList r = .ok (some (headerMenu r candidates))) ∨
      getCandidateList r = .error .misaligned := by
  have hlarge : 24 ≤ r.size.toNat := hheader
  have hcount : readU32 (r.bytes.takeD r.size.toNat 0) 8 = .ok (dwCount r) := readU32_field (by omega)
  have hselection : readU32 (r.bytes.takeD r.size.toNat 0) 12 = .ok (dwSelection r) :=
    readU32_field (by omega)
  have hstart : readU32 (r.bytes.takeD r.size.toNat 0) 16 = .ok (dwPageStart r) :=
    readU32_field (by omega)
  have hpage : readU32 (r.bytes.takeD r.size.toNat 0) 20 = .ok (dwPageSize r) :=
    readU32_field (by omega)
  obtain ⟨table, htable⟩ : ∃ more, readSlots (candBuffer r) 0 ((r.size.toNat - headerSize) / 4) =
      .ok ([] ++ more) := by
    apply readSlots_known (fun _ _ h => by cases h) (Nat.zero_le _)
    rw [length_candBuffer, headerSize]
    omega
  have hslots : readSlots (r.bytes.takeD r.size.toNat 0) 0 ((r.size.toNat - headerSize) / 4) =
      .ok (offsetTable r) := by
    rw [offsetTable, htable]
    exact htable
  rw [getCandidateList, if_neg hsize, if_neg hcopied]
  dsimp only
  simp only [hcount, ok_bind, if_neg hsome, if_neg (Nat.not_lt.mpr hheader), hslots]
  rcases readCandidates_misaligned r (baseIdx (offsetTable r) r.size) (dwCount r).toNat with
    ⟨candidates, hread⟩ | hread
  · rw [candBuffer] at hread
    refine Or.inl ⟨candidates, ?_⟩
    simp only [hread, hpage, hstart, hselection, ok_bind]
    rfl
  · rw [candBuffer] at hread
    rw [hread]
    exact Or.inr rfl

theorem header_of_read (hsize : r.size ≠ 0) (hcopied : r.copied ≠ 0)
    (h : ∀ fault, getCandidateList r = .error fault → fault = .misaligned) :
    12 ≤ r.size.toNat ∧ (dwCount r ≠ 0 → headerSize ≤ r.size.toNat) := by
  rw [getCandidateList, if_neg hsize, if_neg hcopied] at h
  dsimp only at h
  rcases readU32_cases (r.bytes.takeD r.size.toNat 0) 8 with ⟨count, hcount⟩ | hcount
  · have hinside := readU32_inside hcount
    rw [List.takeD_length] at hinside
    have hdw : dwCount r = count := by
      rw [dwCount, candBuffer, hcount]
      rfl
    refine ⟨hinside, fun hsome => ?_⟩
    by_contra hsmall
    rw [hcount, ok_bind, if_neg (hdw ▸ hsome), if_pos (Nat.not_le.mp hsmall)] at h
    cases h _ rfl
  · rw [hcount] at h
    cases h _ rfl

theorem narrows_iff (v : UInt32) : v.toInt32.toInt = v.toNat ↔ v.toNat < 2 ^ 31 := by
  constructor
  · intro h
    have := Int32.toInt_lt v.toInt32
    omega
  · exact toInt_toInt32

theorem shownPageSize_iff : (shownPageSize r).toInt = pageSizeOf r ↔ (dwPageSize r).toNat < 2 ^ 31 := by
  rw [shownPageSize, pageSizeOf]
  by_cases hzero : dwPageSize r = 0
  · rw [hzero]
    exact iff_of_true rfl (by decide)
  · rw [if_neg hzero, if_pos (UInt32.pos_iff_ne_zero.mpr hzero)]
    exact narrows_iff _

theorem pageNo_iff (h : (shownPageSize r).toInt = pageSizeOf r) (candidates : List CandidateProto) :
    (headerMenu r candidates).pageNo.toInt = ((dwPageStart r).toNat / pageSizeOf r : Nat) ↔
      (dwPageStart r).toNat < 2 ^ 31 := by
  have hpos : 0 < pageSizeOf r := by
    rw [pageSizeOf]
    split
    · omega
    · next hzero => exact UInt32.pos_iff_ne_zero.mpr hzero
  have hsigned : shownPageSize r > 0 := by
    rw [gt_iff_lt, Int32.lt_iff_toInt_lt, h]
    exact Int.natCast_pos.mpr hpos
  have hother : shownPageSize r ≠ -1 := by
    intro hminus
    rw [hminus] at hsigned
    exact absurd hsigned (by decide)
  have hsmall : pageSizeOf r < 2 ^ 31 := by
    have := Int32.toInt_lt (shownPageSize r)
    omega
  change (if shownPageSize r > 0 then (dwPageStart r).toInt32 / shownPageSize r else 0).toInt =
    _ ↔ _
  rw [if_pos hsigned, Int32.toInt_div_of_ne_right _ _ hother, h]
  constructor
  · intro hquotient
    by_contra hlarge
    -- a page start that is not kept is negative, and so is no quotient of it
    have hnegative : (dwPageStart r).toInt32.toInt < 0 := by
      have hcond : (dwPageStart r).toInt32.toInt = if 2 * (dwPageStart r).toNat < 2 ^ 32
          then ((dwPageStart r).toNat : Int) else (dwPageStart r).toNat - 2 ^ 32 :=
        BitVec.toInt_eq_toNat_cond (dwPageStart r).toBitVec
      have hroom := (dwPageStart r).toNat_lt
      rw [hcond]
      split
      · omega
      · omega
    have hle := Int.tdiv_le_tdiv (Int.natCast_pos.mpr hpos) (Int.le_of_lt hnegative)
    rw [Int.zero_tdiv] at hle
    have hquotient' : 0 < (dwPageStart r).toNat / pageSizeOf r := Nat.div_pos (by omega) hpos
    omega
  · intro hstart
    rw [toInt_toInt32 hstart]
    rfl

theorem unsigned_iff (candidates : List CandidateProto) :
    Unsigned r (headerMenu r candidates) ↔
      (dwCount r).toNat < 2 ^ 31 ∧ (dwSelection r).toNat < 2 ^ 31 ∧
        (dwPageStart r).toNat < 2 ^ 31 ∧ (dwPageSize r).toNat < 2 ^ 31 := by
  constructor
  · rintro ⟨hcount, hselection, hpage, hno⟩
    exact ⟨(narrows_iff _).mp hcount, (narrows_iff _).mp hselection, (pageNo_iff hpage candidates).mp hno,
      shownPageSize_iff.mp hpage⟩
  · rintro ⟨hcount, hselection, hstart, hpage⟩
    have hkept := shownPageSize_iff.mpr hpage
    exact ⟨(narrows_iff _).mpr hcount, (narrows_iff _).mpr hselection, hkept,
      (pageNo_iff hkept candidates).mpr hstart⟩

/-- A reply is read in bounds, and its numbers are kept, just where its header is in the
buffer and its fields are no negative `i32`. -/
theorem reply_in_bounds_iff (hsize : r.size ≠ 0) (hcopied : r.copied ≠ 0) :
    SafelyRead r ↔ HeaderFits r := by
  constructor
  · rintro ⟨hread, -, -, hnarrowed⟩
    obtain ⟨hcounted, hheader⟩ := header_of_read hsize hcopied hread
    refine ⟨hcounted, or_iff_not_imp_left.mpr fun hsome => ⟨hheader hsome, ?_⟩⟩
    exact (unsigned_iff []).mp (hnarrowed hsome (hheader hsome) [])
  · rintro ⟨hcounted, hheader⟩
    have hnarrowed (hsome : dwCount r ≠ 0) (candidates : List CandidateProto) :
        Unsigned r (headerMenu r candidates) :=
      (unsigned_iff candidates).mpr (hheader.resolve_left hsome).2
    by_cases hnone : dwCount r = 0
    · have hmenu := list_empty hsize hcopied hcounted hnone
      refine ⟨fun fault h => ?_, loop_ends r, fun menu h => ?_, fun hsome _ => hnarrowed hsome⟩
      · cases hmenu.symm.trans h
      · cases hmenu.symm.trans h
    · rcases list_read hsize hcopied (hheader.resolve_left hnone).1 hnone with
        ⟨candidates, hmenu⟩ | hodd
      · refine ⟨fun fault h => ?_, loop_ends r, fun menu h => ?_, fun hsome _ => hnarrowed hsome⟩
        · cases hmenu.symm.trans h
        · cases hmenu.symm.trans h
          exact hnarrowed hnone candidates
      · refine ⟨fun fault h => ?_, loop_ends r, fun menu h => ?_, fun hsome _ => hnarrowed hsome⟩
        · cases hodd.symm.trans h
          rfl
        · cases hodd.symm.trans h

end

theorem two_reply_in_bounds : SafelyRead twoRead :=
  (reply_in_bounds_iff (by decide) (by decide)).mpr
    ⟨by decide, Or.inr ⟨by decide, by decide, by decide, by decide, by decide⟩⟩

def shortRead : CandRead := ⟨20, 20, [20, 0, 0, 0, 0, 0, 0, 0, 1]⟩

def farRead : CandRead :=
  ⟨32, 32, [32, 0, 0, 0, 0, 0, 0, 0, 1, 0, 0, 0, 0, 0, 0, 0, 0, 0, 0, 0x80, 5, 0, 0, 0,
    28, 0, 0, 0, 97, 0, 0, 0]⟩

/-- The size of the offset table of a short reply underflows, and a far page has a
negative number. -/
theorem reply_out_of_bounds :
    getCandidateList shortRead = .error .underflow ∧
      getCandidateList farRead = .ok (some ⟨[⟨"a", ""⟩], 5, -429496729, false, 0, 1, ""⟩) ∧
      ¬SafelyRead shortRead ∧ ¬SafelyRead farRead := by
  have hfault : getCandidateList shortRead = .error .underflow := by decide
  have hmenu : getCandidateList farRead =
      .ok (some ⟨[⟨"a", ""⟩], 5, -429496729, false, 0, 1, ""⟩) := by decide
  refine ⟨hfault, hmenu, fun h => ?_, fun h => ?_⟩
  · cases h.read _ hfault
  · have hnumber := (h.unsigned _ hmenu).pageNo
    exact absurd hnumber (by decide)

end RimeWinime.CandidateBounds
