import RimeWinime.Lib.Utf8
import RimeWinime.Gateway.Worker
import RimeWinime.Remote.CandidatePositions

namespace RimeWinime.CandidatePage

open Win32 ImmOps Utf16 Utf8 Worker Gaps
open CandidateLayout (readU32_total ok_bind)
open CandidatePositions (unitsAt_total)

structure ImmCandidatePage where
  candidates : List Candidate
  selectedIndex : UInt32
  pageSize : UInt32
deriving DecidableEq

/-- What the IMM answers about its candidate lists, in either character set. -/
structure CandidateLists where
  countW : UInt32
  countA : UInt32
  wide : UInt32 → CandRead
  ansi : UInt32 → CandRead

def readUtf16ZAt (bytes : List UInt8) (offset : Nat) : Except Fault String :=
  if bytes.length ≤ offset then .ok ""
  else do
    let wide ← unitsAt bytes offset ((bytes.length - offset) / 2)
    pure (fromUtf16Lossy wide)

def readAnsiZAt (bytes : List UInt8) (offset : Nat) : Except Fault String :=
  if bytes.length ≤ offset then .ok ""
  else .ok (fromUtf8Lossy ((bytes.drop offset).takeWhile (· ≠ 0)))

def readTextAt (bytes : List UInt8) (useAnsi : Bool) (offset : Nat) : Except Fault String :=
  if useAnsi then readAnsiZAt bytes offset else readUtf16ZAt bytes offset

def usize (n : Nat) : Except Fault Nat := if n < 2 ^ 32 then .ok n else .error .overflow

/-- The loop over the slots of the page, from `globalIdx` on. -/
def readPage (bytes : List UInt8) (useAnsi : Bool) (comment : String) :
    Nat → Nat → List Candidate → Except Fault (List Candidate)
  | 0, _, out => .ok out
  | left + 1, globalIdx, out => do
      let scaled ← usize (4 * globalIdx)
      let offPos ← usize (headerSize + scaled)
      let offEnd ← usize (offPos + 4)
      if offEnd > bytes.length then .ok out
      else do
        let candOff ← readU32 bytes offPos
        let text ← readTextAt bytes useAnsi candOff.toNat
        if text = "" then readPage bytes useAnsi comment left (globalIdx + 1) out
        else
          let localIdx := UInt32.ofNat out.length
          readPage bytes useAnsi comment left (globalIdx + 1) (out ++ [⟨localIdx, text, comment⟩])

def commentOf (useAnsi : Bool) (listIndex : UInt32) : String :=
  String.join ["imm", if useAnsi then "A" else "W", "#", toString listIndex.toNat]

def readList (bytes : List UInt8) (useAnsi : Bool) (listIndex : UInt32) (maxCandidates : Nat) :
    Except Fault (Option ImmCandidatePage) := do
  let requested := max maxCandidates 1
  let dwCount ← readU32 bytes 8
  let dwSelection ← readU32 bytes 12
  let dwPageStart ← readU32 bytes 16
  let dwPageSize ← readU32 bytes 20
  let count := dwCount.toNat
  let basePageSize := if dwPageSize = 0 then requested else dwPageSize.toNat
  let pageStart := min dwPageStart.toNat count
  let effectivePageSize := min basePageSize requested
  let pageEnd := min (pageStart + effectivePageSize) count
  let out ← readPage bytes useAnsi (commentOf useAnsi listIndex) (pageEnd - pageStart) pageStart []
  if out ≠ [] ∨ 0 < count then
    let selectedGlobal := dwSelection.toNat
    let selectedIndex :=
      if pageStart ≤ selectedGlobal ∧ selectedGlobal < pageEnd then selectedGlobal - pageStart else 0
    pure (some ⟨out, UInt32.ofNat selectedIndex, UInt32.ofNat effectivePageSize⟩)
  else pure none

def listBuffer (r : CandRead) : List UInt8 := r.bytes.takeD r.size.toNat 0

def listRead (lists : CandidateLists) (listIndex : UInt32) : CandRead × Bool :=
  if (lists.wide listIndex).size ≠ 0 then (lists.wide listIndex, false)
  else (lists.ansi listIndex, true)

def allocate (required : UInt32) : Except Fault Unit :=
  if required.toNat < 2 ^ 31 then .ok () else .error .overflow

def readLists (lists : CandidateLists) (maxCandidates : Nat) :
    Nat → UInt32 → Except Fault ImmCandidatePage
  | 0, _ => .ok ⟨[], 0, 0⟩
  | left + 1, listIndex =>
      let (r, useAnsi) := listRead lists listIndex
      if r.size = 0 then readLists lists maxCandidates left (listIndex + 1)
      else do
        allocate r.size
        if r.copied = 0 then readLists lists maxCandidates left (listIndex + 1)
        else do
          match ← readList (listBuffer r) useAnsi listIndex maxCandidates with
          | some page => pure page
          | none => readLists lists maxCandidates left (listIndex + 1)

def listCount (lists : CandidateLists) : UInt32 :=
  let listCount := if lists.countW = 0 then lists.countA else lists.countW
  if listCount = 0 then 1 else listCount

def readImmCandidates (lists : CandidateLists) (maxCandidates : Nat) :
    Except Fault ImmCandidatePage :=
  readLists lists maxCandidates (listCount lists).toNat 0

section

variable (bytes : List UInt8) (useAnsi : Bool) (maxCandidates : Nat)

def word (i : Nat) : UInt32 := ((readU32 bytes i).toOption).getD 0

/-- The text of a slot, unless it is empty or the buffer ends before the slot. -/
def slotText (slot : Nat) : Option String :=
  if headerSize + 4 * slot + 4 ≤ bytes.length then
    ((readTextAt bytes useAnsi (word bytes (headerSize + 4 * slot)).toNat).toOption).filter (· ≠ "")
  else none

def pageSizeOf : Nat :=
  if word bytes 20 = 0 then max maxCandidates 1 else (word bytes 20).toNat

def pageStartOf : Nat := min (word bytes 16).toNat (word bytes 8).toNat

def pageEndOf : Nat :=
  min (pageStartOf bytes + min (pageSizeOf bytes maxCandidates) (max maxCandidates 1))
    (word bytes 8).toNat

def selectionOf : Nat := (word bytes 12).toNat

def pageTexts : List String :=
  present (slotText bytes useAnsi) (pageStartOf bytes) (pageEndOf bytes maxCandidates - pageStartOf bytes)

def OnPage (slot : Nat) : Prop := pageStartOf bytes ≤ slot ∧ slot < pageEndOf bytes maxCandidates

/-- The page is empty, or the end of its first slot is a number of the program. -/
def InReach : Prop :=
  pageStartOf bytes < pageEndOf bytes maxCandidates → pageStartOf bytes + 7 < 2 ^ 30

/-- At most a page of candidates, numbered from 0. -/
structure Numbered (page : ImmCandidatePage) : Prop where
  short : page.candidates.length ≤ min (pageSizeOf bytes maxCandidates) (max maxCandidates 1)
  indices : ∀ i (c : Candidate), page.candidates[i]? = some c → c.index.toNat = i

/-- The selected index is that of a candidate, and of the selected one where this is
on the page and has text. -/
def SelectionKept (page : ImmCandidatePage) : Prop :=
  page.candidates ≠ [] →
    page.selectedIndex.toNat < page.candidates.length ∧
      ∀ text, OnPage bytes maxCandidates (selectionOf bytes) →
        slotText bytes useAnsi (selectionOf bytes) = some text →
        (page.candidates[page.selectedIndex.toNat]?).map (·.text) = some text

/-- Before the selected slot the page has no slot without text, or the selected
text is listed once more at its place; for a selected slot without text, the page
has enough others. -/
def Aligned : Prop :=
  pageTexts bytes useAnsi maxCandidates ≠ [] → OnPage bytes maxCandidates (selectionOf bytes) →
    match slotText bytes useAnsi (selectionOf bytes) with
    | some text =>
        (∀ slot, pageStartOf bytes ≤ slot → slot < selectionOf bytes →
          slotText bytes useAnsi slot ≠ none) ∨
        (pageTexts bytes useAnsi maxCandidates)[selectionOf bytes - pageStartOf bytes]? = some text
    | none =>
        selectionOf bytes - pageStartOf bytes < (pageTexts bytes useAnsi maxCandidates).length

end

theorem readTextAt_total (bytes : List UInt8) (useAnsi : Bool) (offset : Nat) :
    ∃ text, readTextAt bytes useAnsi offset = .ok text := by
  cases useAnsi with
  | true =>
      by_cases hout : bytes.length ≤ offset
      · exact ⟨"", if_pos hout⟩
      · exact ⟨_, if_neg hout⟩
  | false =>
      by_cases hout : bytes.length ≤ offset
      · exact ⟨"", if_pos hout⟩
      · obtain ⟨units, hunits⟩ : ∃ units, unitsAt bytes offset ((bytes.length - offset) / 2) = .ok units :=
          unitsAt_total (by omega)
        have hread : readUtf16ZAt bytes offset = .ok (fromUtf16Lossy units) := by
          rw [readUtf16ZAt, if_neg hout, hunits]
          rfl
        exact ⟨_, hread⟩

theorem word_read {bytes : List UInt8} {i : Nat} (h : i + 4 ≤ bytes.length) :
    readU32 bytes i = .ok (word bytes i) := by
  obtain ⟨v, hv⟩ := readU32_total h
  rw [word, hv]
  rfl

def numbered (comment : String) (texts : List String) : List Candidate :=
  texts.zipIdx.map fun p => ⟨UInt32.ofNat p.2, p.1, comment⟩

theorem length_numbered (comment : String) (texts : List String) :
    (numbered comment texts).length = texts.length := by
  rw [numbered, List.length_map, List.length_zipIdx]

theorem numbered_append (comment : String) (texts : List String) (text : String) :
    numbered comment (texts ++ [text]) =
      numbered comment texts ++ [⟨UInt32.ofNat texts.length, text, comment⟩] := by
  rw [numbered, List.zipIdx_append, List.map_append, Nat.zero_add]
  rfl

theorem numbered_at (comment : String) (texts : List String) (i : Nat) :
    (numbered comment texts)[i]? =
      (texts[i]?).map fun text => ⟨UInt32.ofNat i, text, comment⟩ := by
  rw [numbered, List.getElem?_map, List.getElem?_zipIdx, Option.map_map, Nat.zero_add]
  rfl

section

variable {bytes : List UInt8} {useAnsi : Bool}

theorem slotText_outside {slot : Nat} (h : bytes.length < headerSize + 4 * slot + 4) :
    slotText bytes useAnsi slot = none := if_neg (by omega)

theorem slotText_inside {slot : Nat} {text : String} (h : headerSize + 4 * slot + 4 ≤ bytes.length)
    (htext : readTextAt bytes useAnsi (word bytes (headerSize + 4 * slot)).toNat = .ok text) :
    slotText bytes useAnsi slot = if text = "" then none else some text := by
  rw [slotText, if_pos h, htext, Except.toOption, Option.filter]
  by_cases hempty : text = ""
  · simp [hempty]
  · simp [hempty]

theorem usize_ok {n : Nat} (h : n < 2 ^ 32) : usize n = .ok n := if_pos h

theorem usize_overflow {n : Nat} (h : ¬n < 2 ^ 32) : usize n = .error .overflow := if_neg h

theorem readPage_present (comment : String) (left slot : Nat) (texts : List String)
    (hsmall : bytes.length < 2 ^ 31) (hreach : left ≠ 0 → slot + 7 < 2 ^ 30) :
    readPage bytes useAnsi comment left slot (numbered comment texts) =
      .ok (numbered comment (texts ++ present (slotText bytes useAnsi) slot left)) := by
  induction left generalizing slot texts with
  | zero => rw [readPage, present, List.range'_zero, List.filterMap_nil, List.append_nil]
  | succ left ih =>
      have hslots : slot + 7 < 2 ^ 30 := hreach (Nat.succ_ne_zero left)
      have hheader : headerSize = 24 := rfl
      rw [readPage, usize_ok (by omega), ok_bind, usize_ok (by omega), ok_bind,
        usize_ok (by omega), ok_bind]
      by_cases hout : headerSize + 4 * slot + 4 > bytes.length
      · have hnone : present (slotText bytes useAnsi) slot (left + 1) = [] :=
          present_eq_nil.mpr fun i _ => slotText_outside (by omega)
        rw [hnone, List.append_nil]
        exact if_pos hout
      · obtain ⟨text, htext⟩ := readTextAt_total bytes useAnsi (word bytes (headerSize + 4 * slot)).toNat
        have hslot := slotText_inside (Nat.le_of_not_lt hout) htext
        -- a slot in the buffer leaves the next one in reach
        have hnext (texts : List String) := ih (slot + 1) texts fun _ => by omega
        rw [if_neg hout, word_read (Nat.le_of_not_lt hout), ok_bind, htext, ok_bind]
        by_cases hempty : text = ""
        · rw [if_pos hempty] at hslot ⊢
          rw [hnext, present_none hslot]
        · rw [if_neg hempty] at hslot ⊢
          dsimp only
          rw [length_numbered, ← numbered_append, hnext, present_some hslot, List.append_assoc,
            List.singleton_append]

theorem readPage_overflow (comment : String) (left slot : Nat) (out : List Candidate)
    (hfar : ¬slot + 7 < 2 ^ 30) :
    readPage bytes useAnsi comment (left + 1) slot out = .error .overflow := by
  have hheader : headerSize = 24 := rfl
  rw [readPage]
  by_cases hscaled : 4 * slot < 2 ^ 32
  · rw [usize_ok hscaled, ok_bind]
    by_cases hpos : headerSize + 4 * slot < 2 ^ 32
    · rw [usize_ok hpos, ok_bind, usize_overflow (by omega)]
      rfl
    · rw [usize_overflow hpos]
      rfl
  · rw [usize_overflow hscaled]
    rfl

end

section

variable (bytes : List UInt8) (useAnsi : Bool) (listIndex : UInt32) (maxCandidates : Nat)

instance (slot : Nat) : Decidable (OnPage bytes maxCandidates slot) :=
  inferInstanceAs (Decidable (_ ∧ _))

def pageOf : ImmCandidatePage where
  candidates := numbered (commentOf useAnsi listIndex) (pageTexts bytes useAnsi maxCandidates)
  selectedIndex := UInt32.ofNat
    (if OnPage bytes maxCandidates (selectionOf bytes) then selectionOf bytes - pageStartOf bytes
    else 0)
  pageSize := UInt32.ofNat (min (pageSizeOf bytes maxCandidates) (max maxCandidates 1))

variable {bytes}

theorem numbered_eq_nil {comment : String} {texts : List String} :
    numbered comment texts = [] ↔ texts = [] := by
  rw [← List.length_eq_zero_iff, length_numbered, List.length_eq_zero_iff]

theorem readList_loop (hheader : headerSize ≤ bytes.length) :
    readList bytes useAnsi listIndex maxCandidates =
      (readPage bytes useAnsi (commentOf useAnsi listIndex)
        (pageEndOf bytes maxCandidates - pageStartOf bytes) (pageStartOf bytes) []).bind fun out =>
          .ok (if out ≠ [] ∨ 0 < (word bytes 8).toNat then
            some ⟨out, UInt32.ofNat (if OnPage bytes maxCandidates (selectionOf bytes) then
              selectionOf bytes - pageStartOf bytes else 0),
              UInt32.ofNat (min (pageSizeOf bytes maxCandidates) (max maxCandidates 1))⟩
          else none) := by
  rw [headerSize] at hheader
  have hcount : readU32 bytes 8 = .ok (word bytes 8) := word_read (by omega)
  have hselection : readU32 bytes 12 = .ok (word bytes 12) := word_read (by omega)
  have hstart : readU32 bytes 16 = .ok (word bytes 16) := word_read (by omega)
  have hsize : readU32 bytes 20 = .ok (word bytes 20) := word_read (by omega)
  simp only [readList, hcount, hselection, hstart, hsize, ok_bind]
  apply congrArg (fun f => Except.bind _ f)
  funext out
  split
  · rfl
  · rfl

theorem readList_page (hheader : headerSize ≤ bytes.length) (hsmall : bytes.length < 2 ^ 31)
    (hreach : InReach bytes maxCandidates) :
    readList bytes useAnsi listIndex maxCandidates =
      .ok (if pageTexts bytes useAnsi maxCandidates ≠ [] ∨ 0 < (word bytes 8).toNat then
        some (pageOf bytes useAnsi listIndex maxCandidates) else none) := by
  have hpage : readPage bytes useAnsi (commentOf useAnsi listIndex)
      (pageEndOf bytes maxCandidates - pageStartOf bytes) (pageStartOf bytes) [] =
      .ok (numbered (commentOf useAnsi listIndex) (pageTexts bytes useAnsi maxCandidates)) :=
    readPage_present _ _ _ [] hsmall fun hleft => hreach (by omega)
  rw [readList_loop useAnsi listIndex maxCandidates hheader, hpage]
  change Except.ok (if _ then _ else _) = _
  by_cases hshown : pageTexts bytes useAnsi maxCandidates ≠ [] ∨ 0 < (word bytes 8).toNat
  · rw [if_pos hshown, if_pos (hshown.imp_left (mt numbered_eq_nil.mp))]
    rfl
  · rw [if_neg hshown, if_neg (mt (Or.imp_left (mt numbered_eq_nil.mpr)) hshown)]

theorem readList_overflow (hheader : headerSize ≤ bytes.length)
    (hreach : ¬InReach bytes maxCandidates) :
    readList bytes useAnsi listIndex maxCandidates = .error .overflow := by
  rw [InReach, Classical.not_imp] at hreach
  obtain ⟨hlisted, hfar⟩ := hreach
  obtain ⟨left, hleft⟩ : ∃ left, pageEndOf bytes maxCandidates - pageStartOf bytes = left + 1 :=
    ⟨pageEndOf bytes maxCandidates - pageStartOf bytes - 1, by omega⟩
  rw [readList_loop useAnsi listIndex maxCandidates hheader, hleft, readPage_overflow _ _ _ _ hfar]
  rfl

theorem count_lt (bytes : List UInt8) : (word bytes 8).toNat < 2 ^ 32 := (word bytes 8).toNat_lt

theorem length_pageTexts : (pageTexts bytes useAnsi maxCandidates).length ≤
    pageEndOf bytes maxCandidates - pageStartOf bytes := length_present_le _ _ _

theorem pageOf_numbered :
    Numbered bytes maxCandidates (pageOf bytes useAnsi listIndex maxCandidates) := by
  have hlength : (pageTexts bytes useAnsi maxCandidates).length ≤ _ := length_pageTexts useAnsi maxCandidates
  have hcount := count_lt bytes
  constructor
  · rw [pageOf, length_numbered]
    rw [pageEndOf] at hlength
    omega
  · intro i c hc
    rw [pageOf, numbered_at, Option.map_eq_some_iff] at hc
    obtain ⟨text, htext, rfl⟩ := hc
    have hi := (List.getElem?_eq_some_iff.mp htext).1
    apply UInt32.toNat_ofNat_of_lt'
    rw [pageEndOf] at hlength
    simp only [UInt32.size]
    omega

theorem selectedIndex_onPage (hpage : OnPage bytes maxCandidates (selectionOf bytes)) :
    (pageOf bytes useAnsi listIndex maxCandidates).selectedIndex.toNat =
      selectionOf bytes - pageStartOf bytes := by
  have hcount := count_lt bytes
  rw [pageOf, if_pos hpage]
  apply UInt32.toNat_ofNat_of_lt'
  obtain ⟨-, hend⟩ := hpage
  rw [pageEndOf] at hend
  simp only [UInt32.size]
  omega

theorem selectedIndex_offPage (hpage : ¬OnPage bytes maxCandidates (selectionOf bytes)) :
    (pageOf bytes useAnsi listIndex maxCandidates).selectedIndex.toNat = 0 := by
  rw [pageOf, if_neg hpage]
  rfl

theorem pageOf_text (i : Nat) :
    ((pageOf bytes useAnsi listIndex maxCandidates).candidates[i]?).map (·.text) =
      (pageTexts bytes useAnsi maxCandidates)[i]? := by
  rw [pageOf, numbered_at, Option.map_map]
  exact Option.map_id'

theorem selected_text {useAnsi : Bool} {maxCandidates : Nat} {text : String}
    (hpage : OnPage bytes maxCandidates (selectionOf bytes))
    (hslot : slotText bytes useAnsi (selectionOf bytes) = some text)
    (hbefore : ∀ slot, pageStartOf bytes ≤ slot → slot < selectionOf bytes →
      slotText bytes useAnsi slot ≠ none) :
    (pageTexts bytes useAnsi maxCandidates)[selectionOf bytes - pageStartOf bytes]? = some text := by
  refine present_at (Nat.sub_lt_sub_right hpage.1 hpage.2) ?_ fun i hi => ?_
  · rwa [Nat.add_sub_cancel' hpage.1]
  · exact hbefore _ (Nat.le_add_right _ _) (by omega)

theorem pageOf_kept_iff :
    SelectionKept bytes useAnsi maxCandidates (pageOf bytes useAnsi listIndex maxCandidates) ↔
      Aligned bytes useAnsi maxCandidates := by
  have hsome : (pageOf bytes useAnsi listIndex maxCandidates).candidates ≠ [] ↔
      pageTexts bytes useAnsi maxCandidates ≠ [] := not_congr numbered_eq_nil
  rw [SelectionKept, Aligned, hsome]
  refine forall_congr' fun hlisted => ?_
  have hlength : (pageOf bytes useAnsi listIndex maxCandidates).candidates.length =
      (pageTexts bytes useAnsi maxCandidates).length := length_numbered _ _
  rw [hlength, pageOf_text]
  by_cases hpage : OnPage bytes maxCandidates (selectionOf bytes)
  · rw [selectedIndex_onPage useAnsi listIndex maxCandidates hpage]
    simp only [hpage, true_implies]
    cases hslot : slotText bytes useAnsi (selectionOf bytes) with
    | none =>
        refine ⟨fun hkept => hkept.1, fun hroom => ⟨hroom, fun _ hno => ?_⟩⟩
        cases hno
    | some text =>
        constructor
        · rintro ⟨-, hkept⟩
          exact Or.inr (hkept text rfl)
        · intro haligned
          have hat := haligned.elim (selected_text hpage hslot) id
          refine ⟨(List.getElem?_eq_some_iff.mp hat).1, fun other hother => ?_⟩
          cases hother
          exact hat
  · rw [selectedIndex_offPage useAnsi listIndex maxCandidates hpage]
    exact iff_of_true ⟨List.length_pos_iff.mpr hlisted, fun _ hno => absurd hno hpage⟩
      fun hno => absurd hno hpage

end

section

variable (lists : CandidateLists) (listIndex : UInt32)

def bufferOf : List UInt8 := listBuffer (listRead lists listIndex).1

/-- The IMM is asked for the list and hands it over. -/
structure Handed : Prop where
  counted : listIndex < listCount lists
  sized : (listRead lists listIndex).1.size ≠ 0
  copied : (listRead lists listIndex).1.copied ≠ 0

/-- A list that is handed over and not empty. -/
structure Listed : Prop extends Handed lists listIndex where
  some : word (bufferOf lists listIndex) 8 ≠ 0

def Asked : Prop := listIndex < listCount lists ∧ ∀ j, j < listIndex → ¬Listed lists j

structure FirstListed : Prop where
  listed : Listed lists listIndex
  first : ∀ j, j < listIndex → ¬Listed lists j

def HeadersFit : Prop :=
  ∀ listIndex, Handed lists listIndex → headerSize ≤ (listRead lists listIndex).1.size.toNat

def Allocated : Prop :=
  ∀ listIndex, Asked lists listIndex → (listRead lists listIndex).1.size.toNat < 2 ^ 31

variable (maxCandidates : Nat)

def shownPage : ImmCandidatePage :=
  pageOf (bufferOf lists listIndex) (listRead lists listIndex).2 listIndex maxCandidates

/-- The page is that of the first list which is one, and none where no list is. -/
structure Consistent (page : ImmCandidatePage) : Prop where
  unlisted : (∀ j, ¬Listed lists j) → page.candidates = []
  numbered : ∀ listIndex, FirstListed lists listIndex →
    Numbered (bufferOf lists listIndex) maxCandidates page
  kept : ∀ listIndex, FirstListed lists listIndex →
    SelectionKept (bufferOf lists listIndex) (listRead lists listIndex).2 maxCandidates page

inductive Outcome : Except Fault ImmCandidatePage → Prop
  | oversized : ¬Allocated lists → Outcome (.error .overflow)
  | unlisted : Allocated lists → (∀ j, ¬Listed lists j) → Outcome (.ok ⟨[], 0, 0⟩)
  | outOfReach {listIndex : UInt32} : Allocated lists → FirstListed lists listIndex →
      ¬InReach (bufferOf lists listIndex) maxCandidates → Outcome (.error .overflow)
  | shown {listIndex : UInt32} : Allocated lists → FirstListed lists listIndex →
      InReach (bufferOf lists listIndex) maxCandidates →
        Outcome (.ok (shownPage lists listIndex maxCandidates))

end

section

variable {lists : CandidateLists}

theorem FirstListed.unique {i j : UInt32} (hi : FirstListed lists i) (hj : FirstListed lists j) :
    i = j := by
  rcases Nat.lt_trichotomy i.toNat j.toNat with h | h | h
  · exact absurd hi.listed (hj.first i (UInt32.lt_iff_toNat_lt.mpr h))
  · exact UInt32.toNat_inj.mp h
  · exact absurd hj.listed (hi.first j (UInt32.lt_iff_toNat_lt.mpr h))

theorem allocate_ok {required : UInt32} (h : required.toNat < 2 ^ 31) : allocate required = .ok () :=
  if_pos h

theorem allocate_overflow {required : UInt32} (h : ¬required.toNat < 2 ^ 31) :
    allocate required = .error .overflow := if_neg h

theorem readLists_succ (lists : CandidateLists) (maxCandidates left : Nat) (listIndex : UInt32) :
    readLists lists maxCandidates (left + 1) listIndex =
      if (listRead lists listIndex).1.size = 0 then readLists lists maxCandidates left (listIndex + 1)
      else (allocate (listRead lists listIndex).1.size).bind fun _ =>
        if (listRead lists listIndex).1.copied = 0 then
          readLists lists maxCandidates left (listIndex + 1)
        else (readList (bufferOf lists listIndex) (listRead lists listIndex).2 listIndex
          maxCandidates).bind fun page =>
            page.elim (readLists lists maxCandidates left (listIndex + 1)) .ok := by
  rw [readLists]
  apply if_congr Iff.rfl rfl
  apply congrArg (fun f => Except.bind _ f)
  funext _
  apply if_congr Iff.rfl rfl
  apply congrArg (fun f => Except.bind _ f)
  funext page
  cases page with
  | none => rfl
  | some page => rfl

theorem readList_empty {bytes : List UInt8} (useAnsi : Bool) (listIndex : UInt32) (maxCandidates : Nat)
    (hheader : headerSize ≤ bytes.length) (hsmall : bytes.length < 2 ^ 31)
    (hempty : word bytes 8 = 0) : readList bytes useAnsi listIndex maxCandidates = .ok none := by
  have hcount : (word bytes 8).toNat = 0 := by
    rw [hempty]
    rfl
  have hend : pageEndOf bytes maxCandidates = 0 := by
    rw [pageEndOf, hcount, Nat.min_zero]
  have htexts : pageTexts bytes useAnsi maxCandidates = [] := by
    rw [pageTexts, hend, Nat.zero_sub]
    rfl
  have hreach : InReach bytes maxCandidates := by
    intro hlisted
    omega
  rw [readList_page useAnsi listIndex maxCandidates hheader hsmall hreach, if_neg]
  rintro (hsome | hsome)
  · exact hsome htexts
  · omega

theorem outcome_first {listIndex : UInt32} (hroom : Allocated lists)
    (hfirst : FirstListed lists listIndex) (maxCandidates : Nat)
    (hheader : headerSize ≤ (bufferOf lists listIndex).length)
    (hsmall : (bufferOf lists listIndex).length < 2 ^ 31) (rest : Except Fault ImmCandidatePage) :
    Outcome lists maxCandidates
      ((readList (bufferOf lists listIndex) (listRead lists listIndex).2 listIndex maxCandidates).bind
        fun page => page.elim rest .ok) := by
  have hsome : 0 < (word (bufferOf lists listIndex) 8).toNat :=
    UInt32.pos_iff_ne_zero.mpr hfirst.listed.some
  by_cases hreach : InReach (bufferOf lists listIndex) maxCandidates
  · rw [readList_page _ _ _ hheader hsmall hreach, if_pos (Or.inr hsome)]
    exact .shown hroom hfirst hreach
  · rw [readList_overflow _ _ _ hheader hreach]
    exact .outOfReach hroom hfirst hreach

theorem readLists_outcome (hheaders : HeadersFit lists) (maxCandidates left : Nat)
    (listIndex : UInt32) (hrange : listIndex.toNat + left = (listCount lists).toNat)
    (hpast : ∀ j, j < listIndex → ¬Listed lists j ∧ (listRead lists j).1.size.toNat < 2 ^ 31) :
    Outcome lists maxCandidates (readLists lists maxCandidates left listIndex) := by
  induction left generalizing listIndex with
  | zero =>
      have hend : listIndex = listCount lists := UInt32.toNat_inj.mp hrange
      refine .unlisted (fun j hj => (hpast j (hend ▸ hj.1)).2) fun j hj => ?_
      exact (hpast j (hend ▸ hj.counted)).1 hj
  | succ left ih =>
      have hlast := (listCount lists).toNat_lt
      have hnext : (listIndex + 1).toNat = listIndex.toNat + 1 := by
        have hone : (1 : UInt32).toNat = 1 := rfl
        rw [UInt32.toNat_add, hone]
        exact Nat.mod_eq_of_lt (by omega)
      have hcounted : listIndex < listCount lists := by
        rw [UInt32.lt_iff_toNat_lt]
        omega
      have hasked : Asked lists listIndex := ⟨hcounted, fun j hj => (hpast j hj).1⟩
      rw [readLists_succ]
      by_cases hsmall : (listRead lists listIndex).1.size.toNat < 2 ^ 31
      · have hrest (hnone : ¬Listed lists listIndex) :
            Outcome lists maxCandidates (readLists lists maxCandidates left (listIndex + 1)) := by
          refine ih (listIndex + 1) (by omega) fun j hj => ?_
          rw [UInt32.lt_iff_toNat_lt, hnext, Nat.lt_succ_iff_lt_or_eq] at hj
          rcases hj with hj | hj
          · exact hpast j (UInt32.lt_iff_toNat_lt.mpr hj)
          · rw [UInt32.toNat_inj.mp hj]
            exact ⟨hnone, hsmall⟩
        rw [allocate_ok hsmall]
        by_cases hsize : (listRead lists listIndex).1.size = 0
        · rw [if_pos hsize]
          exact hrest fun hlisted => hlisted.sized hsize
        · rw [if_neg hsize]
          change Outcome lists maxCandidates (if _ then _ else _)
          by_cases hcopied : (listRead lists listIndex).1.copied = 0
          · rw [if_pos hcopied]
            exact hrest fun hlisted => hlisted.copied hcopied
          · have hhanded : Handed lists listIndex := ⟨hcounted, hsize, hcopied⟩
            have hlength : (bufferOf lists listIndex).length =
                (listRead lists listIndex).1.size.toNat := List.takeD_length _ _ _
            have hheader : headerSize ≤ (bufferOf lists listIndex).length :=
              hlength.symm ▸ hheaders listIndex hhanded
            have hbytes : (bufferOf lists listIndex).length < 2 ^ 31 := hlength.symm ▸ hsmall
            rw [if_neg hcopied]
            by_cases hempty : word (bufferOf lists listIndex) 8 = 0
            · rw [readList_empty _ _ _ hheader hbytes hempty]
              exact hrest fun hlisted => hlisted.some hempty
            · have hfirst : FirstListed lists listIndex := ⟨⟨hhanded, hempty⟩, hasked.2⟩
              have hroom : Allocated lists := by
                intro j hj
                rcases Nat.lt_trichotomy j.toNat listIndex.toNat with h | h | h
                · exact (hpast j (UInt32.lt_iff_toNat_lt.mpr h)).2
                · rw [UInt32.toNat_inj.mp h]
                  exact hsmall
                · exact absurd hfirst.listed (hj.2 _ (UInt32.lt_iff_toNat_lt.mpr h))
              exact outcome_first hroom hfirst maxCandidates hheader hbytes _
      · have hsize : (listRead lists listIndex).1.size ≠ 0 := by
          intro hzero
          rw [hzero] at hsmall
          exact hsmall (by decide)
        rw [if_neg hsize, allocate_overflow hsmall]
        exact .oversized fun hroom => hsmall (hroom listIndex hasked)

end

/-- No reading leaves the buffer of a list, and a page has no more candidates than it may,
numbered from 0. There is a page, and its selection is that of its list, just where there
is room for the lists, and the page is in reach and aligned with the selection. -/
theorem page_consistent_iff (lists : CandidateLists) (maxCandidates : Nat)
    (hheaders : HeadersFit lists) :
    (∀ fault, readImmCandidates lists maxCandidates = .error fault → fault = .overflow) ∧
      (∀ page, readImmCandidates lists maxCandidates = .ok page →
        ((∀ j, ¬Listed lists j) → page.candidates = []) ∧
          ∀ listIndex, FirstListed lists listIndex →
            Numbered (bufferOf lists listIndex) maxCandidates page) ∧
      ((∃ page, readImmCandidates lists maxCandidates = .ok page ∧
          Consistent lists maxCandidates page) ↔
        Allocated lists ∧ ∀ listIndex, FirstListed lists listIndex →
          InReach (bufferOf lists listIndex) maxCandidates ∧
            Aligned (bufferOf lists listIndex) (listRead lists listIndex).2 maxCandidates) := by
  have houtcome : Outcome lists maxCandidates (readImmCandidates lists maxCandidates) :=
    readLists_outcome hheaders maxCandidates _ 0 (Nat.zero_add _) fun j hj =>
      absurd hj (Nat.not_lt_zero _)
  generalize readImmCandidates lists maxCandidates = result at houtcome
  cases houtcome with
  | oversized hlarge =>
      refine ⟨fun fault h => ?_, fun page h => ?_, iff_of_false ?_ fun h => hlarge h.1⟩
      · cases h
        rfl
      · cases h
      · rintro ⟨page, h, -⟩
        cases h
  | unlisted hroom hnone =>
      have hfirst (listIndex : UInt32) (h : FirstListed lists listIndex) : False :=
        hnone listIndex h.listed
      refine ⟨fun fault h => ?_, fun page h => ?_, iff_of_true ⟨_, rfl, ?_⟩ ⟨hroom, ?_⟩⟩
      · cases h
      · cases h
        exact ⟨fun _ => rfl, fun i hi => (hfirst i hi).elim⟩
      · exact ⟨fun _ => rfl, fun i hi => (hfirst i hi).elim, fun i hi => (hfirst i hi).elim⟩
      · exact fun i hi => (hfirst i hi).elim
  | outOfReach hroom hfirst hreach =>
      refine ⟨fun fault h => ?_, fun page h => ?_, iff_of_false ?_ fun h => ?_⟩
      · cases h
        rfl
      · cases h
      · rintro ⟨page, h, -⟩
        cases h
      · exact hreach (h.2 _ hfirst).1
  | @shown first hroom hfirst hreach =>
      have hsome : ¬∀ j, ¬Listed lists j := fun hnone => hnone _ hfirst.listed
      have hnumbered (i : UInt32) (hi : FirstListed lists i) : Numbered (bufferOf lists i) maxCandidates
          (shownPage lists first maxCandidates) := by
        cases hi.unique hfirst
        exact pageOf_numbered _ _ maxCandidates
      refine ⟨fun fault h => ?_, fun page h => ?_, ?_⟩
      · cases h
      · cases h
        exact ⟨fun hnone => absurd hnone hsome, hnumbered⟩
      · constructor
        · rintro ⟨page, h, hkept⟩
          cases h
          refine ⟨hroom, fun i hi => ?_⟩
          cases hi.unique hfirst
          exact ⟨hreach, (pageOf_kept_iff _ _ maxCandidates).mp (hkept.kept _ hfirst)⟩
        · rintro ⟨-, haligned⟩
          refine ⟨_, rfl, fun hnone => absurd hnone hsome, hnumbered, fun i hi => ?_⟩
          cases hi.unique hfirst
          exact (pageOf_kept_iff _ _ maxCandidates).mpr (haligned _ hfirst).2

def wideOnly (r : CandRead) : CandidateLists := ⟨1, 0, fun _ => r, fun _ => ⟨0, 0, []⟩⟩

/-- Three slots, the first with an empty text: "", "b", "c". The second is selected. -/
def firstEmpty : List UInt8 :=
  [46, 0, 0, 0, 0, 0, 0, 0, 3, 0, 0, 0, 1, 0, 0, 0, 0, 0, 0, 0, 3, 0, 0, 0,
    36, 0, 0, 0, 38, 0, 0, 0, 42, 0, 0, 0, 0, 0, 98, 0, 0, 0, 99, 0, 0, 0]

def farStart : List UInt8 :=
  [24, 0, 0, 0, 0, 0, 0, 0, 1, 0, 0, 0x40, 0, 0, 0, 0, 0, 0, 0, 0x40, 1, 0, 0, 0]

theorem two_consistent :
    ∃ page, readImmCandidates (wideOnly CandidatePositions.twoRead) 9 = .ok page ∧
      Consistent (wideOnly CandidatePositions.twoRead) 9 page := by
  apply (page_consistent_iff (wideOnly CandidatePositions.twoRead) 9
    fun _ _ => show 24 ≤ 40 by decide).2.2.mpr
  refine ⟨fun _ _ => show 40 < 2 ^ 31 by decide, fun listIndex _ => ⟨?_, ?_⟩⟩
  · change InReach MenuBounds.twoListed 9
    exact fun _ => by decide
  · change Aligned MenuBounds.twoListed false 9
    intro _ _
    exact Or.inl fun slot _ hslot => absurd hslot (Nat.not_lt_zero slot)

/-- The page selects "c", where the list has selected "b"; and a far page is no page. -/
theorem page_misleads :
    readImmCandidates (wideOnly ⟨46, 46, firstEmpty⟩) 9 =
        .ok ⟨[⟨0, "b", "immW#0"⟩, ⟨1, "c", "immW#0"⟩], 1, 3⟩ ∧
      OnPage firstEmpty 9 (selectionOf firstEmpty) ∧
      slotText firstEmpty false (selectionOf firstEmpty) = some "b" ∧
      ¬SelectionKept firstEmpty false 9 ⟨[⟨0, "b", "immW#0"⟩, ⟨1, "c", "immW#0"⟩], 1, 3⟩ ∧
      readImmCandidates (wideOnly ⟨24, 24, farStart⟩) 9 = .error .overflow := by
  refine ⟨by decide, by decide, by decide, fun hkept => ?_, by decide⟩
  have hselected := (hkept (by decide)).2 "b" (by decide) (by decide)
  exact absurd hselected (by decide)

end RimeWinime.CandidatePage
