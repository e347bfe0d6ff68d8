import RimeWinime.Host.CandidateLayout
import RimeWinime.Host.PagedSelection
import RimeWinime.Lib.Gaps
import RimeWinime.Remote.MenuBounds

namespace RimeWinime.CandidatePositions

open World Win32 Proto Session ImmOps Utf16 MenuBounds Gaps Adapter DigitSelection PagedSelection
open CandidateLayout (readU8_total)
open SelectionReport (Keyed)

variable {W : Type}

def Usable (r : CandRead) (slot : Nat) : Prop := Filled (offsetTable r) r.size.toNat slot

def slotText (r : CandRead) (slot : Nat) : Option String := do
  let offset ← (offsetTable r)[slot]?
  if offset.toNat = 0 ∨ r.size.toNat ≤ offset.toNat then none
  else
    let units ← (unitsAt (candBuffer r) offset.toNat
      ((r.size.toNat - offset.toNat) / 2)).toOption
    some (fromUtf16Lossy units)

/-- The input method's candidate `i`, with its table from slot `start` on. -/
def imeCandidate (r : CandRead) (start i : Nat) : Option String := slotText r (start + i)

def TableFrom (r : CandRead) (start : Nat) : Prop := ∀ i, i < start → (offsetTable r)[i]? = some 0

def answered (api : Api W) (s : WinImmSession) (w : W) : CandRead :=
  api.immGetCandidateList s.himc w

/-- An entry is the candidate of its index, also where the index is sent back: the input
method then selects one candidate, and that has the text of the entry. -/
structure PositionsKept (api : Api W) (ime : ImeFunctions W) (selected : W → List Nat)
    (s : WinImmSession) (w : W) (start : Nat) (menu : MenuProto) : Prop where
  entries : ∀ i entry, menu.candidates[i]? = some entry →
    imeCandidate (answered api s w) start i = some entry.text
  highlighted : ∀ i entry, menu.highlightedCandidateIndex.toInt = (i : Nat) →
    menu.candidates[i]? = some entry →
      imeCandidate (answered api s w) start (dwSelection (answered api s w)).toNat = some entry.text
  chosen : ∀ i entry, menu.candidates[i]? = some entry →
    ∃ n, selected (Adapter.selectCandidate api ime s i w).2 = selected w ++ [n] ∧
      imeCandidate (answered api s w) start n = some entry.text

/-- No unusable slot stands before a usable one that counts, and the scan for a
shifted table stops at its first slot. -/
structure Gapless (r : CandRead) (start : Nat) : Prop where
  filled : ∀ i j, i < j → j < (dwCount r).toNat → Usable r (start + j) → Usable r (start + i)
  found : (offsetTable r).headD 0 = 0 → Usable r start ∨ ∀ slot, ¬Usable r slot

/-- The candidates of the input method are those that the header tells of. -/
structure Lists (r : CandRead) (l : CandidateList) : Prop where
  counted : l.texts.length = (dwCount r).toNat
  started : l.pageStart = (dwPageStart r).toNat

/-- An input method that selects with the digits of the page only, and with no Return. -/
structure Paging (api : Api W) (ime : ImeFunctions W) (list : W → CandidateList)
    (selected : W → List Nat) : Prop extends Paged api ime list selected where
  beyond : ∀ s index w, index ≤ 9 → ¬(list w).onPage index →
    (Adapter.processKey api ime s (digitKey index) w).1.1 = true →
      selected (Adapter.processKey api ime s (digitKey index) w).2 = selected w
  returned : ∀ s, Steady selected (Adapter.processKey api ime s returnKey)

/-- The input method takes the digit of the index, and the candidate that has the digit
stands at the index too: the page is the first, or the text occurs twice. -/
structure DigitAgrees (api : Api W) (ime : ImeFunctions W) (list : W → CandidateList)
    (s : WinImmSession) (w : W) (start index : Nat) : Prop where
  digit : index ≤ 9
  taken : (Adapter.processKey api ime s (digitKey index) w).1.1 = true
  onPage : (list w).onPage index
  same : dwPageStart (answered api s w) = 0 ∨
    imeCandidate (answered api s w) start ((dwPageStart (answered api s w)).toNat + index) =
      imeCandidate (answered api s w) start index

theorem length_candBuffer (r : CandRead) : (candBuffer r).length = r.size.toNat :=
  List.takeD_length _ _ _

theorem unitsAt_total {buffer : List UInt8} {offset maxChars : Nat}
    (h : offset + 2 * maxChars ≤ buffer.length) :
    ∃ units, unitsAt buffer offset maxChars = .ok units := by
  induction maxChars generalizing offset with
  | zero => exact ⟨[], rfl⟩
  | succ maxChars ih =>
      obtain ⟨b0, h0⟩ : ∃ b, readU8 buffer offset = .ok b := readU8_total (by omega)
      obtain ⟨b1, h1⟩ : ∃ b, readU8 buffer (offset + 1) = .ok b := readU8_total (by omega)
      obtain ⟨units, hunits⟩ : ∃ units, unitsAt buffer (offset + 2) maxChars = .ok units :=
        ih (by omega)
      rw [unitsAt, readU16, h0, h1, hunits]
      by_cases hend : b0.toUInt16 ||| (b1.toUInt16 <<< 8) = 0
      · exact ⟨[], if_pos hend⟩
      · exact ⟨_ :: units, if_neg hend⟩

section

variable {r : CandRead} {slot : Nat}

theorem unitsAt_of_readUnits {buffer : List UInt8} {offset maxChars : Nat} {units : List UInt16}
    (h : readUnits buffer offset maxChars = .ok units) :
    unitsAt buffer offset maxChars = .ok units := by
  rw [readUnits] at h
  split at h
  · cases h
  · exact h

theorem slotText_usable {offset : UInt32} (hslot : (offsetTable r)[slot]? = some offset)
    (hpos : 0 < offset.toNat) (hlt : offset.toNat < r.size.toNat) :
    ∃ units, unitsAt (candBuffer r) offset.toNat ((r.size.toNat - offset.toNat) / 2) =
        .ok units ∧ slotText r slot = some (fromUtf16Lossy units) := by
  have hroom : offset.toNat + 2 * ((r.size.toNat - offset.toNat) / 2) ≤ (candBuffer r).length := by
    rw [length_candBuffer]
    omega
  obtain ⟨units, hunits⟩ := unitsAt_total hroom
  refine ⟨units, hunits, ?_⟩
  have hkeep : ¬(offset.toNat = 0 ∨ r.size.toNat ≤ offset.toNat) := by omega
  rw [slotText, hslot]
  change (if _ then _ else _) = _
  rw [if_neg hkeep, hunits]
  rfl

theorem slotText_unusable (h : ¬Usable r slot) : slotText r slot = none := by
  rw [slotText]
  cases hslot : (offsetTable r)[slot]? with
  | none => rfl
  | some offset =>
      have hskip : offset.toNat = 0 ∨ r.size.toNat ≤ offset.toNat := by
        by_contra hkeep
        exact h ⟨offset, hslot, by omega, by omega⟩
      exact if_pos hskip

theorem slotText_ne_none (r : CandRead) (slot : Nat) : slotText r slot ≠ none ↔ Usable r slot := by
  constructor
  · intro htext
    by_contra h
    exact htext (slotText_unusable h)
  · rintro ⟨offset, hslot, hpos, hlt⟩
    obtain ⟨units, -, htext⟩ := slotText_usable hslot hpos hlt
    rw [htext]
    exact Option.some_ne_none _

end

theorem readCandidates_present {r : CandRead} {slot count : Nat} {read : List CandidateProto}
    (h : readCandidates (candBuffer r) r.size.toNat (offsetTable r) slot count = .ok read) :
    read.map (·.text) = present (slotText r) slot count := by
  induction count generalizing slot read with
  | zero =>
      cases h
      rfl
  | succ count ih =>
      rw [readCandidates] at h
      cases hslot : (offsetTable r)[slot]? with
      | none =>
          rw [hslot] at h
          cases h
          symm
          rw [List.map_nil, present_eq_nil]
          intro i _
          apply slotText_unusable
          rintro ⟨offset, hat, -⟩
          have hend := List.getElem?_eq_none_iff.mp hslot
          have hin := (List.getElem?_eq_some_iff.mp hat).1
          omega
      | some offset =>
          simp only [hslot] at h
          by_cases hskip : offset.toNat = 0 ∨ r.size.toNat ≤ offset.toNat
          · rw [if_pos hskip] at h
            have hnone : slotText r slot = none := by
              apply slotText_unusable
              rintro ⟨offset', hat, hpos, hlt⟩
              cases hslot.symm.trans hat
              omega
            rw [ih h, present_none hnone]
          · rw [if_neg hskip] at h
            obtain ⟨units, hunits, htail⟩ := ok_of_bind h
            obtain ⟨rest, hrest, hread⟩ := ok_of_bind htail
            obtain ⟨units', hunits', htext⟩ :=
              slotText_usable hslot (by omega) (by omega)
            cases (unitsAt_of_readUnits hunits).symm.trans hunits'
            cases hread
            rw [present_some htext, List.map_cons, ih hrest]

theorem baseIdx_standard {slots : List UInt32} (h : slots.headD 0 ≠ 0) (size : UInt32) :
    baseIdx slots size = 0 := if_neg h

theorem plausible_iff (val size : UInt32) :
    (0 < val && val < size) = true ↔ 0 < val.toNat ∧ val.toNat < size.toNat := by
  rw [Bool.and_eq_true, decide_eq_true_eq, decide_eq_true_eq, UInt32.lt_iff_toNat_lt,
    UInt32.lt_iff_toNat_lt]
  rfl

theorem baseIdx_scan {r : CandRead} (h : (offsetTable r).headD 0 = 0) :
    (∀ slot, ¬Usable r slot) ∨
      Usable r (baseIdx (offsetTable r) r.size) ∧
        ∀ slot, slot < baseIdx (offsetTable r) r.size → ¬Usable r slot := by
  cases hscan : (offsetTable r).findIdx? (fun val => 0 < val && val < r.size) with
  | none =>
      left
      rintro slot ⟨offset, hslot, hoffset⟩
      have hmem := List.mem_of_getElem? hslot
      have himplausible := List.findIdx?_eq_none_iff.mp hscan offset hmem
      rw [Bool.eq_false_iff] at himplausible
      exact himplausible ((plausible_iff _ _).mpr hoffset)
  | some idx =>
      right
      have hbase : baseIdx (offsetTable r) r.size = idx := by
        rw [baseIdx, if_pos h, hscan]
      obtain ⟨hidx, hplausible, hbefore⟩ := List.findIdx?_eq_some_iff_getElem.mp hscan
      rw [hbase]
      refine ⟨⟨_, List.getElem?_eq_getElem hidx, (plausible_iff _ _).mp hplausible⟩, ?_⟩
      rintro slot hslot ⟨offset, hat, hoffset⟩
      obtain ⟨_, hvalue⟩ := List.getElem?_eq_some_iff.mp hat
      apply hbefore slot hslot
      rw [hvalue]
      exact (plausible_iff _ _).mpr hoffset

section

variable {r : CandRead} {start : Nat} {menu : MenuProto}

theorem before_table (htable : TableFrom r start) {slot : Nat} (h : slot < start) :
    ¬Usable r slot := by
  rintro ⟨offset, hat, hpos, -⟩
  cases (htable slot h).symm.trans hat
  exact Nat.lt_irrefl 0 hpos

theorem start_of_standard (htable : TableFrom r start) (h : (offsetTable r).headD 0 ≠ 0) :
    start = 0 := by
  by_contra hshifted
  have hzero := htable 0 (Nat.pos_of_ne_zero hshifted)
  apply h
  rw [List.headD_eq_head?_getD, List.head?_eq_getElem?, hzero]
  rfl

theorem base_cases (htable : TableFrom r start) :
    (((offsetTable r).headD 0 = 0 → Usable r start ∨ ∀ slot, ¬Usable r slot) ∧
        (baseIdx (offsetTable r) r.size = start ∨ ∀ slot, ¬Usable r slot)) ∨
      (offsetTable r).headD 0 = 0 ∧ ¬Usable r start ∧
        Usable r (baseIdx (offsetTable r) r.size) := by
  by_cases hhead : (offsetTable r).headD 0 = 0
  · rcases baseIdx_scan hhead with hnone | ⟨husable, hfirst⟩
    · exact Or.inl ⟨fun _ => Or.inr hnone, Or.inr hnone⟩
    · by_cases hstart : Usable r start
      · refine Or.inl ⟨fun _ => Or.inl hstart, Or.inl ?_⟩
        refine Nat.le_antisymm ?_ ?_
        · exact Nat.le_of_not_lt fun hlt => hfirst start hlt hstart
        · exact Nat.le_of_not_lt fun hlt => before_table htable hlt husable
      · exact Or.inr ⟨hhead, hstart, husable⟩
  · refine Or.inl ⟨fun hzero => absurd hzero hhead, Or.inl ?_⟩
    rw [baseIdx_standard hhead, start_of_standard htable hhead]

theorem noGap_iff (count : Nat) : NoGap (slotText r) start count ↔
    ∀ i j, i < j → j < count → Usable r (start + j) → Usable r (start + i) := by
  simp only [NoGap, slotText_ne_none]

theorem entries_iff (h : getCandidateList r = .ok (some menu)) :
    (∀ i entry, menu.candidates[i]? = some entry → imeCandidate r start i = some entry.text) ↔
      InPlace (slotText r) start
        (present (slotText r) (baseIdx (offsetTable r) r.size) (dwCount r).toNat) := by
  obtain ⟨-, -, -, hread⟩ := menu_read h
  rw [← readCandidates_present hread]
  constructor
  · intro hentries i text htext
    rw [List.getElem?_map, Option.map_eq_some_iff] at htext
    obtain ⟨entry, hentry, rfl⟩ := htext
    exact hentries i entry hentry
  · intro hplace i entry hentry
    apply hplace i
    rw [List.getElem?_map, hentry]
    rfl

theorem entries_iff_gapless (h : getCandidateList r = .ok (some menu)) (htable : TableFrom r start) :
    (∀ i entry, menu.candidates[i]? = some entry → imeCandidate r start i = some entry.text) ↔
      Gapless r start := by
  obtain ⟨hsome, -⟩ := menu_read h
  have hcount : 0 < (dwCount r).toNat := UInt32.pos_iff_ne_zero.mpr hsome
  rw [entries_iff h]
  rcases base_cases htable with ⟨hfound, hbase | hnone⟩ | ⟨hhead, hstart, husable⟩
  · rw [hbase, inPlace_iff, noGap_iff]
    exact ⟨fun hfilled => ⟨hfilled, hfound⟩, fun hgapless => hgapless.filled⟩
  · have hempty : present (slotText r) (baseIdx (offsetTable r) r.size) (dwCount r).toNat = [] :=
      present_eq_nil.mpr fun i _ => slotText_unusable (hnone _)
    rw [hempty]
    refine iff_of_true (fun i x hx => by cases hx) ⟨fun i j _ _ hfilled => ?_, hfound⟩
    exact absurd hfilled (hnone _)
  · refine iff_of_false (fun hplace => ?_) fun hgapless => ?_
    · obtain ⟨text, htext⟩ := Option.ne_none_iff_exists'.mp ((slotText_ne_none _ _).mpr husable)
      obtain ⟨n, hn⟩ : ∃ n, (dwCount r).toNat = n + 1 := ⟨(dwCount r).toNat - 1, by omega⟩
      rw [hn, present_some htext] at hplace
      have hfirst := hplace 0 text rfl
      rw [Nat.add_zero, slotText_unusable hstart] at hfirst
      cases hfirst
    · rcases hgapless.found hhead with hfirst | hnone
      · exact hstart hfirst
      · exact hnone _ husable

end

section

variable {r : CandRead} {start : Nat} {menu : MenuProto}

theorem highlighted_index (h : getCandidateList r = .ok (some menu)) {i : Nat}
    (hindex : menu.highlightedCandidateIndex.toInt = i) : (dwSelection r).toNat = i := by
  obtain ⟨-, hselection, -⟩ := menu_read h
  have hsigned : (dwSelection r).toInt32.toInt =
      if 2 * (dwSelection r).toNat < 2 ^ 32 then ((dwSelection r).toNat : Int)
      else (dwSelection r).toNat - 2 ^ 32 := BitVec.toInt_eq_toNat_cond (dwSelection r).toBitVec
  have hsize : (dwSelection r).toNat < 2 ^ 32 := (dwSelection r).toNat_lt
  rw [hselection, hsigned] at hindex
  split at hindex
  · omega
  · omega

theorem entry_counted (h : getCandidateList r = .ok (some menu)) {i : Nat}
    (hi : i < menu.candidates.length) : i < (dwCount r).toNat := by
  obtain ⟨-, -, -, hread⟩ := menu_read h
  exact Nat.lt_of_lt_of_le hi (readCandidates_length hread).1

end

section

variable {api : Api W} {ime : ImeFunctions W} {list : W → CandidateList} {selected : W → List Nat}
  (hime : Paging api ime list selected) {s : WinImmSession} {w : W} {start index : Nat}

include hime

theorem confirm_steady (s : WinImmSession) (comp : String) :
    Steady selected (confirmSelection api ime s comp) := by
  apply Steady.ite
  · apply Steady.bind (hime.returned s)
    intro r
    exact harvest_steady hime.toPaged r.2
  · exact Steady.pure s

theorem selectCandidate_digit (hback : ¬FallsBack api ime s index w) :
    index ≤ 9 ∧ selected (Adapter.selectCandidate api ime s index w).2 =
      selected (Adapter.processKey api ime s (digitKey index) w).2 := by
  rw [FallsBack] at hback
  push Not at hback
  obtain ⟨vk, hvk, hkeyed⟩ := hback
  refine ⟨selectionVk_isSome.mp (by rw [hvk]; rfl), ?_⟩
  rw [selectCandidate_keyed hvk rfl hkeyed, processKey_digit hvk]
  exact confirm_steady hime _ _ _

theorem digit_selects_iff (hindex : index ≤ 9) (n : Nat) :
    selected (Adapter.processKey api ime s (digitKey index) w).2 = selected w ++ [n] ↔
      (Adapter.processKey api ime s (digitKey index) w).1.1 = true ∧ (list w).onPage index ∧
        n = (list w).pageStart + index := by
  have hnone : ¬selected w = selected w ++ [n] := by simp
  by_cases htaken : (Adapter.processKey api ime s (digitKey index) w).1.1 = true
  · by_cases hpage : (list w).onPage index
    · rw [hime.taken s index w hindex hpage htaken, byDigit_digitKey _ hindex,
        List.append_cancel_left_eq]
      simp only [List.cons.injEq, and_true, htaken, hpage, true_and]
      exact eq_comm
    · rw [hime.beyond s index w hindex hpage htaken]
      exact iff_of_false hnone fun h => hpage h.2.1
  · rw [(hime.ignored s index w hindex (Bool.eq_false_iff.mpr htaken)).1]
    exact iff_of_false hnone fun h => htaken h.1

theorem chosen_iff {text : String} (hlists : Lists (answered api s w) (list w))
    (hindex : index < (dwCount (answered api s w)).toNat)
    (htext : imeCandidate (answered api s w) start index = some text) :
    (∃ n, selected (Adapter.selectCandidate api ime s index w).2 = selected w ++ [n] ∧
        imeCandidate (answered api s w) start n = some text) ↔
      FallsBack api ime s index w ∨ DigitAgrees api ime list s w start index := by
  by_cases hback : FallsBack api ime s index w
  · refine iff_of_true ⟨index, ?_, htext⟩ (Or.inl hback)
    rw [← hlists.counted] at hindex
    exact selectCandidate_fallsBack hime.toPaged hindex hback
  · obtain ⟨hdigit, hselected⟩ := selectCandidate_digit hime hback
    rw [hselected, or_iff_right hback]
    constructor
    · rintro ⟨n, hn, hsame⟩
      obtain ⟨htaken, hpage, rfl⟩ := (digit_selects_iff hime hdigit n).mp hn
      rw [hlists.started] at hsame
      exact ⟨hdigit, htaken, hpage, Or.inr (hsame.trans htext.symm)⟩
    · rintro ⟨-, htaken, hpage, hsame⟩
      refine ⟨_, (digit_selects_iff hime hdigit _).mpr ⟨htaken, hpage, rfl⟩, ?_⟩
      rw [hlists.started, ← htext]
      rcases hsame with hfirst | hsame
      · rw [hfirst]
        exact congrArg _ (Nat.zero_add index)
      · exact hsame

end

instance (l : CandidateList) (index : Nat) : Decidable (l.onPage index) :=
  inferInstanceAs (Decidable (_ ∧ _))

def pageIme : ImeFunctions Shown :=
  { notifiedIme with
    processKey := fun _ vk _ _ w =>
      let digit := vk.toNat - 0x30
      if 0x30 ≤ vk.toNat ∧ vk.toNat ≤ 0x39 then
        if w.list.onPage ((digit + 9) % 10) then
          (true, { w with selected := w.selected ++ [w.list.byDigit digit] })
        else (false, w)
      else (false, w) }

section

variable (read : CandRead) (s : WinImmSession) {index : Nat} (w : Shown)

theorem pageIme_digit (hindex : index ≤ 9) :
    Adapter.processKey (listedApi read) pageIme s (digitKey index) w =
      if w.list.onPage index then
        ((true, s), { w with selected := w.selected ++ [w.list.byDigit ((index + 1) % 10)] })
      else ((false, s), w) := by
  obtain ⟨vk, hvk⟩ := Option.isSome_iff_exists.mp (selectionVk_isSome.mpr hindex)
  have hoffered : offered pageIme s vk w =
      if w.list.onPage index then
        (true, { w with selected := w.selected ++ [w.list.byDigit ((index + 1) % 10)] })
      else (false, w) := by
    interval_cases index <;> cases hvk <;> rfl
  rw [processKey_digit hvk, processVk_listed read (fun _ _ _ => rfl), hoffered]
  split
  · rfl
  · rfl

theorem pageIme_return :
    Adapter.processKey (listedApi read) pageIme s returnKey w = ((false, s), w) :=
  processVk_listed read (fun _ _ _ => rfl) s VK_RETURN w

end

theorem pageIme_paging (read : CandRead) :
    Paging (listedApi read) pageIme Shown.list Shown.selected where
  taken s index w hindex hpage _ := by
    rw [pageIme_digit read s w hindex, if_pos hpage]
  ignored s index w hindex hrefused := by
    rw [pageIme_digit read s w hindex] at hrefused ⊢
    split at hrefused
    · cases hrefused
    · next hpage =>
        rw [if_neg hpage]
        exact ⟨rfl, rfl⟩
  notified _ _ _ _ := rfl
  completed _ _ := rfl
  generated _ _ := rfl
  peeked _ _ := rfl
  dispatched _ _ := rfl
  beyond s index w hindex hpage _ := by
    rw [pageIme_digit read s w hindex, if_neg hpage]
  returned s w := by
    rw [pageIme_return]

def twoRead : CandRead := ⟨40, 40, twoListed⟩

def twoShown : Shown := ⟨⟨["a", "b"], 0, 5, by decide⟩, []⟩

def secondUnlisted : List UInt8 :=
  [44, 0, 0, 0, 0, 0, 0, 0, 3, 0, 0, 0, 1, 0, 0, 0, 0, 0, 0, 0, 3, 0, 0, 0,
    36, 0, 0, 0, 0, 0, 0, 0, 40, 0, 0, 0, 97, 0, 0, 0, 99, 0, 0, 0]

def gapRead : CandRead := ⟨44, 44, secondUnlisted⟩

def gapShown : Shown := ⟨⟨["a", "", "c"], 0, 3, by decide⟩, []⟩

def secondPageListed : List UInt8 :=
  [56, 0, 0, 0, 0, 0, 0, 0, 4, 0, 0, 0, 2, 0, 0, 0, 2, 0, 0, 0, 2, 0, 0, 0,
    40, 0, 0, 0, 44, 0, 0, 0, 48, 0, 0, 0, 52, 0, 0, 0,
    97, 0, 0, 0, 98, 0, 0, 0, 99, 0, 0, 0, 100, 0, 0, 0]

def pageRead : CandRead := ⟨56, 56, secondPageListed⟩

end RimeWinime.CandidatePositions
