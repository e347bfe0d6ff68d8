import RimeWinime.Host.DigitSelection

namespace RimeWinime.PagedSelection

open World Win32 Proto Session Adapter DigitSelection
open SelectionReport (Keyed)

variable {W : Type}

/-- The length is the list's `dwCount`. -/
structure CandidateList where
  texts : List String
  pageStart : Nat
  pageSize : Nat
  fits : texts.length < 2 ^ 32

def CandidateList.byDigit (l : CandidateList) (digit : Nat) : Nat :=
  l.pageStart + (if digit = 0 then 10 else digit) - 1

def CandidateList.onPage (l : CandidateList) (index : Nat) : Prop :=
  index < l.pageSize ∧ l.pageStart + index < l.texts.length

theorem byDigit_digitKey (l : CandidateList) {index : Nat} (hindex : index ≤ 9) :
    l.byDigit ((index + 1) % 10) = l.pageStart + index := by
  rw [CandidateList.byDigit]
  split
  · omega
  · omega

/-- An IME with such a list. `selected` are the numbers of the candidates that it
has been made to select, the last one last. -/
structure Paged (api : Api W) (ime : ImeFunctions W) (list : W → CandidateList)
    (selected : W → List Nat) : Prop where
  taken : ∀ s index w, index ≤ 9 → (list w).onPage index →
    (Adapter.processKey api ime s (digitKey index) w).1.1 = true →
      selected (Adapter.processKey api ime s (digitKey index) w).2 =
        selected w ++ [(list w).byDigit ((index + 1) % 10)]
  ignored : ∀ s index w, index ≤ 9 →
    (Adapter.processKey api ime s (digitKey index) w).1.1 = false →
      selected (Adapter.processKey api ime s (digitKey index) w).2 = selected w ∧
        list (Adapter.processKey api ime s (digitKey index) w).2 = list w
  notified : ∀ himc number w, number.toNat < (list w).texts.length →
    selected (notifyIME api ime himc NI_SELECTCANDIDATESTR 0 number w).2 =
      selected w ++ [number.toNat]
  completed : ∀ himc, Steady selected (notifyIME api ime himc NI_COMPOSITIONSTR CPS_COMPLETE 0)
  generated : ∀ himc, Steady selected (api.immGenerateMessage himc)
  peeked : ∀ filter, Steady selected (api.peekMessage filter)
  dispatched : ∀ msg, Steady selected (api.dispatchMessage msg)

def FallsBack (api : Api W) (ime : ImeFunctions W) (s : WinImmSession) (index : Nat) (w : W) : Prop :=
  ∀ vk, selectionVk index = some vk →
    ¬Keyed api (compText api s.himc w) (menuTexts api s.himc w)
      (Adapter.processVk api ime s vk 0 false w)

section

variable {api : Api W} {ime : ImeFunctions W} {list : W → CandidateList} {selected : W → List Nat}
  (hime : Paged api ime list selected)

include hime

theorem pumpLoop_steady (himc : Himc) (filter : Option Hwnd) (n : Nat) (out : PumpResult) :
    Steady selected (pumpLoop api himc filter n out) := by
  induction n generalizing out with
  | zero => exact Steady.pure out
  | succ n ih =>
      refine (hime.peeked filter).bind fun msg => ?_
      cases msg with
      | none => exact Steady.pure out
      | some msg =>
          refine (Steady.observe _).bind fun out => ?_
          exact (hime.dispatched msg).bind fun _ => ih out

theorem harvest_steady (s : WinImmSession) : Steady selected (harvestThreadMessages api s) :=
  (pumpLoop_steady hime s.himc none MAX_PUMP_MESSAGES {}).bind fun _ => Steady.pure _

theorem notifySelection_selects (s : WinImmSession) {index : Nat} (comp : String)
    (menu : List String) {w : W} (hindex : index < (list w).texts.length) :
    selected (notifySelection api ime s index comp menu w).2 = selected w ++ [index] := by
  have hnumber : (UInt32.ofNat index).toNat = index := by
    have hfits := (list w).fits
    exact UInt32.toNat_ofNat_of_lt' (by simp only [UInt32.size]; omega)
  have hnotified := hime.notified s.himc (UInt32.ofNat index) w (by rwa [hnumber])
  have hrest (s : WinImmSession) : Steady selected
      (harvestThreadMessages api s >>= fun s => pure (true, s)) :=
    (harvest_steady hime s).bind fun _ => Steady.pure _
  rw [hnumber] at hnotified
  rw [notifySelection, bind_run, ← hnotified]
  refine Steady.bind (harvest_steady hime s) (fun s => ?_) _
  refine (Steady.observe _).bind fun afterComp => (Steady.observe _).bind fun afterMenu => ?_
  refine Steady.ite ?_ (Steady.pure _)
  exact (hime.completed s.himc).bind fun _ => (hime.generated s.himc).bind fun _ => hrest s

variable {s : WinImmSession} {index : Nat} {w : W}

theorem selectCandidate_fallsBack (hindex : index < (list w).texts.length)
    (hback : FallsBack api ime s index w) :
    selected (Adapter.selectCandidate api ime s index w).2 = selected w ++ [index] := by
  cases hvk : selectionVk index with
  | none =>
      rw [Adapter.selectCandidate, hvk]
      exact notifySelection_selects hime s _ _ hindex
  | some vk =>
      have hidle := hback vk hvk
      have hrefused : (Adapter.processVk api ime s vk 0 false w).1.1 = false :=
        Bool.eq_false_iff.mpr fun htaken => hidle (Or.inr (Or.inr (Or.inr (Or.inr htaken))))
      have hignored := hime.ignored s index w (selectionVk_isSome.mp (by rw [hvk]; rfl))
      rw [processKey_digit hvk] at hignored
      obtain ⟨hselected, hlist⟩ := hignored hrefused
      rw [selectCandidate_notified hvk rfl hidle, notifySelection_selects hime, hselected]
      rwa [hlist]

/-- Where the notification is used, it selects what the digit would exactly on
the first page. -/
theorem same_candidate_iff (hpage : (list w).onPage index) (hback : FallsBack api ime s index w) :
    selected (Adapter.selectCandidate api ime s index w).2 =
        selected w ++ [(list w).pageStart + index] ↔
      (list w).pageStart = 0 := by
  have hin : index < (list w).texts.length := Nat.lt_of_le_of_lt (Nat.le_add_left _ _) hpage.2
  rw [selectCandidate_fallsBack hime hin hback, List.append_cancel_left_eq]
  simp only [List.cons.injEq, and_true]
  omega

theorem digit_selects (hindex : index ≤ 9) (hpage : (list w).onPage index)
    (htaken : (Adapter.processKey api ime s (digitKey index) w).1.1 = true)
    (hdone : Done api (Adapter.processKey api ime s (digitKey index) w)) :
    selected (Adapter.selectCandidate api ime s index w).2 =
      selected w ++ [(list w).pageStart + index] := by
  rw [selectCandidate_handled hindex rfl (Or.inl htaken), confirmSelection_done hdone,
    ← byDigit_digitKey (list w) hindex]
  exact hime.taken s index w hindex hpage htaken

end

theorem harvest_listed (read : CandRead) (s : WinImmSession) (w : W) :
    harvestThreadMessages (listedApi read) s w = (s, w) := rfl

theorem offerKey_listed (read : CandRead) (s : WinImmSession) (vk : UInt16) (isKeyup isAlt : Bool)
    (w : W) : offerKey (listedApi read) s vk isKeyup isAlt w = ((false, s), w) := by
  have himm (a b c d) (w : W) : (listedApi (W := W) read).immProcessKey a b c d w = (0, w) := rfl
  have hsend (a b c d) (w : W) : (listedApi (W := W) read).sendMessage a b c d w = ((), w) := rfl
  simp [offerKey, himm, hsend, harvest_listed]

def offered (ime : ImeFunctions W) (s : WinImmSession) (vk : UInt16) : Act W Bool :=
  ime.processKey s.himc vk.toUInt32 (VkMap.makeLKeyData (fun _ => 0) vk false false) (keyStateOf 0)

theorem processVk_listed (read : CandRead) {ime : ImeFunctions W}
    (hascii : ∀ uvirt keyState himc, ime.toAsciiEx uvirt keyState himc = pure (0, []))
    (s : WinImmSession) (vk : UInt16) (w : W) :
    Adapter.processVk (listedApi read) ime s vk 0 false w =
      (((offered ime s vk w).1, s), (offered ime s vk w).2) := by
  have hkeyboard (a) (w : W) : (listedApi (W := W) read).setKeyboardState a w = ((), w) := rfl
  have hunicode (a b c) (w : W) : (listedApi (W := W) read).toUnicode a b c w = ((0, 0), w) := rfl
  have hsend (a b c d) (w : W) : (listedApi (W := W) read).sendMessage a b c d w = ((), w) := rfl
  have hslot (w : W) : resultString (listedApi (W := W) read) s.himc w = none := rfl
  have hdirect (uvirt : UInt32) (w : W) :
      consumeDirect (listedApi read) ime s uvirt (keyStateOf 0) w = (s, w) := by
    rw [consumeDirect, bind_run, dispatchImeTransmsgs, bind_run, hascii]
    rfl
  have hprocess : ime.processKey s.himc vk.toUInt32 (VkMap.makeLKeyData (fun _ => 0) vk false false)
      (keyStateOf 0) w = ((offered ime s vk w).1, (offered ime s vk w).2) := rfl
  have hscan : (listedApi (W := W) read).mapVirtualKey = fun _ => 0 := rfl
  have hplain : (((0 : UInt32) &&& 4) != 0) = false := by decide
  simp only [Adapter.processVk, bind_run, hkeyboard, hunicode, hplain, hscan, hprocess,
    offerKey_listed, releaseKey]
  cases (offered ime s vk w).1 with
  | false => simp [hsend, hslot, harvest_listed, finalResultCheck]
  | true => simp [hsend, hslot, harvest_listed, finalResultCheck, hdirect]

structure Shown where
  list : CandidateList
  selected : List Nat

def notifiedIme : ImeFunctions Shown :=
  { inertIme with
    notifyIme := some fun _ action _ value w =>
      if action = NI_SELECTCANDIDATESTR then (true, { w with selected := w.selected ++ [value.toNat] })
      else (false, w) }

theorem processVk_refused (s : WinImmSession) (vk : UInt16) (w : Shown) :
    Adapter.processVk inertApi notifiedIme s vk 0 false w = ((false, s), w) :=
  @processVk_listed _ ⟨0, 0, []⟩ notifiedIme (fun _ _ _ => rfl) s vk w

theorem notifiedIme_paged : Paged inertApi notifiedIme Shown.list Shown.selected where
  taken s index w hindex _ htaken := by
    obtain ⟨vk, hvk⟩ := Option.isSome_iff_exists.mp (selectionVk_isSome.mpr hindex)
    rw [processKey_digit hvk, processVk_refused] at htaken
    cases htaken
  ignored s index w hindex _ := by
    obtain ⟨vk, hvk⟩ := Option.isSome_iff_exists.mp (selectionVk_isSome.mpr hindex)
    rw [processKey_digit hvk, processVk_refused]
    exact ⟨rfl, rfl⟩
  notified _ _ _ _ := rfl
  completed _ _ := rfl
  generated _ _ := rfl
  peeked _ _ := rfl
  dispatched _ _ := rfl

theorem notifiedIme_fallsBack (index : Nat) (w : Shown) :
    FallsBack inertApi notifiedIme SelectionReport.session index w := by
  intro vk _
  rw [processVk_refused]
  rintro (h | h | h | h | h)
  · exact h rfl
  · exact h rfl
  · exact h rfl
  · exact h rfl
  · cases h

def pages (pageStart : Nat) : Shown :=
  ⟨⟨["a", "b", "c", "d"], pageStart, 2, by decide⟩, []⟩

theorem first_page_agrees :
    (Adapter.selectCandidate inertApi notifiedIme SelectionReport.session 1 (pages 0)).2.selected =
      [1] :=
  (same_candidate_iff notifiedIme_paged ⟨by decide, by decide⟩
    (notifiedIme_fallsBack 1 (pages 0))).mpr rfl

/-- On the second page of two, the second candidate is number 3, and number 1 is
selected. -/
theorem second_page_differs :
    (pages 2).list.onPage 1 ∧ FallsBack inertApi notifiedIme SelectionReport.session 1 (pages 2) ∧
      (pages 2).list.byDigit 2 = 3 ∧
      (Adapter.selectCandidate inertApi notifiedIme SelectionReport.session 1 (pages 2)).2.selected =
        [1] :=
  ⟨⟨by decide, by decide⟩, notifiedIme_fallsBack 1 (pages 2), rfl, rfl⟩

end RimeWinime.PagedSelection
