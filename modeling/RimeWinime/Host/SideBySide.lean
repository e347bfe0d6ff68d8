import RimeWinime.Host.Backend

namespace RimeWinime.SideBySide

open World Win32 Proto Session Adapter

variable {W α : Type}

/-- Both runs return the same value and a session with the given handles. -/
def Same (target : Hwnd) (himc : Himc) (a b : α × WinImmSession) : Prop :=
  a = b ∧ a.2.targetHwnd = target ∧ a.2.himc = himc

def SameSession (target : Hwnd) (himc : Himc) (a b : WinImmSession) : Prop :=
  a = b ∧ a.targetHwnd = target ∧ a.himc = himc

/-- Every call that is made for one window and one input context gives the same
answer in related worlds and leaves related worlds. `own` are the messages that
a pump can see there. -/
structure Local (api : Api W) (ime : ImeFunctions W) (R : W → W → Prop) (own : Msg → Prop)
    (target : Hwnd) (himc : Himc) : Prop where
  peek : ∀ filter, Respects R (fun a b => a = b ∧ ∀ m ∈ a, own m)
    (api.peekMessage filter) (api.peekMessage filter)
  dispatch : ∀ m, own m → Respects R Eq (api.dispatchMessage m) (api.dispatchMessage m)
  send : ∀ message wParam lParam, Respects R Eq (api.sendMessage target message wParam lParam)
    (api.sendMessage target message wParam lParam)
  keyboard : ∀ keyState, Respects R Eq (api.setKeyboardState keyState) (api.setKeyboardState keyState)
  unicode : ∀ vk scan keyState,
    Respects R Eq (api.toUnicode vk scan keyState) (api.toUnicode vk scan keyState)
  layout : ∀ w w', R w w' → api.getKeyboardLayout target w = api.getKeyboardLayout target w'
  immProcess : ∀ hkl vk lKeyData, Respects R Eq (api.immProcessKey target hkl vk lKeyData)
    (api.immProcessKey target hkl vk lKeyData)
  translate : ∀ message wParam lKeyData,
    Respects R Eq (api.immTranslateMessage target message wParam lKeyData)
      (api.immTranslateMessage target message wParam lKeyData)
  generate : Respects R Eq (api.immGenerateMessage himc) (api.immGenerateMessage himc)
  notify : ∀ action idx value, Respects R Eq (notifyIME api ime himc action idx value)
    (notifyIME api ime himc action idx value)
  process : ∀ vk lKeyData keyState, Respects R Eq (ime.processKey himc vk lKeyData keyState)
    (ime.processKey himc vk lKeyData keyState)
  toAsciiEx : ∀ uvirt keyState, Respects R Eq (ime.toAsciiEx uvirt keyState himc)
    (ime.toAsciiEx uvirt keyState himc)
  composition : ∀ w w', R w w' → ∀ gcs,
    api.immGetCompositionString himc gcs w = api.immGetCompositionString himc gcs w'
  candidates : ∀ w w', R w w' → api.immGetCandidateList himc w = api.immGetCandidateList himc w'
  misread : ∀ w w', R w w' → api.misread himc w = api.misread himc w'

theorem finalResultCheck_handles (s : WinImmSession) (slot : Option String) :
    (finalResultCheck s slot).targetHwnd = s.targetHwnd ∧ (finalResultCheck s slot).himc = s.himc := by
  rw [finalResultCheck]
  split
  · exact ⟨appendCommit_targetHwnd s _, appendCommit_himc s _⟩
  · exact ⟨rfl, rfl⟩

section

variable {api : Api W} {ime : ImeFunctions W} {R : W → W → Prop} {own : Msg → Prop}
  {target : Hwnd} {himc : Himc} (hl : Local api ime R own target himc)

include hl

theorem resultString_same {w w' : W} (h : R w w') :
    resultString api himc w = resultString api himc w' := by
  rw [resultString, hl.composition w w' h, resultString]

theorem compText_same {w w' : W} (h : R w w') : compText api himc w = compText api himc w' := by
  simp only [compText, compositionOf, hl.composition w w' h]

theorem menuTexts_same {w w' : W} (h : R w w') : menuTexts api himc w = menuTexts api himc w' := by
  simp only [menuTexts, hl.candidates w w' h, hl.misread w w' h]

theorem contextOf_same {w w' : W} (h : R w w') : contextOf api himc w = contextOf api himc w' := by
  simp only [contextOf, compositionOf, menuOf, hl.composition w w' h, hl.candidates w w' h]

theorem pumpLoop_same (filter : Option Hwnd) (n : Nat) (out : PumpResult) :
    Respects R Eq (pumpLoop api himc filter n out) (pumpLoop api himc filter n out) := by
  induction n generalizing out with
  | zero => exact Respects.pure rfl
  | succ n ih =>
      refine Respects.bind (hl.peek filter) ?_
      rintro msg _ ⟨rfl, hown⟩
      cases msg with
      | none => exact Respects.pure rfl
      | some m =>
          have hone (w w' : W) (h : R w w') :
              pumpOne api himc out m w = pumpOne api himc out m w' := by
            simp only [pumpOne, resultString_same hl h]
          refine Respects.bind_eq (Respects.observe hone) (fun out' => ?_)
          exact Respects.bind_eq (hl.dispatch m (hown m rfl)) (fun _ => ih out')

theorem pump_same (s : WinImmSession) (hs : s.himc = himc) (filter : Option Hwnd) :
    Respects R Eq (pumpMessagesForHwnd api s filter) (pumpMessagesForHwnd api s filter) := by
  rw [pumpMessagesForHwnd, hs]
  exact pumpLoop_same hl filter MAX_PUMP_MESSAGES {}

theorem harvest_same (s : WinImmSession) (ht : s.targetHwnd = target) (hs : s.himc = himc) :
    Respects R (SameSession target himc) (harvestThreadMessages api s)
      (harvestThreadMessages api s) := by
  refine Respects.bind_eq (pump_same hl s hs none) (fun out => ?_)
  apply Respects.pure
  exact ⟨rfl, by rw [commitPumped, appendCommit_targetHwnd, ht],
    by rw [commitPumped, appendCommit_himc, hs]⟩

theorem transmsgLoop_same (s : WinImmSession) (ht : s.targetHwnd = target) (hs : s.himc = himc)
    (msgs : List TransMsg) (out : PumpResult) :
    Respects R Eq (transmsgLoop api s msgs out) (transmsgLoop api s msgs out) := by
  induction msgs generalizing out with
  | nil => exact Respects.pure rfl
  | cons m msgs ih =>
      have hone (w w' : W) (h : R w w') :
          transmsgOne api s.himc out m w = transmsgOne api s.himc out m w' := by
        rw [hs]
        simp only [transmsgOne, resultString_same hl h]
      rw [transmsgLoop]
      refine Respects.ite (fun _ => ih out) (fun _ => ?_)
      refine Respects.bind_eq (Respects.observe hone) (fun out' => ?_)
      rw [ht]
      exact Respects.bind_eq (hl.send _ _ _) (fun _ => ih out')

theorem dispatch_same (s : WinImmSession) (ht : s.targetHwnd = target) (hs : s.himc = himc)
    (uvirt : UInt32) (ks : KeyState) :
    Respects R Eq (dispatchImeTransmsgs api ime s uvirt ks)
      (dispatchImeTransmsgs api ime s uvirt ks) := by
  rw [dispatchImeTransmsgs, hs]
  refine Respects.bind_eq (hl.toAsciiEx uvirt ks) (fun reply => ?_)
  refine Respects.bind_eq (transmsgLoop_same hl s ht hs _ _) (fun out => ?_)
  refine Respects.bind_eq (pump_same hl s hs _) (fun pumped => ?_)
  refine Respects.bind_eq (Respects.observe (fun w w' h => resultString_same hl h)) (fun slot => ?_)
  exact Respects.pure rfl

theorem consumeDirect_same (s : WinImmSession) (ht : s.targetHwnd = target) (hs : s.himc = himc)
    (uvirt : UInt32) (ks : KeyState) :
    Respects R (SameSession target himc) (consumeDirect api ime s uvirt ks)
      (consumeDirect api ime s uvirt ks) := by
  refine Respects.bind_eq (dispatch_same hl s ht hs uvirt ks) (fun out => ?_)
  apply harvest_same hl
  · rw [commitPumped, appendCommit_targetHwnd, ht]
  · rw [commitPumped, appendCommit_himc, hs]

theorem offerKey_same (s : WinImmSession) (ht : s.targetHwnd = target) (hs : s.himc = himc)
    (vk : UInt16) (isKeyup isAlt : Bool) :
    Respects R (Same target himc) (offerKey api s vk isKeyup isAlt)
      (offerKey api s vk isKeyup isAlt) := by
  have hharvest (accepted : Bool) : Respects R (Same target himc)
      (harvestThreadMessages api s >>= fun s => pure (accepted, s))
      (harvestThreadMessages api s >>= fun s => pure (accepted, s)) := by
    refine Respects.bind (harvest_same hl s ht hs) ?_
    rintro a _ ⟨rfl, ha⟩
    exact Respects.pure ⟨rfl, ha⟩
  rw [offerKey, ht]
  refine Respects.bind_eq (hl.send _ _ _) (fun _ => ?_)
  refine Respects.bind_eq (Respects.observe hl.layout) (fun hkl => ?_)
  refine Respects.bind_eq (hl.immProcess _ _ _) (fun flags => ?_)
  refine Respects.ite (fun _ => ?_) (fun _ => hharvest _)
  exact Respects.bind_eq (hl.translate _ _ _) (fun _ => hharvest _)

theorem releaseKey_same (s : WinImmSession) (ht : s.targetHwnd = target) (hs : s.himc = himc)
    (vk : UInt16) (isAlt : Bool) :
    Respects R (SameSession target himc) (releaseKey api s vk isAlt) (releaseKey api s vk isAlt) := by
  rw [releaseKey, ht]
  exact Respects.bind_eq (hl.send _ _ _) (fun _ => harvest_same hl s ht hs)

theorem processVk_same (s : WinImmSession) (ht : s.targetHwnd = target) (hs : s.himc = himc)
    (vk : UInt16) (modifiers : UInt32) (isKeyup : Bool) :
    Respects R (Same target himc) (processVk api ime s vk modifiers isKeyup)
      (processVk api ime s vk modifiers isKeyup) := by
  refine Respects.bind_eq (hl.keyboard _) (fun _ => ?_)
  refine Respects.bind_eq (hl.unicode _ _ _) (fun unicode => ?_)
  refine Respects.bind (offerKey_same hl s ht hs vk isKeyup _) ?_
  rintro ⟨accepted, s⟩ _ ⟨rfl, ht, hs⟩
  simp only at ht hs ⊢
  rw [hs]
  refine Respects.bind_eq (hl.process _ _ _) (fun direct => ?_)
  have hdirect (uvirt : UInt32) : Respects R (SameSession target himc)
      (if direct = true then consumeDirect api ime s uvirt (keyStateOf modifiers) else pure s)
      (if direct = true then consumeDirect api ime s uvirt (keyStateOf modifiers) else pure s) :=
    Respects.ite (fun _ => consumeDirect_same hl s ht hs _ _)
      (fun _ => Respects.pure ⟨rfl, ht, hs⟩)
  refine Respects.bind (hdirect _) ?_
  rintro s _ ⟨rfl, ht, hs⟩
  have hkeyup : Respects R (SameSession target himc)
      (if isKeyup = true then pure s else releaseKey api s vk ((modifiers &&& 4) != 0))
      (if isKeyup = true then pure s else releaseKey api s vk ((modifiers &&& 4) != 0)) :=
    Respects.ite (fun _ => Respects.pure ⟨rfl, ht, hs⟩) (fun _ => releaseKey_same hl s ht hs _ _)
  refine Respects.bind hkeyup ?_
  rintro s _ ⟨rfl, ht, hs⟩
  rw [hs]
  refine Respects.bind_eq (Respects.observe (fun w w' h => resultString_same hl h)) (fun slot => ?_)
  apply Respects.pure
  obtain ⟨hft, hfs⟩ := finalResultCheck_handles s slot
  exact ⟨rfl, hft.trans ht, hfs.trans hs⟩

theorem processKey_same (s : WinImmSession) (ht : s.targetHwnd = target) (hs : s.himc = himc)
    (key : KeyEvent) :
    Respects R (Same target himc) (processKey api ime s key) (processKey api ime s key) := by
  rw [processKey]
  exact Respects.ite (fun _ => Respects.pure ⟨rfl, ht, hs⟩)
    (fun _ => processVk_same hl s ht hs _ _ _)

theorem getContext_same (s : WinImmSession) (ht : s.targetHwnd = target) (hs : s.himc = himc) :
    Respects R (Same target himc) (Adapter.getContext api s) (Adapter.getContext api s) := by
  refine Respects.bind (harvest_same hl s ht hs) ?_
  rintro s _ ⟨rfl, ht, hs⟩
  rw [hs]
  refine Respects.bind_eq (Respects.observe (fun w w' h => contextOf_same hl h)) (fun context => ?_)
  exact Respects.pure ⟨rfl, ht, hs⟩

theorem getCommit_same (s : WinImmSession) (ht : s.targetHwnd = target) (hs : s.himc = himc) :
    Respects R (Same target himc) (Adapter.getCommit api s) (Adapter.getCommit api s) := by
  refine Respects.bind (harvest_same hl s ht hs) ?_
  rintro s _ ⟨rfl, ht, hs⟩
  exact Respects.pure ⟨rfl, ht, hs⟩

theorem notifySelection_same (s : WinImmSession) (ht : s.targetHwnd = target) (hs : s.himc = himc)
    (index : Nat) (comp : String) (menu : List String) :
    Respects R (Same target himc) (notifySelection api ime s index comp menu)
      (notifySelection api ime s index comp menu) := by
  rw [notifySelection, hs]
  refine Respects.bind_eq (hl.notify _ _ _) (fun _ => ?_)
  refine Respects.bind (harvest_same hl s ht hs) ?_
  rintro s _ ⟨rfl, ht, hs⟩
  rw [hs]
  refine Respects.bind_eq (Respects.observe (fun w w' h => compText_same hl h)) (fun afterComp => ?_)
  refine Respects.bind_eq (Respects.observe (fun w w' h => menuTexts_same hl h)) (fun afterMenu => ?_)
  refine Respects.ite (fun _ => ?_) (fun _ => Respects.pure ⟨rfl, ht, hs⟩)
  refine Respects.bind_eq (hl.notify _ _ _) (fun _ => ?_)
  refine Respects.bind_eq hl.generate (fun _ => ?_)
  refine Respects.bind (harvest_same hl s ht hs) ?_
  rintro s _ ⟨rfl, ht, hs⟩
  exact Respects.pure ⟨rfl, ht, hs⟩

theorem confirmSelection_same (s : WinImmSession) (ht : s.targetHwnd = target) (hs : s.himc = himc)
    (keyedComp : String) :
    Respects R (SameSession target himc) (confirmSelection api ime s keyedComp)
      (confirmSelection api ime s keyedComp) := by
  rw [confirmSelection]
  refine Respects.ite (fun _ => ?_) (fun _ => Respects.pure ⟨rfl, ht, hs⟩)
  refine Respects.bind (processVk_same hl s ht hs _ _ _) ?_
  rintro ⟨accepted, s⟩ _ ⟨rfl, ht, hs⟩
  exact harvest_same hl s ht hs

theorem selectCandidate_same (s : WinImmSession) (ht : s.targetHwnd = target) (hs : s.himc = himc)
    (index : Nat) :
    Respects R (Same target himc) (Adapter.selectCandidate api ime s index)
      (Adapter.selectCandidate api ime s index) := by
  rw [Adapter.selectCandidate, hs]
  refine Respects.bind_eq (Respects.observe (fun w w' h => compText_same hl h)) (fun comp => ?_)
  refine Respects.bind_eq (Respects.observe (fun w w' h => menuTexts_same hl h)) (fun menu => ?_)
  cases selectionVk index with
  | none => exact notifySelection_same hl s ht hs index comp menu
  | some vk =>
      refine Respects.bind (processVk_same hl s ht hs vk 0 false) ?_
      rintro ⟨selected, s⟩ _ ⟨rfl, ht, hs⟩
      simp only at ht hs ⊢
      rw [hs]
      refine Respects.bind_eq (Respects.observe (fun w w' h => compText_same hl h)) (fun keyed => ?_)
      refine Respects.bind_eq (Respects.observe (fun w w' h => resultString_same hl h))
        (fun keyedResult => ?_)
      refine Respects.bind_eq (Respects.observe (fun w w' h => menuTexts_same hl h))
        (fun keyedMenu => ?_)
      refine Respects.ite (fun _ => ?_) (fun _ => notifySelection_same hl s ht hs index comp menu)
      refine Respects.bind (confirmSelection_same hl s ht hs keyed) ?_
      rintro s _ ⟨rfl, ht, hs⟩
      exact Respects.pure ⟨rfl, ht, hs⟩

end

/-- Any world can stand beside itself, so the handles of a session never change. -/
theorem local_refl (api : Api W) (ime : ImeFunctions W) (target : Hwnd) (himc : Himc) :
    Local api ime Eq (fun _ => True) target himc := by
  have hrefl {β : Type} (x : Act W β) : Respects Eq Eq x x := by
    rintro w _ rfl
    exact ⟨rfl, rfl⟩
  constructor
  case peek =>
    rintro filter w _ rfl
    exact ⟨⟨rfl, fun _ _ => trivial⟩, rfl⟩
  case layout | composition | candidates | misread => exact fun w w' h => by subst h; intros; rfl
  all_goals
    intros
    exact hrefl _

end RimeWinime.SideBySide
