import RimeWinime.Host.Adapter
import RimeWinime.Lib.Text

namespace RimeWinime.QuietKey

open World Win32 Session Adapter

variable {W : Type}

def silent (message : UInt32) (lParam : UInt64) : Prop :=
  announcesResult message lParam = false ∧ carriesChar message = false

/-- For the length of one key the calm worlds stay calm: the IME writes no
result string, which reads as `slot` throughout, and lets out silent messages
only. `direct` is its answer to a direct key. -/
structure Quiet (api : Api W) (ime : ImeFunctions W) (himc : Himc) (calm : W → Prop)
    (slot : String) (direct : Bool) : Prop where
  peek : ∀ filter, Keeps calm (fun msg => ∀ m ∈ msg, silent m.message m.lParam)
    (api.peekMessage filter)
  dispatch : ∀ msg, Keeps calm (fun _ => True) (api.dispatchMessage msg)
  send : ∀ hwnd message wParam lParam,
    Keeps calm (fun _ => True) (api.sendMessage hwnd message wParam lParam)
  keyboard : ∀ keyState, Keeps calm (fun _ => True) (api.setKeyboardState keyState)
  unicode : ∀ vk scan keyState, Keeps calm (fun _ => True) (api.toUnicode vk scan keyState)
  immProcess : ∀ hwnd hkl vk lKeyData,
    Keeps calm (fun _ => True) (api.immProcessKey hwnd hkl vk lKeyData)
  translate : ∀ hwnd message wParam lKeyData,
    Keeps calm (fun _ => True) (api.immTranslateMessage hwnd message wParam lKeyData)
  process : ∀ vk lKeyData keyState,
    Keeps calm (fun answer => answer = direct) (ime.processKey himc vk lKeyData keyState)
  toAsciiEx : ∀ uvirt keyState,
    Keeps calm (fun reply => ∀ m ∈ reportedTransmsgs reply, silent m.message m.lParam)
      (ime.toAsciiEx uvirt keyState himc)
  reads : ∀ w, calm w → (resultString api himc w).getD "" = slot

section

variable {api : Api W} {ime : ImeFunctions W} {himc : Himc} {calm : W → Prop} {slot : String}
  {direct : Bool} (hq : Quiet api ime himc calm slot direct)

include hq

theorem pumpLoop_quiet (filter : Option Hwnd) (n : Nat) (out : PumpResult) :
    Keeps calm (fun r => r.resultText = out.resultText ∧ r.charText = out.charText)
      (pumpLoop api himc filter n out) := by
  induction n with
  | zero => exact Keeps.pure ⟨rfl, rfl⟩
  | succ n ih =>
      refine Keeps.bind (hq.peek filter) ?_
      intro msg hsilent
      cases msg with
      | none => exact Keeps.pure ⟨rfl, rfl⟩
      | some m =>
          obtain ⟨hresult, hchar⟩ := hsilent m rfl
          have hone (w : W) : pumpOne api himc out m w = out := by
            simp [pumpOne, hresult, hchar]
          refine Keeps.bind (Keeps.observe (P := fun r => r = out) (fun w _ => hone w)) ?_
          rintro r rfl
          exact Keeps.bind (hq.dispatch m) (fun _ _ => ih)

theorem pump_quiet (s : WinImmSession) (hs : s.himc = himc) (filter : Option Hwnd) :
    Keeps calm (fun r => r.resultText = "" ∧ r.charText = "") (pumpMessagesForHwnd api s filter) := by
  rw [pumpMessagesForHwnd, hs]
  exact pumpLoop_quiet hq filter MAX_PUMP_MESSAGES {}

theorem harvest_quiet (s : WinImmSession) (hs : s.himc = himc) :
    Keeps calm (fun r => r = s) (harvestThreadMessages api s) := by
  refine Keeps.bind (pump_quiet hq s hs none) ?_
  rintro p ⟨hresult, hchar⟩
  apply Keeps.pure
  simp [commitPumped, PumpResult.text, hresult, hchar]

theorem transmsgLoop_quiet (s : WinImmSession) (msgs : List TransMsg)
    (hm : ∀ m ∈ msgs, silent m.message m.lParam) (out : PumpResult) :
    Keeps calm (fun r => r.resultText = out.resultText ∧ r.charText = out.charText)
      (transmsgLoop api s msgs out) := by
  induction msgs with
  | nil => exact Keeps.pure ⟨rfl, rfl⟩
  | cons m msgs ih =>
      have hrest := ih (fun a ha => hm a (List.mem_cons_of_mem m ha))
      obtain ⟨hresult, hchar⟩ := hm m List.mem_cons_self
      have hone (w : W) : transmsgOne api s.himc out m w = out := by
        simp [transmsgOne, hresult, hchar]
      rw [transmsgLoop]
      refine Keeps.ite (fun _ => hrest) (fun _ => ?_)
      refine Keeps.bind (Keeps.observe (P := fun r => r = out) (fun w _ => hone w)) ?_
      rintro r rfl
      exact Keeps.bind (hq.send _ _ _ _) (fun _ _ => hrest)

theorem dispatch_quiet (s : WinImmSession) (hs : s.himc = himc) (uvirt : UInt32) (ks : KeyState) :
    Keeps calm (fun r => r.text = slot) (dispatchImeTransmsgs api ime s uvirt ks) := by
  subst hs
  refine Keeps.bind (hq.toAsciiEx uvirt ks) ?_
  intro reply hreply
  refine Keeps.bind (transmsgLoop_quiet hq s _ hreply {}) ?_
  rintro out ⟨hresult, hchar⟩
  refine Keeps.bind (pump_quiet hq s rfl (some s.targetHwnd)) ?_
  rintro pumped ⟨hpumped, hpumpedChar⟩
  refine Keeps.bind (Keeps.observe (P := fun t => t.getD "" = slot) (fun w hw => hq.reads w hw)) ?_
  intro t ht
  apply Keeps.pure
  simp [mergeDirect, PumpResult.text, hresult, hchar, hpumped, hpumpedChar, ht]

theorem consumeDirect_quiet (s : WinImmSession) (hs : s.himc = himc) (uvirt : UInt32)
    (ks : KeyState) :
    Keeps calm (fun r => r = appendCommit s slot) (consumeDirect api ime s uvirt ks) := by
  refine Keeps.bind (dispatch_quiet hq s hs uvirt ks) ?_
  intro out hout
  rw [commitPumped, hout]
  exact harvest_quiet hq _ (by rw [appendCommit_himc, hs])

theorem offerKey_quiet (s : WinImmSession) (hs : s.himc = himc) (vk : UInt16) (isKeyup isAlt : Bool) :
    Keeps calm (fun r => r.2 = s) (offerKey api s vk isKeyup isAlt) := by
  have hharvest (accepted : Bool) : Keeps calm (fun r : Bool × WinImmSession => r.2 = s)
      (harvestThreadMessages api s >>= fun s => pure (accepted, s)) :=
    Keeps.bind (harvest_quiet hq s hs) (fun _ h => Keeps.pure h)
  refine Keeps.bind (hq.send _ _ _ _) (fun _ _ => ?_)
  refine Keeps.bind (Keeps.observe (P := fun _ => True) (fun _ _ => trivial)) (fun hkl _ => ?_)
  refine Keeps.bind (hq.immProcess _ _ _ _) (fun flags _ => ?_)
  refine Keeps.ite (fun _ => ?_) (fun _ => ?_)
  · exact Keeps.bind (hq.translate _ _ _ _) (fun _ _ => hharvest _)
  · exact hharvest _

/-- What a quiet key makes of a session: the result string that was left from
before is appended again when the key is taken directly or nothing is pending. -/
def replay (s : WinImmSession) (slot : String) (direct : Bool) : WinImmSession :=
  if direct = true ∨ s.pendingCommit = none then appendCommit s slot else s

theorem releaseKey_quiet (s : WinImmSession) (hs : s.himc = himc) (vk : UInt16) (isAlt : Bool) :
    Keeps calm (fun r => r = s) (releaseKey api s vk isAlt) :=
  Keeps.bind (hq.send _ _ _ _) (fun _ _ => harvest_quiet hq s hs)

theorem processVk_quiet (s : WinImmSession) (hs : s.himc = himc) (vk : UInt16) (modifiers : UInt32)
    (isKeyup : Bool) :
    Keeps calm (fun r => r.2 = replay s slot direct) (processVk api ime s vk modifiers isKeyup) := by
  subst hs
  refine Keeps.bind (hq.keyboard _) (fun _ _ => ?_)
  refine Keeps.bind (hq.unicode _ _ _) (fun unicode _ => ?_)
  refine Keeps.bind (offerKey_quiet hq s rfl vk isKeyup _) ?_
  rintro ⟨accepted, s⟩ rfl
  refine Keeps.bind (hq.process _ _ _) ?_
  rintro answer rfl
  have hdirect : Keeps calm (fun r => r = if answer = true then appendCommit s slot else s)
      (if answer = true then consumeDirect api ime s
          (if unicode.1 > 0 then vk.toUInt32 ||| (unicode.2.toUInt32 <<< 16) else vk.toUInt32)
          (keyStateOf modifiers)
        else pure s) := by
    refine Keeps.ite (fun h => ?_) (fun h => ?_)
    · simp only [h, if_true]
      exact consumeDirect_quiet hq s rfl _ _
    · exact Keeps.pure (by rw [if_neg h])
  refine Keeps.bind hdirect ?_
  intro s' hs'
  have hhimc : s'.himc = s.himc := by
    rw [hs']
    split
    · exact appendCommit_himc s slot
    · rfl
  have hkeyup : Keeps calm (fun r => r = s')
      (if isKeyup = true then pure s' else releaseKey api s' vk ((modifiers &&& 4) != 0)) :=
    Keeps.ite (fun _ => Keeps.pure rfl) (fun _ => releaseKey_quiet hq s' hhimc _ _)
  refine Keeps.bind hkeyup ?_
  rintro _ rfl
  refine Keeps.bind (Keeps.observe (P := fun t => t.getD "" = slot) (fun w hw => ?_)) ?_
  · rw [hhimc]
    exact hq.reads w hw
  · intro t ht
    apply Keeps.pure
    rw [finalResultCheck, ht, hs', replay]
    by_cases ha : answer = true
    · by_cases hslot : slot = ""
      · simp [hslot]
      · simp [ha, appendCommit_isNone, hslot]
    · simp [ha]

end

theorem replay_eq_iff (s : WinImmSession) (slot : String) (direct : Bool) :
    (replay s slot direct).pendingCommit = s.pendingCommit ↔
      slot = "" ∨ (direct = false ∧ s.pendingCommit ≠ none) := by
  rw [replay]
  by_cases hslot : slot = ""
  · simp [hslot]
  · by_cases h : direct = true ∨ s.pendingCommit = none
    · have hgrown : (appendCommit s slot).pendingCommit ≠ s.pendingCommit := by
        intro he
        have hl := congrArg (fun p => (p.getD "").length) he
        have hpos := Text.length_pos hslot
        simp only [appendCommit, hslot, if_false, Option.getD_some, String.length_append] at hl
        omega
      simp only [if_pos h, hgrown, hslot, false_or, false_iff, not_and, not_not]
      intro hd
      rcases h with h | h
      · rw [hd] at h
        cases h
      · exact h
    · rw [if_neg h]
      simp only [not_or, Bool.not_eq_true] at h
      simp [h.1, h.2]

end RimeWinime.QuietKey
