import RimeWinime.Host.ResultSlot

namespace RimeWinime.CommitOnce

open World Win32 Session Adapter Utf16 Drain Text ResultSlot
open Backend (Hosted pendingOf onImeSession_live)

def afterTranslate (k : KeySchedule) (w : SlotWorld) : SlotWorld :=
  ⟨(w.queue ++ k.posts .translate).drop MAX_PUMP_MESSAGES, slotAfter k .translate w.rest⟩

def heardTranslate (k : KeySchedule) (w : SlotWorld) : String :=
  copies (min MAX_PUMP_MESSAGES (w.queue ++ k.posts .translate).length)
    (fromUtf16Lossy (slotAfter k .translate w.rest))

def leftByWindowPump (k : KeySchedule) (target : Hwnd) (w : SlotWorld) : List Msg :=
  (drain (wants (some target)) MAX_PUMP_MESSAGES (w.queue ++ k.posts .asciiEx)).2

def afterDirect (k : KeySchedule) (target : Hwnd) (w : SlotWorld) : SlotWorld :=
  if k.direct then ⟨(leftByWindowPump k target w).drop MAX_PUMP_MESSAGES, slotAfter k .asciiEx w.rest⟩
  else w

def heardDirect (k : KeySchedule) (target : Hwnd) (w : SlotWorld) : String :=
  if k.direct then
    copies (directCopies k target (w.queue ++ k.posts .asciiEx) +
        min MAX_PUMP_MESSAGES (leftByWindowPump k target w).length)
      (fromUtf16Lossy (slotAfter k .asciiEx w.rest))
  else ""

def afterKeyup (k : KeySchedule) (w : SlotWorld) : SlotWorld :=
  if k.isKeyup then w
  else ⟨(w.queue ++ k.posts .keyup).drop MAX_PUMP_MESSAGES, slotAfter k .keyup w.rest⟩

def heardKeyup (k : KeySchedule) (w : SlotWorld) : String :=
  if k.isKeyup then ""
  else copies (min MAX_PUMP_MESSAGES (w.queue ++ k.posts .keyup).length)
    (fromUtf16Lossy (slotAfter k .keyup w.rest))

def afterKey (k : KeySchedule) (target : Hwnd) (w : SlotWorld) : SlotWorld :=
  afterKeyup k (afterDirect k target (afterTranslate k w))

def heard (k : KeySchedule) (target : Hwnd) (w : SlotWorld) : String :=
  heardTranslate k w ++ heardDirect k target (afterTranslate k w) ++
    heardKeyup k (afterDirect k target (afterTranslate k w))

theorem processVk_slot (k : KeySchedule) (s : WinImmSession) (vk : UInt16) (modifiers : UInt32)
    (w : SlotWorld) (hw : Announcing w.queue) :
    ∃ slot : Option String, slot.getD "" = slotText (afterKey k s.targetHwnd w) ∧
      processVk (slotApi k) (slotIme k) s vk modifiers k.isKeyup w =
        ((k.accepted || k.direct, finalResultCheck (appendCommit s (heard k s.targetHwnd w)) slot),
          afterKey k s.targetHwnd w) := by
  obtain ⟨q, slot⟩ := w
  have hq : Announcing (afterTranslate k ⟨q, slot⟩).queue :=
    fun m hm => perform_announcing k .translate hw m (List.mem_of_mem_drop hm)
  have hq' : Announcing (afterDirect k s.targetHwnd (afterTranslate k ⟨q, slot⟩)).queue := by
    rw [afterDirect]
    split
    · intro m hm
      exact perform_announcing k .asciiEx hq m (mem_drain (List.mem_of_mem_drop hm))
    · exact hq
  refine ⟨resultString (slotApi k) s.himc (afterKey k s.targetHwnd ⟨q, slot⟩),
    resultString_slot k s.himc _, ?_⟩
  have hset (ks : KeyState) (w : SlotWorld) : (slotApi k).setKeyboardState ks w = ((), w) := rfl
  have hunicode (v scan : UInt32) (ks : KeyState) (w : SlotWorld) :
      (slotApi k).toUnicode v scan ks w = ((0, 0), w) := rfl
  have hprocess (v lKeyData : UInt32) (ks : KeyState) (w : SlotWorld) :
      (slotIme k).processKey s.himc v lKeyData ks w = (k.direct, w) := rfl
  have hdirect (s' : WinImmSession) (hs' : s'.targetHwnd = s.targetHwnd) (uvirt : UInt32)
      (ks : KeyState) :
      (if k.direct = true then consumeDirect (slotApi k) (slotIme k) s' uvirt ks else pure s')
          (afterTranslate k ⟨q, slot⟩) =
        (appendCommit s' (heardDirect k s.targetHwnd (afterTranslate k ⟨q, slot⟩)),
          afterDirect k s.targetHwnd (afterTranslate k ⟨q, slot⟩)) := by
    rw [ite_run, heardDirect, afterDirect]
    split
    · rw [consumeDirect_slot k s' uvirt ks _ _ hq, hs']
      rfl
    · rw [pure_run, appendCommit_empty]
  have hrelease (s' : WinImmSession) (isAlt : Bool) (w : SlotWorld) (hw : Announcing w.queue) :
      (if k.isKeyup = true then pure s' else releaseKey (slotApi k) s' vk isAlt) w =
        (appendCommit s' (heardKeyup k w), afterKeyup k w) := by
    rw [ite_run, heardKeyup, afterKeyup]
    split
    · rw [pure_run, appendCommit_empty]
    · next hk => exact releaseKey_slot k s' vk isAlt w.queue w.rest hw (by simpa using hk)
  have hoffer (isAlt : Bool) : offerKey (slotApi k) s vk k.isKeyup isAlt ⟨q, slot⟩ =
      ((k.accepted, appendCommit s (heardTranslate k ⟨q, slot⟩)), afterTranslate k ⟨q, slot⟩) :=
    offerKey_slot k s vk isAlt q slot hw
  rw [processVk]
  simp only [bind_run, hset, hunicode, hoffer, appendCommit_himc, hprocess,
    hdirect _ (appendCommit_targetHwnd _ _), hrelease _ _ _ hq', observe_run, pure_run,
    appendCommit_append]
  rfl

/-- The text the IME finalises in the key, empty when it finalises nothing. -/
def finalText (k : KeySchedule) : String :=
  if k.writeAt = none then "" else fromUtf16Lossy k.result

def SeenDirectly (k : KeySchedule) : Prop :=
  k.direct = true ∧ (k.writeAt = some .translate ∨ k.writeAt = some .asciiEx)

/-- The direct path hears of the result once: nothing is announced outside
`ImeToAsciiEx`, and what is posted there is for the window pump alone. -/
def HeardOnceDirectly (k : KeySchedule) (target : Hwnd) : Prop :=
  k.posts .translate = [] ∧ k.posts .keyup = [] ∧
    (∀ m ∈ k.posts .asciiEx, m.hwnd = target) ∧
    (k.posts .asciiEx).length ≤ if k.transMsgs = [] then 1 else MAX_PUMP_MESSAGES

/-- Without the direct path the thread pumps hear of the result once, or the
last look finds it because nothing is pending. -/
def HeardOncePumped (k : KeySchedule) (pending : Option String) : Prop :=
  (k.posts .translate).length + (k.posts .keyup).length = 1 ∨
    (k.posts .translate).length + (k.posts .keyup).length = 0 ∧ pending = none

/-- The schedules for which one key delivers its result once. -/
def DeliversOnce (k : KeySchedule) (s : WinImmSession) : Prop :=
  k.writeAt = none ∨
    (SeenDirectly k ∧ HeardOnceDirectly k s.targetHwnd) ∨
    (¬SeenDirectly k ∧ HeardOncePumped k s.pendingCommit)

instance (k : KeySchedule) : Decidable (SeenDirectly k) := inferInstanceAs (Decidable (_ ∧ _))

instance (k : KeySchedule) (target : Hwnd) : Decidable (HeardOnceDirectly k target) :=
  inferInstanceAs (Decidable (_ ∧ _))

instance (k : KeySchedule) (pending : Option String) : Decidable (HeardOncePumped k pending) :=
  inferInstanceAs (Decidable (_ ∨ _))

instance (k : KeySchedule) (s : WinImmSession) : Decidable (DeliversOnce k s) :=
  inferInstanceAs (Decidable (_ ∨ _))

theorem posts_eq_nil_of_none {k : KeySchedule} (h : k.writeAt = none) (stage : Stage) :
    k.posts stage = [] := by
  by_contra hne
  obtain ⟨w, hw, -⟩ := k.posts_causal stage hne
  rw [h] at hw
  cases hw

theorem transMsgs_eq_nil_of_none {k : KeySchedule} (h : k.writeAt = none) : k.transMsgs = [] := by
  by_contra hne
  obtain ⟨w, hw, -⟩ := k.list_causal hne
  rw [h] at hw
  cases hw

theorem result_text_ne (k : KeySchedule) : fromUtf16Lossy k.result ≠ "" := by
  intro h
  exact k.result_nonempty ((fromUtf16Lossy_eq_empty k.result).mp h)

theorem posts_keyup_eq_nil {k : KeySchedule} :
    (k.isKeyup = true ∨ min MAX_PUMP_MESSAGES (k.posts .keyup).length = 0) ↔ k.posts .keyup = [] := by
  constructor
  · rintro (hk | hm)
    · exact (k.keyup_reached hk).2
    · apply List.eq_nil_of_length_eq_zero
      rw [MAX_PUMP_MESSAGES] at hm
      omega
  · intro h
    exact Or.inr (by rw [h]; rfl)

@[simp] theorem slotAfter_result (k : KeySchedule) (stage : Stage) :
    slotAfter k stage k.result = k.result := by
  rw [slotAfter]
  split <;> rfl

theorem slot_seen_directly {k : KeySchedule} (h : SeenDirectly k) (slot : List UInt16) :
    slotAfter k .asciiEx (slotAfter k .translate slot) = k.result := by
  rcases h.2 with hw | hw <;> simp [slotAfter, hw]

theorem heardTranslate_start (k : KeySchedule) (slot : List UInt16) :
    heardTranslate k ⟨[], slot⟩ =
      copies (min MAX_PUMP_MESSAGES (k.posts .translate).length) (fromUtf16Lossy k.result) := by
  rw [heardTranslate, List.nil_append]
  by_cases h : k.posts .translate = []
  · rw [h]
    rfl
  · obtain ⟨stage, hw, hrank⟩ := k.posts_causal .translate h
    have hstage : stage = .translate := by
      cases stage
      · rfl
      · exact absurd hrank (by decide)
      · exact absurd hrank (by decide)
    rw [slotAfter, if_pos (by rw [hw, hstage])]

def foundDirectly (k : KeySchedule) : List Msg :=
  (k.posts .translate).drop MAX_PUMP_MESSAGES ++ k.posts .asciiEx

def leftDirectly (k : KeySchedule) (target : Hwnd) : List Msg :=
  (drain (wants (some target)) MAX_PUMP_MESSAGES (foundDirectly k)).2

def directCount (k : KeySchedule) (target : Hwnd) : Nat :=
  min MAX_PUMP_MESSAGES (k.posts .translate).length +
    (directCopies k target (foundDirectly k) + min MAX_PUMP_MESSAGES (leftDirectly k target).length) +
    if k.isKeyup then 0
    else min MAX_PUMP_MESSAGES
      ((leftDirectly k target).drop MAX_PUMP_MESSAGES ++ k.posts .keyup).length

theorem heard_direct {k : KeySchedule} (h : SeenDirectly k) (target : Hwnd) (slot : List UInt16) :
    heard k target ⟨[], slot⟩ = copies (directCount k target) (fromUtf16Lossy k.result) := by
  have hslot := slot_seen_directly h slot
  have hheard : heardDirect k target (afterTranslate k ⟨[], slot⟩) =
      copies (directCopies k target (foundDirectly k) +
        min MAX_PUMP_MESSAGES (leftDirectly k target).length) (fromUtf16Lossy k.result) := by
    rw [heardDirect, if_pos h.1]
    simp only [afterTranslate, List.nil_append, hslot]
    rfl
  have hafter : afterDirect k target (afterTranslate k ⟨[], slot⟩) =
      ⟨(leftDirectly k target).drop MAX_PUMP_MESSAGES, k.result⟩ := by
    rw [afterDirect, if_pos h.1]
    simp only [afterTranslate, List.nil_append, hslot]
    rfl
  have hlast : heardKeyup k ⟨(leftDirectly k target).drop MAX_PUMP_MESSAGES, k.result⟩ =
      copies (if k.isKeyup then 0 else min MAX_PUMP_MESSAGES
        ((leftDirectly k target).drop MAX_PUMP_MESSAGES ++ k.posts .keyup).length)
        (fromUtf16Lossy k.result) := by
    rw [heardKeyup, slotAfter_result]
    split <;> rfl
  rw [heard, heardTranslate_start, hheard, hafter, hlast, copies_add, copies_add, directCount]

theorem directCopies_pos (k : KeySchedule) (target : Hwnd) (q : List Msg) :
    1 ≤ directCopies k target q := by
  rw [directCopies]
  split
  · exact Nat.le_max_left _ _
  · exact Nat.le_refl 1

/-- When the window pump takes the whole queue, the direct path hears of the
result once unless it pumped more than one message and had no list. -/
theorem directCopies_eq_one (k : KeySchedule) (target : Hwnd) (q : List Msg)
    (hall : ∀ m ∈ q, m.hwnd = target) (hfits : q.length ≤ MAX_PUMP_MESSAGES) :
    directCopies k target q = 1 ↔ q.length ≤ if k.transMsgs = [] then 1 else MAX_PUMP_MESSAGES := by
  have hwanted : q.filter (wants (some target)) = q := by
    apply List.filter_eq_self.mpr
    intro m hm
    rw [wants, beq_iff_eq]
    exact hall m hm
  rw [directCopies, drain_fst, hwanted, List.take_of_length_le hfits]
  split
  · omega
  · simp [hfits]

theorem leftDirectly_eq_nil {k : KeySchedule} {target : Hwnd} (h : k.posts .translate = []) :
    leftDirectly k target = [] ↔
      (∀ m ∈ k.posts .asciiEx, m.hwnd = target) ∧ (k.posts .asciiEx).length ≤ MAX_PUMP_MESSAGES := by
  rw [leftDirectly, foundDirectly, h, List.drop_nil, List.nil_append, drain_snd_eq_nil]
  simp [wants]

theorem directCount_eq_one (k : KeySchedule) (target : Hwnd) :
    directCount k target = 1 ↔ HeardOnceDirectly k target := by
  have hpos := directCopies_pos k target (foundDirectly k)
  constructor
  · intro h
    rw [directCount] at h
    have htranslate : k.posts .translate = [] := by
      apply List.eq_nil_of_length_eq_zero
      rw [MAX_PUMP_MESSAGES] at h
      omega
    have hleft : leftDirectly k target = [] := by
      apply List.eq_nil_of_length_eq_zero
      rw [MAX_PUMP_MESSAGES] at h
      omega
    have hkeyup : k.posts .keyup = [] := by
      apply posts_keyup_eq_nil.mp
      by_cases hk : k.isKeyup = true
      · exact Or.inl hk
      · rw [hleft, if_neg hk] at h
        simp only [List.drop_nil, List.nil_append] at h
        exact Or.inr (by omega)
    obtain ⟨hall, hfits⟩ := (leftDirectly_eq_nil htranslate).mp hleft
    have hfound : foundDirectly k = k.posts .asciiEx := by
      rw [foundDirectly, htranslate, List.drop_nil, List.nil_append]
    have hone : directCopies k target (k.posts .asciiEx) = 1 := by
      rw [← hfound]
      omega
    exact ⟨htranslate, hkeyup, hall, (directCopies_eq_one k target _ hall hfits).mp hone⟩
  · rintro ⟨htranslate, hkeyup, hall, hlen⟩
    have hfits : (k.posts .asciiEx).length ≤ MAX_PUMP_MESSAGES := by
      refine Nat.le_trans hlen ?_
      split <;> decide
    have hleft := (leftDirectly_eq_nil htranslate).mpr ⟨hall, hfits⟩
    have hone := (directCopies_eq_one k target _ hall hfits).mpr hlen
    rw [directCount, hleft, foundDirectly, htranslate, hkeyup, List.drop_nil, List.nil_append, hone]
    simp

theorem writeAt_cases {k : KeySchedule} (h : ¬SeenDirectly k) (hw : k.writeAt ≠ none) :
    (k.direct = false ∧ k.writeAt = some .translate) ∨ k.writeAt = some .keyup := by
  cases hstage : k.writeAt with
  | none => exact absurd hstage hw
  | some stage =>
      cases stage with
      | translate =>
          refine Or.inl ⟨?_, rfl⟩
          by_contra hd
          exact h ⟨by simpa using hd, Or.inl hstage⟩
      | asciiEx =>
          exfalso
          cases hd : k.direct with
          | false => exact (k.asciiEx_reached hd).1 hstage
          | true => exact h ⟨hd, Or.inr hstage⟩
      | keyup => exact Or.inr rfl

theorem posts_before_write {k : KeySchedule} (stage : Stage) {w : Stage} (hw : k.writeAt = some w)
    (hrank : stage.rank < w.rank) : k.posts stage = [] := by
  by_contra hne
  obtain ⟨w', hw', hle⟩ := k.posts_causal stage hne
  rw [hw, Option.some.injEq] at hw'
  subst hw'
  omega

theorem direct_silent {k : KeySchedule} (h : ¬SeenDirectly k) (hw : k.writeAt ≠ none)
    (target : Hwnd) {slot : List UInt16} (hstale : k.direct = true → slot = []) :
    heardDirect k target (afterTranslate k ⟨[], slot⟩) = "" ∧
      afterDirect k target (afterTranslate k ⟨[], slot⟩) = afterTranslate k ⟨[], slot⟩ := by
  rw [heardDirect, afterDirect]
  rcases writeAt_cases h hw with ⟨hd, -⟩ | hkey
  · simp [hd]
  · have htranslate := posts_before_write .translate hkey (by decide)
    have hasciiEx := posts_before_write .asciiEx hkey (by decide)
    have hleft : leftByWindowPump k target (afterTranslate k ⟨[], slot⟩) = [] := by
      rw [leftByWindowPump, afterTranslate, hasciiEx, htranslate]
      exact congrArg Prod.snd (drain_stop rfl _)
    have hempty : fromUtf16Lossy [] = "" := (fromUtf16Lossy_eq_empty []).mpr rfl
    rw [hleft]
    cases hd : k.direct with
    | false => simp
    | true => simp [afterTranslate, slotAfter, hkey, htranslate, hstale hd, hempty]

def pumpedCount (k : KeySchedule) : Nat :=
  min MAX_PUMP_MESSAGES (k.posts .translate).length +
    if k.isKeyup then 0
    else min MAX_PUMP_MESSAGES
      ((k.posts .translate).drop MAX_PUMP_MESSAGES ++ k.posts .keyup).length

theorem heard_pumped {k : KeySchedule} (h : ¬SeenDirectly k) (hw : k.writeAt ≠ none)
    (target : Hwnd) {slot : List UInt16} (hstale : k.direct = true → slot = []) :
    heard k target ⟨[], slot⟩ = copies (pumpedCount k) (fromUtf16Lossy k.result) := by
  obtain ⟨hsilent, hstay⟩ := direct_silent h hw target hstale
  have hlast : heardKeyup k (afterTranslate k ⟨[], slot⟩) =
      copies (if k.isKeyup then 0 else min MAX_PUMP_MESSAGES
        ((k.posts .translate).drop MAX_PUMP_MESSAGES ++ k.posts .keyup).length)
        (fromUtf16Lossy k.result) := by
    have hslot : slotAfter k .keyup (slotAfter k .translate slot) = k.result := by
      rcases writeAt_cases h hw with ⟨-, hstage⟩ | hstage <;> simp [slotAfter, hstage]
    rw [heardKeyup, afterTranslate, hslot]
    split <;> rfl
  rw [heard, heardTranslate_start, hsilent, hstay, hlast, String.append_empty, copies_add,
    pumpedCount]

theorem pumpedCount_eq {k : KeySchedule} {n : Nat} (hn : n ≤ 1) :
    pumpedCount k = n ↔ (k.posts .translate).length + (k.posts .keyup).length = n := by
  rw [pumpedCount]
  cases hk : k.isKeyup with
  | true =>
      have hkeyup := (k.keyup_reached hk).2
      simp only [if_true, hkeyup, List.length_nil, MAX_PUMP_MESSAGES]
      omega
  | false =>
      simp only [Bool.false_eq_true, if_false, List.length_append, List.length_drop,
        MAX_PUMP_MESSAGES]
      omega

theorem finalResultCheck_copies (s : WinImmSession) {t : String} (ht : t ≠ "") (n : Nat)
    {slot : Option String} (hslot : slot.getD "" = t) :
    pendingText (finalResultCheck (appendCommit s (copies n t)) slot) = pendingText s ++ t ↔
      n = 1 ∨ n = 0 ∧ s.pendingCommit = none := by
  rw [finalResultCheck, hslot]
  split
  · next h =>
      obtain ⟨hnone, hcopies⟩ := (appendCommit_isNone s _).mp h
      have hn := (copies_eq_empty ht).mp hcopies
      subst hn
      simp [hnone]
  · next h =>
      rw [pendingText_appendCommit, String.append_right_inj, copies_eq_self ht]
      refine ⟨Or.inl, ?_⟩
      rintro (hn | ⟨rfl, hnone⟩)
      · exact hn
      · exact absurd ((appendCommit_isNone s _).mpr ⟨hnone, rfl⟩) h

theorem slot_afterKey {k : KeySchedule} (hw : k.writeAt ≠ none) (target : Hwnd)
    {slot : List UInt16} (hstale : ¬SeenDirectly k → k.direct = true → slot = []) :
    (afterKey k target ⟨[], slot⟩).rest = k.result := by
  rw [afterKey, afterKeyup]
  by_cases h : SeenDirectly k
  · have hrest : (afterDirect k target (afterTranslate k ⟨[], slot⟩)).rest = k.result := by
      rw [afterDirect, if_pos h.1]
      exact slot_seen_directly h slot
    split <;> simp [hrest]
  · rw [(direct_silent h hw target (hstale h)).2, afterTranslate]
    rcases writeAt_cases h hw with ⟨-, hstage⟩ | hstage
    · split <;> simp [slotAfter, hstage]
    · have hk : k.isKeyup ≠ true := fun hk => (k.keyup_reached hk).1 hstage
      simp [slotAfter, hstage, hk]

theorem queue_afterKey {k : KeySchedule} {s : WinImmSession} (hw : k.writeAt ≠ none)
    {slot : List UInt16} (hstale : ¬SeenDirectly k → k.direct = true → slot = [])
    (honce : DeliversOnce k s) : (afterKey k s.targetHwnd ⟨[], slot⟩).queue = [] := by
  rcases (or_iff_right hw).mp honce with ⟨h, htranslate, hkeyup, hall, hlen⟩ | ⟨h, honce⟩
  · have hfits : (k.posts .asciiEx).length ≤ MAX_PUMP_MESSAGES := by
      refine Nat.le_trans hlen ?_
      split <;> decide
    have hleft : leftDirectly k s.targetHwnd = [] := (leftDirectly_eq_nil htranslate).mpr ⟨hall, hfits⟩
    have hqueue : (afterDirect k s.targetHwnd (afterTranslate k ⟨[], slot⟩)).queue = [] := by
      rw [afterDirect, if_pos h.1]
      exact congrArg (List.drop MAX_PUMP_MESSAGES) hleft
    rw [afterKey, afterKeyup]
    split
    · exact hqueue
    · rw [hqueue, hkeyup]
      rfl
  · rw [afterKey, (direct_silent h hw _ (hstale h)).2, afterKeyup]
    have hfew : (k.posts .translate).length + (k.posts .keyup).length ≤ 1 := by
      rcases honce with h | ⟨h, -⟩ <;> omega
    split
    · apply List.drop_eq_nil_of_le
      rw [List.nil_append, MAX_PUMP_MESSAGES]
      omega
    · apply List.drop_eq_nil_of_le
      simp only [afterTranslate, List.nil_append, List.length_append, List.length_drop,
        MAX_PUMP_MESSAGES]
      omega

theorem silent_key {k : KeySchedule} (h : k.writeAt = none) (target : Hwnd) :
    heard k target ⟨[], []⟩ = "" ∧ slotText (afterKey k target ⟨[], []⟩) = "" := by
  have hempty : fromUtf16Lossy [] = "" := (fromUtf16Lossy_eq_empty []).mpr rfl
  have hslot (stage : Stage) (slot : List UInt16) : slotAfter k stage slot = slot := by
    simp [slotAfter, h]
  constructor
  · simp only [heard, heardTranslate, heardDirect, heardKeyup, afterTranslate, afterDirect, hslot]
    split <;> split <;> simp [hempty]
  · simp only [slotText, afterKey, afterKeyup, afterTranslate, afterDirect, hslot]
    split <;> split <;> simp [hempty]

/-- A key that finalises a result, from an empty queue. A result string left
from before does not matter unless the direct path reads it. -/
theorem processVk_result (k : KeySchedule) (s : WinImmSession) (vk : UInt16) (modifiers : UInt32)
    {slot : List UInt16} (hw : k.writeAt ≠ none)
    (hstale : ¬SeenDirectly k → k.direct = true → slot = []) :
    pendingText (processVk (slotApi k) (slotIme k) s vk modifiers k.isKeyup ⟨[], slot⟩).1.2 =
        pendingText s ++ fromUtf16Lossy k.result ↔ DeliversOnce k s := by
  obtain ⟨last, hlast, hrun⟩ := processVk_slot k s vk modifiers ⟨[], slot⟩ (fun _ h => nomatch h)
  have hresult := result_text_ne k
  rw [hrun, DeliversOnce, or_iff_right hw]
  rw [slotText, slot_afterKey hw _ hstale] at hlast
  by_cases h : SeenDirectly k
  · rw [heard_direct h, finalResultCheck_copies s hresult _ hlast, directCount_eq_one]
    have hpos := directCopies_pos k s.targetHwnd (foundDirectly k)
    simp only [h, true_and, not_true, false_and, or_false]
    refine or_iff_left ?_
    rintro ⟨hzero, -⟩
    rw [directCount] at hzero
    omega
  · rw [heard_pumped h hw _ (hstale h), finalResultCheck_copies s hresult _ hlast,
      pumpedCount_eq (Nat.le_refl 1), pumpedCount_eq (Nat.zero_le 1)]
    simp only [h, false_and, not_false_iff, true_and, false_or]
    rfl

theorem processVk_commit (k : KeySchedule) (s : WinImmSession) (vk : UInt16) (modifiers : UInt32) :
    pendingText (processVk (slotApi k) (slotIme k) s vk modifiers k.isKeyup ⟨[], []⟩).1.2 =
        pendingText s ++ finalText k ↔ DeliversOnce k s := by
  by_cases hw : k.writeAt = none
  · obtain ⟨last, hlast, hrun⟩ := processVk_slot k s vk modifiers ⟨[], []⟩ (fun _ h => nomatch h)
    obtain ⟨hheard, hslot⟩ := silent_key hw s.targetHwnd
    rw [hslot] at hlast
    simp [hrun, hheard, hlast, finalResultCheck, finalText, hw, DeliversOnce]
  · rw [finalText, if_neg hw]
    exact processVk_result k s vk modifiers hw (fun _ _ => rfl)

/-- A live session gets the result of a key exactly once for the schedules of
`DeliversOnce` and for no others. -/
theorem process_vk_commits_once_iff (k : KeySchedule) (id : Nat) (s : WinImmSession)
    (h : Hosted SlotWorld) (vk : UInt16) (modifiers : UInt32)
    (hime : h.1.imeFunctions = some (slotIme k)) (hs : h.1.sessions.lookup id = some s)
    (hworld : h.2 = ⟨[], []⟩) :
    pendingOf (Backend.processVk (slotApi k) id vk modifiers k.isKeyup h).2 id =
        pendingOf h id ++ finalText k ↔ DeliversOnce k s := by
  rw [Backend.processVk, onImeSession_live hime hs, hworld, ← processVk_commit k s vk modifiers]
  simp [pendingOf, hs]

def announcement : Msg := ⟨7, WM_IME_COMPOSITION, 0, GCS_RESULTSTR.toUInt64⟩

def translatedKey (posts : List Msg) (h : ∀ m ∈ posts, announcesResult m.message m.lParam = true) :
    KeySchedule where
  isKeyup := false
  accepted := true
  direct := false
  result := [0x4F60]
  writeAt := some .translate
  posts stage := if stage = .translate then posts else []
  transMsgs := []
  result_nonempty := by decide
  posts_announce stage m hm := by
    split at hm
    · exact h m hm
    · cases hm
  list_announces _ hm := nomatch hm
  list_fits := by decide
  translate_reached h := nomatch h
  asciiEx_reached _ := ⟨by decide, rfl, rfl⟩
  keyup_reached h := nomatch h
  posts_causal stage _ := ⟨.translate, rfl, by cases stage <;> decide⟩
  list_causal h := absurd rfl h

def announcedTwice : KeySchedule := translatedKey [announcement, announcement] (by decide)

def announcedOnce : KeySchedule := translatedKey [announcement] (by decide)

def unannounced : KeySchedule := translatedKey [] (by decide)

def oneSession (k : KeySchedule) (pending : Option String) : Hosted SlotWorld :=
  (⟨some (slotIme k), (∅ : AList _).insert 1 ⟨1, 7, 7, 3, 0, pending⟩, false⟩, ⟨[], []⟩)

theorem announced_once_commits :
    pendingOf (Backend.processVk (slotApi announcedOnce) 1 0x20 0 false
        (oneSession announcedOnce (some "a"))).2 1 = "a" ++ "你" :=
  (process_vk_commits_once_iff announcedOnce 1 ⟨1, 7, 7, 3, 0, some "a"⟩
    (oneSession announcedOnce (some "a")) 0x20 0 rfl (by decide) rfl).mpr (by decide)

/-- Two announcements of one result double it, and an unannounced one is lost
when something is pending. -/
theorem commit_once_fails :
    pendingOf (Backend.processVk (slotApi announcedTwice) 1 0x20 0 false
        (oneSession announcedTwice none)).2 1 = "你你" ∧
      finalText announcedTwice = "你" ∧
      pendingOf (Backend.processVk (slotApi unannounced) 1 0x20 0 false
        (oneSession unannounced (some "a"))).2 1 = "a" ∧
      finalText unannounced = "你" := by
  decide

end RimeWinime.CommitOnce
