import Mathlib.Data.List.TakeDrop
import RimeWinime.Host.Backend
import RimeWinime.Lib.Drain
import RimeWinime.Lib.Text

namespace RimeWinime.ResultSlot

open World Win32 Session Adapter Utf16 Drain Text

inductive Stage
  | translate
  | asciiEx
  | keyup
deriving DecidableEq

def Stage.rank : Stage → Nat
  | .translate => 0
  | .asciiEx => 1
  | .keyup => 2

/-- What the IME does during one key: whether and where it writes a result
string, and which announcements it posts or lists at each stage. A stage that
is not reached is silent, and nothing is announced before it is written. -/
structure KeySchedule where
  isKeyup : Bool
  accepted : Bool
  direct : Bool
  result : List UInt16
  writeAt : Option Stage
  posts : Stage → List Msg
  transMsgs : List TransMsg
  result_nonempty : result ≠ []
  posts_announce : ∀ stage, ∀ m ∈ posts stage, announcesResult m.message m.lParam = true
  list_announces : ∀ m ∈ transMsgs, announcesResult m.message m.lParam = true
  list_fits : transMsgs.length ≤ MAX_TRANS_MSGS
  translate_reached : accepted = false → writeAt ≠ some .translate ∧ posts .translate = []
  asciiEx_reached : direct = false → writeAt ≠ some .asciiEx ∧ posts .asciiEx = [] ∧ transMsgs = []
  keyup_reached : isKeyup = true → writeAt ≠ some .keyup ∧ posts .keyup = []
  posts_causal : ∀ stage, posts stage ≠ [] → ∃ w, writeAt = some w ∧ w.rank ≤ stage.rank
  list_causal : transMsgs ≠ [] → ∃ w, writeAt = some w ∧ w.rank ≤ Stage.asciiEx.rank

/-- Beside the queue there is the result string of the input context. It stays
when it is read. -/
abbrev SlotWorld := Thread (List UInt16)

def slotAfter (k : KeySchedule) (stage : Stage) (slot : List UInt16) : List UInt16 :=
  if k.writeAt = some stage then k.result else slot

def perform (k : KeySchedule) (stage : Stage) (w : SlotWorld) : SlotWorld where
  queue := w.queue ++ k.posts stage
  rest := slotAfter k stage w.rest

def slotApi (k : KeySchedule) : Api SlotWorld :=
  { inertApi with
    peekMessage := peekQueue
    immProcessKey := fun _ _ _ _ => pure (if k.accepted then IPHK_PROCESSBYIME else 0)
    immTranslateMessage := fun _ _ _ _ => do
      change (perform k .translate)
      pure k.accepted
    sendMessage := fun _ message _ _ =>
      if k.isKeyup = false ∧ (message = WM_KEYUP ∨ message = WM_SYSKEYUP) then
        change (perform k .keyup)
      else pure ()
    immGetCompositionString := fun _ gcs w =>
      if gcs = .resultStr then ⟨2 * w.rest.length, 2 * w.rest.length, w.rest, []⟩
      else ⟨0, 0, [], []⟩ }

def slotIme (k : KeySchedule) : ImeFunctions SlotWorld :=
  { inertIme with
    processKey := fun _ _ _ _ => pure k.direct
    toAsciiEx := fun _ _ _ => do
      change (perform k .asciiEx)
      pure (UInt32.ofNat k.transMsgs.length, k.transMsgs) }

def slotText (w : SlotWorld) : String := fromUtf16Lossy w.rest

def Announcing (msgs : List Msg) : Prop := ∀ m ∈ msgs, announcesResult m.message m.lParam = true

theorem resultString_slot (k : KeySchedule) (himc : Himc) (w : SlotWorld) :
    (resultString (slotApi k) himc w).getD "" = slotText w := by
  unfold resultString ImmOps.getResultString slotText
  cases h : w.rest with
  | nil => simp [slotApi, h]; rfl
  | cons u us =>
      have hsize : (2 * ((us.length : Int) + 1)).toNat / 2 = us.length + 1 := by omega
      have hpos : ¬2 * ((us.length : Int) + 1) ≤ 0 := by omega
      have hcopied : 2 * ((us.length : Int) + 1) > 0 := by omega
      simp [slotApi, h, ImmOps.unitBuffer, hsize, hpos, hcopied, List.takeD_eq_take]

theorem pumpOne_announcement (k : KeySchedule) (himc : Himc) (out : PumpResult) (m : Msg)
    (hm : announcesResult m.message m.lParam = true) (w : SlotWorld) :
    pumpOne (slotApi k) himc out m w =
      { out with sawResultMessage := true, resultText := out.resultText ++ slotText w } := by
  simp only [pumpOne, hm, if_true, resultString_slot]

/-- A pump of announcements leaves what it drains out of the queue and hears the
result string once for each message it takes. -/
theorem pumpLoop_slot (k : KeySchedule) (himc : Himc) (filter : Option Hwnd) (n : Nat)
    (out : PumpResult) (q : List Msg) (slot : List UInt16) (hq : Announcing q) :
    (pumpLoop (slotApi k) himc filter n out ⟨q, slot⟩).2 = ⟨(drain (wants filter) n q).2, slot⟩ ∧
      (pumpLoop (slotApi k) himc filter n out ⟨q, slot⟩).1.resultText =
        out.resultText ++ copies (drain (wants filter) n q).1.length (fromUtf16Lossy slot) ∧
      (pumpLoop (slotApi k) himc filter n out ⟨q, slot⟩).1.charText = out.charText := by
  induction n generalizing out q with
  | zero => simp [pumpLoop, drain]
  | succ n ih =>
      cases h : q.find? (wants filter) with
      | none => simp [pumpLoop, slotApi, peekQueue, h, drain_stop h]
      | some m =>
          have hm := hq m (List.mem_of_find?_eq_some h)
          have hrest : Announcing (q.eraseP (wants filter)) :=
            fun a ha => hq a (List.mem_of_mem_eraseP ha)
          have hpeek : (slotApi k).peekMessage filter ⟨q, slot⟩ =
              (some m, ⟨q.eraseP (wants filter), slot⟩) := by
            simp [slotApi, peekQueue, h]
          have hone := pumpOne_announcement k himc out m hm ⟨q.eraseP (wants filter), slot⟩
          obtain ⟨hw, hr, hc⟩ := ih
            (pumpOne (slotApi k) himc out m ⟨q.eraseP (wants filter), slot⟩) _ hrest
          have hrun : pumpLoop (slotApi k) himc filter (n + 1) out ⟨q, slot⟩ =
              pumpLoop (slotApi k) himc filter n
                (pumpOne (slotApi k) himc out m ⟨q.eraseP (wants filter), slot⟩)
                ⟨q.eraseP (wants filter), slot⟩ := by
            rw [pumpLoop]
            simp only [bind_run, hpeek, observe_run]
            rfl
          rw [hrun, hw, hr, hc, drain_step h, hone]
          refine ⟨rfl, ?_, rfl⟩
          simp only [slotText, List.length_cons, copies, String.append_assoc]

theorem pumpMessages_slot (k : KeySchedule) (s : WinImmSession) (filter : Option Hwnd)
    (q : List Msg) (slot : List UInt16) (hq : Announcing q) :
    (pumpMessagesForHwnd (slotApi k) s filter ⟨q, slot⟩).2 =
        ⟨(drain (wants filter) MAX_PUMP_MESSAGES q).2, slot⟩ ∧
      (pumpMessagesForHwnd (slotApi k) s filter ⟨q, slot⟩).1.resultText =
        copies (drain (wants filter) MAX_PUMP_MESSAGES q).1.length (fromUtf16Lossy slot) ∧
      (pumpMessagesForHwnd (slotApi k) s filter ⟨q, slot⟩).1.charText = "" := by
  obtain ⟨hw, hr, hc⟩ := pumpLoop_slot k s.himc filter MAX_PUMP_MESSAGES {} q slot hq
  rw [String.empty_append] at hr
  exact ⟨hw, hr, hc⟩

theorem text_of_result {p : PumpResult} (h : p.charText = "") : p.text = p.resultText := by
  by_cases hr : p.resultText = "" <;> simp [PumpResult.text, hr, h]

theorem harvest_slot (k : KeySchedule) (s : WinImmSession) (q : List Msg) (slot : List UInt16)
    (hq : Announcing q) :
    harvestThreadMessages (slotApi k) s ⟨q, slot⟩ =
      (appendCommit s (copies (min MAX_PUMP_MESSAGES q.length) (fromUtf16Lossy slot)),
        ⟨q.drop MAX_PUMP_MESSAGES, slot⟩) := by
  obtain ⟨hw, hr, hc⟩ := pumpMessages_slot k s none q slot hq
  have hall : wants none = fun _ => true := rfl
  rw [hall, drain_all] at hw hr
  rw [List.length_take] at hr
  rw [harvestThreadMessages, pumpThreadMessages]
  simp only [bind_run, pure_run, commitPumped, text_of_result hc, hr, hw]

theorem transmsgLoop_slot (k : KeySchedule) (s : WinImmSession) (msgs : List TransMsg)
    (hm : ∀ m ∈ msgs, announcesResult m.message m.lParam = true) (out : PumpResult)
    (w : SlotWorld) :
    (transmsgLoop (slotApi k) s msgs out w).2 = w ∧
      (transmsgLoop (slotApi k) s msgs out w).1.resultText =
        (if msgs = [] ∨ out.resultText ≠ "" then out.resultText else slotText w) ∧
      (transmsgLoop (slotApi k) s msgs out w).1.charText = out.charText := by
  induction msgs generalizing out with
  | nil => simp [transmsgLoop]
  | cons m msgs ih =>
      have ha := hm m List.mem_cons_self
      have hmessage : m.message = WM_IME_COMPOSITION := by
        simp only [announcesResult, Bool.and_eq_true, beq_iff_eq] at ha
        exact ha.1
      have hchar : carriesChar m.message = false := by
        rw [hmessage]
        decide
      have hone : transmsgOne (slotApi k) s.himc out m w =
          { resultText := if out.resultText = "" then slotText w else out.resultText
            charText := out.charText
            sawResultMessage := true } := by
        simp only [transmsgOne, ha, hchar, resultString_slot, if_true, Bool.false_eq_true, if_false]
      have hsend : (slotApi k).sendMessage s.targetHwnd m.message m.wParam m.lParam w = ((), w) := by
        simp [slotApi, hmessage, WM_IME_COMPOSITION, WM_KEYUP, WM_SYSKEYUP]
      have hnonzero : m.message ≠ 0 := by
        rw [hmessage]
        decide
      have hrun : transmsgLoop (slotApi k) s (m :: msgs) out w =
          transmsgLoop (slotApi k) s msgs (transmsgOne (slotApi k) s.himc out m w) w := by
        rw [transmsgLoop, if_neg hnonzero]
        simp only [bind_run, observe_run, hsend]
      obtain ⟨hw, hr, hc⟩ := ih (fun a h => hm a (List.mem_cons_of_mem m h))
        (transmsgOne (slotApi k) s.himc out m w)
      rw [hrun, hw, hr, hc, hone]
      refine ⟨rfl, ?_, rfl⟩
      by_cases hr : out.resultText = "" <;> by_cases ht : slotText w = "" <;> simp [hr, ht]

theorem take_takeD {α : Type} (a : α) (l : List α) (n : Nat) (h : l.length ≤ n) :
    (l.takeD n a).take l.length = l := by
  induction l generalizing n with
  | nil => simp
  | cons b l ih =>
      cases n with
      | zero => simp at h
      | succ n => simp [ih n (Nat.le_of_succ_le_succ h)]

theorem reported_of_fits {msgs : List TransMsg} (h : msgs.length ≤ MAX_TRANS_MSGS) :
    reportedTransmsgs (UInt32.ofNat msgs.length, msgs) = msgs := by
  have hl : msgs.length ≤ 256 := h
  have hcount : (UInt32.ofNat msgs.length).toInt32.toInt.toNat = msgs.length := by
    rw [UInt32.toInt32_ofNat', Int32.toInt_ofNat_of_lt (by omega), Int.toNat_natCast]
  rw [reportedTransmsgs]
  simp only [hcount, Nat.min_eq_left h]
  exact take_takeD _ _ _ h

theorem reported_list (k : KeySchedule) :
    reportedTransmsgs (UInt32.ofNat k.transMsgs.length, k.transMsgs) = k.transMsgs :=
  reported_of_fits k.list_fits

/-- How often the direct path hears of the result string: once from the list,
else once per message of the window pump, else once from the last look. -/
def directCopies (k : KeySchedule) (target : Hwnd) (q : List Msg) : Nat :=
  if k.transMsgs = [] then max 1 (drain (wants (some target)) MAX_PUMP_MESSAGES q).1.length else 1

theorem perform_announcing (k : KeySchedule) (stage : Stage) {q : List Msg} (hq : Announcing q) :
    Announcing (q ++ k.posts stage) := by
  intro m hm
  rcases List.mem_append.mp hm with h | h
  · exact hq m h
  · exact k.posts_announce stage m h

theorem mergeDirect_text (out pumped : PumpResult) (slot : Option String) (t : String) (n : Nat)
    (hchars : out.charText = "" ∧ pumped.charText = "")
    (hpumped : pumped.resultText = copies n t) (hslot : slot.getD "" = t) :
    (out.resultText = "" → (mergeDirect out pumped slot).text = copies (max 1 n) t) ∧
      (out.resultText ≠ "" → (mergeDirect out pumped slot).text = out.resultText) := by
  constructor
  · intro hout
    by_cases ht : t = ""
    · simp [mergeDirect, PumpResult.text, hout, hpumped, hslot, ht, hchars]
    · cases n with
      | zero => simp [mergeDirect, PumpResult.text, hout, hpumped, hslot, ht]
      | succ n =>
          have hne : copies (n + 1) t ≠ "" := by simp [copies_eq_empty ht]
          simp [mergeDirect, PumpResult.text, hout, hpumped, hne]
  · intro hout
    simp [mergeDirect, PumpResult.text, hout]

theorem dispatch_slot (k : KeySchedule) (s : WinImmSession) (uvirt : UInt32) (ks : KeyState)
    (q : List Msg) (slot : List UInt16) (hq : Announcing q) :
    (dispatchImeTransmsgs (slotApi k) (slotIme k) s uvirt ks ⟨q, slot⟩).2 =
        ⟨(drain (wants (some s.targetHwnd)) MAX_PUMP_MESSAGES (q ++ k.posts .asciiEx)).2,
          slotAfter k .asciiEx slot⟩ ∧
      (dispatchImeTransmsgs (slotApi k) (slotIme k) s uvirt ks ⟨q, slot⟩).1.text =
        copies (directCopies k s.targetHwnd (q ++ k.posts .asciiEx))
          (fromUtf16Lossy (slotAfter k .asciiEx slot)) := by
  have hascii : (slotIme k).toAsciiEx uvirt ks s.himc ⟨q, slot⟩ =
      ((UInt32.ofNat k.transMsgs.length, k.transMsgs),
        ⟨q ++ k.posts .asciiEx, slotAfter k .asciiEx slot⟩) := rfl
  obtain ⟨hlist, hlisted, hlistChars⟩ := transmsgLoop_slot k s k.transMsgs k.list_announces {}
    ⟨q ++ k.posts .asciiEx, slotAfter k .asciiEx slot⟩
  obtain ⟨hpump, hpumped, hpumpChars⟩ := pumpMessages_slot k s (some s.targetHwnd)
    (q ++ k.posts .asciiEx) (slotAfter k .asciiEx slot) (perform_announcing k .asciiEx hq)
  rw [dispatchImeTransmsgs]
  simp only [bind_run, hascii, reported_list, hlist, pumpWindowMessages, hpump, observe_run,
    pure_run, true_and]
  obtain ⟨hfresh, hheard⟩ := mergeDirect_text _ _ _ _ _ ⟨hlistChars, hpumpChars⟩ hpumped
    (resultString_slot k s.himc ⟨_, slotAfter k .asciiEx slot⟩)
  rw [directCopies]
  by_cases hl : k.transMsgs = []
  · rw [if_pos hl]
    refine hfresh ?_
    rw [hlisted, if_pos (Or.inl hl)]
  · rw [if_neg hl, copies_one]
    have hslot := hlisted.trans (if_neg (by simp [hl]))
    rw [slotText] at hslot
    by_cases ht : fromUtf16Lossy (slotAfter k .asciiEx slot) = ""
    · rw [hfresh (hslot.trans ht), ht, copies_empty]
    · rw [hheard (by rw [hslot]; exact ht), hslot]

theorem offerKey_slot (k : KeySchedule) (s : WinImmSession) (vk : UInt16) (isAlt : Bool)
    (q : List Msg) (slot : List UInt16) (hq : Announcing q) :
    offerKey (slotApi k) s vk k.isKeyup isAlt ⟨q, slot⟩ =
      ((k.accepted, appendCommit s (copies (min MAX_PUMP_MESSAGES (q ++ k.posts .translate).length)
          (fromUtf16Lossy (slotAfter k .translate slot)))),
        ⟨(q ++ k.posts .translate).drop MAX_PUMP_MESSAGES, slotAfter k .translate slot⟩) := by
  have hsend : (slotApi k).sendMessage s.targetHwnd (keyMessage k.isKeyup isAlt) vk.toUInt64
      (VkMap.makeLKeyData (slotApi k).mapVirtualKey vk k.isKeyup isAlt).toUInt64 ⟨q, slot⟩ =
        ((), ⟨q, slot⟩) := by
    cases hk : k.isKeyup <;> cases isAlt <;>
      simp [slotApi, hk, keyMessage, WM_KEYUP, WM_SYSKEYUP, WM_KEYDOWN, WM_SYSKEYDOWN]
  have himm : (((if k.accepted = true then IPHK_PROCESSBYIME else 0) &&& IPHK_PROCESSBYIME) != 0) =
      k.accepted := by
    cases k.accepted <;> decide
  have hpump := harvest_slot k s (q ++ k.posts .translate) (slotAfter k .translate slot)
    (perform_announcing k .translate hq)
  have himmRun (hkl : UInt64) (lKeyData : UInt32) :
      (slotApi k).immProcessKey s.targetHwnd hkl vk.toUInt32 lKeyData ⟨q, slot⟩ =
        (if k.accepted = true then IPHK_PROCESSBYIME else 0, ⟨q, slot⟩) := rfl
  have htranslate (lKeyData : UInt32) :
      (slotApi k).immTranslateMessage s.targetHwnd (keyMessage k.isKeyup isAlt) vk.toUInt64
          lKeyData ⟨q, slot⟩ =
        (k.accepted, ⟨q ++ k.posts .translate, slotAfter k .translate slot⟩) := rfl
  rw [offerKey]
  simp only [bind_run, hsend, observe_run, himmRun, himm]
  cases ha : k.accepted with
  | true =>
      simp only [if_true, bind_run, htranslate, pure_run, hpump]
  | false =>
      obtain ⟨hwrite, hposts⟩ := k.translate_reached ha
      have hslot : slotAfter k .translate slot = slot := if_neg hwrite
      rw [hposts, List.append_nil, hslot] at hpump ⊢
      simp only [Bool.false_eq_true, if_false, bind_run, pure_run, hpump]

theorem consumeDirect_slot (k : KeySchedule) (s : WinImmSession) (uvirt : UInt32) (ks : KeyState)
    (q : List Msg) (slot : List UInt16) (hq : Announcing q) :
    consumeDirect (slotApi k) (slotIme k) s uvirt ks ⟨q, slot⟩ =
      (appendCommit s (copies (directCopies k s.targetHwnd (q ++ k.posts .asciiEx) +
          min MAX_PUMP_MESSAGES
            (drain (wants (some s.targetHwnd)) MAX_PUMP_MESSAGES (q ++ k.posts .asciiEx)).2.length)
          (fromUtf16Lossy (slotAfter k .asciiEx slot))),
        ⟨(drain (wants (some s.targetHwnd)) MAX_PUMP_MESSAGES (q ++ k.posts .asciiEx)).2.drop
          MAX_PUMP_MESSAGES, slotAfter k .asciiEx slot⟩) := by
  obtain ⟨hworld, htext⟩ := dispatch_slot k s uvirt ks q slot hq
  have hrest : Announcing
      (drain (wants (some s.targetHwnd)) MAX_PUMP_MESSAGES (q ++ k.posts .asciiEx)).2 :=
    fun m hm => perform_announcing k .asciiEx hq m (mem_drain hm)
  rw [consumeDirect]
  simp only [bind_run, hworld, commitPumped, htext]
  rw [harvest_slot k _ _ _ hrest, appendCommit_append, copies_add]

theorem releaseKey_slot (k : KeySchedule) (s : WinImmSession) (vk : UInt16) (isAlt : Bool)
    (q : List Msg) (slot : List UInt16) (hq : Announcing q) (hk : k.isKeyup = false) :
    releaseKey (slotApi k) s vk isAlt ⟨q, slot⟩ =
      (appendCommit s (copies (min MAX_PUMP_MESSAGES (q ++ k.posts .keyup).length)
          (fromUtf16Lossy (slotAfter k .keyup slot))),
        ⟨(q ++ k.posts .keyup).drop MAX_PUMP_MESSAGES, slotAfter k .keyup slot⟩) := by
  have hsend (lKeyData : UInt64) :
      (slotApi k).sendMessage s.targetHwnd (keyMessage true isAlt) vk.toUInt64 lKeyData ⟨q, slot⟩ =
        ((), ⟨q ++ k.posts .keyup, slotAfter k .keyup slot⟩) := by
    cases isAlt <;> simp [slotApi, hk, keyMessage, perform]
  rw [releaseKey]
  simp only [bind_run, hsend]
  exact harvest_slot k s _ _ (perform_announcing k .keyup hq)

end RimeWinime.ResultSlot
