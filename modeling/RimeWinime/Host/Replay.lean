import RimeWinime.Host.CommitOnce
import RimeWinime.Host.QuietKey
import RimeWinime.Lib.Run

namespace RimeWinime.Replay

open World Win32 Proto Session Adapter Utf16 Text Run ResultSlot CommitOnce QuietKey

def calmAt (slot : List UInt16) (w : SlotWorld) : Prop :=
  w.rest = slot ∧ ∀ m ∈ w.queue, silent m.message m.lParam

/-- A key for which the IME writes no result string and announces nothing. What
it does beside that is its own affair. -/
structure QuietPress where
  key : KeyEvent
  api : Api SlotWorld
  ime : ImeFunctions SlotWorld
  direct : Bool
  quiet : ∀ himc slot, Quiet api ime himc (calmAt slot) (fromUtf16Lossy slot) direct

structure ResultPress where
  key : KeyEvent
  schedule : KeySchedule
  written : schedule.writeAt ≠ none
  offered : refusedUpFront key = false
  keyup : schedule.isKeyup = ((key.modifier &&& RELEASE_MASK) != 0)

inductive Event
  | quiet (p : QuietPress)
  | result (p : ResultPress)
  | getCommit
  | forget

structure RunState where
  session : WinImmSession
  world : SlotWorld
  delivered : String

theorem nil_announces : ∀ m ∈ ([] : List TransMsg), announcesResult m.message m.lParam = true := by
  intro m hm
  cases hm

def silence : KeySchedule where
  isKeyup := false
  accepted := false
  direct := false
  result := [0x20]
  writeAt := none
  posts _ := []
  transMsgs := []
  result_nonempty := by decide
  posts_announce _ _ hm := nomatch hm
  list_announces := nil_announces
  list_fits := Nat.zero_le MAX_TRANS_MSGS
  translate_reached _ := ⟨by decide, rfl⟩
  asciiEx_reached _ := ⟨by decide, rfl, rfl⟩
  keyup_reached h := nomatch h
  posts_causal _ h := absurd rfl h
  list_causal h := absurd rfl h

def step (st : RunState) : Event → RunState
  | .quiet p =>
      let r := processKey p.api p.ime st.session p.key st.world
      ⟨r.1.2, r.2, st.delivered⟩
  | .result p =>
      let r := processKey (slotApi p.schedule) (slotIme p.schedule) st.session p.key st.world
      ⟨r.1.2, r.2, st.delivered⟩
  | .getCommit =>
      let r := Adapter.getCommit (slotApi silence) st.session st.world
      ⟨r.1.2, r.2, st.delivered ++ r.1.1.getD ""⟩
  | .forget => ⟨st.session, ⟨st.world.queue, []⟩, st.delivered⟩

def resultOf : Event → String
  | .result p => fromUtf16Lossy p.schedule.result
  | _ => ""

/-- A quiet key leaves the pending commit alone when the adapter refuses it, when
there is no old result string, or when it is not taken directly and something
is pending already. -/
def LeavesPending (p : QuietPress) (st : RunState) : Prop :=
  refusedUpFront p.key = true ∨ st.world.rest = [] ∨
    (p.direct = false ∧ st.session.pendingCommit ≠ none)

/-- A key with a result finds no message waiting, is heard once, and no old
result string is read directly before the new one is written. -/
def ResultHeardOnce (p : ResultPress) (st : RunState) : Prop :=
  st.world.queue = [] ∧ DeliversOnce p.schedule st.session ∧
    (¬SeenDirectly p.schedule → p.schedule.direct = true → st.world.rest = [])

def Safe (st : RunState) : Event → Prop
  | .quiet p => LeavesPending p st
  | .result p => ResultHeardOnce p st
  | .getCommit => True
  | .forget => True

theorem quiet_of_unwritten {k : KeySchedule} (h : k.writeAt = none) (himc : Himc)
    (slot : List UInt16) :
    Quiet (slotApi k) (slotIme k) himc (calmAt slot) (fromUtf16Lossy slot) k.direct := by
  have hperform (stage : Stage) (w : SlotWorld) : perform k stage w = w := by
    simp [perform, slotAfter, h, posts_eq_nil_of_none h]
  constructor
  case peek =>
    rintro filter w ⟨hslot, hw⟩
    cases hfind : w.queue.find? (wants filter) with
    | none => simpa [slotApi, peekQueue, hfind] using ⟨hslot, hw⟩
    | some m =>
        have hm := hw m (List.mem_of_find?_eq_some hfind)
        have hrest : ∀ a ∈ w.queue.eraseP (wants filter), silent a.message a.lParam :=
          fun a ha => hw a (List.mem_of_mem_eraseP ha)
        simpa [slotApi, peekQueue, hfind, calmAt] using ⟨hm, hslot, hrest⟩
  case send =>
    intro hwnd message wParam lParam w hw
    refine ⟨trivial, ?_⟩
    simp only [slotApi, ite_run, change_run, hperform, pure_run, ite_self]
    exact hw
  case translate =>
    intro hwnd message wParam lKeyData w hw
    have hleft : ((slotApi k).immTranslateMessage hwnd message wParam lKeyData w).2 = w :=
      hperform .translate w
    rw [hleft]
    exact ⟨trivial, hw⟩
  case toAsciiEx =>
    intro uvirt keyState w hw
    have hleft : ((slotIme k).toAsciiEx uvirt keyState himc w).2 = w := hperform .asciiEx w
    rw [hleft]
    refine ⟨?_, hw⟩
    intro m hm
    have hlist : reportedTransmsgs (UInt32.ofNat k.transMsgs.length, k.transMsgs) = [] :=
      (reported_list k).trans (transMsgs_eq_nil_of_none h)
    have hm' : m ∈ reportedTransmsgs (UInt32.ofNat k.transMsgs.length, k.transMsgs) := hm
    rw [hlist] at hm'
    cases hm'
  case reads =>
    rintro w ⟨rfl, -⟩
    exact resultString_slot k himc w
  case process =>
    intro vk lKeyData keyState w hw
    exact ⟨rfl, hw⟩
  all_goals
    intros
    intro w hw
    exact ⟨trivial, hw⟩

theorem step_quiet (p : QuietPress) {st : RunState}
    (hcalm : ∀ m ∈ st.world.queue, silent m.message m.lParam) :
    (step st (.quiet p)).session =
        (if refusedUpFront p.key = true then st.session
          else replay st.session (fromUtf16Lossy st.world.rest) p.direct) ∧
      calmAt st.world.rest (step st (.quiet p)).world := by
  by_cases h : refusedUpFront p.key = true
  · simp only [step, processKey, h, if_true, pure_run]
    exact ⟨trivial, rfl, hcalm⟩
  · simp only [step, processKey, h]
    exact processVk_quiet (p.quiet st.session.himc st.world.rest) st.session rfl _ _ _ st.world
      ⟨rfl, hcalm⟩

theorem quiet_pending_iff (p : QuietPress) {st : RunState}
    (hcalm : ∀ m ∈ st.world.queue, silent m.message m.lParam) :
    (step st (.quiet p)).session.pendingCommit = st.session.pendingCommit ↔ LeavesPending p st := by
  rw [(step_quiet p hcalm).1, LeavesPending]
  by_cases h : refusedUpFront p.key = true
  · simp [h]
  · rw [if_neg h, or_iff_right h, ← fromUtf16Lossy_eq_empty]
    exact replay_eq_iff _ _ _

theorem step_result (p : ResultPress) {st : RunState} (h : ResultHeardOnce p st) :
    pendingText (step st (.result p)).session =
        pendingText st.session ++ fromUtf16Lossy p.schedule.result ∧
      (step st (.result p)).world.queue = [] := by
  obtain ⟨hqueue, honce, hstale⟩ := h
  obtain ⟨s, ⟨q, slot⟩, delivered⟩ := st
  subst hqueue
  have hkey : processKey (slotApi p.schedule) (slotIme p.schedule) s p.key ⟨[], slot⟩ =
      Adapter.processVk (slotApi p.schedule) (slotIme p.schedule) s
        (VkMap.rimeToVk (slotApi p.schedule).vkKeyScan p.key.keycode) (winModifiers p.key)
        p.schedule.isKeyup ⟨[], slot⟩ := by
    rw [processKey, p.offered, p.keyup]
    rfl
  simp only [step, hkey]
  refine ⟨(processVk_result p.schedule s _ _ p.written hstale).mpr honce, ?_⟩
  obtain ⟨last, -, hrun⟩ := processVk_slot p.schedule s
    (VkMap.rimeToVk (slotApi p.schedule).vkKeyScan p.key.keycode) (winModifiers p.key) ⟨[], slot⟩
    (fun _ h => nomatch h)
  rw [hrun]
  exact queue_afterKey p.written hstale honce

theorem silence_quiet (himc : Himc) (slot : List UInt16) :
    Quiet (slotApi silence) (slotIme silence) himc (calmAt slot) (fromUtf16Lossy slot) false :=
  quiet_of_unwritten rfl himc slot

theorem step_getCommit {st : RunState} (hcalm : ∀ m ∈ st.world.queue, silent m.message m.lParam) :
    pendingText (step st .getCommit).session = "" ∧
      (step st .getCommit).delivered = st.delivered ++ pendingText st.session ∧
      calmAt st.world.rest (step st .getCommit).world := by
  obtain ⟨hkept, hleft⟩ := harvest_quiet (silence_quiet st.session.himc st.world.rest) st.session rfl
    st.world ⟨rfl, hcalm⟩
  simp only [step, Adapter.getCommit, bind_run, pure_run, hkept]
  exact ⟨rfl, rfl, hleft⟩

/-- What a run keeps: no announcement waits, and the results so far are what was
delivered and what is pending. -/
structure Accounted (past : List Event) (st : RunState) : Prop where
  calm : ∀ m ∈ st.world.queue, silent m.message m.lParam
  conserved : st.delivered ++ pendingText st.session = concat (past.map resultOf)

theorem accounted_step (past : List Event) (st : RunState) (e : Event) (h : Accounted past st)
    (hsafe : Safe st e) : Accounted (past ++ [e]) (step st e) := by
  obtain ⟨hcalm, htext⟩ := h
  have hmap : concat ((past ++ [e]).map resultOf) = concat (past.map resultOf) ++ resultOf e := by
    simp
  cases e with
  | quiet p =>
      obtain ⟨-, hleft⟩ := step_quiet p hcalm
      refine ⟨hleft.2, ?_⟩
      have hkept : pendingText (step st (.quiet p)).session = pendingText st.session := by
        rw [pendingText, (quiet_pending_iff p hcalm).mpr hsafe, pendingText]
      rw [hmap, hkept, ← htext]
      exact (String.append_empty).symm
  | result p =>
      obtain ⟨hgrown, hqueue⟩ := step_result p hsafe
      refine ⟨?_, ?_⟩
      · rw [hqueue]
        exact fun _ hm => nomatch hm
      · rw [hmap, hgrown, ← htext, ← String.append_assoc]
        rfl
  | getCommit =>
      obtain ⟨hempty, hdelivered, hleft⟩ := step_getCommit hcalm
      refine ⟨hleft.2, ?_⟩
      rw [hmap, hempty, hdelivered, htext]
      rfl
  | forget =>
      refine ⟨hcalm, ?_⟩
      rw [hmap, ← htext]
      exact (String.append_empty).symm

def fresh (s : WinImmSession) : RunState := ⟨{ s with pendingCommit := none }, ⟨[], []⟩, ""⟩

/-- In a run of safe steps from a fresh session no quiet key touches the pending
commit, and every result is delivered or pending once. The next quiet key leaves
the pending commit as it is exactly when it is a safe step too. -/
theorem no_stale_commit_of_safe (s : WinImmSession) (events : List Event)
    (hsafe : Allowed step Safe (fresh s) events) :
    (∀ before p after, events = before ++ .quiet p :: after →
      (step (run step (fresh s) before) (.quiet p)).session.pendingCommit =
        (run step (fresh s) before).session.pendingCommit) ∧
      (run step (fresh s) events).delivered ++ pendingText (run step (fresh s) events).session =
        concat (events.map resultOf) ∧
      ∀ p : QuietPress,
        (step (run step (fresh s) events) (.quiet p)).session.pendingCommit =
            (run step (fresh s) events).session.pendingCommit ↔
          LeavesPending p (run step (fresh s) events) := by
  have hstart : Accounted [] (fresh s) := ⟨fun _ h => (nomatch h), rfl⟩
  have hend := history_of_allowed accounted_step hstart hsafe
  refine ⟨?_, hend.conserved, fun p => quiet_pending_iff p hend.calm⟩
  rintro before p after rfl
  obtain ⟨hbefore, hquiet, -⟩ := allowed_append.mp hsafe
  exact (quiet_pending_iff p (history_of_allowed accounted_step hstart hbefore).calm).mpr hquiet

def space : KeyEvent := ⟨0x20, 0⟩

def resultPress : ResultPress := ⟨space, announcedOnce, by decide, by decide, by decide⟩

def ignoredPress : QuietPress :=
  ⟨space, slotApi silence, slotIme silence, false, fun himc slot => silence_quiet himc slot⟩

def someSession : WinImmSession := ⟨1, 7, 7, 3, 0, none⟩

theorem no_stale_commit_in_a_run :
    (run step (fresh someSession) [.result resultPress, .quiet ignoredPress, .getCommit]).delivered ++
        pendingText (run step (fresh someSession)
          [.result resultPress, .quiet ignoredPress, .getCommit]).session =
      concat ([.result resultPress, .quiet ignoredPress, .getCommit].map resultOf) :=
  (no_stale_commit_of_safe someSession [.result resultPress, .quiet ignoredPress, .getCommit]
    ⟨⟨rfl, by decide, by decide⟩, Or.inr (Or.inr ⟨rfl, by decide⟩), trivial, trivial⟩).2.1

theorem stale_result_returns :
    (run step (fresh someSession) [.result resultPress, .getCommit]).delivered = "你" ∧
      (run step (fresh someSession) [.result resultPress, .getCommit]).session.pendingCommit = none ∧
      (run step (fresh someSession)
        [.result resultPress, .getCommit, .quiet ignoredPress]).session.pendingCommit = some "你" := by
  decide

end RimeWinime.Replay
