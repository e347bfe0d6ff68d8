import RimeWinime.Host.SelectionReport
import Mathlib.Tactic.IntervalCases

namespace RimeWinime.DigitSelection

open World Win32 Proto Session Adapter Backend

variable {W : Type}

def digitKey (index : Nat) : KeyEvent := ⟨0x30 + UInt32.ofNat ((index + 1) % 10), 0⟩

def returnKey : KeyEvent := ⟨0xFF0D, 0⟩

/-- The IME does something with the digit: it takes the key, or the composition
or the candidates change. -/
def Handles (api : Api W) (ime : ImeFunctions W) (s : WinImmSession) (index : Nat) (w : W) : Prop :=
  let r := processKey api ime s (digitKey index) w
  r.1.1 = true ∨ compText api r.1.2.himc r.2 ≠ compText api s.himc w ∨
    menuTexts api r.1.2.himc r.2 ≠ menuTexts api s.himc w

def Done (api : Api W) (r : (Bool × WinImmSession) × W) : Prop :=
  compText api r.1.2.himc r.2 = "" ∨ r.1.2.pendingCommit ≠ none

def harvest (api : Api W) (id : Nat) : Act (Hosted W) Unit :=
  onSession id () fun s => do
    let s ← harvestThreadMessages api s
    pure ((), s)

def confirm (api : Api W) (id : Nat) : Act (Hosted W) Unit := do
  let _ ← Backend.processKey api id returnKey
  harvest api id

section

variable {api : Api W} {ime : ImeFunctions W}

theorem selectionVk_isSome {index : Nat} : (selectionVk index).isSome ↔ index ≤ 9 := by
  rw [selectionVk]
  split
  · exact iff_of_true rfl (by omega)
  · split
    · exact iff_of_true rfl (by omega)
    · exact iff_of_false Bool.false_ne_true (by omega)

theorem processKey_digit {index : Nat} {vk : UInt16} (hvk : selectionVk index = some vk)
    (s : WinImmSession) :
    Adapter.processKey api ime s (digitKey index) = Adapter.processVk api ime s vk 0 false := by
  have hindex : index ≤ 9 := selectionVk_isSome.mp (by rw [hvk]; rfl)
  interval_cases index <;> cases hvk <;> rfl

variable {s : WinImmSession} {index : Nat} {w : W} {r : (Bool × WinImmSession) × W}

theorem keyed_of_handles (hr : Adapter.processKey api ime s (digitKey index) w = r)
    (h : Handles api ime s index w) :
    SelectionReport.Keyed api (compText api s.himc w) (menuTexts api s.himc w) r := by
  rw [Handles, hr] at h
  rcases h with htaken | hcomp | hmenu
  · exact Or.inr (Or.inr (Or.inr (Or.inr htaken)))
  · exact Or.inr (Or.inl hcomp)
  · exact Or.inr (Or.inr (Or.inl hmenu))

theorem selectCandidate_keyed {vk : UInt16} (hvk : selectionVk index = some vk)
    (hr : Adapter.processVk api ime s vk 0 false w = r)
    (h : SelectionReport.Keyed api (compText api s.himc w) (menuTexts api s.himc w) r) :
    Adapter.selectCandidate api ime s index w =
      let c := confirmSelection api ime r.1.2 (compText api r.1.2.himc r.2) r.2
      ((true, c.1), c.2) := by
  subst hr
  rw [Adapter.selectCandidate, hvk]
  exact congrArg (fun x : Act W (Bool × WinImmSession) => x _) (if_pos h)

theorem selectCandidate_handled (hindex : index ≤ 9)
    (hr : Adapter.processKey api ime s (digitKey index) w = r) (h : Handles api ime s index w) :
    Adapter.selectCandidate api ime s index w =
      let c := confirmSelection api ime r.1.2 (compText api r.1.2.himc r.2) r.2
      ((true, c.1), c.2) := by
  obtain ⟨vk, hvk⟩ := Option.isSome_iff_exists.mp (selectionVk_isSome.mpr hindex)
  have hkeyed := keyed_of_handles hr h
  rw [processKey_digit hvk] at hr
  exact selectCandidate_keyed hvk hr hkeyed

theorem selectCandidate_notified {vk : UInt16} (hvk : selectionVk index = some vk)
    (hr : Adapter.processVk api ime s vk 0 false w = r)
    (h : ¬SelectionReport.Keyed api (compText api s.himc w) (menuTexts api s.himc w) r) :
    Adapter.selectCandidate api ime s index w =
      notifySelection api ime r.1.2 index (compText api s.himc w) (menuTexts api s.himc w) r.2 := by
  subst hr
  rw [Adapter.selectCandidate, hvk]
  exact congrArg (fun x : Act W (Bool × WinImmSession) => x _) (if_neg h)

theorem confirmSelection_done (h : Done api r) :
    confirmSelection api ime r.1.2 (compText api r.1.2.himc r.2) r.2 = (r.1.2, r.2) := by
  have hidle : ¬(compText api r.1.2.himc r.2 ≠ "" ∧ r.1.2.pendingCommit = none) :=
    fun hmore => h.elim hmore.1 fun hpending => hpending hmore.2
  exact congrArg (fun x : Act W WinImmSession => x r.2) (if_neg hidle)

theorem confirmSelection_left (h : ¬Done api r) :
    confirmSelection api ime r.1.2 (compText api r.1.2.himc r.2) r.2 =
      harvestThreadMessages api (Adapter.processKey api ime r.1.2 returnKey r.2).1.2
        (Adapter.processKey api ime r.1.2 returnKey r.2).2 := by
  rw [Done, not_or, not_not] at h
  exact congrArg (fun x : Act W WinImmSession => x r.2) (if_pos h)

end

theorem confirm_live {api : Api W} {h : Hosted W} {id : Nat} {ime : ImeFunctions W}
    {s : WinImmSession}
    (hime : h.1.imeFunctions = some ime) (hs : h.1.sessions.lookup id = some s) :
    (confirm api id h).2 =
      let r := Adapter.processKey api ime s returnKey h.2
      let c := harvestThreadMessages api r.1.2 r.2
      ({ h.1 with sessions := h.1.sessions.insert id c.1 }, c.2) := by
  simp only [confirm, bind_run, Backend.processKey, onImeSession_live hime hs, harvest]
  rw [onSession_live (AList.lookup_insert h.1.sessions)]
  simp only [bind_run, pure_run, AList.insert_insert]

/-- What a selection leaves of the adapter, its sessions and the world is what
the digit leaves, and where a composition is left without a commit, what Return
makes of that. -/
theorem selection_is_digit (api : Api W) (h : Hosted W) (id index : Nat) (hindex : index ≤ 9)
    (ime : ImeFunctions W) (hime : h.1.imeFunctions = some ime) (s : WinImmSession)
    (hs : h.1.sessions.lookup id = some s) (hhandles : Handles api ime s index h.2) :
    let digit := (Backend.processKey api id (digitKey index) h).2
    let done := Done api (Adapter.processKey api ime s (digitKey index) h.2)
    (done → (Backend.selectCandidate api id index h).2 = digit) ∧
      (¬done → (Backend.selectCandidate api id index h).2 = (confirm api id digit).2) := by
  intro digit done
  have hselect := selectCandidate_handled hindex rfl hhandles
  have hdigit : digit = _ := congrArg Prod.snd (onImeSession_live hime hs)
  rw [Backend.selectCandidate, onImeSession_live hime hs, hselect]
  constructor
  · intro hdone
    rw [confirmSelection_done hdone, hdigit]
  · intro hleft
    have hkeyed : digit.1.sessions.lookup id =
        some (Adapter.processKey api ime s (digitKey index) h.2).1.2 := by
      rw [hdigit]
      exact AList.lookup_insert h.1.sessions
    have hloaded : digit.1.imeFunctions = some ime := by
      rw [hdigit]
      exact hime
    rw [confirm_live hloaded hkeyed, confirmSelection_left hleft, hdigit]
    simp only [AList.insert_insert]

def stagedApi : Api (List UInt16) :=
  { inertApi with
    immGetCompositionString := fun _ gcs units =>
      let size : Int := 2 * units.length
      if gcs = .compStr then ⟨size, size, units, []⟩ else ⟨0, 0, [], []⟩ }

def stagedIme : ImeFunctions (List UInt16) :=
  { inertIme with
    processKey := fun _ vk _ _ units =>
      if vk = 0x31 then (true, units.drop 1)
      else if vk = 0x0D then (true, [])
      else (false, units) }

def staged (units : List UInt16) : Hosted (List UInt16) :=
  (⟨some stagedIme, AList.singleton 1 SelectionReport.session, false⟩, units)

/-- The last unit is converted: nothing is left, and Return is not pressed. -/
theorem last_stage_is_digit :
    (Backend.selectCandidate stagedApi 1 0 (staged [0x61])).2 =
      (Backend.processKey stagedApi 1 (digitKey 0) (staged [0x61])).2 :=
  (selection_is_digit stagedApi (staged [0x61]) 1 0 (by omega) stagedIme rfl
    SelectionReport.session rfl (Or.inl rfl)).1 (Or.inl rfl)

/-- The first of two units: the digit keeps the second for another selection, and
selecting by index finalises it. -/
theorem first_stage_finalised :
    Handles stagedApi stagedIme SelectionReport.session 0 [0x61, 0x62] ∧
      (Backend.processKey stagedApi 1 (digitKey 0) (staged [0x61, 0x62])).2.2 = [0x62] ∧
      (Backend.selectCandidate stagedApi 1 0 (staged [0x61, 0x62])).2.2 = [] := by
  refine ⟨Or.inl rfl, rfl, ?_⟩
  decide +kernel

end RimeWinime.DigitSelection
