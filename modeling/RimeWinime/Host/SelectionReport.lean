import RimeWinime.Host.IssuedIds
import RimeWinime.Host.SideBySide

namespace RimeWinime.SelectionReport

open World Win32 Proto Session Adapter Backend
open Server (sessionOf selectCandidateOnCurrentPage)

variable {W : Type}

/-- What the host can see of a session. -/
structure Sight where
  comp : String
  menu : List String
  pending : Option String
deriving DecidableEq

def sight (api : Api W) (s : WinImmSession) (w : W) : Sight :=
  ⟨compText api s.himc w, menuTexts api s.himc w, s.pendingCommit⟩

/-- A key or a notification: whether the IME took it, and what was seen next. -/
structure Offer where
  taken : Bool
  after : Sight
deriving DecidableEq

def offered (api : Api W) (s : WinImmSession) (taken : Bool) (w : W) : Offer := ⟨taken, sight api s w⟩

def notifyOffers (api : Api W) (ime : ImeFunctions W) (s : WinImmSession) (index : Nat)
    (beforeComp : String) (beforeMenu : List String) :
    Act W (List Offer × Bool × WinImmSession) := do
  let taken ← notifyIME api ime s.himc NI_SELECTCANDIDATESTR 0 (UInt32.ofNat index)
  let s ← harvestThreadMessages api s
  let selected ← observe (offered api s taken)
  let afterComp ← observe (compText api s.himc)
  let afterMenu ← observe (menuTexts api s.himc)
  if s.pendingCommit = none ∧ afterComp = beforeComp ∧ afterMenu = beforeMenu ∧ beforeComp ≠ "" then do
    let taken ← notifyIME api ime s.himc NI_COMPOSITIONSTR CPS_COMPLETE 0
    let _ ← api.immGenerateMessage s.himc
    let s ← harvestThreadMessages api s
    let completed ← observe (offered api s taken)
    pure ([selected, completed], true, s)
  else pure ([selected], true, s)

/-- `confirmSelection` with its offers. -/
def confirmOffers (api : Api W) (ime : ImeFunctions W) (s : WinImmSession) (keyedComp : String) :
    Act W (List Offer × WinImmSession) :=
  if keyedComp ≠ "" ∧ s.pendingCommit = none then do
    let (taken, s) ← processVk api ime s VK_RETURN 0 false
    let s ← harvestThreadMessages api s
    let confirmed ← observe (offered api s taken)
    pure ([confirmed], s)
  else pure ([], s)

def selectOffers (api : Api W) (ime : ImeFunctions W) (s : WinImmSession) (index : Nat) :
    Act W (List Offer × Bool × WinImmSession) := do
  let beforeComp ← observe (compText api s.himc)
  let beforeMenu ← observe (menuTexts api s.himc)
  match selectionVk index with
  | none => notifyOffers api ime s index beforeComp beforeMenu
  | some vk => do
      let (selectedByKey, s) ← processVk api ime s vk 0 false
      let keyed ← observe (offered api s selectedByKey)
      let keyedComp ← observe (compText api s.himc)
      let keyedResult ← observe (resultString api s.himc)
      let keyedMenu ← observe (menuTexts api s.himc)
      if s.pendingCommit ≠ none ∨ keyedComp ≠ beforeComp ∨ keyedMenu ≠ beforeMenu ∨
          keyedResult.getD "" ≠ "" ∨ selectedByKey then do
        let (confirmed, s) ← confirmOffers api ime s keyedComp
        pure (keyed :: confirmed, true, s)
      else do
        let (notified, answer) ← notifyOffers api ime s index beforeComp beforeMenu
        pure (keyed :: notified, answer)

def Erases {α : Type} (x : Act W (List Offer × α)) (y : Act W α) : Prop :=
  Respects Eq (fun r b => r.2 = b) x y

theorem respects_self {α : Type} (x : Act W α) : Respects Eq Eq x x := by
  rintro w _ rfl
  exact ⟨rfl, rfl⟩

theorem Erases.bind {α β : Type} (x : Act W α) {f : α → Act W (List Offer × β)} {g : α → Act W β}
    (h : ∀ a, Erases (f a) (g a)) : Erases (x >>= f) (x >>= g) :=
  Respects.bind_eq (respects_self x) h

theorem Erases.look {α β : Type} {f : W → α} {x : α → Act W (List Offer × β)} {y : Act W β}
    (h : ∀ a, Erases (x a) y) : Erases (observe f >>= x) y := by
  rintro w _ rfl
  exact h (f w) w w rfl

section

variable (api : Api W) (ime : ImeFunctions W)

theorem notifyOffers_erases (s : WinImmSession) (index : Nat) (beforeComp : String)
    (beforeMenu : List String) : Erases (notifyOffers api ime s index beforeComp beforeMenu)
      (notifySelection api ime s index beforeComp beforeMenu) := by
  refine Erases.bind _ fun taken => Erases.bind _ fun s => Erases.look fun selected => ?_
  refine Erases.bind _ fun afterComp => Erases.bind _ fun afterMenu => ?_
  refine Respects.ite (fun _ => ?_) fun _ => Respects.pure rfl
  refine Erases.bind _ fun taken => Erases.bind _ fun _ => Erases.bind _ fun s => ?_
  exact Erases.look fun completed => Respects.pure rfl

theorem confirmOffers_erases (s : WinImmSession) (keyedComp : String) :
    Erases (confirmOffers api ime s keyedComp) (confirmSelection api ime s keyedComp) := by
  refine Respects.ite (fun _ => ?_) fun _ => Respects.pure rfl
  refine Erases.bind _ fun r => ?_
  rintro w _ rfl
  exact ⟨rfl, rfl⟩

theorem selectOffers_erases (s : WinImmSession) (index : Nat) :
    Erases (selectOffers api ime s index) (Adapter.selectCandidate api ime s index) := by
  refine Erases.bind _ fun beforeComp => Erases.bind _ fun beforeMenu => ?_
  cases selectionVk index with
  | none => exact notifyOffers_erases api ime s index beforeComp beforeMenu
  | some vk =>
      refine Erases.bind _ fun r => Erases.look fun keyed => ?_
      refine Erases.bind _ fun keyedComp => Erases.bind _ fun keyedResult => ?_
      refine Erases.bind _ fun keyedMenu => Respects.ite (fun _ => ?_) fun _ => ?_
      · refine Respects.bind (confirmOffers_erases api ime r.2 keyedComp) ?_
        rintro a _ rfl
        exact Respects.pure rfl
      · rintro w _ rfl
        exact notifyOffers_erases api ime r.2 index beforeComp beforeMenu w w rfl

end

/-- The IME took the offer, or something that can be seen has changed since. -/
def Effective (before : Sight) (o : Offer) : Prop :=
  o.taken = true ∨ o.after.comp ≠ before.comp ∨ o.after.menu ≠ before.menu ∨
    o.after.pending ≠ before.pending

def Happened (api : Api W) (ime : ImeFunctions W) (s : WinImmSession) (index : Nat) (w : W) : Prop :=
  ∃ o ∈ (selectOffers api ime s index w).1.1, Effective (sight api s w) o

def Leaves (api : Api W) (s : WinImmSession) (offer : Act W (Bool × WinImmSession)) (w : W) : Prop :=
  (offer w).1.1 = false ∧ sight api (offer w).1.2 (offer w).2 = sight api s w

def selection (api : Api W) (ime : ImeFunctions W) (s : WinImmSession) (index : Nat) :
    Act W (Bool × WinImmSession) := do
  let taken ← notifyIME api ime s.himc NI_SELECTCANDIDATESTR 0 (UInt32.ofNat index)
  let s ← harvestThreadMessages api s
  pure (taken, s)

def completion (api : Api W) (ime : ImeFunctions W) (s : WinImmSession) :
    Act W (Bool × WinImmSession) := do
  let taken ← notifyIME api ime s.himc NI_COMPOSITIONSTR CPS_COMPLETE 0
  let _ ← api.immGenerateMessage s.himc
  let s ← harvestThreadMessages api s
  pure (taken, s)

def LeavesNotifications (api : Api W) (ime : ImeFunctions W) (s : WinImmSession) (index : Nat)
    (w : W) : Prop :=
  Leaves api s (selection api ime s index) w ∧
    (s.pendingCommit = none → compText api s.himc w ≠ "" →
      Leaves api s (completion api ime s) (selection api ime s index w).2)

/-- The IME leaves the digit key of the index, if there is one, and then the
notifications, which it gets only when there is no such key or no commit waits. -/
def LetsPass (api : Api W) (ime : ImeFunctions W) (s : WinImmSession) (index : Nat) (w : W) : Prop :=
  match selectionVk index with
  | none => LeavesNotifications api ime s index w
  | some vk =>
      Leaves api s (processVk api ime s vk 0 false) w ∧
        (s.pendingCommit = none →
          LeavesNotifications api ime s index (processVk api ime s vk 0 false w).2)

def Appends (s r : WinImmSession) : Prop := ∃ text, r = appendCommit s text

theorem Appends.refl (s : WinImmSession) : Appends s s := ⟨"", (appendCommit_empty s).symm⟩

theorem Appends.trans {s r t : WinImmSession} (hr : Appends s r) (ht : Appends r t) : Appends s t := by
  obtain ⟨a, rfl⟩ := hr
  obtain ⟨b, rfl⟩ := ht
  exact ⟨a ++ b, appendCommit_append s a b⟩

theorem Appends.same {s r : WinImmSession} (h : Appends s r)
    (hpending : r.pendingCommit = s.pendingCommit) : r = s := by
  obtain ⟨text, rfl⟩ := h
  by_cases htext : text = ""
  · rw [htext, appendCommit_empty]
  · rw [appendCommit, if_neg htext] at hpending ⊢
    exact congrArg (fun pending => { s with pendingCommit := pending }) hpending

section

variable {api : Api W} {ime : ImeFunctions W}

/-- Wherever it runs, the action gives a session that has only gained text. -/
def Gains {α : Type} (s : WinImmSession) (session : α → WinImmSession) (x : Act W α) : Prop :=
  Keeps (fun _ => True) (fun a => Appends s (session a)) x

theorem gains_bind {α β : Type} {s : WinImmSession} {session : β → WinImmSession} {x : Act W α}
    {f : α → Act W β} (h : ∀ a, Gains s session (f a)) : Gains s session (x >>= f) :=
  Keeps.bind (P := fun _ => True) (fun _ _ => ⟨trivial, trivial⟩) fun a _ => h a

theorem Gains.andThen {α β : Type} {s : WinImmSession} {g : α → WinImmSession}
    {session : β → WinImmSession} {x : Act W α} {f : α → Act W β} (hx : Gains s g x)
    (hf : ∀ a, Gains (g a) session (f a)) : Gains s session (x >>= f) :=
  Keeps.bind hx fun a ha => (hf a).mono fun _ hb => ha.trans hb

theorem harvest_gains (s : WinImmSession) : Gains s id (harvestThreadMessages api s) :=
  gains_bind fun p => Keeps.pure ⟨p.text, rfl⟩

theorem finalResultCheck_appends (s : WinImmSession) (slot : Option String) :
    Appends s (finalResultCheck s slot) := by
  rw [finalResultCheck]
  split
  · exact ⟨slot.getD "", rfl⟩
  · exact Appends.refl s

theorem offerKey_gains (s : WinImmSession) (vk : UInt16) (isKeyup isAlt : Bool) :
    Gains s (·.2) (offerKey api s vk isKeyup isAlt) := by
  have hharvest (accepted : Bool) : Gains s (·.2)
      (harvestThreadMessages api s >>= fun s => pure (accepted, s)) :=
    (harvest_gains s).andThen fun r => Keeps.pure (Appends.refl r)
  refine gains_bind fun _ => gains_bind fun _ => gains_bind fun flags => ?_
  exact Keeps.ite (fun _ => gains_bind fun _ => hharvest _) fun _ => hharvest _

theorem consumeDirect_gains (s : WinImmSession) (uvirt : UInt32) (keyState : KeyState) :
    Gains s id (consumeDirect api ime s uvirt keyState) :=
  gains_bind fun direct => (harvest_gains (commitPumped s direct)).mono
    fun _ h => Appends.trans ⟨direct.text, rfl⟩ h

theorem processVk_gains (s : WinImmSession) (vk : UInt16) (modifiers : UInt32) (isKeyup : Bool) :
    Gains s (·.2) (processVk api ime s vk modifiers isKeyup) := by
  refine gains_bind fun _ => gains_bind fun unicode => ?_
  refine (offerKey_gains s vk isKeyup _).andThen fun r => gains_bind fun direct => ?_
  refine Gains.andThen (g := id) ?_ fun t => Gains.andThen (g := id) ?_ fun u => ?_
  · exact Keeps.ite (fun _ => consumeDirect_gains r.2 _ _) fun _ => Keeps.pure (Appends.refl r.2)
  · refine Keeps.ite (fun _ => Keeps.pure (Appends.refl t)) fun _ => ?_
    exact gains_bind fun _ => harvest_gains t
  · exact gains_bind fun slot => Keeps.pure (finalResultCheck_appends u slot)

theorem Leaves.same {s : WinImmSession} {offer : Act W (Bool × WinImmSession)} {w : W}
    (hgains : Gains s (·.2) offer) (h : Leaves api s offer w) : (offer w).1.2 = s :=
  (hgains w trivial).1.same (congrArg Sight.pending h.2)

theorem not_effective {before : Sight} {o : Offer} :
    ¬Effective before o ↔ o.taken = false ∧ o.after = before := by
  obtain ⟨taken, comp, menu, pending⟩ := o
  obtain ⟨comp', menu', pending'⟩ := before
  simp only [Effective, not_or, ne_eq, not_not, Bool.not_eq_true, Sight.mk.injEq]

def Fruitless (api : Api W) (beforeComp : String) (beforeMenu : List String)
    (r : (Bool × WinImmSession) × W) : Prop :=
  r.1.2.pendingCommit = none ∧ compText api r.1.2.himc r.2 = beforeComp ∧
    menuTexts api r.1.2.himc r.2 = beforeMenu ∧ beforeComp ≠ ""

theorem notifyOffers_completed {s : WinImmSession} {index : Nat} {beforeComp : String}
    {beforeMenu : List String} {w : W} {r : (Bool × WinImmSession) × W}
    (hr : selection api ime s index w = r) (h : Fruitless api beforeComp beforeMenu r) :
    (notifyOffers api ime s index beforeComp beforeMenu w).1.1 =
      [offered api r.1.2 r.1.1 r.2,
        offered api (completion api ime r.1.2 r.2).1.2 (completion api ime r.1.2 r.2).1.1
          (completion api ime r.1.2 r.2).2] := by
  subst hr
  exact congrArg (fun x : Act W (List Offer × Bool × WinImmSession) => (x _).1.1) (if_pos h)

theorem notifyOffers_settled {s : WinImmSession} {index : Nat} {beforeComp : String}
    {beforeMenu : List String} {w : W} {r : (Bool × WinImmSession) × W}
    (hr : selection api ime s index w = r) (h : ¬Fruitless api beforeComp beforeMenu r) :
    (notifyOffers api ime s index beforeComp beforeMenu w).1.1 = [offered api r.1.2 r.1.1 r.2] := by
  subst hr
  exact congrArg (fun x : Act W (List Offer × Bool × WinImmSession) => (x _).1.1) (if_neg h)

theorem notifyOffers_passed (s : WinImmSession) (index : Nat) (w : W) :
    (∀ o ∈ (notifyOffers api ime s index (compText api s.himc w) (menuTexts api s.himc w) w).1.1,
        ¬Effective (sight api s w) o) ↔ LeavesNotifications api ime s index w := by
  have hgains : Gains s (·.2) (selection api ime s index) :=
    gains_bind fun _ => (harvest_gains s).andThen fun r => Keeps.pure (Appends.refl r)
  simp only [not_effective, LeavesNotifications]
  by_cases hleft : Leaves api s (selection api ime s index) w
  · have hsame : (selection api ime s index w).1.2 = s := hleft.same hgains
    have hsight := hleft.2
    rw [hsame] at hsight
    have hfruitless : Fruitless api (compText api s.himc w) (menuTexts api s.himc w)
        (selection api ime s index w) ↔ s.pendingCommit = none ∧ compText api s.himc w ≠ "" := by
      rw [Fruitless, hsame]
      constructor
      · exact fun h => ⟨h.1, h.2.2.2⟩
      · exact fun h => ⟨h.1, congrArg Sight.comp hsight, congrArg Sight.menu hsight, h.2⟩
    by_cases hmore : s.pendingCommit = none ∧ compText api s.himc w ≠ ""
    · rw [notifyOffers_completed rfl (hfruitless.mpr hmore), hsame]
      constructor
      · intro h
        refine ⟨hleft, fun _ _ => ?_⟩
        have hlast := h _ (List.mem_cons_of_mem _ List.mem_cons_self)
        exact ⟨hlast.1, hlast.2.trans hsight.symm⟩
      · rintro ⟨-, hcompleted⟩ o ho
        obtain ⟨hrefused, hunseen⟩ := hcompleted hmore.1 hmore.2
        rcases List.mem_pair.mp ho with rfl | rfl
        · exact ⟨hleft.1, hsight⟩
        · exact ⟨hrefused, hunseen.trans hsight⟩
    · rw [notifyOffers_settled rfl (fun h => hmore (hfruitless.mp h)), hsame]
      refine iff_of_true (fun o ho => ?_) ⟨hleft, fun hnone hcomp => absurd ⟨hnone, hcomp⟩ hmore⟩
      cases List.mem_singleton.mp ho
      exact ⟨hleft.1, hsight⟩
  · refine iff_of_false (fun h => hleft ?_) fun h => hleft h.1
    refine h (offered api (selection api ime s index w).1.2 (selection api ime s index w).1.1
      (selection api ime s index w).2) ?_
    by_cases hmore : Fruitless api (compText api s.himc w) (menuTexts api s.himc w)
        (selection api ime s index w)
    · rw [notifyOffers_completed rfl hmore]
      exact List.mem_cons_self
    · rw [notifyOffers_settled rfl hmore]
      exact List.mem_cons_self

def Settles (api : Api W) (x : Act W (Bool × WinImmSession)) : Prop :=
  ∀ w, (x w).1.2.pendingCommit = none → (resultString api (x w).1.2.himc (x w).2).getD "" = ""

theorem settles_bind {α : Type} {x : Act W α} {f : α → Act W (Bool × WinImmSession)}
    (h : ∀ a, Settles api (f a)) : Settles api (x >>= f) := fun w => h (x w).1 (x w).2

theorem processVk_settles (s : WinImmSession) (vk : UInt16) (modifiers : UInt32) (isKeyup : Bool) :
    Settles api (processVk api ime s vk modifiers isKeyup) := by
  refine settles_bind fun _ => settles_bind fun _ => settles_bind fun r => settles_bind fun _ => ?_
  refine settles_bind fun _ => settles_bind fun u w hnone => ?_
  change (finalResultCheck u (resultString api u.himc w)).pendingCommit = none at hnone
  change (resultString api (finalResultCheck u (resultString api u.himc w)).himc w).getD "" = ""
  rw [(SideBySide.finalResultCheck_handles u _).2]
  rw [finalResultCheck] at hnone
  split at hnone
  · exact ((appendCommit_isNone u _).mp hnone).2
  · contradiction

def Keyed (api : Api W) (beforeComp : String) (beforeMenu : List String)
    (r : (Bool × WinImmSession) × W) : Prop :=
  r.1.2.pendingCommit ≠ none ∨ compText api r.1.2.himc r.2 ≠ beforeComp ∨
    menuTexts api r.1.2.himc r.2 ≠ beforeMenu ∨
    (resultString api r.1.2.himc r.2).getD "" ≠ "" ∨ r.1.1

section

variable {s : WinImmSession} {index : Nat} {vk : UInt16} {w : W} {r : (Bool × WinImmSession) × W}

theorem selectOffers_keyed (hvk : selectionVk index = some vk)
    (hr : processVk api ime s vk 0 false w = r)
    (h : Keyed api (compText api s.himc w) (menuTexts api s.himc w) r) :
    (selectOffers api ime s index w).1.1 = offered api r.1.2 r.1.1 r.2 ::
      (confirmOffers api ime r.1.2 (compText api r.1.2.himc r.2) r.2).1.1 := by
  subst hr
  rw [selectOffers, hvk]
  exact congrArg (fun x : Act W (List Offer × Bool × WinImmSession) => (x _).1.1) (if_pos h)

theorem selectOffers_notified (hvk : selectionVk index = some vk)
    (hr : processVk api ime s vk 0 false w = r)
    (h : ¬Keyed api (compText api s.himc w) (menuTexts api s.himc w) r) :
    (selectOffers api ime s index w).1.1 = offered api r.1.2 r.1.1 r.2 ::
      (notifyOffers api ime r.1.2 index (compText api s.himc w) (menuTexts api s.himc w)
        r.2).1.1 := by
  subst hr
  rw [selectOffers, hvk]
  exact congrArg (fun x : Act W (List Offer × Bool × WinImmSession) => (x _).1.1) (if_neg h)

end

theorem happened_iff (s : WinImmSession) (index : Nat) (w : W) :
    Happened api ime s index w ↔ ¬LetsPass api ime s index w := by
  rw [iff_not_comm, Happened]
  simp only [not_exists, not_and]
  rw [LetsPass]
  cases hvk : selectionVk index with
  | none =>
      have hrun : selectOffers api ime s index w =
          notifyOffers api ime s index (compText api s.himc w) (menuTexts api s.himc w) w := by
        rw [selectOffers, hvk]
        rfl
      rw [hrun]
      exact (notifyOffers_passed s index w).symm
  | some vk =>
      by_cases hleft : Leaves api s (processVk api ime s vk 0 false) w
      · have hsame : (processVk api ime s vk 0 false w).1.2 = s :=
          hleft.same (processVk_gains s vk 0 false)
        have hsight := hleft.2
        rw [hsame] at hsight
        have hpassed : ¬Effective (sight api s w)
            (offered api s (processVk api ime s vk 0 false w).1.1
              (processVk api ime s vk 0 false w).2) := not_effective.mpr ⟨hleft.1, hsight⟩
        by_cases hnone : s.pendingCommit = none
        · have hidle : ¬Keyed api (compText api s.himc w) (menuTexts api s.himc w)
              (processVk api ime s vk 0 false w) := by
            have hempty := @processVk_settles W api ime s vk 0 false w
            rw [hsame] at hempty
            rw [Keyed, hsame]
            rintro (h | h | h | h | h)
            · exact h hnone
            · exact h (congrArg Sight.comp hsight)
            · exact h (congrArg Sight.menu hsight)
            · exact h (hempty hnone)
            · exact Bool.false_ne_true (hleft.1.symm.trans h)
          have hcomp := congrArg Sight.comp hsight
          have hmenu := congrArg Sight.menu hsight
          change compText api s.himc _ = compText api s.himc w at hcomp
          change menuTexts api s.himc _ = menuTexts api s.himc w at hmenu
          rw [selectOffers_notified hvk rfl hidle, hsame, ← hcomp, ← hmenu]
          have hrest := @notifyOffers_passed W api ime s index
            (processVk api ime s vk 0 false w).2
          rw [hsight] at hrest
          rw [List.forall_mem_cons, hrest]
          exact ⟨fun h => ⟨hpassed, h.2 hnone⟩, fun h => ⟨hleft, fun _ => h.2⟩⟩
        · have hkeyed : Keyed api (compText api s.himc w) (menuTexts api s.himc w)
              (processVk api ime s vk 0 false w) := by
            rw [Keyed, hsame]
            exact Or.inl hnone
          have hunconfirmed (keyedComp : String) (w' : W) :
              (confirmOffers api ime s keyedComp w').1.1 = [] :=
            congrArg (fun x : Act W (List Offer × WinImmSession) => (x w').1.1)
              (if_neg fun h => hnone h.2)
          rw [selectOffers_keyed hvk rfl hkeyed, hsame, hunconfirmed]
          refine iff_of_true ⟨hleft, fun h => absurd h hnone⟩ fun o ho => ?_
          cases List.mem_singleton.mp ho
          exact hpassed
      · refine iff_of_false (fun h => hleft h.1) fun h => hleft ?_
        refine not_effective.mp (h (offered api (processVk api ime s vk 0 false w).1.2
          (processVk api ime s vk 0 false w).1.1 (processVk api ime s vk 0 false w).2) ?_)
        by_cases hkeyed : Keyed api (compText api s.himc w) (menuTexts api s.himc w)
            (processVk api ime s vk 0 false w)
        · rw [selectOffers_keyed hvk rfl hkeyed]
          exact List.mem_cons_self
        · rw [selectOffers_notified hvk rfl hkeyed]
          exact List.mem_cons_self

end

def indexOf (req : SelectCandidateRequest) : Nat := (req.index.toInt % 2 ^ 64).toNat

/-- During the request the IME took something, or something changed. -/
def Selected (api : Api W) (h : Hosted W) (s : WinImmSession) (req : SelectCandidateRequest) : Prop :=
  ∃ ime, h.1.imeFunctions = some ime ∧ Happened api ime s (indexOf req) h.2

structure Reported (api : Api W) (h : Hosted W) (s : WinImmSession) (req : SelectCandidateRequest) :
    Prop where
  success : (selectCandidateOnCurrentPage (immBackend api) req h).1 = .ok ⟨true⟩ →
    Selected api h s req
  refusal : ¬Selected api h s req →
    (selectCandidateOnCurrentPage (immBackend api) req h).1 = .ok ⟨false⟩ ∧
      (selectCandidateOnCurrentPage (immBackend api) req h).2.1.sessions.lookup
        (sessionOf req.sessionId) = some s

/-- A selection is reported as it went exactly when no IME is loaded or the IME
does something with what it is offered: the answer is `true` either way. -/
theorem selection_reported_iff (api : Api W) (h : Hosted W) (req : SelectCandidateRequest)
    (s : WinImmSession) (hs : h.1.sessions.lookup (sessionOf req.sessionId) = some s) :
    Reported api h s req ↔
      ∀ ime, h.1.imeFunctions = some ime → ¬LetsPass api ime s (indexOf req) h.2 := by
  cases hime : h.1.imeFunctions with
  | none =>
      have hrun : selectCandidateOnCurrentPage (immBackend api) req h = (.ok ⟨false⟩, h) := by
        simp only [selectCandidateOnCurrentPage, immBackend, Backend.selectCandidate, onImeSession,
          hime, bind_run, pure_run]
      have hnothing : ¬Selected api h s req := by
        rintro ⟨ime, hsome, -⟩
        rw [hime] at hsome
        cases hsome
      refine iff_of_true ⟨fun hok => ?_, fun _ => ?_⟩ fun ime hsome => by cases hsome
      · rw [hrun] at hok
        cases hok
      · rw [hrun]
        exact ⟨rfl, hs⟩
  | some ime =>
      have hrun : (selectCandidateOnCurrentPage (immBackend api) req h).1 = .ok ⟨true⟩ := by
        simp only [selectCandidateOnCurrentPage, immBackend, Backend.selectCandidate,
          onImeSession_live hime hs, bind_run, pure_run, IssuedIds.selectCandidate_succeeds]
      have hselected : Selected api h s req ↔ ¬LetsPass api ime s (indexOf req) h.2 := by
        rw [← happened_iff]
        constructor
        · rintro ⟨ime', hsome, hhappened⟩
          cases hime.symm.trans hsome
          exact hhappened
        · exact fun hhappened => ⟨ime, hime, hhappened⟩
      constructor
      · rintro hreported _ ⟨⟩
        exact hselected.mp (hreported.success hrun)
      · intro hdoes
        have hsomething := hselected.mpr (hdoes ime rfl)
        exact ⟨fun _ => hsomething, fun hnothing => absurd hsomething hnothing⟩

def session : WinImmSession := ⟨1, 10, 10, 20, 0, none⟩

def sessions : AList (fun _ : Nat => WinImmSession) := AList.singleton 1 session

theorem taken_reported : Reported IssuedIds.restlessApi (IssuedIds.restless sessions) session ⟨"1", 0⟩ := by
  refine (selection_reported_iff IssuedIds.restlessApi (IssuedIds.restless sessions) ⟨"1", 0⟩ session
    rfl).mpr ?_
  rintro _ ⟨⟩ ⟨⟨hrefused, -⟩, -⟩
  rw [IssuedIds.processVk_eager] at hrefused
  cases hrefused

/-- An IME that ignores everything, and a negative index. -/
theorem ignored_reported :
    ¬Reported (inertApi (W := Unit)) (⟨some inertIme, sessions, false⟩, ()) session ⟨"1", -1⟩ := by
  intro h
  obtain ⟨_, ⟨⟩, hhappened⟩ := h.success rfl
  refine (happened_iff session _ ()).mp hhappened ⟨⟨rfl, rfl⟩, fun _ hcomp => ?_⟩
  exact absurd rfl hcomp

end RimeWinime.SelectionReport
