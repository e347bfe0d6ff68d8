import Mathlib.Algebra.Order.Group.Multiset
import RimeWinime.Lib.Nesting
import RimeWinime.WinImm.Calls

namespace RimeWinime.WinImm

open World Outside Ledger Nesting

inductive Resource
  | library (h : Handle)
  | window (h : Handle)
  | context (h : Handle)
  /-- A context that a window has lent. -/
  | lent (hwnd h : Handle)
deriving DecidableEq

def gained (h : Handle) (r : Handle → Resource) : Mark Resource := if h = 0 then .other else .gains (r h)

def mark : Event Call.Answer → Mark Resource
  | ⟨.loadLibrary _, h⟩ => gained h .library
  | ⟨.freeLibrary h, _⟩ => .gives (.library h)
  | ⟨.createWindow, h⟩ => gained h .window
  | ⟨.createEdit _, h⟩ => gained h .window
  | ⟨.destroyWindow h, _⟩ => .gives (.window h)
  | ⟨.immCreateContext, h⟩ => gained h .context
  | ⟨.immDestroyContext h, _⟩ => .gives (.context h)
  | ⟨.immGetContext hwnd, h⟩ => gained h (.lent hwnd)
  | ⟨.immReleaseContext hwnd h, _⟩ => .gives (.lent hwnd h)
  | _ => .other

/-- A key of a window. -/
abbrev Key : Type := Handle × UInt32

def press : Event Call.Answer → Mark Key
  | ⟨.sendKey hwnd down vk _, _⟩ => if down then .gains (hwnd, vk) else .gives (hwnd, vk)
  | _ => .other

def held (w : Process) : Option (Multiset Resource) := account (w.past.map mark)

/-- The keys that are down, the last one first, as long as none has been let go before a later one. -/
def keysDown (w : Process) : Option (List Key) := nested (w.past.map press)

abbrev assets (w : Process) : Fields × Option (Multiset Resource) × Option (List Key) :=
  (w.state, held w, keysDown w)

def isQuiet : Call → Bool
  | .loadLibrary _ | .freeLibrary _ | .createWindow | .createEdit _ | .destroyWindow _
  | .immCreateContext | .immDestroyContext _ | .immGetContext _ | .immReleaseContext _ _
  | .sendKey _ _ _ _ => false
  | _ => true

abbrev Quiet (q : Call) : Prop := isQuiet q = true

theorem quiet_marks {q : Call} (hq : Quiet q) (a : q.Answer) :
    mark ⟨q, a⟩ = .other ∧ press ⟨q, a⟩ = .other := by
  cases q <;> first | exact ⟨rfl, rfl⟩ | cases hq

section

variable {α : Type} (os : Os)

theorem held_ask (q : Call) (w : Process) :
    held (ask os q w).2 = enter (held w) (mark ⟨q, (ask os q w).1⟩) := by
  rw [held, ask, List.map_append, account, List.foldl_append]
  rfl

theorem keysDown_ask (q : Call) (w : Process) :
    keysDown (ask os q w).2 = pass (keysDown w) (press ⟨q, (ask os q w).1⟩) := by
  rw [keysDown, ask, List.map_append, nested, List.foldl_append]
  rfl

theorem assets_ask (q : Call) (w : Process) :
    assets (ask os q w).2 = (w.state, enter (held w) (mark ⟨q, (ask os q w).1⟩),
      pass (keysDown w) (press ⟨q, (ask os q w).1⟩)) := by
  rw [← held_ask, ← keysDown_ask]
  rfl

theorem quiet_assets (s : Fields) (past : List (Event Call.Answer)) {events : List (Event Call.Answer)}
    (h : ∀ e ∈ events, Quiet e.call) : assets ⟨s, past ++ events⟩ = assets ⟨s, past⟩ := by
  induction events generalizing past with
  | nil => rw [List.append_nil]
  | cons e events ih =>
      obtain ⟨hquiet, hrest⟩ := List.forall_mem_cons.mp h
      obtain ⟨hmark, hpress⟩ := quiet_marks hquiet e.answer
      rw [List.append_cons, ih _ hrest]
      simp only [assets, held, keysDown, account, nested, List.map_append, List.foldl_append,
        List.map_cons, List.map_nil, List.foldl_cons, List.foldl_nil]
      rw [hmark, hpress]
      rfl

/-- Only calls that get or give something, or press a key, are to be seen. -/
theorem steady_of_asks {α : Type} {x : Run α} (hx : Asks Quiet x) : Steady assets x := by
  intro w
  obtain ⟨events, hrun, hevents⟩ := hx w
  rw [hrun]
  exact quiet_assets w.state w.past hevents

theorem asks_quiet {q : Call} (hq : Quiet q) : Asks Quiet (ask os q : Run q.Answer) := Asks.ask hq

theorem steady_quiet {q : Call} (hq : Quiet q) : Steady assets (ask os q) :=
  steady_of_asks (Asks.ask hq)

/-- What changes when a key of the window is pressed or let go. -/
def touch (m : Mark Key) (n : Fields × Option (Multiset Resource) × Option (List Key)) :
    Fields × Option (Multiset Resource) × Option (List Key) := (n.1, n.2.1, pass n.2.2 m)

theorem shifts_sendKey (hwnd : Handle) (down : Bool) (vk lParam : UInt32) :
    Shifts assets (touch (if down then .gains (hwnd, vk) else .gives (hwnd, vk)))
      (ask os (.sendKey hwnd down vk lParam)) := fun w => assets_ask os _ w

theorem touch_back (r : Key) (n : Fields × Option (Multiset Resource) × Option (List Key)) :
    touch (.gives r) (touch (.gains r) n) = n := by
  rw [touch, touch, pass_gains_gives]

theorem asks_keyLparamFromVk (vk : UInt32) (keyUp altDown : Bool) :
    Asks Quiet (keyLparamFromVk os vk keyUp altDown) :=
  Asks.bind (asks_quiet os rfl) fun _ => Asks.pure _

theorem shifts_sendModifierKey (target : Handle) (vk : UInt32) (keyDown altDown : Bool) :
    Shifts assets (touch (if keyDown then .gains (target, vk) else .gives (target, vk)))
      (sendModifierKey os target vk keyDown altDown) :=
  Shifts.bind (Shifts.of_steady (steady_of_asks (asks_keyLparamFromVk os _ _ _))) fun _ => shifts_sendKey os _ _ _ _

/-- A context that is lent is handed back, whatever is done with it in between. -/
theorem steady_lent {target : Handle} {x : Handle → Run α} (hx : ∀ h, Steady assets (x h))
    {failed : Run α} (hfailed : Steady assets failed) :
    Steady assets (do
      let h ← ask os (.immGetContext target)
      if h = 0 then failed
      else do
        let a ← x h
        ask os (.immReleaseContext target h)
        pure a) := by
  intro w
  let h := (ask os (.immGetContext target) w).1
  have hgot := assets_ask os (.immGetContext target) w
  have hmark : mark ⟨.immGetContext target, h⟩ = gained h (.lent target) := rfl
  have hrun : ((do
      let h ← ask os (.immGetContext target)
      if h = 0 then failed
      else do
        let a ← x h
        ask os (.immReleaseContext target h)
        pure a : Run α) w).2 = ((if h = 0 then failed else do
          let a ← x h
          ask os (.immReleaseContext target h)
          pure a) (ask os (.immGetContext target) w).2).2 := rfl
  rw [hrun]
  by_cases hnone : h = 0
  · rw [if_pos hnone, hfailed, hgot, hmark, gained, if_pos hnone]
    rfl
  · rw [if_neg hnone]
    have hafter := hx h (ask os (.immGetContext target) w).2
    rw [hgot, hmark, gained, if_neg hnone] at hafter
    have hback := assets_ask os (.immReleaseContext target h) (x h (ask os (.immGetContext target) w).2).2
    have hstate := congrArg Prod.fst hafter
    have hheld := congrArg (fun n => n.2.1) hafter
    have hkeys := congrArg (fun n => n.2.2) hafter
    dsimp only at hstate hheld hkeys
    rw [hstate, hheld, hkeys] at hback
    refine hback.trans ?_
    have hsame := enter_gains_gives (held w) (Resource.lent target h)
    exact congrArg (fun o => (w.state, o, keysDown w)) hsame

theorem steady_releaseOwn (himc : Handle) : Steady assets (releaseActiveHimc os himc false) := by
  refine Steady.bind (fun _ => rfl) fun s => ?_
  cases windowed s with
  | some r =>
      change Steady assets (when (false = true) (ask os (.immReleaseContext r.target himc)))
      rw [when_neg Bool.false_ne_true]
      exact Steady.pure _
  | none => exact Steady.pure _

theorem ownHimc_lent {s : Fields} {himc : Handle} {borrowed : Bool}
    (h : ownHimc s = .ok (himc, borrowed)) : borrowed = false := by
  rw [ownHimc] at h
  split at h
  · split at h
    · cases h
      rfl
    · cases h
  · cases h

/-- The context that the worker has for itself. -/
def withOwn (failed : String → α) (x : Handle → Run α) (own : Except String (Handle × Bool)) : Run α :=
  match own with
  | .error err => pure (failed err)
  | .ok (himc, borrowed) => do
      let result ← x himc
      releaseActiveHimc os himc borrowed
      pure result

theorem steady_withOwn (failed : String → α) {x : Handle → Run α} (hx : ∀ himc, Steady assets (x himc))
    (s : Fields) : Steady assets (withOwn os failed x (ownHimc s)) := by
  cases hown : ownHimc s with
  | error err => exact Steady.pure _
  | ok lent =>
      obtain ⟨himc, borrowed⟩ := lent
      obtain rfl := ownHimc_lent hown
      exact Steady.bind (hx himc) fun _ => Steady.bind (steady_releaseOwn os himc) fun _ => Steady.pure _

theorem release_lent {s : Fields} {r : WinImmRuntime} (hwindow : windowed s = some r) (himc : Handle)
    {w : Process} (hstate : w.state = s) :
    releaseActiveHimc os himc true w = ask os (.immReleaseContext r.target himc) w := by
  have hrelease : releaseActiveHimc os himc true w = (windowed w.state).elim ((), w)
      (fun r => ask os (.immReleaseContext r.target himc) w) := by
    rw [releaseActiveHimc, bind_run, get_run]
    cases windowed w.state with
    | some r => rfl
    | none => rfl
  rw [hrelease, hstate, hwindow]
  rfl

/-- A context is had from the window, or else it is the worker's own. -/
theorem withHimc_window (failed : String → α) {x : Handle → Run α}
    (hx : ∀ himc, Steady assets (x himc)) {w : Process} {r : WinImmRuntime}
    (hwindow : windowed w.state = some r) :
    withHimc os failed x w = (do
      let h ← ask os (.immGetContext r.target)
      if h = 0 then withOwn os failed x (ownHimc w.state)
      else do
        let a ← x h
        ask os (.immReleaseContext r.target h)
        pure a : Run α) w := by
  let asked := ask os (.immGetContext r.target) w
  have hacquire : acquireActiveHimc os w =
      (if asked.1 ≠ 0 then .ok (asked.1, true) else ownHimc w.state, asked.2) := by
    rw [acquireActiveHimc, bind_run, get_run]
    dsimp only
    rw [hwindow]
    rfl
  have hrun : withHimc os failed x w =
      withOwn os failed x (acquireActiveHimc os w).1 (acquireActiveHimc os w).2 := by
    rw [withHimc, bind_run]
    rfl
  rw [hrun, hacquire]
  by_cases hnone : asked.1 = 0
  · rw [if_neg (not_not.mpr hnone), bind_run, if_pos hnone]
  · have hstate : (x asked.1 asked.2).2.state = w.state :=
      congrArg Prod.fst (hx asked.1 asked.2)
    rw [if_pos hnone, bind_run, if_neg hnone, bind_run, bind_run, ← release_lent os hwindow asked.1 hstate]
    rfl

theorem steady_withHimc (failed : String → α) {x : Handle → Run α}
    (hx : ∀ himc, Steady assets (x himc)) : Steady assets (withHimc os failed x) := by
  intro w
  cases hwindow : windowed w.state with
  | none =>
      have hrun : withHimc os failed x w = withOwn os failed x (ownHimc w.state) w := by
        simp only [withHimc, acquireActiveHimc, bind_run, get_run, hwindow]
        rfl
      rw [hrun]
      exact steady_withOwn os failed hx w.state w
  | some r =>
      rw [withHimc_window os failed hx hwindow]
      exact steady_lent os hx (steady_withOwn os failed hx w.state) w

theorem steady_ensureContextAlive (r : WinImmRuntime) :
    Steady assets (WinImmRuntime.ensureContextAlive os r) := by
  rw [WinImmRuntime.ensureContextAlive]
  apply Steady.ite _ (Steady.pure _)
  exact steady_lent os (x := fun _ => pure true) (fun _ => Steady.pure _) (Steady.pure false)

theorem asks_loadLayout (names : List String) : Asks Quiet (loadLayout os names) := by
  induction names with
  | nil => exact Asks.pure _
  | cons name names ih =>
      apply Asks.bind (asks_quiet os rfl)
      intro hkl
      exact Asks.ite (Asks.pure _) ih

theorem asks_switchLayout (target chosen : Handle) :
    Asks Quiet (switchLayout os target chosen) := by
  apply Asks.when
  apply Asks.bind (asks_quiet os rfl)
  intro _
  exact Asks.bind (asks_quiet os rfl) fun _ => asks_quiet os rfl

theorem asks_ensureImeLayout : Asks Quiet (ensureImeLayout os) := by
  apply Asks.bind Asks.get
  intro s
  cases windowed s with
  | some r =>
      apply Asks.bind (asks_quiet os rfl)
      intro current
      apply Asks.bind (asks_loadLayout os layouts)
      intro loaded
      exact asks_switchLayout os _ _
  | none => exact Asks.pure _

theorem asks_selectIme (himc : Handle) : Asks Quiet (selectIme os himc) := by
  apply Asks.bind Asks.get
  intro s
  cases s.imeExports with
  | some exports =>
      apply Asks.bind (Asks.when (asks_quiet os rfl))
      intro _
      exact Asks.when (asks_quiet os rfl)
  | none => exact Asks.pure _

theorem asks_showIme (himc : Handle) : Asks Quiet (showIme os himc) := by
  apply Asks.bind Asks.get
  intro s
  cases windowed s with
  | some r =>
      apply Asks.bind (asks_quiet os rfl)
      intro _
      apply Asks.bind (asks_quiet os rfl)
      intro defIme
      apply Asks.when
      apply Asks.bind (asks_quiet os rfl)
      intro _
      apply Asks.bind (asks_quiet os rfl)
      intro _
      exact Asks.bind (asks_quiet os rfl) fun _ => asks_quiet os rfl
  | none => exact Asks.pure _

theorem asks_activated (himc : Handle) : Asks Quiet (activateIn os himc) := by
  apply Asks.bind (asks_ensureImeLayout os)
  intro _
  apply Asks.bind (asks_selectIme os himc)
  intro _
  apply Asks.bind (asks_quiet os rfl)
  intro _
  apply Asks.bind (asks_quiet os rfl)
  intro _
  exact Asks.bind (asks_showIme os himc) fun _ => asks_quiet os rfl

theorem steady_activateQqIme : Steady assets (activateQqIme os) :=
  steady_withHimc os _ fun himc => steady_of_asks (asks_activated os himc)

theorem steady_resetImm : Steady assets (resetImm os) := by
  apply Steady.bind (fun _ => rfl)
  intro s
  cases s.runtime with
  | some r =>
      exact Steady.bind (steady_ensureContextAlive os r) fun _ => steady_activateQqIme os
  | none => exact steady_activateQqIme os

theorem steady_immRuntimeAvailable : Steady assets (immRuntimeAvailable os) := by
  apply Steady.bind (fun _ => rfl)
  intro s
  cases s.runtime with
  | some r => exact steady_ensureContextAlive os r
  | none => exact Steady.pure _

theorem asks_resolve (virtualKey : UInt32) (hkl : Handle) :
    Asks Quiet (resolveVkAndModifiers os virtualKey hkl) := by
  rw [resolveVkAndModifiers]
  apply Asks.ite _ (Asks.pure _)
  apply Asks.bind (asks_quiet os rfl)
  intro packed
  exact Asks.ite (Asks.pure _) (Asks.pure _)

theorem asks_layoutOf (target : Option WinImmRuntime) : Asks Quiet (layoutOf os target) := by
  apply Asks.bind (asks_quiet os rfl)
  intro current
  cases target with
  | some r =>
      apply Asks.bind (asks_quiet os rfl)
      intro thread
      exact Asks.ite (asks_quiet os rfl) (Asks.pure _)
  | none => exact Asks.pure _

theorem asks_strokeOf (keyEvent : Worker.BackendKeyEvent) (target : Option WinImmRuntime) :
    Asks Quiet (strokeOf os keyEvent target) := by
  apply Asks.bind (asks_quiet os rfl)
  intro state
  apply Asks.bind (asks_layoutOf os target)
  intro hkl
  apply Asks.bind (asks_resolve os _ hkl)
  intro resolved
  have hscan : Asks Quiet (scanOf os keyEvent resolved.vk) :=
    Asks.ite (Asks.pure _) (asks_quiet os rfl)
  exact Asks.bind hscan fun scan => Asks.pure _

theorem asks_translateByImm (target : Handle) (k : Stroke) (lparam : UInt32) :
    Asks Quiet (translateByImm os target k lparam) := by
  apply Asks.bind Asks.get
  intro s
  cases s.imm32Exports with
  | some imm32 =>
      have hflags : Asks Quiet (immFlagsOf os imm32 target k lparam) :=
        Asks.ite (asks_quiet os rfl) (Asks.pure _)
      exact Asks.bind hflags fun immFlags => Asks.when (asks_quiet os rfl)
  | none => exact Asks.pure _

theorem asks_makeImeVkey (k : Stroke) : Asks Quiet (makeImeVkey os k) := by
  apply Asks.bind (asks_quiet os rfl)
  rintro ⟨n, wide⟩
  apply Asks.ite (Asks.pure _)
  exact Asks.bind (asks_quiet os rfl) fun _ => Asks.pure _

theorem asks_sendTranslated (target : Handle) (msgs : List TransMsg) :
    Asks Quiet (sendTranslated os target msgs) := by
  induction msgs with
  | nil => exact Asks.pure _
  | cons m msgs ih => exact Asks.bind (asks_quiet os rfl) fun _ => ih

theorem asks_callExports (target : Option WinImmRuntime) (himc : Handle) (k : Stroke)
    (lparam : UInt32) : Asks Quiet (callExports os target himc k lparam) := by
  apply Asks.bind (asks_makeImeVkey os k)
  intro imeVk
  apply Asks.bind (asks_quiet os rfl)
  intro _
  apply Asks.bind (asks_quiet os rfl)
  intro trans
  cases target with
  | some r => exact asks_sendTranslated os _ _
  | none => exact Asks.pure _

abbrev Assets : Type := Fields × Option (Multiset Resource) × Option (List Key)

def whenTouch (c : Bool) (m : Mark Key) (n : Assets) : Assets := if c then touch m n else n

/-- The modifiers of a key, as they go down and as they come up. -/
def modifiersDownTo (target : Handle) (k : Stroke) (n : Assets) : Assets :=
  whenTouch k.alt (.gains (target, vkMenu)) (whenTouch k.shift (.gains (target, vkShift))
    (whenTouch k.ctrl (.gains (target, vkControl)) n))

def modifiersUpFrom (target : Handle) (k : Stroke) (n : Assets) : Assets :=
  whenTouch k.ctrl (.gives (target, vkControl)) (whenTouch k.shift (.gives (target, vkShift))
    (whenTouch k.alt (.gives (target, vkMenu)) n))

theorem whenTouch_back (c : Bool) (r : Key) (n : Assets) :
    whenTouch c (.gives r) (whenTouch c (.gains r) n) = n := by
  cases c with
  | false => rfl
  | true => exact touch_back r n

theorem modifiersUp_down (target : Handle) (k : Stroke) (n : Assets) :
    modifiersUpFrom target k (modifiersDownTo target k n) = n := by
  rw [modifiersUpFrom, modifiersDownTo, whenTouch_back, whenTouch_back, whenTouch_back]

theorem shifts_modifiersDown (target : Handle) (k : Stroke) :
    Shifts assets (modifiersDownTo target k) (modifiersDown os target k) := by
  have hctrl := Shifts.when (c := k.ctrl) (shifts_sendModifierKey os target vkControl true k.alt)
  have hshift := Shifts.when (c := k.shift) (shifts_sendModifierKey os target vkShift true k.alt)
  have halt := Shifts.when (c := k.alt) (shifts_sendModifierKey os target vkMenu true true)
  have hall := Shifts.bind hctrl fun _ => Shifts.bind hshift fun _ => halt
  exact hall

theorem shifts_modifiersUp (target : Handle) (k : Stroke) :
    Shifts assets (modifiersUpFrom target k) (modifiersUp os target k) := by
  have halt := Shifts.when (c := k.alt) (shifts_sendModifierKey os target vkMenu false true)
  have hshift := Shifts.when (c := k.shift) (shifts_sendModifierKey os target vkShift false k.alt)
  have hctrl := Shifts.when (c := k.ctrl) (shifts_sendModifierKey os target vkControl false k.alt)
  have hall := Shifts.bind halt fun _ => Shifts.bind hshift fun _ => hctrl
  exact hall

theorem asks_sendChar (target : Handle) (char : Option UInt16) :
    Asks Quiet (char.elim (pure ()) fun ch =>
      ask os (.sendMessage target wmChar ch.toUInt32 1) : Run Unit) := by
  cases char with
  | none => exact Asks.pure _
  | some ch => exact asks_quiet os rfl

/-- What is pressed for a key is let go in the other order, whatever comes in between. -/
theorem steady_strike (r : WinImmRuntime) (himc : Handle) (k : Stroke) (lparam : UInt32) :
    Steady assets (strike os r himc k lparam) := by
  have hdown := shifts_modifiersDown os r.target k
  have hpressed := shifts_sendKey os r.target true k.vk lparam
  have htranslated := Shifts.of_steady (steady_of_asks (asks_translateByImm os r.target k lparam))
  have hpumped := Shifts.of_steady (steady_quiet os (q := .pumpMessages) rfl)
  have hcalled := Shifts.of_steady (steady_of_asks (asks_callExports os (some r) himc k lparam))
  have hlparam := Shifts.of_steady (steady_of_asks (asks_keyLparamFromVk os k.vk true k.alt))
  have hreleased := shifts_sendKey os r.target false k.vk
  have hchar := Shifts.of_steady (steady_of_asks (asks_sendChar os r.target k.char))
  have hup := shifts_modifiersUp os r.target k
  have hstrike := Shifts.bind hdown fun _ => Shifts.bind hpressed fun _ =>
    Shifts.bind htranslated fun _ => Shifts.bind hpumped fun _ => Shifts.bind hcalled fun _ =>
      Shifts.bind hlparam fun l => Shifts.bind (hreleased l) fun _ =>
        Shifts.bind hchar fun _ => hup
  apply Shifts.steady hstrike
  intro n
  have hback := touch_back (r.target, k.vk) (modifiersDownTo r.target k n)
  exact (congrArg (modifiersUpFrom r.target k) hback).trans (modifiersUp_down r.target k n)

theorem steady_driveKey (keyEvent : Worker.BackendKeyEvent) (himc : Handle) :
    Steady assets (driveKey os keyEvent himc) := by
  apply Steady.bind (fun _ => rfl)
  intro s
  apply Steady.bind (steady_of_asks (asks_strokeOf os keyEvent _))
  intro k
  apply Steady.bind (steady_of_asks (asks_keyLparamFromVk os _ _ _))
  intro lparam
  cases (windowed s).filter fun _ => keyEvent.keyDown with
  | some r => exact Steady.bind (steady_strike os r himc k lparam) fun _ => steady_quiet os rfl
  | none =>
      exact Steady.bind (steady_of_asks (asks_callExports os _ himc k lparam)) fun _ =>
        steady_quiet os rfl

theorem steady_driveQqImeKey (keyEvent : Worker.BackendKeyEvent) :
    Steady assets (driveQqImeKey os keyEvent) := by
  apply Steady.bind (fun _ => rfl)
  intro s
  exact Steady.ite (Steady.pure _) (steady_withHimc os _ (steady_driveKey os keyEvent))

theorem asks_failed (f : String → α) : Asks Quiet (do
    let err ← ask os .lastError
    pure (f err) : Run α) := Asks.bind (asks_quiet os rfl) fun _ => Asks.pure _

theorem asks_readImmString (himc : Handle) (kind : Text) :
    Asks Quiet (readImmString os himc kind) := by
  apply Asks.bind (asks_quiet os rfl)
  intro size
  apply Asks.ite (asks_failed os _)
  apply Asks.ite (Asks.pure _)
  apply Asks.bind (asks_quiet os rfl)
  intro units
  cases units with
  | some units => exact Asks.pure _
  | none => exact asks_failed os _

theorem asks_listCount (himc : Handle) : Asks Quiet (listCount os himc) := by
  apply Asks.bind (asks_quiet os rfl)
  intro wide
  apply Asks.ite (Asks.pure _)
  exact Asks.bind (asks_quiet os rfl) fun ansi => Asks.pure _

theorem asks_listSize (himc : Handle) (listIndex : UInt32) :
    Asks Quiet (listSize os himc listIndex) := by
  apply Asks.bind (asks_quiet os rfl)
  intro wide
  apply Asks.ite (Asks.pure _)
  exact Asks.bind (asks_quiet os rfl) fun ansi => Asks.pure _

theorem asks_readLists (himc : Handle) (maxCandidates left : Nat) (listIndex : UInt32) :
    Asks Quiet (readLists os himc maxCandidates left listIndex) := by
  induction left generalizing listIndex with
  | zero => exact Asks.pure _
  | succ left ih =>
      apply Asks.bind (asks_listSize os himc listIndex)
      rintro ⟨size, useAnsi⟩
      apply Asks.ite (ih _)
      apply Asks.bind (asks_quiet os rfl)
      intro written
      dsimp only
      cases written.bind fun buffer => pageOf buffer useAnsi listIndex maxCandidates with
      | none => exact ih _
      | some page => exact Asks.pure _

theorem asks_readSnapshot (maxCandidates : Nat) (himc : Handle) :
    Asks Quiet (readSnapshot os maxCandidates himc) := by
  apply Asks.bind (asks_readImmString os himc .composition)
  intro comp
  cases comp with
  | error err => exact Asks.pure _
  | ok comp =>
      apply Asks.bind (asks_readImmString os himc .reading)
      intro reading
      apply Asks.bind (Asks.bind (asks_listCount os himc) fun _ => asks_readLists os himc _ _ _)
      intro page
      exact Asks.pure _

end

section

variable {α E ν : Type} {v : E → ν} {imm : Backends.Imm E}

open Backends Backends.WinImmBackend

/-- None of the calls into the IMM changes what is to be seen. -/
structure Unseen (v : E → ν) (imm : Imm E) : Prop where
  activate : Steady v imm.activate
  driveKey : ∀ keyEvent, Steady v (imm.driveKey keyEvent)
  available : Steady v imm.available
  read : ∀ maxCandidates, Steady v (imm.read maxCandidates)

abbrev outer (v : E → ν) (s : WinImm E) : ν := v s.2

theorem steady_onImm {op : Act E α} (h : Steady v op) : Steady (outer v) (onImm op) := fun s => h s.2

theorem steady_update (f : WinImmBackend → WinImmBackend) :
    Steady (outer v) (WinImmBackend.update f) := fun _ => rfl

theorem steady_fallBack (max : Nat) (refusal : String) :
    Steady (outer v) (fallBack max refusal) := by
  apply Steady.bind (fun _ => rfl)
  intro forced
  apply Steady.ite (Steady.pure _)
  exact Steady.bind (steady_update _) fun _ => Steady.pure _

theorem steady_refreshFromImm (h : Unseen v imm) (max : Nat) :
    Steady (outer v) (refreshFromImm imm max) := by
  apply Steady.bind (steady_onImm (h.read max))
  intro read
  cases read with
  | error e => exact Steady.pure _
  | ok r => exact Steady.bind (steady_update _) fun _ => Steady.pure _

theorem steady_refreshCandidates (h : Unseen v imm) (max : Nat)
    (unlisted : UInt32 × UInt32 → Except String (UInt32 × UInt32)) :
    Steady (outer v) (refreshCandidates imm max unlisted) := by
  apply Steady.bind (steady_onImm h.available)
  intro available
  apply Steady.ite _ (steady_fallBack max _)
  apply Steady.bind (steady_refreshFromImm h max)
  intro report
  cases report with
  | error e => exact steady_fallBack max _
  | ok report =>
      apply Steady.bind (fun _ => rfl)
      intro b
      apply Steady.ite _ (Steady.pure _)
      apply Steady.ite (Steady.pure _)
      exact Steady.bind (steady_update _) fun _ => Steady.pure _

theorem steady_finish (page : Except String (UInt32 × UInt32)) :
    Steady (outer v) (finish (E := E) page) := by
  cases page with
  | error e => exact Steady.pure _
  | ok page => exact Steady.bind (fun _ => rfl) fun b => Steady.pure _

theorem steady_reset (h : Unseen v imm) : Steady (outer v) (resetForNewSession imm) := by
  apply Steady.bind (steady_update _)
  intro _
  apply Steady.bind (steady_update _)
  intro _
  exact Steady.bind (steady_onImm h.activate) fun _ => fun _ => rfl

theorem steady_applyKeyEvent (h : Unseen v imm) (keyEvent : Worker.BackendKeyEvent) (max : Nat) :
    Steady (outer v) (applyKeyEvent imm keyEvent max) := by
  apply Steady.bind (steady_update _)
  intro _
  apply Steady.bind (steady_onImm (h.driveKey keyEvent))
  intro _
  apply Steady.bind (steady_update _)
  intro _
  exact Steady.bind (steady_refreshCandidates h _ _) fun page => steady_finish page

theorem steady_queryCandidates (h : Unseen v imm) (inputSnapshot : String) (max : Nat) :
    Steady (outer v) (queryCandidates imm inputSnapshot max) := by
  apply Steady.bind (steady_update _)
  intro _
  apply Steady.bind (steady_update _)
  intro _
  exact Steady.bind (steady_refreshCandidates h _ _) fun page => steady_finish page

theorem steady_commitSelection (committedText : String) (candidateIndex : Nat) :
    Steady (outer v) (commitSelection (E := E) committedText candidateIndex) := by
  apply Steady.bind (steady_update _)
  intro _
  apply Steady.bind (fun _ => rfl)
  intro b
  apply Steady.ite (Steady.pure _)
  exact Steady.bind (steady_update _) fun _ => Steady.pure _

theorem steady_answerOrError {β γ μ : Type} {u : β → μ} {b : Worker.ImeBackend β} {code : String}
    {answer : γ → Worker.WorkerIpcResponse} {op : Act β (Except String γ)} (h : Steady u op) :
    Steady u (Worker.answerOrError b code answer op) := by
  apply Steady.bind h
  intro result
  cases result with
  | ok result => exact Steady.pure _
  | error message => exact Steady.bind (fun _ => rfl) fun _ => Steady.pure _

theorem steady_request (h : Unseen v imm) (req : Worker.WorkerIpcRequest) :
    Steady (outer v) (Worker.handleBackendRequest (WinImmBackend.backend imm) req) := by
  cases req with
  | snapshot => exact Steady.bind (fun _ => rfl) fun _ => Steady.pure _
  | resetSession =>
      exact steady_answerOrError (Steady.bind (steady_reset h) fun _ => Steady.pure _)
  | sendKeyEvent keyEvent max => exact steady_answerOrError (steady_applyKeyEvent h keyEvent _)
  | queryCandidates snapshot max => exact steady_answerOrError (steady_queryCandidates h snapshot _)
  | commitSelection text index => exact steady_answerOrError (steady_commitSelection text index)

end

theorem unseen_imm (os : Os) : Unseen assets (imm os) where
  activate := steady_resetImm os
  driveKey := steady_driveQqImeKey os
  available := steady_immRuntimeAvailable os
  read maxCandidates :=
    steady_withHimc os Except.error fun himc => steady_of_asks (asks_readSnapshot os maxCandidates himc)

theorem steady_answers (os : Os) (requests : List Worker.WorkerIpcRequest) :
    Steady (outer assets) (answers os requests) := by
  induction requests with
  | nil => exact Steady.pure _
  | cons req reqs ih =>
      apply Steady.bind (steady_request (unseen_imm os) req)
      intro resp
      exact Steady.bind ih fun _ => Steady.pure _

end RimeWinime.WinImm
