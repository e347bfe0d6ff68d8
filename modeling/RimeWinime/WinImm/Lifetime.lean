import RimeWinime.WinImm.Account

namespace RimeWinime.WinImm

open World Outside Ledger Nesting

/-- What a handle adds to what is held. -/
def added (h : Handle) (r : Handle → Resource) : Multiset Resource := if h = 0 then 0 else {r h}

def windows (hwnd targetHwnd : Handle) : Multiset Resource :=
  {.window hwnd} + if targetHwnd ≠ hwnd then {.window targetHwnd} else 0

/-- A runtime without a window has only its context. -/
def WinImmRuntime.owned (r : WinImmRuntime) : Multiset Resource :=
  (if r.hwnd = 0 then 0 else windows r.hwnd r.target) + {.context r.himc}

def QqImeExports.owned (e : QqImeExports) : Multiset Resource := {.library e.module}

def Imm32Exports.owned (e : Imm32Exports) : Multiset Resource := {.library e.module}

/-- What the fields of the backend name. -/
def Fields.owned (s : Fields) : Multiset Resource :=
  (s.imm32Exports.elim 0 Imm32Exports.owned + s.imeExports.elim 0 QqImeExports.owned) +
    s.runtime.elim 0 WinImmRuntime.owned

/-- A window that is made inside of another one is another one. -/
def Fresh (os : Os) : Prop := ∀ past parent, os past (.createEdit parent) ≠ parent

/-- This is just what is held, and no key is down. -/
structure At (s : Fields) (m : Multiset Resource) (w : Process) : Prop where
  state : w.state = s
  held : held w = some m
  keys : keysDown w = some []

def isKey : Call → Bool
  | .sendKey _ _ _ _ => true
  | _ => false

theorem press_other {q : Call} (hq : isKey q = false) (a : q.Answer) : press ⟨q, a⟩ = .other := by
  cases q <;> first | rfl | cases hq

section

variable {α : Type} {os : Os} {s : Fields} {m m' : Multiset Resource} {w : Process}

theorem enter_gained (h : Handle) (r : Handle → Resource) :
    enter (some m) (gained h r) = some (m + added h r) := by
  rw [gained, added]
  by_cases hnone : h = 0
  · rw [if_pos hnone, if_pos hnone, add_zero]
    rfl
  · rw [if_neg hnone, if_neg hnone, add_comm]
    rfl

theorem enter_gives_last (r : Resource) : enter (some (m + {r})) (.gives r) = some m := by
  rw [add_comm]
  exact enter_gains_gives (some m) r

theorem At.step {x : Run α} (hw : At s m w) (hx : Steady assets x) : At s m (x w).2 := by
  have hsame := hx w
  have hstate : (x w).2.state = w.state := congrArg Prod.fst hsame
  have hheld : WinImm.held (x w).2 = WinImm.held w := congrArg (fun n => n.2.1) hsame
  have hkeys : keysDown (x w).2 = keysDown w := congrArg (fun n => n.2.2) hsame
  exact ⟨hstate.trans hw.state, hheld.trans hw.held, hkeys.trans hw.keys⟩

theorem At.quiet {q : Call} (hw : At s m w) (hq : isQuiet q = true) : At s m (ask os q w).2 :=
  hw.step (steady_quiet os hq)

theorem At.asked {q : Call} (hw : At s m w) (hq : isKey q = false)
    (hmark : enter (some m) (mark ⟨q, (ask os q w).1⟩) = some m') : At s m' (ask os q w).2 := by
  refine ⟨hw.state, ?_, ?_⟩
  · rw [held_ask, hw.held, hmark]
  · rw [keysDown_ask, hw.keys, press_other hq]
    rfl

theorem At.gives {q : Call} {r : Resource} (hw : At s (m + {r}) w) (hq : isKey q = false)
    (hmark : mark ⟨q, (ask os q w).1⟩ = .gives r) : At s m (ask os q w).2 := by
  refine hw.asked hq ?_
  rw [hmark]
  exact enter_gives_last r

theorem At.swallowed {x : Run Handle} (hw : At s m (x w).2) : At s m (swallow x w).2 := hw

variable (os)

theorem at_bindExports {module : Handle} (hw : At s (m + {.library module}) w) :
    At s (m + (QqImeExports.bindExports os module w).1.elim 0 QqImeExports.owned)
      (QqImeExports.bindExports os module w).2 := by
  let process := ask os (.getProcAddress module "ImeProcessKey") w
  let toAscii := ask os (.getProcAddress module "ImeToAsciiEx") process.2
  let select := ask os (.getProcAddress module "ImeSelect") toAscii.2
  let setActive := ask os (.getProcAddress module "ImeSetActiveContext") select.2
  have hbound : At s (m + {.library module}) setActive.2 :=
    (((hw.quiet rfl).quiet rfl).quiet rfl).quiet rfl
  have hrun : QqImeExports.bindExports os module w =
      (if process.1 && toAscii.1 then pure (some ⟨module, select.1, setActive.1⟩)
      else do
        ask os (.freeLibrary module)
        pure none : Run (Option QqImeExports)) setActive.2 := rfl
  rw [hrun]
  by_cases hfound : (process.1 && toAscii.1) = true
  · rw [if_pos hfound]
    exact hbound
  · rw [if_neg hfound]
    have hfreed : At s m (ask os (.freeLibrary module) setActive.2).2 := hbound.gives rfl rfl
    exact (add_zero m).symm ▸ hfreed

theorem at_loadFrom (paths : List String) (hw : At s m w) :
    At s (m + (QqImeExports.loadFrom os paths w).1.elim 0 QqImeExports.owned)
      (QqImeExports.loadFrom os paths w).2 := by
  induction paths generalizing w with
  | nil => exact (add_zero m).symm ▸ hw
  | cons path paths ih =>
      let module := (ask os (.loadLibrary path) w).1
      let loaded := (ask os (.loadLibrary path) w).2
      have hloaded : At s (m + added module .library) loaded := hw.asked rfl (enter_gained module _)
      have hrun : QqImeExports.loadFrom os (path :: paths) w =
          (if module = 0 then QqImeExports.loadFrom os paths
          else do
            let found ← QqImeExports.bindExports os module
            if found.isSome then pure found else QqImeExports.loadFrom os paths :
              Run (Option QqImeExports)) loaded := rfl
      rw [hrun]
      rw [added] at hloaded
      by_cases hnone : module = 0
      · rw [if_pos hnone]
        rw [if_pos hnone, add_zero] at hloaded
        exact ih hloaded
      · rw [if_neg hnone, bind_run]
        rw [if_neg hnone] at hloaded
        have hbound := at_bindExports os hloaded
        cases hfound : (QqImeExports.bindExports os module loaded).1 with
        | some e =>
            rw [hfound] at hbound
            exact hbound
        | none =>
            rw [hfound, Option.elim_none, add_zero] at hbound
            exact ih hbound

theorem at_loadExports (hw : At s m w) :
    At s (m + (QqImeExports.load os w).1.elim 0 QqImeExports.owned) (QqImeExports.load os w).2 :=
  at_loadFrom os _ (hw.quiet rfl)

theorem at_loadImm32 (hw : At s m w) :
    At s (m + (Imm32Exports.load os w).1.elim 0 Imm32Exports.owned) (Imm32Exports.load os w).2 := by
  let module := (ask os (.loadLibrary "imm32.dll") w).1
  let loaded := (ask os (.loadLibrary "imm32.dll") w).2
  have hloaded : At s (m + added module .library) loaded := hw.asked rfl (enter_gained module _)
  have hrun : Imm32Exports.load os w = (if module = 0 then pure none else do
      let process ← ask os (.getProcAddress module "ImmProcessKey")
      let translate ← ask os (.getProcAddress module "ImmTranslateMessage")
      pure (some ⟨module, process, translate⟩) : Run (Option Imm32Exports)) loaded := rfl
  rw [hrun]
  rw [added] at hloaded
  by_cases hnone : module = 0
  · rw [if_pos hnone]
    rw [if_pos hnone] at hloaded
    exact hloaded
  · rw [if_neg hnone]
    rw [if_neg hnone] at hloaded
    exact (hloaded.quiet rfl).quiet rfl

theorem at_destroyWindows {hwnd targetHwnd : Handle} (hw : At s (m + windows hwnd targetHwnd) w) :
    At s m (WinImmRuntime.destroyWindows os hwnd targetHwnd w).2 := by
  rw [WinImmRuntime.destroyWindows, bind_run]
  rw [windows, ← add_assoc] at hw
  by_cases hinner : targetHwnd ≠ hwnd
  · rw [when_pos hinner]
    rw [if_pos hinner] at hw
    have hdestroyed : At s (m + {.window hwnd}) (ask os (.destroyWindow targetHwnd) w).2 :=
      hw.gives rfl rfl
    exact hdestroyed.gives rfl rfl
  · rw [when_neg hinner]
    rw [if_neg hinner, add_zero] at hw
    exact hw.gives rfl rfl

theorem owned_windowed {r : WinImmRuntime} (hwnd : r.hwnd ≠ 0) :
    r.owned = windows r.hwnd r.target + {.context r.himc} := by
  rw [WinImmRuntime.owned, if_neg hwnd]

theorem target_of_ne {r : WinImmRuntime} (h : r.targetHwnd ≠ 0) : r.target = r.targetHwnd := if_pos h

theorem at_tryContext {r : WinImmRuntime} (hwnd : r.hwnd ≠ 0) (htarget : r.targetHwnd ≠ 0)
    (hw : At s (m + r.owned) w) :
    At s (m + (WinImmRuntime.tryContext os r w).1.toOption.elim 0 WinImmRuntime.owned)
      (WinImmRuntime.tryContext os r w).2 := by
  let active := (ask os (.immGetContext r.targetHwnd) w).1
  let tried := (ask os (.immGetContext r.targetHwnd) w).2
  have htried : At s (m + r.owned + added active (.lent r.targetHwnd)) tried :=
    hw.asked rfl (enter_gained active _)
  have hrun : WinImmRuntime.tryContext os r w = (if active = 0 then do
      swallow (ask os (.immAssociateContext r.targetHwnd r.previousHimc))
      ask os (.immDestroyContext r.himc)
      WinImmRuntime.destroyWindows os r.hwnd r.targetHwnd
      pure (.error "ImmGetContext returned null after ImmAssociateContext")
    else do
      ask os (.immReleaseContext r.targetHwnd active)
      pure (.ok r) : Run (Except String WinImmRuntime)) tried := rfl
  rw [hrun]
  rw [added] at htried
  by_cases hnone : active = 0
  · rw [if_pos hnone]
    rw [if_pos hnone, add_zero, owned_windowed hwnd, target_of_ne htarget, ← add_assoc] at htried
    have hput : At s (m + windows r.hwnd r.targetHwnd + {.context r.himc})
        (ask os (.immAssociateContext r.targetHwnd r.previousHimc) tried).2 := htried.quiet rfl
    have hdestroyed : At s (m + windows r.hwnd r.targetHwnd) (ask os (.immDestroyContext r.himc)
        (swallow (ask os (.immAssociateContext r.targetHwnd r.previousHimc)) tried).2).2 :=
      hput.swallowed.gives rfl rfl
    exact (add_zero m).symm ▸ at_destroyWindows os hdestroyed
  · rw [if_neg hnone]
    rw [if_neg hnone] at htried
    exact htried.gives rfl rfl

theorem at_withWindow (hos : Fresh os) {himc hwnd : Handle} (hwnd_ne : hwnd ≠ 0)
    (hw : At s (m + {.context himc} + {.window hwnd}) w) :
    At s (m + (WinImmRuntime.withWindow os himc hwnd w).1.toOption.elim 0 WinImmRuntime.owned)
      (WinImmRuntime.withWindow os himc hwnd w).2 := by
  let edit := (ask os (.createEdit hwnd) w).1
  let targetHwnd := if edit = 0 then hwnd else edit
  let previous := ask os (.immAssociateContext targetHwnd himc) (ask os (.createEdit hwnd) w).2
  let r : WinImmRuntime := ⟨hwnd, targetHwnd, himc, previous.1⟩
  have htarget : targetHwnd ≠ 0 := by
    by_cases hnone : edit = 0
    · rw [show targetHwnd = hwnd from if_pos hnone]
      exact hwnd_ne
    · rw [show targetHwnd = edit from if_neg hnone]
      exact hnone
  have hmade : At s (m + {.context himc} + {.window hwnd} + added edit .window)
      (ask os (.createEdit hwnd) w).2 := hw.asked rfl (enter_gained edit _)
  have howned : m + {.context himc} + {.window hwnd} + added edit .window = m + r.owned := by
    have hinner : added edit .window = if targetHwnd ≠ hwnd then {.window targetHwnd} else 0 := by
      rw [added]
      by_cases hnone : edit = 0
      · have hsame : targetHwnd = hwnd := if_pos hnone
        rw [if_pos hnone, if_neg (not_not.mpr hsame)]
      · have hsame : targetHwnd = edit := if_neg hnone
        have hother : edit ≠ hwnd := hos _ _
        rw [if_neg hnone, hsame, if_pos hother]
    rw [owned_windowed (r := r) hwnd_ne, target_of_ne (r := r) htarget, windows, hinner]
    ac_rfl
  rw [howned] at hmade
  have hshown : At s (m + r.owned) (ask os (.showWindow hwnd)
      (swallow (ask os (.immAssociateContext hwnd himc)) previous.2).2).2 :=
    (At.swallowed ((hmade.quiet rfl).quiet rfl)).quiet rfl
  exact at_tryContext os hwnd_ne htarget hshown

theorem at_create (hos : Fresh os) (hw : At s m w) :
    At s (m + (WinImmRuntime.create os w).1.toOption.elim 0 WinImmRuntime.owned)
      (WinImmRuntime.create os w).2 := by
  let himc := (ask os .immCreateContext w).1
  let made := (ask os .immCreateContext w).2
  have hmade : At s (m + added himc .context) made := hw.asked rfl (enter_gained himc _)
  have hrun : WinImmRuntime.create os w = (if himc = 0 then do
      let err ← ask os .lastError
      pure (.error ("ImmCreateContext failed: " ++ err))
    else do
      let hwnd ← ask os .createWindow
      if hwnd = 0 then pure (.ok ⟨0, 0, himc, 0⟩) else WinImmRuntime.withWindow os himc hwnd :
        Run (Except String WinImmRuntime)) made := rfl
  rw [hrun]
  rw [added] at hmade
  by_cases hnone : himc = 0
  · rw [if_pos hnone]
    rw [if_pos hnone] at hmade
    exact hmade.quiet rfl
  · rw [if_neg hnone, bind_run]
    rw [if_neg hnone] at hmade
    let hwnd := (ask os .createWindow made).1
    have hopened : At s (m + {.context himc} + added hwnd .window) (ask os .createWindow made).2 :=
      hmade.asked rfl (enter_gained hwnd _)
    rw [added] at hopened
    by_cases hheadless : hwnd = 0
    · rw [if_pos hheadless]
      rw [if_pos hheadless, add_zero] at hopened
      have howned : m + (⟨0, 0, himc, 0⟩ : WinImmRuntime).owned = m + {.context himc} :=
        congrArg (m + ·) (zero_add _)
      rw [← howned] at hopened
      exact hopened
    · rw [if_neg hheadless]
      rw [if_neg hheadless] at hopened
      exact at_withWindow os hos hheadless hopened

theorem inner_iff (r : WinImmRuntime) :
    (r.targetHwnd ≠ 0 && r.targetHwnd ≠ r.hwnd) = true ↔ r.target ≠ r.hwnd := by
  rw [WinImmRuntime.target]
  by_cases hnone : r.targetHwnd = 0
  · simp [hnone]
  · simp [hnone]

theorem at_dropRuntime {r : WinImmRuntime} (hw : At s (m + r.owned) w) :
    At s m (WinImmRuntime.drop os r w).2 := by
  rw [WinImmRuntime.owned, ← add_assoc] at hw
  by_cases hnone : r.hwnd = 0
  · have hwindow : ¬(r.hasWindow = true) := by simp [WinImmRuntime.hasWindow, hnone]
    have hrun : WinImmRuntime.drop os r w = (do
        ask os (.immDestroyContext r.himc)
        pure () : Run Unit) w := by
      rw [WinImmRuntime.drop, when_neg hwindow, when_neg hwindow]
      rfl
    rw [hrun]
    rw [if_pos hnone, add_zero] at hw
    exact hw.gives rfl rfl
  · have hwindow : r.hasWindow = true := by simp [WinImmRuntime.hasWindow, hnone]
    have hrun : WinImmRuntime.drop os r w = (do
        swallow (ask os (.immAssociateContext r.target r.previousHimc))
        ask os (.immDestroyContext r.himc)
        WinImmRuntime.destroyWindows os r.hwnd r.target : Run Unit) w := by
      rw [WinImmRuntime.drop, when_pos hwindow, when_pos hwindow, when_congr (inner_iff r)]
      rfl
    rw [hrun]
    rw [if_neg hnone] at hw
    have hput : At s (m + windows r.hwnd r.target + {.context r.himc})
        (ask os (.immAssociateContext r.target r.previousHimc) w).2 := hw.quiet rfl
    have hdestroyed : At s (m + windows r.hwnd r.target) (ask os (.immDestroyContext r.himc)
        (swallow (ask os (.immAssociateContext r.target r.previousHimc)) w).2).2 :=
      hput.swallowed.gives rfl rfl
    exact at_destroyWindows os hdestroyed

theorem at_fromEnv (hos : Fresh os) (hw : At {} 0 w) :
    At (fromEnv os w).2.state (fromEnv os w).2.state.owned (fromEnv os w).2 := by
  let forced := ask os (.envVar "IME_WINIMM_FORCE_REAL") w
  let runtime := WinImmRuntime.create os forced.2
  let exports := QqImeExports.load os runtime.2
  let imm32 := Imm32Exports.load os exports.2
  have hforced : At {} 0 forced.2 := hw.quiet rfl
  have hruntime := at_create os hos hforced
  have hexports := at_loadExports os hruntime
  have himm32 := at_loadImm32 os hexports
  have hstate : (fromEnv os w).2.state =
      ⟨runtime.1.toOption, exports.1, imm32.1, initErrorOf runtime.1 exports.1⟩ := rfl
  refine ⟨rfl, ?_, himm32.keys⟩
  have hheld : held (fromEnv os w).2 = held imm32.2 := rfl
  rw [hheld, himm32.held, hstate, Fields.owned, zero_add]
  apply congrArg some
  ac_rfl

theorem at_dropped {A : Type} {own : A → Multiset Resource} (drop : A → Run Unit) {a : Option A}
    (hdrop : ∀ a m w, At s (m + own a) w → At s m (drop a w).2)
    (hw : At s (m + a.elim 0 own) w) : At s m (a.elim (pure ()) drop w).2 := by
  cases a with
  | none =>
      rw [Option.elim_none, add_zero] at hw
      exact hw
  | some a => exact hdrop a m w hw

theorem at_dropBackend (hw : At s s.owned w) : At s 0 (dropBackend os w).2 := by
  have hrun : dropBackend os w = (do
      s.runtime.elim (pure ()) (WinImmRuntime.drop os)
      s.imeExports.elim (pure ()) (QqImeExports.drop os)
      s.imm32Exports.elim (pure ()) (Imm32Exports.drop os) : Run Unit) w := by
    rw [← hw.state]
    rfl
  rw [hrun]
  have hruntime := at_dropped (WinImmRuntime.drop os) (fun r _ _ => at_dropRuntime os (r := r)) hw
  have hexports := at_dropped (QqImeExports.drop os) (fun e _ _ h => h.gives rfl rfl) hruntime
  rw [← zero_add (Option.elim _ _ _)] at hexports
  exact at_dropped (Imm32Exports.drop os) (fun e _ _ h => h.gives rfl rfl) hexports

end

def started : Process := ⟨{}, []⟩

theorem at_workerRun {os : Os} (hos : Fresh os) (requests : List Worker.WorkerIpcRequest) :
    let w := (workerRun os requests started).2.2
    At w.state w.state.owned w := by
  intro w
  have hbegun : At (fromEnv os started).2.state (fromEnv os started).2.state.owned
      (fromEnv os started).2 := at_fromEnv os hos ⟨rfl, rfl, rfl⟩
  let reset := Backends.WinImmBackend.resetForNewSession (imm os) (fromEnv os started)
  have hreset : assets reset.2.2 = assets (fromEnv os started).2 :=
    steady_reset (unseen_imm os) (fromEnv os started)
  have hanswers : assets w = assets reset.2.2 := steady_answers os requests reset.2
  have hsame := hanswers.trans hreset
  have hstate : w.state = (fromEnv os started).2.state := congrArg Prod.fst hsame
  have hheld : held w = held (fromEnv os started).2 := congrArg (fun n => n.2.1) hsame
  have hkeys : keysDown w = keysDown (fromEnv os started).2 := congrArg (fun n => n.2.2) hsame
  rw [hstate]
  exact ⟨hstate, hheld.trans hbegun.held, hkeys.trans hbegun.keys⟩

/-- Windows with an input method that lists two candidates. -/
def listingOs : Os
  | _, .envVar _ => some "1"
  | _, .lastError => ""
  | _, .immCreateContext | _, .immAssociateContext _ _ | _, .immGetContext _ => (7 : Handle)
  | _, .immDestroyContext _ | _, .immReleaseContext _ _ => ()
  | _, .immSetOpenStatus _ | _, .immSetConversionStatus _ => ()
  | _, .immGetDefaultImeWnd _ => (0 : Handle)
  | _, .immProcessKey _ _ _ _ => (2 : UInt32)
  | _, .immTranslateMessage _ _ _ | _, .imeSelect _ | _, .imeSetActiveContext _ => ()
  | _, .imeProcessKey _ _ _ _ => true
  | _, .imeToAsciiEx _ _ _ _ => ⟨0, 0, fun _ => ⟨0, 0, 0⟩⟩
  | _, .createWindow => (5 : Handle)
  | _, .createEdit parent => parent + 1
  | _, .destroyWindow _ | _, .showWindow _ => ()
  | _, .loadLibrary _ => (2 : Handle)
  | _, .getProcAddress _ _ => true
  | _, .freeLibrary _ => ()
  | _, .getKeyboardState => none
  | _, .getKeyboardLayout _ | _, .loadKeyboardLayout _ => (0 : Handle)
  | _, .activateKeyboardLayout _ => ()
  | _, .getWindowThreadProcessId _ => (0 : UInt32)
  | _, .vkKeyScanEx ch _ => ch
  | _, .mapVirtualKey _ => (0 : UInt32)
  | _, .toUnicode _ _ _ | _, .toAsciiEx _ _ _ _ => (0, 0)
  | _, .sendKey _ _ _ _ | _, .sendMessage _ _ _ _ | _, .pumpMessages => ()
  | _, .compositionSize _ _ => (0 : Int)
  | _, .compositionString _ _ _ => none
  | _, .candidateListCount _ _ => (1 : UInt32)
  | _, .candidateListSize _ _ _ => (40 : UInt32)
  | _, .candidateList _ _ _ size =>
      if h : size = 40 then
        some ⟨MenuBounds.twoListed, by rw [h]; rfl, by rw [h]; decide, by rw [h]; decide, by decide⟩
      else none

theorem fresh_listingOs : Fresh listingOs := by
  intro past parent h
  have hsame : parent + 1 = parent := h
  grind

def oneKey : List Worker.WorkerIpcRequest :=
  [.sendKeyEvent ⟨true, 0x41, 0, true, false, false, false, false, 0, 0, 0⟩ 9, .queryCandidates "" 9]

end RimeWinime.WinImm
