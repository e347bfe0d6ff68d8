import Mathlib.Algebra.Order.Group.Multiset
import RimeWinime.Skeleton.Frame
import RimeWinime.Skeleton.Process

namespace RimeWinime.ImeHost

open World Outside Ledger

structure Handles where
  ime : Handle := 0
  hwnd : Handle := 0
  himc : Handle := 0
  listenSock : Handle := invalidSocket
  clientSock : Handle := invalidSocket
deriving DecidableEq

def State.handles (s : State) : Handles := ⟨s.ime, s.hwnd, s.himc, s.listenSock, s.clientSock⟩

def owns (none h : Handle) (r : Handle → Resource) : Multiset Resource := if h = none then 0 else {r h}

@[simp] theorem owns_none (none : Handle) (r : Handle → Resource) : owns none none r = 0 := if_pos rfl

def Handles.owned (h : Handles) : Multiset Resource :=
  owns 0 h.ime .library + owns 0 h.hwnd .window + owns 0 h.himc .context +
    owns invalidSocket h.listenSock .sock + owns invalidSocket h.clientSock .sock

abbrev assets (w : Program State Call.Answer) : Handles × Option (Multiset Resource) :=
  (w.state.handles, held w)

/-- These are the handles of the host, and just what it holds. -/
structure At (h : Handles) (w : Program State Call.Answer) : Prop where
  handles : w.state.handles = h
  held : held w = some h.owned

theorem owned_ime (h : Handles) (x : Handle) :
    ({ h with ime := x } : Handles).owned = ({ h with ime := 0 } : Handles).owned + owns 0 x .library := by
  simp only [Handles.owned, owns_none, zero_add]
  ac_rfl

theorem owned_hwnd (h : Handles) (x : Handle) :
    ({ h with hwnd := x } : Handles).owned =
      ({ h with hwnd := 0 } : Handles).owned + owns 0 x .window := by
  simp only [Handles.owned, owns_none, add_zero]
  ac_rfl

theorem owned_himc (h : Handles) (x : Handle) :
    ({ h with himc := x } : Handles).owned =
      ({ h with himc := 0 } : Handles).owned + owns 0 x .context := by
  simp only [Handles.owned, owns_none, add_zero]
  ac_rfl

theorem owned_listenSock (h : Handles) (x : Handle) :
    ({ h with listenSock := x } : Handles).owned =
      ({ h with listenSock := invalidSocket } : Handles).owned + owns invalidSocket x .sock := by
  simp only [Handles.owned, owns_none, add_zero]
  ac_rfl

theorem owned_clientSock (h : Handles) (x : Handle) :
    ({ h with clientSock := x } : Handles).owned =
      ({ h with clientSock := invalidSocket } : Handles).owned + owns invalidSocket x .sock := by
  simp only [Handles.owned, owns_none, add_zero]

theorem enter_gained (held : Multiset Resource) (none h : Handle) (r : Handle → Resource) :
    enter (some held) (gained none h r) = some (held + owns none h r) := by
  rw [gained, owns]
  by_cases hnone : h = none
  · rw [if_pos hnone, if_pos hnone, add_zero]
    rfl
  · rw [if_neg hnone, if_neg hnone, add_comm]
    rfl

theorem enter_gives_owned (held : Multiset Resource) {none h : Handle} (r : Handle → Resource)
    (hsome : h ≠ none) : enter (some (held + owns none h r)) (.gives (r h)) = some held := by
  rw [owns, if_neg hsome, add_comm]
  exact enter_gains_gives (some held) (r h)

section

variable {α β : Type} {os : Os} {h : Handles}

theorem assets_of_seen (w : Program State Call.Answer) :
    assets w = ((seen w).1.handles, (seen w).2.1) := by
  rw [seen_eq]
  rfl

theorem owning_of_seen {x : Run α} (hx : Steady seen x) : Steady assets x := by
  intro w
  rw [assets_of_seen, hx w, assets_of_seen]

theorem owning_modify {f : State → State} (hf : ∀ s, (f s).handles = s.handles) :
    Steady assets (modify f : Run Unit) := fun w => Prod.ext (hf w.state) rfl

theorem At.step {x : Run α} (hx : Steady assets x) {w : Program State Call.Answer} (hw : At h w) :
    At h (x w).2 :=
  ⟨(congrArg Prod.fst (hx w)).trans hw.handles, (congrArg Prod.snd (hx w)).trans hw.held⟩

theorem held_ask (q : Call) (w : Program State Call.Answer) :
    held (ask os q w).2 = enter (held w) (mark ⟨q, (ask os q w).1⟩) := by
  rw [held, ask, List.map_append, account, List.foldl_append]
  rfl

/-- A call and a note of it, so that the account stays right. -/
theorem At.booked {h' : Handles} {q : Call} {f : State → State} {w : Program State Call.Answer}
    (hw : At h w) (hmark : enter (some h.owned) (mark ⟨q, (ask os q w).1⟩) = some h'.owned)
    (hf : (f w.state).handles = h') : At h' (modify f (ask os q w).2).2 := by
  refine ⟨hf, (held_ask q w).trans ?_⟩
  rw [hw.held, hmark]

theorem enter_put {h' : Handles} {none x : Handle} {r : Handle → Resource}
    (howned : h'.owned = h.owned + owns none x r) :
    enter (some h.owned) (gained none x r) = some h'.owned := by
  rw [howned, enter_gained]

/-- A handle that is there is given back, and forgotten. -/
theorem At.closed {h' : Handles} {none x : Handle} {r : Handle → Resource} {q : Call}
    {f : State → State} {w : Program State Call.Answer} (hw : At h w) (hx : x ≠ none)
    (howned : h.owned = h'.owned + owns none x r) (hmark : ∀ a, mark ⟨q, a⟩ = .gives (r x))
    (hf : ∀ s, s.handles = h → (f s).handles = h') :
    At h' ((ask os q >>= fun _ => modify f) w).2 := by
  refine At.booked hw ?_ (hf _ hw.handles)
  rw [hmark, howned, enter_gives_owned _ r hx]

theorem At.dropped {h' : Handles} {none x : Handle} {r : Handle → Resource} {q : Call}
    {f : State → State} {w : Program State Call.Answer} (hw : At h w)
    (hsame : x = none → h' = h) (howned : h.owned = h'.owned + owns none x r)
    (hmark : ∀ a, mark ⟨q, a⟩ = .gives (r x)) (hf : ∀ s, s.handles = h → (f s).handles = h') :
    At h' (when (x ≠ none) (ask os q >>= fun _ => modify f) w).2 := by
  by_cases hx : x = none
  · rw [when_neg (not_not.mpr hx), hsame hx]
    exact hw
  · rw [when_pos hx]
    exact At.closed hw hx howned hmark hf

/-- An action after another is where the first one has led. -/
theorem At.bind {h' : Handles} {x : Run α} {f : α → Run β} {w : Program State Call.Answer}
    (hx : At h' (x w).2) (hf : ∀ a, Steady assets (f a)) : At h' ((x >>= f) w).2 := hx.step (hf _)

theorem at_closeClientSock {w : Program State Call.Answer} (hw : At h w) :
    At { h with clientSock := invalidSocket } (closeClientSock os w).2 := by
  have hclient : w.state.clientSock = h.clientSock := congrArg Handles.clientSock hw.handles
  have hclosed : At { h with clientSock := invalidSocket }
      (when (w.state.clientSock ≠ invalidSocket) (do
        ask os (.closeSocket w.state.clientSock)
        modify fun s => { s with clientSock := invalidSocket }) w).2 := by
    rw [hclient]
    refine At.dropped hw (fun hnone => by rw [← hnone]) (owned_clientSock h h.clientSock)
      (fun _ => rfl) ?_
    rintro s rfl
    rfl
  exact hclosed

theorem at_closeClient (os : Os) {w : Program State Call.Answer} (hw : At h w) :
    At { h with clientSock := invalidSocket } (closeClient os w).2 :=
  At.bind (at_closeClientSock hw) fun _ => owning_modify fun _ => rfl

theorem at_closeListener (os : Os) {w : Program State Call.Answer} (hw : At h w) :
    At { h with listenSock := invalidSocket } (closeListener os w).2 := by
  have hlisten : w.state.listenSock = h.listenSock := congrArg Handles.listenSock hw.handles
  have hclosed : At { h with listenSock := invalidSocket }
      (when (w.state.listenSock ≠ invalidSocket) (do
        ask os (.closeSocket w.state.listenSock)
        modify fun s => { s with listenSock := invalidSocket }) w).2 := by
    rw [hlisten]
    refine At.dropped hw (fun hnone => by rw [← hnone]) (owned_listenSock h h.listenSock)
      (fun _ => rfl) ?_
    rintro s rfl
    rfl
  exact hclosed

theorem at_dropWindow (os : Os) {w : Program State Call.Answer} (hw : At h w) :
    At { h with hwnd := 0 } (dropWindow os w).2 := by
  have hwnd : w.state.hwnd = h.hwnd := congrArg Handles.hwnd hw.handles
  have hclosed : At { h with hwnd := 0 } (when (w.state.hwnd ≠ 0) (do
      ask os (.destroyWindow w.state.hwnd)
      modify fun s => { s with hwnd := 0 }) w).2 := by
    rw [hwnd]
    refine At.dropped hw (fun hnone => by rw [← hnone]) (owned_hwnd h h.hwnd) (fun _ => rfl) ?_
    rintro s rfl
    rfl
  exact hclosed

theorem at_dropLibrary (os : Os) {w : Program State Call.Answer} (hw : At h w) :
    At { h with ime := 0 } (dropLibrary os w).2 := by
  have hime : w.state.ime = h.ime := congrArg Handles.ime hw.handles
  have hclosed : At { h with ime := 0 } (when (w.state.ime ≠ 0) (do
      ask os (.freeLibrary w.state.ime)
      modify fun s => { s with ime := 0 }) w).2 := by
    rw [hime]
    refine At.dropped hw (fun hnone => by rw [← hnone]) (owned_ime h h.ime) (fun _ => rfl) ?_
    rintro s rfl
    rfl
  exact hclosed

/-- The context goes after what is said to the input method. -/
theorem at_destroyed {himc : Handle} (hhimc : himc = h.himc) {before : Run Unit}
    (hbefore : Steady assets before) {w : Program State Call.Answer} (hw : At h w) :
    At { h with himc := 0 } (when (himc ≠ 0) (do
      before
      ask os (.immDestroyContext himc)
      modify fun s => { s with himc := 0 }) w).2 := by
  subst hhimc
  by_cases hnone : h.himc = 0
  · rw [when_neg (not_not.mpr hnone), ← hnone]
    exact hw
  · rw [when_pos hnone]
    refine At.closed (hw.step hbefore) hnone (owned_himc h h.himc) (fun _ => rfl) ?_
    rintro s rfl
    rfl

theorem quiet_owning {q : Call} (hq : isQuiet q = true) : Steady assets (ask os q) :=
  owning_of_seen (steady_call os hq)

theorem at_destroyContext (os : Os) {w : Program State Call.Answer} (hw : At h w) :
    At { h with himc := 0 } (destroyContext os w).2 := by
  have hhimc : w.state.himc = h.himc := congrArg Handles.himc hw.handles
  have hbefore : Steady assets (do
      let _ ← ask os (.imeSelect w.state.himc false)
      ask os (.immAssociateContextEx w.state.hwnd 0 iaceDefault) : Run Unit) :=
    Steady.bind (quiet_owning rfl) fun _ => quiet_owning rfl
  exact at_destroyed hhimc hbefore hw

theorem at_dropContext (os : Os) {w : Program State Call.Answer} (hw : At h w) :
    At { h with himc := 0 } (dropContext os w).2 := by
  have hhimc : w.state.himc = h.himc := congrArg Handles.himc hw.handles
  have hbefore : Steady assets (do
      when w.state.exports.imeSelect do
        let _ ← ask os (.imeSelect w.state.himc false)
        pure ()
      ask os (.immAssociateContextEx (imeTargetHwnd w.state) 0 0) : Run Unit) :=
    Steady.bind (steady_when (Steady.bind (quiet_owning rfl) fun _ => Steady.pure _)) fun _ =>
      quiet_owning rfl
  exact at_destroyed hhimc hbefore hw

/-- At the end nothing is held. -/
theorem at_cleanup (os : Os) {w : Program State Call.Answer} (hw : At h w) : At {} (cleanup os w).2 := by
  have hclient := at_closeClient os hw
  have hlistener := at_closeListener os hclient
  have hcontext := at_dropContext os hlistener
  have hwindow := at_dropWindow os hcontext
  have hlibrary := at_dropLibrary os hwindow
  exact hlibrary.step (quiet_owning rfl)

theorem owning_setLastError (text : List UInt8) : Steady assets (setLastError text : Run Unit) :=
  owning_modify fun _ => rfl

theorem owning_failWith {code : Call} (hcode : isQuiet code = true) (text : String)
    (answer : code.Answer → Nat) : Steady assets (failWith os text code answer) :=
  Steady.bind (quiet_owning hcode) fun _ => Steady.bind (owning_setLastError _) fun _ => Steady.pure _

/-- A handle that comes is noted before anything else. -/
theorem At.opened (q : Call) {f : q.Answer → State → State} {rest : q.Answer → Run α}
    (h' : q.Answer → Handles) {w : Program State Call.Answer} (hw : At h w)
    (hmark : ∀ a, enter (some h.owned) (mark ⟨q, a⟩) = some (h' a).owned)
    (hf : ∀ a s, s.handles = h → (f a s).handles = h' a) (hrest : ∀ a, Steady assets (rest a)) :
    ∃ a, At (h' a) ((ask os q >>= fun a => modify (f a) >>= fun _ => rest a) w).2 := by
  refine ⟨(ask os q w).1, At.step (hrest _) ?_⟩
  exact At.booked hw (hmark _) (hf _ _ hw.handles)

theorem at_createContext {w : Program State Call.Answer} (hw : At h w) (hnone : h.himc = 0) :
    ∃ himc, At { h with himc := himc } (createContext os w).2 := by
  apply At.opened .immCreateContext (fun himc => { h with himc := himc }) hw
  · intro himc
    apply enter_put
    rw [owned_himc, ← hnone]
  · rintro himc s rfl
    rfl
  · intro himc
    exact Steady.ite (Steady.bind (owning_setLastError _) fun _ => Steady.pure _) (Steady.pure _)

/-- An own context is made only if there is none. -/
theorem at_ensureContext (os : Os) {w : Program State Call.Answer} (hw : At h w) :
    ∃ himc, At { h with himc := himc } (ensureContext os w).2 := by
  have hhimc : w.state.himc = h.himc := congrArg Handles.himc hw.handles
  have hensure : ensureContext os w =
      (if w.state.himc = 0 then createContext os else pure true : Run Bool) w := rfl
  rw [hensure, hhimc]
  by_cases hnone : h.himc = 0
  · rw [if_pos hnone]
    exact at_createContext hw hnone
  · rw [if_neg hnone]
    exact ⟨h.himc, hw⟩

theorem owning_activateImePath : Steady assets (activateImePath os) :=
  owning_of_seen (steady_activateImePath os)

theorem owning_associate : Steady assets (associate os) := by
  refine Steady.bind (fun _ => rfl) fun s => ?_
  refine Steady.bind (quiet_owning rfl) fun assocPrev => ?_
  refine Steady.bind (owning_modify fun _ => rfl) fun _ => ?_
  refine Steady.bind (quiet_owning rfl) fun _ => ?_
  refine Steady.bind (quiet_owning rfl) fun _ => ?_
  refine Steady.bind (quiet_owning rfl) fun _ => ?_
  refine Steady.bind (quiet_owning rfl) fun _ => ?_
  exact Steady.bind (quiet_owning rfl) fun _ => owning_modify fun _ => rfl

theorem at_selectContext {w : Program State Call.Answer} (hw : At h w) :
    ∃ himc, At { h with himc := himc } (selectContext os w).2 := by
  obtain ⟨himc, hensured⟩ := at_ensureContext os hw
  refine ⟨himc, At.bind hensured fun ok => Steady.ite ?_ (Steady.pure _)⟩
  exact Steady.bind owning_associate fun _ =>
    Steady.bind owning_activateImePath fun _ => Steady.pure _

theorem at_initContextAndSelect (os : Os) {w : Program State Call.Answer} (hw : At h w) :
    ∃ himc, At { h with himc := himc } (initContextAndSelect os w).2 := by
  have hforget : Steady assets forgetIme := owning_modify fun _ => rfl
  exact at_selectContext (hw.step hforget)

theorem at_resetContext (os : Os) {w : Program State Call.Answer} (hw : At h w) :
    ∃ himc, At { h with himc := himc } (resetContext os w).2 := by
  obtain ⟨himc, hselected⟩ := at_initContextAndSelect os (at_destroyContext os hw)
  exact ⟨himc, hselected⟩

end

section

variable {multiByteToWide : UInt32 → List UInt8 → Option (List UInt16)}
  {narrow : List UInt16 → List UInt8} {os : Os} {h : Handles}

theorem owning_runCp (arg : List UInt8) : Steady assets (runCp arg) := by
  refine Steady.bind (fun _ => rfl) fun s => Steady.ite (Steady.pure _) ?_
  split
  · exact Steady.bind (owning_modify fun _ => rfl) fun _ => Steady.pure _
  · exact Steady.pure _

variable (multiByteToWide) (narrow) (os) in
theorem at_perform (command : Command) {w : Program State Call.Answer} (hw : At h w) :
    ∃ himc, At { h with himc := himc } (perform multiByteToWide narrow os command w).2 := by
  cases hchanges : command.changes with
  | false =>
      exact ⟨h.himc, hw.step (owning_of_seen (steady_perform multiByteToWide os narrow hchanges))⟩
  | true =>
      cases command with
      | cp arg => exact ⟨h.himc, hw.step (owning_runCp arg)⟩
      | reset =>
          obtain ⟨himc, hreset⟩ := at_resetContext os hw
          refine ⟨himc, At.bind hreset fun ok => Steady.ite (Steady.pure _) ?_⟩
          exact Steady.bind (fun _ => rfl) fun _ => Steady.pure _
      | _ => cases hchanges

theorem owning_send (sock : Handle) (bytes : List UInt8) :
    Steady assets (ask os (.send sock bytes)) := fun w =>
  Prod.ext rfl (held_ask (.send sock bytes) w)

theorem owning_recv (sock : Handle) : Steady assets (ask os (.recv sock)) := fun w =>
  Prod.ext rfl (held_ask (.recv sock) w)

theorem owning_sendText (text : List UInt8) : Steady assets (sendText os text) := by
  unfold sendText
  generalize text.length = calls
  induction calls generalizing text with
  | zero =>
      cases text with
      | nil => exact Steady.pure _
      | cons byte text => exact Steady.pure _
  | succ calls ih =>
      cases text with
      | nil => exact Steady.pure _
      | cons byte text =>
          refine Steady.bind (fun _ => rfl) fun s => ?_
          exact Steady.bind (owning_send _ _) fun n => Steady.ite (Steady.pure _) (ih _)

variable (multiByteToWide) (narrow) (os) in
theorem at_processCommand (line : List UInt8) {w : Program State Call.Answer} (hw : At h w) :
    ∃ himc, At { h with himc := himc } (processCommand multiByteToWide narrow os line w).2 := by
  obtain ⟨himc, hperform⟩ := at_perform multiByteToWide narrow os (commandOf (CString.cString line)) hw
  refine ⟨himc, At.bind hperform fun reply => ?_⟩
  refine Steady.bind (owning_sendText reply) fun _ => ?_
  exact steady_when (owning_modify fun _ => rfl)

variable (multiByteToWide) (narrow) (os) in
theorem at_runLines (lines : List (List UInt8)) {w : Program State Call.Answer} (hw : At h w) :
    ∃ himc, At { h with himc := himc } (runLines multiByteToWide narrow os lines w).2 := by
  induction lines generalizing h w with
  | nil => exact ⟨h.himc, hw⟩
  | cons line lines ih =>
      obtain ⟨himc, hline⟩ := at_processCommand multiByteToWide narrow os line hw
      obtain ⟨himc', hlines⟩ := ih hline
      exact ⟨himc', hlines⟩

/-- The account is right, whatever the handles are. -/
def Sound (w : Program State Call.Answer) : Prop := ∃ h, At h w

theorem sound_runLines (lines : List (List UInt8)) {w : Program State Call.Answer} (hw : Sound w) :
    Sound (runLines multiByteToWide narrow os lines w).2 := by
  obtain ⟨h, hw⟩ := hw
  obtain ⟨himc, hlines⟩ := at_runLines multiByteToWide narrow os lines hw
  exact ⟨_, hlines⟩

theorem Sound.step {α : Type} {x : Run α} (hx : Steady assets x) {w : Program State Call.Answer}
    (hw : Sound w) : Sound (x w).2 := by
  obtain ⟨h, hw⟩ := hw
  exact ⟨h, hw.step hx⟩

theorem sound_closeClient {w : Program State Call.Answer} (hw : Sound w) :
    Sound (closeClient os w).2 := by
  obtain ⟨h, hw⟩ := hw
  exact ⟨_, at_closeClient os hw⟩

/-- A client comes only when there is none. -/
theorem sound_acceptClient {listenSock : Handle} {w : Program State Call.Answer} (hw : At h w)
    (hnone : h.clientSock = invalidSocket) : Sound (acceptClient os listenSock w).2 := by
  let sock := (ask os (.accept listenSock) w).1
  have hheld : held (ask os (.accept listenSock) w).2 =
      some ({ h with clientSock := sock } : Handles).owned := by
    rw [held_ask, hw.held]
    apply enter_put
    rw [owned_clientSock, ← hnone]
  have haccept : acceptClient os listenSock w =
      when (sock ≠ invalidSocket) (greet os sock) (ask os (.accept listenSock) w).2 := rfl
  rw [haccept]
  by_cases hsock : sock = invalidSocket
  · rw [when_neg (not_not.mpr hsock)]
    refine ⟨h, hw.handles, hheld.trans ?_⟩
    rw [hsock, ← hnone]
  · rw [when_pos hsock]
    have hnoted : At { h with clientSock := sock }
        (modify (fun s : State => { s with clientSock := sock, rxLen := 0 })
          (ask os (.accept listenSock) w).2).2 := by
      refine ⟨?_, hheld⟩
      rw [← hw.handles]
      rfl
    refine ⟨_, At.bind hnoted fun _ => ?_⟩
    refine Steady.bind (quiet_owning rfl) fun _ => ?_
    exact Steady.bind (owning_sendText _) fun _ => Steady.pure _

theorem sound_acceptClientIfNeeded {w : Program State Call.Answer} (hw : Sound w) :
    Sound (acceptClientIfNeeded os w).2 := by
  obtain ⟨h, hw⟩ := hw
  have hclient : w.state.clientSock = h.clientSock := congrArg Handles.clientSock hw.handles
  have hneeded : acceptClientIfNeeded os w =
      when (w.state.clientSock = invalidSocket) (acceptClient os w.state.listenSock) w := rfl
  rw [hneeded]
  by_cases hnone : w.state.clientSock = invalidSocket
  · rw [when_pos hnone]
    exact sound_acceptClient hw (hclient.symm.trans hnone)
  · rw [when_neg hnone]
    exact ⟨h, hw⟩

theorem Sound.when {c : Prop} [Decidable c] {x : Run Unit} {w : Program State Call.Answer}
    (hw : Sound w) (hx : Sound (x w).2) : Sound (when c x w).2 := by
  by_cases hc : c
  · rw [when_pos hc]
    exact hx
  · rw [when_neg hc]
    exact hw

theorem sound_takeOut (rx : RxBuffer.HostState) {w : Program State Call.Answer} (hw : Sound w) :
    Sound (takeOut multiByteToWide narrow os rx w).2 := by
  have hstore : Steady assets (modify fun s : State => { s with rxBuf := rx.rxBuf, rxLen := rx.rxLen }) :=
    owning_modify fun _ => rfl
  have hstored := hw.step hstore
  exact sound_runLines rx.executed (hstored.when (sound_closeClient hstored))

theorem sound_takeIn (received : RxBuffer.Recv) {w : Program State Call.Answer} (hw : Sound w) :
    Sound (takeIn multiByteToWide narrow os received w).2 := by
  cases hserve : RxBuffer.serviceClientIo w.state.rx received with
  | some rx =>
      rw [takeIn_some multiByteToWide narrow os hserve]
      exact sound_takeOut rx hw
  | none =>
      rw [takeIn_none multiByteToWide narrow os hserve]
      exact hw

theorem sound_serviceClientIo {w : Program State Call.Answer} (hw : Sound w) :
    Sound (serviceClientIo multiByteToWide narrow os w).2 := by
  have hreceived : Sound (ask os (.recv w.state.clientSock) w).2 := hw.step (owning_recv _)
  apply hw.when
  exact sound_takeIn _ hreceived

theorem sound_turn {w : Program State Call.Answer} (hw : Sound w) :
    Sound (turn multiByteToWide narrow os w).2 := by
  have hpumped : Sound (ask os .pumpMessages w).2 := hw.step (quiet_owning rfl)
  exact sound_serviceClientIo (sound_acceptClientIfNeeded hpumped)

variable (multiByteToWide) (narrow) (os) in
theorem sound_mainLoop (turns : Nat) {w : Program State Call.Answer} (hw : Sound w) :
    Sound (mainLoop multiByteToWide narrow os turns w).2 := by
  induction turns generalizing w with
  | zero => exact hw
  | succ turns ih =>
      apply hw.when
      exact ih (sound_turn hw)

end

section

variable {os : Os} {h : Handles}

theorem owning_startSockets (os : Os) : Steady assets (startSockets os) :=
  Steady.bind (quiet_owning rfl) fun _ =>
    Steady.ite (Steady.pure _) (Steady.bind (owning_setLastError _) fun _ => Steady.pure _)

theorem at_openListener (os : Os) {w : Program State Call.Answer} (hw : At h w)
    (hnone : h.listenSock = invalidSocket) :
    ∃ sock, At { h with listenSock := sock } (openListener os w).2 := by
  apply At.opened .socket (fun sock => { h with listenSock := sock }) hw
  · intro sock
    apply enter_put
    rw [owned_listenSock, ← hnone]
  · rintro sock s rfl
    rfl
  · intro sock
    refine Steady.ite (owning_failWith rfl _ _) ?_
    exact Steady.bind (quiet_owning rfl) fun _ => Steady.pure _

theorem owning_listenAt (port : UInt16) : Steady assets (listenAt os port) := by
  refine Steady.bind (fun _ => rfl) fun s => ?_
  refine Steady.bind (quiet_owning rfl) fun bound => Steady.ite ?_ (owning_failWith rfl _ _)
  exact Steady.bind (quiet_owning rfl) fun _ => Steady.ite (Steady.pure _) (owning_failWith rfl _ _)

/-- The second action starts where the first one has led, if it starts at all. -/
theorem andAlso_of_both {P : Program State Call.Answer → Prop} {x y : Run Bool}
    {w : Program State Call.Answer} (hx : P (x w).2) (hy : P (y (x w).2).2) :
    P (andAlso x y w).2 := by
  rw [andAlso, bind_run, ite_run]
  split
  · exact hy
  · exact hx

theorem at_initSocketServer (os : Os) (port : UInt16) {w : Program State Call.Answer} (hw : At h w)
    (hnone : h.listenSock = invalidSocket) :
    ∃ sock, At { h with listenSock := sock } (initSocketServer os port w).2 := by
  have hstarted := hw.step (owning_startSockets os)
  obtain ⟨sock, hopened⟩ := at_openListener os hstarted hnone
  apply andAlso_of_both (P := fun w => ∃ sock, At { h with listenSock := sock } w)
  · exact ⟨h.listenSock, hstarted⟩
  · apply andAlso_of_both (P := fun w => ∃ sock, At { h with listenSock := sock } w)
    · exact ⟨sock, hopened⟩
    · exact ⟨sock, hopened.step (owning_listenAt port)⟩

theorem at_loadIme (os : Os) (dllPath : String) {w : Program State Call.Answer} (hw : At h w)
    (hnone : h.ime = 0) : ∃ ime, At { h with ime := ime } (loadIme os dllPath w).2 := by
  apply At.opened (.loadLibrary dllPath) (fun ime => { h with ime := ime }) hw
  · intro ime
    apply enter_put
    rw [owned_ime, ← hnone]
  · rintro ime s rfl
    rfl
  · intro ime
    exact Steady.ite (owning_failWith rfl _ _) (Steady.pure _)

theorem owning_bindExports (os : Os) : Steady assets (bindExports os) := by
  have hfind (ime : Handle) : Steady assets (findExports os ime) := by
    refine Steady.bind (quiet_owning rfl) fun _ => ?_
    refine Steady.bind (quiet_owning rfl) fun _ => ?_
    refine Steady.bind (quiet_owning rfl) fun _ => ?_
    refine Steady.bind (quiet_owning rfl) fun _ => ?_
    refine Steady.bind (quiet_owning rfl) fun _ => ?_
    refine Steady.bind (quiet_owning rfl) fun _ => ?_
    exact Steady.bind (quiet_owning rfl) fun _ => Steady.pure _
  refine Steady.bind (fun _ => rfl) fun s => ?_
  refine Steady.bind (hfind s.ime) fun exports => ?_
  refine Steady.bind (owning_modify fun _ => rfl) fun _ => Steady.ite (Steady.pure _) ?_
  exact Steady.bind (owning_setLastError _) fun _ => Steady.pure _

theorem owning_createTarget (hwnd : Handle) : Steady assets (createTarget os hwnd) := by
  refine Steady.bind (quiet_owning rfl) fun edit => ?_
  exact Steady.bind (owning_modify fun _ => rfl) fun _ => Steady.pure _

theorem at_createMainWindow (visible : Bool) {w : Program State Call.Answer} (hw : At h w)
    (hnone : h.hwnd = 0) : ∃ hwnd, At { h with hwnd := hwnd } (createMainWindow os visible w).2 := by
  apply At.opened (.createWindow visible) (fun hwnd => { h with hwnd := hwnd }) hw
  · intro hwnd
    apply enter_put
    rw [owned_hwnd, ← hnone]
  · rintro hwnd s rfl
    rfl
  · intro hwnd
    exact Steady.ite (owning_failWith rfl _ _) (owning_createTarget hwnd)

theorem at_createHiddenWindow (os : Os) {w : Program State Call.Answer} (hw : At h w)
    (hnone : h.hwnd = 0) : ∃ hwnd, At { h with hwnd := hwnd } (createHiddenWindow os w).2 := by
  have hregistered : At h (ask os .registerClass w).2 := hw.step (quiet_owning rfl)
  have hcreate : createHiddenWindow os w =
      (if (ask os .registerClass w).1 then createMainWindow os w.state.visible
        else failWith os "RegisterClassA failed: " .getLastError UInt32.toNat)
        (ask os .registerClass w).2 := rfl
  rw [hcreate, ite_run]
  split
  · exact at_createMainWindow _ hregistered hnone
  · exact ⟨h.hwnd, hregistered.step (owning_failWith rfl _ _)⟩

/-- What the start has come to is noted in the fields that `cleanup` looks at. -/
theorem sound_initIme (os : Os) (dllPath : String) {w : Program State Call.Answer} (hw : At h w)
    (hime : h.ime = 0) (hhwnd : h.hwnd = 0) : Sound (initIme os dllPath w).2 := by
  obtain ⟨ime, hloaded⟩ := at_loadIme os dllPath hw hime
  have hbound := hloaded.step (owning_bindExports os)
  obtain ⟨hwnd, hwindow⟩ := at_createHiddenWindow os hbound hhwnd
  obtain ⟨himc, hselected⟩ := at_initContextAndSelect os hwindow
  apply andAlso_of_both ⟨_, hloaded⟩
  apply andAlso_of_both ⟨_, hbound⟩
  exact andAlso_of_both ⟨_, hwindow⟩ ⟨_, hselected⟩

end

/-- What all have that `main` leaves: the account is right, and nothing is held if the process
has come to its end. -/
def Settled (r : Option UInt8 × Program State Call.Answer) : Prop :=
  Sound r.2 ∧ (r.1.isSome = true → At {} r.2)

section

variable (multiByteToWide : UInt32 → List UInt8 → Option (List UInt16))
  (narrow : List UInt16 → List UInt8) (os : Os)

def started : Program State Call.Answer := ⟨{}, []⟩

theorem settled_cleanup (code : UInt8) {w : Program State Call.Answer} (hw : Sound w) :
    Settled ((do
      cleanup os
      pure (some code) : Run (Option UInt8)) w) := by
  obtain ⟨h, hw⟩ := hw
  have hdone := at_cleanup os hw
  exact ⟨⟨_, hdone⟩, fun _ => hdone⟩

theorem settled_ite {c : Prop} [Decidable c] {x y : Run (Option UInt8)}
    {w : Program State Call.Answer} (hx : Settled (x w)) (hy : Settled (y w)) :
    Settled ((if c then x else y : Run (Option UInt8)) w) := by
  split
  · exact hx
  · exact hy

theorem settled_main (dllPath : String) (port : UInt16) (visible : Bool) (turns : Nat) :
    Settled (main multiByteToWide narrow os dllPath port visible turns started) := by
  have hstart : At {} (modify (fun s : State => { s with visible := visible }) started).2 :=
    ⟨rfl, rfl⟩
  obtain ⟨sock, hlistening⟩ := at_initSocketServer os port hstart rfl
  have hready := sound_initIme os dllPath hlistening rfl rfl
  refine settled_ite (settled_ite ?_ (settled_cleanup os 2 hready)) (settled_cleanup os 1 ⟨_, hlistening⟩)
  have hrun : Steady assets (modify fun s : State => { s with running := true }) :=
    owning_modify fun _ => rfl
  have hturns := sound_mainLoop multiByteToWide narrow os turns (hready.step hrun)
  exact settled_ite ⟨hturns, fun h => by cases h⟩ (settled_cleanup os 0 hturns)

/-- Whatever Windows and the input method do, the process gives nothing back that it does not
hold, and between two turns it holds what its fields name. When it ends, it has given back all
that it has got: each key, each context, the window, the library and each socket. -/
theorem main_gives_back (dllPath : String) (port : UInt16) (visible : Bool) (turns : Nat) :
    let r := main multiByteToWide narrow os dllPath port visible turns started
    held r.2 = some r.2.state.handles.owned ∧
      (∀ past, past <+: r.2.past → ∀ x,
        (past.map mark).count (.gives x) ≤ (past.map mark).count (.gains x)) ∧
      (r.1.isSome = true → ∀ x,
        (r.2.past.map mark).count (.gives x) = (r.2.past.map mark).count (.gains x)) := by
  intro r
  obtain ⟨⟨h, hat⟩, hend⟩ := settled_main multiByteToWide narrow os dllPath port visible turns
  refine ⟨by rw [hat.handles]; exact hat.held, ?_, ?_⟩
  · intro past hpast x
    exact gives_le_gains x (hpast.map mark) hat.held
  · intro hdone x
    have hcount := count_account x (hend hdone).held
    have hnothing : ({} : Handles).owned = 0 := rfl
    rw [hnothing, Multiset.count_zero, Nat.add_zero] at hcount
    exact hcount.symm

end

end RimeWinime.ImeHost
