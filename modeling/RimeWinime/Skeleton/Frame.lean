import RimeWinime.Lib.Ledger
import RimeWinime.Skeleton.Commands

namespace RimeWinime.ImeHost

open World Outside Ledger

/-- What has to be given back. A key that is down is one of them. -/
inductive Resource
  | borrowed (hwnd himc : Handle)
  | context (himc : Handle)
  | key (vk : UInt32)
  | library (ime : Handle)
  | window (hwnd : Handle)
  | sock (s : Handle)
deriving DecidableEq

/-- A handle that is `none` if the call has failed. -/
def gained (none h : Handle) (r : Handle → Resource) : Mark Resource :=
  if h = none then .other else .gains (r h)

def mark : Event Call.Answer → Mark Resource
  | ⟨.immGetContext hwnd, himc⟩ => gained 0 himc (.borrowed hwnd)
  | ⟨.immReleaseContext hwnd himc, _⟩ => .gives (.borrowed hwnd himc)
  | ⟨.immCreateContext, himc⟩ => gained 0 himc .context
  | ⟨.immDestroyContext himc, _⟩ => .gives (.context himc)
  | ⟨.sendKey _ true vk _, _⟩ => .gains (.key vk)
  | ⟨.sendKey _ false vk _, _⟩ => .gives (.key vk)
  | ⟨.loadLibrary _, ime⟩ => gained 0 ime .library
  | ⟨.freeLibrary ime, _⟩ => .gives (.library ime)
  | ⟨.createWindow _, hwnd⟩ => gained 0 hwnd .window
  | ⟨.destroyWindow hwnd, _⟩ => .gives (.window hwnd)
  | ⟨.socket, s⟩ => gained invalidSocket s .sock
  | ⟨.accept _, s⟩ => gained invalidSocket s .sock
  | ⟨.closeSocket s, _⟩ => .gives (.sock s)
  | _ => .other

/-- What has come from the client, and what has gone out to it. -/
structure Wire where
  heard : List UInt8
  sent : List UInt8

def carry (n : Wire) : Event Call.Answer → Wire
  | ⟨.recv _, received⟩ => { n with heard := n.heard ++ received.bytes }
  | ⟨.send _ bytes, sent⟩ => { n with sent := n.sent ++ bytes.take sent.toNat }
  | _ => n

abbrev Counted : Type := Option (Multiset Resource) × Wire

def count (n : Counted) (e : Event Call.Answer) : Counted := (enter n.1 (mark e), carry n.2 e)

abbrev seen : Program State Call.Answer → State × Counted := view State.core count (some 0, ⟨[], []⟩)

def held (w : Program State Call.Answer) : Option (Multiset Resource) := account (w.past.map mark)

def wire (w : Program State Call.Answer) : Wire := w.past.foldl carry ⟨[], []⟩

theorem foldl_count (past : List (Event Call.Answer)) (n : Counted) :
    past.foldl count n = ((past.map mark).foldl enter n.1, past.foldl carry n.2) := by
  induction past generalizing n with
  | nil => rfl
  | cons e past ih => exact ih (count n e)

theorem seen_eq (w : Program State Call.Answer) : seen w = (w.state.core, held w, wire w) := by
  rw [seen, view, tally, foldl_count]
  rfl

section

variable {α β : Type} {os : Os} {target : Handle} {marks more : List (Mark Resource)}

/-- What is seen after these marks. -/
def book (marks : List (Mark Resource)) (v : State × Counted) : State × Counted :=
  (v.1, marks.foldl enter v.2.1, v.2.2)

/-- The action enters these marks while this is the window, and leaves all else as it is. -/
def Enters (target : Handle) (marks : List (Mark Resource)) (x : Run α) : Prop :=
  ∀ w, imeTargetHwnd w.state = target → seen (x w).2 = book marks (seen w)

def takes (target ctx : Handle) : List (Mark Resource) :=
  if ctx = 0 then [] else [.gains (.borrowed target ctx)]

def returns (target ctx : Handle) : List (Mark Resource) :=
  if ctx = 0 then [] else [.gives (.borrowed target ctx)]

theorem book_append (v : State × Counted) : book (marks ++ more) v = book more (book marks v) := by
  simp only [book, List.foldl_append]

theorem target_of_seen {w w' : Program State Call.Answer} (h : (seen w).1 = (seen w').1) :
    imeTargetHwnd w.state = imeTargetHwnd w'.state := target_of_core h

theorem Enters.bind {x : Run α} {f : α → Run β} (hx : Enters target marks x)
    (hf : ∀ a, Enters target more (f a)) : Enters target (marks ++ more) (x >>= f) := by
  intro w hw
  have hfirst := hx w hw
  have hsame : imeTargetHwnd (x w).2.state = target :=
    (target_of_seen (by rw [hfirst]; rfl)).trans hw
  rw [book_append, ← hfirst]
  exact hf (x w).1 (x w).2 hsame

theorem enters_nil {x : Run α} (h : Steady seen x) : Enters target [] x := fun w _ => h w

theorem Enters.after {x : Run α} {f : α → Run β} (hx : Steady seen x)
    (hf : ∀ a, Enters target marks (f a)) : Enters target marks (x >>= f) := (enters_nil hx).bind hf

theorem Enters.before {x : Run α} {f : α → Run β} (hx : Enters target marks x)
    (hf : ∀ a, Steady seen (f a)) : Enters target marks (x >>= f) := by
  have hboth : Enters target (marks ++ []) (x >>= f) := hx.bind fun a => enters_nil (hf a)
  rwa [List.append_nil] at hboth

theorem enters_ask {q : Call} (h : ∀ n a, count n ⟨q, a⟩ = (marks.foldl enter n.1, n.2)) :
    Enters target marks (ask os q) :=
  fun w _ => Prod.ext rfl ((tally_ask count _ q w).trans (h _ _))

theorem enters_when {c : Prop} [Decidable c] {x : Run Unit} (h : Enters target marks x) :
    Enters target (if c then marks else []) (when c x) := by
  unfold when
  split
  · exact h
  · exact enters_nil (Steady.pure ())

theorem enters_return (ctx : Handle) :
    Enters target (returns target ctx)
      (when (ctx ≠ 0) (ask os (.immReleaseContext target ctx))) := by
  by_cases hctx : ctx = 0
  · rw [when_neg (not_not.mpr hctx), returns, if_pos hctx]
    exact enters_nil (Steady.pure ())
  · rw [when_pos hctx, returns, if_neg hctx]
    exact enters_ask fun _ _ => rfl

theorem enters_releaseActiveHimc (himc : Handle) (borrowed : Bool) :
    Enters target (returns target (if borrowed then himc else 0))
      (releaseActiveHimc os himc borrowed) := by
  rintro w rfl
  have hrelease : releaseActiveHimc os himc borrowed w =
      when (borrowed && himc ≠ 0) (ask os (.immReleaseContext (imeTargetHwnd w.state) himc)) w := rfl
  rw [hrelease]
  cases borrowed with
  | false => exact enters_nil (Steady.pure ()) w rfl
  | true =>
      simp only [Bool.true_and, decide_eq_true_eq, reduceIte]
      exact enters_return himc w rfl

/-- What is done for the window that is the target from there on. -/
theorem steady_here {f : State → Run α} (hf : ∀ s, Enters (imeTargetHwnd s) [] (f s)) :
    Steady seen (get >>= f) := fun w => hf w.state w rfl

theorem enters_getContext (w : Program State Call.Answer) :
    seen (ask os (.immGetContext target) w).2 =
      book (takes target (ask os (.immGetContext target) w).1) (seen w) := by
  refine Prod.ext rfl ((tally_ask count _ _ w).trans ?_)
  generalize (ask os (.immGetContext target) w).1 = ctx
  rw [count, mark, gained, takes]
  by_cases hctx : ctx = 0
  · rw [if_pos hctx, if_pos hctx]
    rfl
  · rw [if_neg hctx, if_neg hctx]
    rfl

theorem book_takes_returns (ctx : Handle) (v : State × Counted) :
    book (returns target ctx) (book (takes target ctx) v) = v := by
  rw [← book_append, takes, returns]
  by_cases hctx : ctx = 0
  · rw [if_pos hctx, if_pos hctx]
    rfl
  · rw [if_neg hctx, if_neg hctx, book, List.singleton_append, List.foldl_cons, List.foldl_cons,
      List.foldl_nil, enter_gains_gives]

/-- A context that has been borrowed and is given back. -/
theorem enters_borrow (target : Handle) (f : Handle → Run α)
    (hf : ∀ ctx, Enters target (returns target ctx) (f ctx)) :
    Enters target [] (ask os (.immGetContext target) >>= f) := by
  intro w hw
  have hback := hf (ask os (.immGetContext target) w).1 (ask os (.immGetContext target) w).2 hw
  rw [enters_getContext, book_takes_returns] at hback
  exact hback

/-- The context in use, which is given back if it has been borrowed. -/
theorem steady_active {f : Handle × Bool → Run α}
    (hf : ∀ p target, Enters target (returns target (if p.2 then p.1 else 0)) (f p)) :
    Steady seen (getActiveHimc os >>= f) := by
  intro w
  have hborrow : seen ((ask os (.immGetContext (imeTargetHwnd w.state)) >>= _) w).2 = _ :=
    enters_borrow (imeTargetHwnd w.state) (fun ctx => (if ctx ≠ 0 then do
        modify fun s => { s with lastCtxNow := ctx, lastCtxMatch := ctx = s.himc }
        pure (ctx, true)
      else pure (w.state.himc, false) : Run (Handle × Bool)) >>= f) ?_ w rfl
  · exact hborrow
  · intro ctx
    by_cases hctx : ctx = 0
    · rw [if_neg (not_not.mpr hctx), hctx]
      exact hf (w.state.himc, false) _
    · rw [if_pos hctx]
      have hnote : Steady seen (modify fun s : State =>
          { s with lastCtxNow := ctx, lastCtxMatch := ctx = s.himc }) := steady_modify fun _ => rfl
      have hback := Enters.after hnote (f := fun _ => f (ctx, true))
        (fun _ => hf (ctx, true) (imeTargetHwnd w.state))
      exact hback

end

/-- A call that gives nothing to the host and takes nothing from it. -/
def isQuiet : Call → Bool
  | .immGetContext _ | .immReleaseContext _ _ | .immCreateContext | .immDestroyContext _ => false
  | .sendKey _ _ _ _ => false
  | .loadLibrary _ | .freeLibrary _ | .createWindow _ | .destroyWindow _ => false
  | .socket | .accept _ | .closeSocket _ | .recv _ | .send _ _ => false
  | _ => true

section

variable {α : Type} (os : Os)

theorem count_quiet {q : Call} (h : isQuiet q = true) (n : Counted) (a : q.Answer) :
    count n ⟨q, a⟩ = n := by
  cases q <;> first | rfl | cases h

theorem steady_call {q : Call} (h : isQuiet q = true) : Steady seen (ask os q) :=
  steady_ask (count_quiet h)

theorem steady_note {f : State → State} (h : ∀ s, (f s).core = s.core) : Steady seen (modify f) :=
  steady_modify h

theorem enters_noteContext (target : Handle) : Enters target [] (noteContext os target) := by
  apply enters_borrow
  intro ctx
  exact Enters.after (steady_note fun _ => rfl) fun _ => enters_return ctx

theorem steady_updateContextSnapshot : Steady seen (updateContextSnapshot os) :=
  steady_here fun s => enters_noteContext os (imeTargetHwnd s)

theorem steady_loadLayout (names : List String) : Steady seen (loadLayout os names) := by
  induction names with
  | nil => exact Steady.pure _
  | cons name names ih =>
      refine Steady.bind (steady_call os rfl) fun hkl => ?_
      exact Steady.ite (Steady.pure _) ih

theorem steady_ensureImeLayout (target : Handle) : Steady seen (ensureImeLayout os target) := by
  refine Steady.bind (steady_call os rfl) fun current => ?_
  refine Steady.bind (steady_loadLayout os layouts) fun loaded => ?_
  refine Steady.bind (steady_note fun _ => rfl) fun _ => steady_when ?_
  refine Steady.bind (steady_call os rfl) fun _ => ?_
  exact Steady.bind (steady_call os rfl) fun _ => steady_call os rfl

theorem steady_showImeWindow (useHimc target : Handle) :
    Steady seen (showImeWindow os useHimc target) := by
  refine Steady.bind steady_get fun s => ?_
  refine Steady.bind (steady_call os rfl) fun defImeWnd => steady_when ?_
  refine Steady.bind (steady_call os rfl) fun _ => ?_
  refine Steady.bind (steady_call os rfl) fun _ => ?_
  exact Steady.bind (steady_call os rfl) fun _ => steady_call os rfl

theorem steady_noteConversion (useHimc : Handle) : Steady seen (noteConversion os useHimc) := by
  refine Steady.bind (steady_call os rfl) fun modes => ?_
  cases modes with
  | some modes => exact steady_note fun _ => rfl
  | none => exact Steady.pure _

theorem steady_setActive (useHimc : Handle) : Steady seen (setActive os useHimc) := by
  refine Steady.bind steady_get fun s => Steady.ite ?_ (steady_note fun _ => rfl)
  exact Steady.bind (steady_call os rfl) fun _ => steady_note fun _ => rfl

theorem steady_selectIme (useHimc target : Handle) : Steady seen (selectIme os useHimc target) := by
  refine Steady.bind (steady_ensureImeLayout os target) fun _ => ?_
  refine Steady.bind (steady_call os rfl) fun select => ?_
  refine Steady.bind (steady_note fun _ => rfl) fun _ => ?_
  refine Steady.bind (steady_call os rfl) fun opened => ?_
  refine Steady.bind (steady_note fun _ => rfl) fun _ => ?_
  refine Steady.bind (steady_call os rfl) fun convSet => ?_
  refine Steady.bind (steady_note fun _ => rfl) fun _ => ?_
  refine Steady.bind (steady_noteConversion os useHimc) fun _ => ?_
  refine Steady.bind (steady_setActive os useHimc) fun _ => ?_
  exact Steady.bind (steady_call os rfl) fun _ => steady_showImeWindow os useHimc target

theorem steady_activateImePath : Steady seen (activateImePath os) := by
  refine Steady.bind steady_get fun s => ?_
  refine Steady.bind (steady_updateContextSnapshot os) fun _ => ?_
  refine Steady.bind steady_get fun s => ?_
  refine Steady.bind (steady_selectIme os _ _) fun _ => ?_
  exact Steady.bind (steady_updateContextSnapshot os) fun _ => steady_call os rfl

theorem steady_makeNarrowVkey (s : State) (vk scan : UInt32) (keyState : List UInt8) (hkl : Handle) :
    Steady seen (makeNarrowVkey os s vk scan keyState hkl) :=
  Steady.bind (steady_call os rfl) fun _ => Steady.pure _

theorem steady_makeImeVkey (vk scan : UInt32) (keyState : List UInt8) (hkl : Handle) :
    Steady seen (makeImeVkey os vk scan keyState hkl) := by
  refine Steady.bind steady_get fun s => Steady.ite (Steady.pure _) ?_
  refine Steady.ite ?_ (steady_makeNarrowVkey os s vk scan keyState hkl)
  refine Steady.bind (steady_call os rfl) fun wide => Steady.ite (Steady.pure _) ?_
  exact Steady.ite (Steady.pure _) (steady_makeNarrowVkey os s vk scan keyState hkl)

theorem steady_keyLparamFromVk (vk : UInt32) (keyUp altDown : Bool) :
    Steady seen (keyLparamFromVk os vk keyUp altDown) :=
  Steady.bind (steady_call os rfl) fun _ => Steady.pure _

theorem steady_sendTranslated (msgs : List TransMsg) : Steady seen (sendTranslated os msgs) := by
  induction msgs with
  | nil => exact Steady.pure _
  | cons m msgs ih =>
      refine Steady.bind steady_get fun s => ?_
      exact Steady.bind (steady_call os rfl) fun _ => ih

theorem steady_processDown (k : KeyChord) (useHimc : Handle) (scan keyData : UInt32)
    (keyState : List UInt8) : Steady seen (processDown os k useHimc scan keyData keyState) := by
  refine Steady.bind steady_get fun s => ?_
  refine Steady.bind (steady_call os rfl) fun thread => ?_
  refine Steady.bind (steady_call os rfl) fun hkl => ?_
  refine Steady.bind (steady_call os rfl) fun immFlags => ?_
  refine Steady.bind (steady_note fun _ => rfl) fun _ => ?_
  refine Steady.bind (steady_when (steady_call os rfl)) fun _ => ?_
  refine Steady.bind (steady_call os rfl) fun _ => ?_
  refine Steady.bind (steady_makeImeVkey os k.vk scan keyState hkl) fun imeVk => ?_
  refine Steady.bind (steady_call os rfl) fun process => ?_
  refine Steady.bind (steady_note fun _ => rfl) fun _ => ?_
  refine Steady.bind (steady_call os rfl) fun tml => ?_
  refine Steady.bind (steady_note fun _ => rfl) fun _ => ?_
  exact Steady.bind (steady_sendTranslated os _) fun _ => Steady.pure _

theorem steady_noteFirstList (candCtx : Handle) : Steady seen (noteFirstList os candCtx) :=
  Steady.bind (steady_call os rfl) fun _ => steady_note fun _ => rfl

theorem steady_noteCandidates : Steady seen (noteCandidates os) := by
  apply steady_active
  rintro ⟨himc, borrowed⟩ target
  by_cases hnone : himc = 0
  · have hskip : returns target (if borrowed then himc else 0) = [] := by
      rw [hnone, ite_self, returns, if_pos rfl]
    rw [hskip]
    simp only [when_neg (not_not.mpr hnone)]
    exact enters_nil (Steady.pure ())
  · simp only [when_pos hnone]
    exact Enters.after (steady_noteFirstList os himc) fun _ => enters_releaseActiveHimc himc borrowed

def downMarks (k : KeyChord) : List (Mark Resource) :=
  (if k.ctrl then [.gains (.key vkControl)] else []) ++
    ((if k.shift then [.gains (.key vkShift)] else []) ++
      (if k.alt then [.gains (.key vkMenu)] else []))

def upMarks (k : KeyChord) : List (Mark Resource) :=
  (if k.alt then [.gives (.key vkMenu)] else []) ++
    ((if k.shift then [.gives (.key vkShift)] else []) ++
      (if k.ctrl then [.gives (.key vkControl)] else []))

theorem enters_sendKey {target : Handle} (hwnd : Handle) (down : Bool) (vk l : UInt32) :
    Enters target [if down then .gains (.key vk) else .gives (.key vk)]
      (ask os (.sendKey hwnd down vk l)) := by
  cases down with
  | true => exact enters_ask fun _ _ => rfl
  | false => exact enters_ask fun _ _ => rfl

theorem enters_sendModifierKey {target : Handle} (vk : UInt32) (down alt : Bool) :
    Enters target [if down then .gains (.key vk) else .gives (.key vk)]
      (sendModifierKey os vk down alt) := by
  refine Enters.after (steady_keyLparamFromVk os vk _ alt) fun l => ?_
  exact Enters.after steady_get fun s => enters_sendKey os _ down vk l

theorem enters_modifiersDown {target : Handle} (k : KeyChord) :
    Enters target (downMarks k) (modifiersDown os k) := by
  refine Enters.bind (enters_when (enters_sendModifierKey os vkControl true k.alt)) fun _ => ?_
  refine Enters.bind (enters_when (enters_sendModifierKey os vkShift true k.alt)) fun _ => ?_
  exact enters_when (enters_sendModifierKey os vkMenu true true)

theorem enters_modifiersUp {target : Handle} (k : KeyChord) :
    Enters target (upMarks k) (modifiersUp os k) := by
  refine Enters.bind (enters_when (enters_sendModifierKey os vkMenu false true)) fun _ => ?_
  refine Enters.bind (enters_when (enters_sendModifierKey os vkShift false k.alt)) fun _ => ?_
  exact enters_when (enters_sendModifierKey os vkControl false k.alt)

def strokeMarks (k : KeyChord) : List (Mark Resource) :=
  downMarks k ++ ([.gains (.key k.vk)] ++ ([.gives (.key k.vk)] ++ upMarks k))

/-- The modifiers come up in the other order. -/
theorem foldl_strokeMarks (k : KeyChord) (n : Option (Multiset Resource)) :
    (strokeMarks k).foldl enter n = n := by
  obtain ⟨vk, ctrl, shift, alt⟩ := k
  cases ctrl <;> cases shift <;> cases alt <;> simp [strokeMarks, downMarks, upMarks]

theorem enters_strike {target : Handle} (k : KeyChord) (hwnd useHimc : Handle) (keyState : List UInt8) :
    Enters target (strokeMarks k) (strike os k hwnd useHimc keyState) := by
  refine Enters.after (steady_call os rfl) fun scan => ?_
  refine Enters.after (steady_keyLparamFromVk os k.vk false k.alt) fun keyData => ?_
  refine Enters.after (steady_keyLparamFromVk os k.vk true k.alt) fun keyUpData => ?_
  refine Enters.bind (enters_modifiersDown os k) fun _ => ?_
  refine Enters.bind (enters_sendKey os hwnd true k.vk keyData) fun _ => ?_
  refine Enters.after (steady_processDown os k useHimc scan keyData keyState) fun p => ?_
  refine Enters.bind (enters_sendKey os hwnd false k.vk keyUpData) fun _ => ?_
  exact Enters.before (enters_modifiersUp os k) fun _ => Steady.pure _

theorem steady_strike (k : KeyChord) (hwnd useHimc : Handle) (keyState : List UInt8) :
    Steady seen (strike os k hwnd useHimc keyState) := by
  intro w
  rw [enters_strike os k hwnd useHimc keyState w rfl, book, foldl_strokeMarks]

theorem enters_strikeInContext (k : KeyChord) (target own : Handle) (keyState : List UInt8) :
    Enters target [] (strikeInContext os k target own keyState) := by
  apply enters_borrow
  intro ctx
  refine Enters.after (steady_note fun _ => rfl) fun _ => ?_
  refine Enters.after (steady_strike os k target _ keyState) fun struck => ?_
  refine Enters.after (steady_call os rfl) fun _ => ?_
  refine Enters.after (steady_note fun _ => rfl) fun _ => ?_
  exact Enters.before (enters_return ctx) fun _ => Steady.pure _

theorem steady_handleKeyModInternal (k : KeyChord) (activateFirst : Bool) :
    Steady seen (handleKeyModInternal os k activateFirst) := by
  refine Steady.bind (steady_call os rfl) fun state => ?_
  refine Steady.bind (steady_when (steady_activateImePath os)) fun _ => ?_
  refine steady_here fun s => ?_
  refine Enters.before (enters_strikeInContext os k _ s.himc _) fun struck => ?_
  refine Steady.bind (steady_noteCandidates os) fun _ => ?_
  exact Steady.bind steady_get fun s => Steady.pure _

theorem steady_handleKeyInternal (vk : UInt32) (activateFirst : Bool) :
    Steady seen (handleKeyInternal os vk activateFirst) := steady_handleKeyModInternal os _ activateFirst

theorem steady_getTargetHkl : Steady seen (getTargetHkl os) := by
  refine Steady.bind steady_get fun s => ?_
  refine Steady.bind (steady_call os rfl) fun thread => ?_
  refine Steady.bind (steady_call os rfl) fun hkl => ?_
  exact Steady.ite (steady_call os rfl) (Steady.pure _)

theorem steady_keyChordFromWideChar (wc : UInt16) (hkl : Handle) :
    Steady seen (keyChordFromWideChar os wc hkl) := by
  refine Steady.ite (Steady.pure _) ?_
  refine Steady.bind (steady_call os rfl) fun packed => ?_
  exact Steady.ite (Steady.pure _) (Steady.pure _)

theorem steady_keyChordFromAsciiChar (c : UInt8) (hkl : Handle) :
    Steady seen (keyChordFromAsciiChar os c hkl) := steady_keyChordFromWideChar os _ hkl

end

section

variable {α β : Type} (multiByteToWide : UInt32 → List UInt8 → Option (List UInt16)) (os : Os)

theorem steady_queried {himc : Handle} {query : Run α} (h : Steady seen query) :
    Steady seen (queried himc query) :=
  Steady.ite (Steady.pure _) (Steady.bind h fun _ => Steady.pure _)

theorem steady_candidateReply (ime : Option CandidateReply.ImeState) :
    Steady seen (candidateReply multiByteToWide ime) := by
  refine Steady.bind steady_get fun s => ?_
  exact Steady.bind (steady_note fun _ => rfl) fun _ => Steady.pure _

theorem steady_replyWithCandidateSnapshot :
    Steady seen (replyWithCandidateSnapshot multiByteToWide os) := by
  apply steady_active
  rintro ⟨himc, borrowed⟩ target
  refine Enters.after (steady_queried (steady_call os rfl)) fun ime => ?_
  refine Enters.after (steady_candidateReply multiByteToWide ime) fun reply => ?_
  exact Enters.before (enters_releaseActiveHimc himc borrowed) fun _ => Steady.pure _

theorem steady_runKeyAndReplyCand (vk : UInt32) :
    Steady seen (runKeyAndReplyCand multiByteToWide os vk) :=
  Steady.bind (steady_handleKeyInternal os vk false) fun _ =>
    steady_replyWithCandidateSnapshot multiByteToWide os

theorem steady_typeChars {limit : Nat} {type : α → Run (Option β)} (h : ∀ c, Steady seen (type c))
    (text : List α) (done : List β) : Steady seen (typeChars limit type text done) := by
  induction text generalizing done with
  | nil => exact Steady.pure _
  | cons c text ih =>
      refine Steady.ite (Steady.bind (h c) fun typed => ?_) (Steady.pure _)
      cases typed with
      | some b => exact ih (done ++ [b])
      | none => exact ih done

theorem steady_sendChar (wide pump visible : Bool) (wc : UInt16) :
    Steady seen (sendChar os wide pump visible wc) := by
  refine Steady.bind steady_get fun s => steady_when ?_
  exact Steady.bind (steady_call os rfl) fun _ => steady_when (steady_call os rfl)

theorem steady_strikeChord (chord : Option KeyChord) : Steady seen (strikeChord os chord) := by
  cases chord with
  | some k => exact Steady.bind (steady_handleKeyModInternal os k false) fun _ => Steady.pure _
  | none => exact Steady.pure _

theorem steady_typeKey {chordOf : α → Run (Option KeyChord)} (h : ∀ c, Steady seen (chordOf c)) (c : α) :
    Steady seen (typeKey os chordOf c) :=
  Steady.bind (h c) fun chord => Steady.bind (steady_strikeChord os chord) fun _ => Steady.pure _

theorem steady_typeAscii (pump : Bool) (hkl : Handle) (c : UInt8) :
    Steady seen (typeAscii os pump hkl c) := by
  refine Steady.bind (steady_keyChordFromAsciiChar os c hkl) fun chord => ?_
  refine Steady.bind (steady_strikeChord os chord) fun _ => ?_
  exact Steady.bind (steady_when (steady_sendChar os _ _ _ _)) fun _ => Steady.pure _

theorem steady_typeWide (pump : Bool) (hkl : Handle) (wc : UInt16) :
    Steady seen (typeWide os pump hkl wc) := by
  refine Steady.bind (steady_keyChordFromWideChar os wc hkl) fun chord => ?_
  refine Steady.bind (steady_strikeChord os chord) fun _ => ?_
  exact Steady.bind (steady_sendChar os _ _ _ _) fun _ => Steady.pure _

theorem steady_spaceTrigger (trigger : Bool) : Steady seen (spaceTrigger os trigger) :=
  steady_when (Steady.bind (steady_handleKeyInternal os vkSpace false) fun _ => Steady.pure _)

theorem steady_runText {type : Handle → α → Run (Option Unit)} (h : ∀ hkl c, Steady seen (type hkl c))
    (text : List α) (trigger : Bool) : Steady seen (runText multiByteToWide os type text trigger) := by
  refine Steady.bind (steady_activateImePath os) fun _ => ?_
  refine Steady.bind (steady_getTargetHkl os) fun hkl => ?_
  refine Steady.bind (steady_typeChars (h hkl) text []) fun _ => ?_
  refine Steady.bind (steady_spaceTrigger os trigger) fun _ => ?_
  exact steady_replyWithCandidateSnapshot multiByteToWide os

/-- The preference comes back, and nothing else has been touched. -/
theorem steady_preferringUnicode {x : Run α} (h : Steady seen x) : Steady seen (preferringUnicode x) := by
  intro w
  let started : Program State Call.Answer :=
    { w with state := { w.state with preferUnicodeVkey := true } }
  have hstate := congrArg (fun s : State => { s with preferUnicodeVkey := w.state.preferUnicodeVkey })
    (steady_look h started)
  exact Prod.ext hstate (steady_tally h started)

theorem steady_runKeytextAscii (text : List UInt8) (trigger : Bool) :
    Steady seen (runKeytextAscii multiByteToWide os text trigger) :=
  steady_runText multiByteToWide os
    (fun hkl c => steady_typeKey os (fun c => steady_keyChordFromAsciiChar os c hkl) c) text trigger

theorem steady_runKeytextUtf8 (text : List UInt8) (trigger : Bool) :
    Steady seen (runKeytextUtf8 multiByteToWide os text trigger) := by
  unfold runKeytextUtf8
  split
  · exact steady_runText multiByteToWide os
      (fun hkl c => steady_typeKey os (fun c => steady_keyChordFromWideChar os c hkl) c) _ trigger
  · exact Steady.pure _

theorem steady_runTextAscii (text : List UInt8) (trigger pump : Bool) :
    Steady seen (runTextAscii multiByteToWide os text trigger pump) :=
  steady_runText multiByteToWide os (steady_typeAscii os pump) text trigger

theorem steady_runTextUtf8 (text : List UInt8) (trigger pump : Bool) :
    Steady seen (runTextUtf8 multiByteToWide os text trigger pump) := by
  unfold runTextUtf8
  split
  · exact steady_preferringUnicode (steady_runText multiByteToWide os (steady_typeWide os pump) _ trigger)
  · exact Steady.pure _

theorem steady_appendTraceStep (label : List UInt8) :
    Steady seen (appendTraceStep multiByteToWide os label) := by
  apply steady_active
  rintro ⟨himc, borrowed⟩ target
  refine Enters.after (steady_queried (steady_call os rfl)) fun t => ?_
  refine Enters.after steady_get fun s => ?_
  exact Enters.before (enters_releaseActiveHimc himc borrowed) fun _ => Steady.pure _

theorem steady_traceAscii (hkl : Handle) (c : UInt8) :
    Steady seen (traceAscii multiByteToWide os hkl c) := by
  refine Steady.bind (steady_keyChordFromAsciiChar os c hkl) fun chord => ?_
  refine Steady.ite ?_ (Steady.pure _)
  refine Steady.bind (steady_strikeChord os chord) fun _ => ?_
  refine Steady.bind (steady_sendChar os _ _ _ _) fun _ => ?_
  exact Steady.bind (steady_appendTraceStep multiByteToWide os _) fun _ => Steady.pure _

theorem steady_traceWide (hkl : Handle) (wc : UInt16) :
    Steady seen (traceWide multiByteToWide os hkl wc) := by
  refine Steady.bind (steady_keyChordFromWideChar os wc hkl) fun chord => ?_
  refine Steady.ite ?_ (Steady.pure _)
  refine Steady.bind (steady_strikeChord os chord) fun _ => ?_
  refine Steady.bind (steady_when (steady_note fun _ => rfl)) fun _ => ?_
  refine Steady.bind (steady_sendChar os _ _ _ _) fun _ => ?_
  exact Steady.bind (steady_appendTraceStep multiByteToWide os _) fun _ => Steady.pure _

theorem steady_traceTrigger (trigger : Bool) (steps : List (List UInt8)) :
    Steady seen (traceTrigger multiByteToWide os trigger steps) := by
  refine Steady.ite ?_ (Steady.pure _)
  refine Steady.bind (steady_handleKeyInternal os vkSpace false) fun _ => ?_
  exact Steady.bind (steady_appendTraceStep multiByteToWide os _) fun _ => Steady.pure _

theorem steady_runTrace [DecidableEq α] {type : Handle → α → Run (Option (List UInt8))}
    (h : ∀ hkl c, Steady seen (type hkl c)) (text : List α) (trigger : Bool) :
    Steady seen (runTrace multiByteToWide os type text trigger) := by
  refine Steady.ite (Steady.pure _) ?_
  refine Steady.bind (steady_activateImePath os) fun _ => ?_
  refine Steady.bind (steady_getTargetHkl os) fun hkl => ?_
  refine Steady.bind steady_get fun s => ?_
  refine Steady.bind (steady_typeChars (h hkl) text []) fun steps => ?_
  exact Steady.bind (steady_traceTrigger multiByteToWide os trigger steps) fun _ => Steady.pure _

theorem steady_runTraceUtf8 (text : List UInt8) (trigger : Bool) :
    Steady seen (runTraceUtf8 multiByteToWide os text trigger) := by
  unfold runTraceUtf8
  split
  · exact steady_preferringUnicode
      (steady_runTrace multiByteToWide os (steady_traceWide multiByteToWide os) _ trigger)
  · exact Steady.pure _

theorem steady_convSource (himc : Handle) (arg : List UInt8) :
    Steady seen (convSource multiByteToWide os himc arg) := by
  refine Steady.ite ?_ ?_
  · split
    · exact Steady.pure _
    · exact Steady.pure _
  · refine Steady.bind (steady_call os rfl) fun comp => ?_
    exact Steady.ite (Steady.pure _) (Steady.pure _)

theorem steady_convert (himc : Handle) (arg : List UInt8) :
    Steady seen (convert multiByteToWide os himc arg) := by
  refine Steady.bind steady_get fun s => Steady.ite (Steady.pure _) ?_
  refine Steady.bind (steady_convSource multiByteToWide os himc _) fun source => ?_
  cases source with
  | ok source => exact Steady.bind (steady_call os rfl) fun _ => Steady.pure _
  | error reply => exact Steady.pure _

theorem steady_runConv (arg : List UInt8) : Steady seen (runConv multiByteToWide os arg) := by
  apply steady_active
  rintro ⟨himc, borrowed⟩ target
  refine Enters.after (steady_convert multiByteToWide os himc arg) fun reply => ?_
  exact Enters.before (enters_releaseActiveHimc himc borrowed) fun _ => Steady.pure _

theorem steady_runPreedit : Steady seen (runPreedit multiByteToWide os) := by
  apply steady_active
  rintro ⟨himc, borrowed⟩ target
  refine Enters.after (steady_queried (steady_call os rfl)) fun p => ?_
  refine Enters.after steady_get fun s => ?_
  exact Enters.before (enters_releaseActiveHimc himc borrowed) fun _ => Steady.pure _

theorem steady_completeComposition (himc : Handle) : Steady seen (completeComposition os himc) := by
  refine Steady.bind steady_get fun s => Steady.ite ?_ (steady_note fun _ => rfl)
  exact Steady.bind (steady_call os rfl) fun _ => steady_note fun _ => rfl

theorem steady_runCommit : Steady seen (runCommit os) := by
  apply steady_active
  rintro ⟨himc, borrowed⟩ target
  refine Enters.after (steady_completeComposition os himc) fun _ => ?_
  refine Enters.after steady_get fun s => ?_
  exact Enters.before (enters_releaseActiveHimc himc borrowed) fun _ => Steady.pure _

theorem steady_runPick (arg : List UInt8) : Steady seen (runPick multiByteToWide os arg) := by
  unfold runPick
  split
  · exact Steady.ite (Steady.pure _) (steady_runKeyAndReplyCand multiByteToWide os _)
  · exact Steady.pure _

theorem steady_runKey (arg : List UInt8) : Steady seen (runKey os arg) := by
  unfold runKey
  split
  · exact Steady.bind (steady_handleKeyInternal os _ true) fun _ => Steady.pure _
  · exact Steady.pure _

theorem steady_runKeychord (arg : List UInt8) : Steady seen (runKeychord os arg) := by
  unfold runKeychord
  split
  · exact Steady.bind (steady_handleKeyModInternal os _ true) fun _ => Steady.pure _
  · exact Steady.pure _

/-- What only a few commands change. -/
def Command.changes : Command → Bool
  | .cp _ | .reset => true
  | _ => false

theorem steady_perform (narrow : List UInt16 → List UInt8) {command : Command}
    (h : command.changes = false) : Steady seen (perform multiByteToWide narrow os command) := by
  cases command with
  | cp arg => cases h
  | reset => cases h
  | ping => exact Steady.pure _
  | status => exact Steady.bind steady_get fun _ => Steady.pure _
  | cand => exact steady_replyWithCandidateSnapshot multiByteToWide os
  | preedit => exact steady_runPreedit multiByteToWide os
  | trace trigger text =>
      exact steady_runTrace multiByteToWide os (steady_traceAscii multiByteToWide os) _ trigger
  | traceUtf8 trigger text => exact steady_runTraceUtf8 multiByteToWide os text trigger
  | page vk => exact steady_runKeyAndReplyCand multiByteToWide os vk
  | pick arg => exact steady_runPick multiByteToWide os arg
  | commit => exact steady_runCommit os
  | keytext trigger text => exact steady_runKeytextAscii multiByteToWide os text trigger
  | keytextUtf8 trigger text => exact steady_runKeytextUtf8 multiByteToWide os text trigger
  | text text => exact steady_runTextAscii multiByteToWide os text false true
  | textUtf8 text => exact steady_runTextUtf8 multiByteToWide os text false true
  | pipe text => exact steady_runTextAscii multiByteToWide os text true false
  | pipeUtf8 text => exact steady_runTextUtf8 multiByteToWide os text true false
  | conv arg => exact steady_runConv multiByteToWide os arg
  | key arg => exact steady_runKey os arg
  | keychord arg => exact steady_runKeychord os arg
  | activate => exact Steady.bind (steady_activateImePath os) fun _ => Steady.pure _
  | quit => exact Steady.pure _
  | unknown => exact Steady.pure _

end

end RimeWinime.ImeHost
