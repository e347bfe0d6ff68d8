import RimeWinime.Lib.Run
import RimeWinime.Remote.View

namespace RimeWinime.Events

open World Text Run Proto Backend Client SharedState Processor

variable {E β : Type}

/-- A key event, with what happens to the engine since the event before: changes
from outside, then those that `ascii_composer` makes on this event. -/
structure KeyStep (E : Type) where
  outside : E → E
  composer : E → E
  key : KeyEvent

def arrive (f : Front E β) (e : KeyStep E) : Front E β :=
  { f with engine := e.composer (e.outside f.engine) }

def step (r : Remote E β) (f : Front E β) (e : KeyStep E) : Front E β :=
  (processKeyEvent r e.key (arrive f e)).2

def Known (r : Remote E β) : Prop := findSession r.client r.sessionId ≠ ""

instance (r : Remote E β) : Decidable (Known r) :=
  inferInstanceAs (Decidable (findSession r.client r.sessionId ≠ ""))

def idOf (r : Remote E β) : Nat := remoteId r.client r.sessionId

/-- The processor just constructed, over a server in any state. -/
def start (r : Remote E β) (engine : E) (server : β) (outcome : Nat → RpcOutcome) : Front E β :=
  ⟨none, r.engine.asciiMode engine, engine, ⟨server, [], outcome⟩, []⟩

def reached (r : Remote E β) (engine : E) (server : β) (outcome : Nat → RpcOutcome)
    (events : List (KeyStep E)) : Front E β :=
  run (step r) (start r engine server outcome) events

/-- What librime's context does: a commit leaves the composition alone, and a
composition is an input that is not empty. -/
structure EngineLaws (engine : RimeEngine E) : Prop where
  commitText_input : ∀ text e, engine.input (engine.commitText text e) = engine.input e
  commitText_caretPos : ∀ text e, engine.caretPos (engine.commitText text e) = engine.caretPos e
  commitText_composing : ∀ text e,
    engine.isComposing (engine.commitText text e) = engine.isComposing e
  setInput_composing : ∀ text e, text ≠ "" → engine.isComposing (engine.setInput text e) = true
  setCaretPos_composing : ∀ n e, engine.isComposing (engine.setCaretPos n e) = engine.isComposing e

def keyCall (r : Remote E β) (key : KeyEvent) (f : Front E β) : Front E β :=
  let served := executed f.link (r.backend.processKey (idOf r) key)
  { f with link := f.link.record (.processKey ⟨findSession r.client r.sessionId, some key⟩) served }

def commitCall (r : Remote E β) (f : Front E β) : Front E β :=
  let served := executed f.link (r.backend.getCommit (idOf r))
  { f with link := f.link.record (.getCommit ⟨findSession r.client r.sessionId⟩) served }

def contextCall (r : Remote E β) (f : Front E β) : Front E β :=
  let served := executed f.link (r.backend.getContext (idOf r))
  { f with link := f.link.record (.getContext ⟨findSession r.client r.sessionId⟩) served }

def fetchedText (r : Remote E β) (l : Link β) : String :=
  if answered l then (r.backend.getCommit (idOf r) l.server).1.getD "" else ""

def fetchedContext (r : Remote E β) (l : Link β) : Except DecodeFault (Option RemoteContext) :=
  if answered l then decodeContext r.search r.client (r.backend.getContext (idOf r) l.server).1
  else .ok none

def deliver (r : Remote E β) (text : String) (f : Front E β) : Front E β :=
  if text = "" then f
  else { f with engine := r.engine.commitText text f.engine, emitted := f.emitted ++ [text] }

def commitSynced (r : Remote E β) (f : Front E β) : Front E β :=
  deliver r (fetchedText r f.link) (commitCall r f)

/-- The cached context stays as it is when the new one cannot be read. -/
def contextSynced (r : Remote E β) (f : Front E β) : Front E β :=
  { contextCall r f with cached := (fetchedContext r f.link).toOption.getD f.cached }

section

variable {r : Remote E β}

@[simp] theorem deliver_link (text : String) (f : Front E β) : (deliver r text f).link = f.link := by
  rw [deliver]
  split <;> rfl

theorem deliver_emitted (text : String) (f : Front E β) :
    concat (deliver r text f).emitted = concat f.emitted ++ text := by
  rw [deliver]
  split
  · next h => rw [h, String.append_empty]
  · rw [concat_append, concat_singleton]

theorem deliver_engine (text : String) (f : Front E β) :
    (deliver r text f).engine = f.engine ∨
      (deliver r text f).engine = r.engine.commitText text f.engine := by
  rw [deliver]
  split
  · exact Or.inl rfl
  · exact Or.inr rfl

theorem callProcessKey_known (h : Known r) (keycode mask : UInt32) (f : Front E β) :
    callProcessKey r keycode mask f =
      (answered f.link && (r.backend.processKey (idOf r) ⟨keycode, mask⟩ f.link.server).1,
        keyCall r ⟨keycode, mask⟩ f) := by
  rw [callProcessKey, onLink, processKey_known r.backend h]
  rfl

theorem callGetCommit_known (h : Known r) (f : Front E β) :
    callGetCommit r f =
      (if answered f.link then (r.backend.getCommit (idOf r) f.link.server).1 else none,
        commitCall r f) := by
  rw [callGetCommit, onLink, getCommit_known r.backend h]
  rfl

theorem callGetContext_known (h : Known r) (f : Front E β) :
    callGetContext r f =
      (if answered f.link then some (r.backend.getContext (idOf r) f.link.server).1 else none,
        contextCall r f) := by
  rw [callGetContext, onLink, getContext_known r.backend h]
  rfl

theorem syncCommit_known (h : Known r) (f : Front E β) :
    syncCommitFromBackend r f = ((), commitSynced r f) := by
  rw [syncCommitFromBackend, bind_run, callGetCommit_known h, commitSynced, fetchedText]
  cases answered f.link with
  | false => rfl
  | true =>
      cases (r.backend.getCommit (idOf r) f.link.server).1 with
      | none => rfl
      | some text => by_cases ht : text = "" <;> simp [ht, deliver, emitText]

theorem syncContext_known (h : Known r) (f : Front E β) :
    syncContextFromBackend r f =
      ((fetchedContext r f.link).map fun _ => (), contextSynced r f) := by
  rw [syncContextFromBackend, bind_run, callGetContext_known h, contextSynced, fetchedContext]
  cases answered f.link with
  | false => rfl
  | true =>
      simp only [reduceIte]
      cases decodeContext r.search r.client (r.backend.getContext (idOf r) f.link.server).1 <;> rfl

def toggled (r : Remote E β) (keycode : UInt32) (f : Front E β) : Front E β :=
  match styleOf (switchKeyBindings r.config) keycode with
  | .inlineAscii => f
  | .commitCode => { commitCall r (keyCall r ⟨ESCAPE, 0⟩ f) with cached := none }
  | .commitText =>
      let f := keyCall r ⟨SPACE, 0⟩ f
      { commitSynced r { f with engine := r.engine.clear f.engine } with cached := none }
  | .clear =>
      let f := commitCall r (keyCall r ⟨ESCAPE, 0⟩ f)
      { f with engine := r.engine.clear f.engine, cached := none }
  | .noop => { f with cached := none }

/-- The key with which a style ends the backend's composition. -/
def dismissal : AsciiSwitchStyle → Option KeyEvent
  | .commitCode | .clear => some ⟨ESCAPE, 0⟩
  | .commitText => some ⟨SPACE, 0⟩
  | .inlineAscii | .noop => none

theorem toggled_link (keycode : UInt32) (f : Front E β) :
    (toggled r keycode f).link =
      match dismissal (styleOf (switchKeyBindings r.config) keycode) with
      | none => f.link
      | some key => (commitCall r (keyCall r key f)).link := by
  rw [toggled]
  cases styleOf (switchKeyBindings r.config) keycode with
  | commitText => exact deliver_link _ _
  | inlineAscii | commitCode | clear | noop => rfl

theorem handleAsciiModeToggle_known (h : Known r) (keycode : UInt32) {f : Front E β}
    (hcached : f.cached.isSome) :
    handleAsciiModeToggle r keycode f = ((), toggled r keycode f) := by
  rw [handleAsciiModeToggle, bind_run, observe_run, hcached, if_pos rfl, toggled]
  cases styleOf (switchKeyBindings r.config) keycode <;>
    simp [callProcessKey_known h, callGetCommit_known h, syncCommit_known h, onEngine, setCached]

def forwarded (r : Remote E β) (key : KeyEvent) (f : Front E β) : Front E β :=
  contextSynced r (commitSynced r (keyCall r key f))

theorem forwarded_link (key : KeyEvent) (f : Front E β) :
    (forwarded r key f).link = (contextCall r (commitCall r (keyCall r key f))).link := by
  simp only [forwarded, contextSynced, contextCall, commitSynced, deliver_link]

def keyAccepted (r : Remote E β) (key : KeyEvent) (l : Link β) : Bool :=
  answered l && (r.backend.processKey (idOf r) key l.server).1

/-- What comes of the context that is fetched after the key. -/
def decoded (r : Remote E β) (key : KeyEvent) (f : Front E β) :
    Except DecodeFault (Option RemoteContext) :=
  fetchedContext r (commitCall r (keyCall r key f)).link

theorem forwardKey_run (h : Known r) (key : KeyEvent) (f : Front E β) :
    forwardKey r key f =
      andThen (fun f' => ((decoded r key f).map fun _ => (), contextSynced r f'))
        (fun _ => judgeKey r (cachedPreedit f) (keyAccepted r key f.link))
        (commitSynced r (keyCall r key f)) := by
  have hlink : (commitSynced r (keyCall r key f)).link = (commitCall r (keyCall r key f)).link :=
    deliver_link _ _
  simp only [forwardKey, bind_run, observe_run, callProcessKey_known h, syncCommit_known h, andThen,
    syncContext_known h, hlink, decoded]
  rfl

/-- With a context that is read, the key is judged. -/
theorem forwardKey_decoded (h : Known r) {key : KeyEvent} {f : Front E β}
    {context : Option RemoteContext} (hread : decoded r key f = .ok context) :
    forwardKey r key f =
      if !keyAccepted r key f.link && !contextChanged (cachedPreedit f) (forwarded r key f) then
        (.ok .noop, forwarded r key f)
      else (.ok .accepted, { forwarded r key f with
        engine := applyContext r.engine (forwarded r key f).cached (forwarded r key f).engine }) := by
  rw [forwardKey_run h, hread]
  exact ite_run _ _ _ _

theorem forwardKey_fault (h : Known r) {key : KeyEvent} {f : Front E β} {fault : DecodeFault}
    (hread : decoded r key f = .error fault) :
    forwardKey r key f = (.error fault, forwarded r key f) := by
  rw [forwardKey_run h, hread]
  rfl

/-- What the verdict leaves of the state. -/
theorem forwardKey_state (h : Known r) (key : KeyEvent) (f : Front E β) :
    (forwardKey r key f).2 = forwarded r key f ∨
      (forwardKey r key f).2 = { forwarded r key f with
        engine := applyContext r.engine (forwarded r key f).cached (forwarded r key f).engine } := by
  cases hread : decoded r key f with
  | error fault =>
      rw [forwardKey_fault h hread]
      exact Or.inl rfl
  | ok context =>
      rw [forwardKey_decoded h hread]
      split
      · exact Or.inl rfl
      · exact Or.inr rfl

def reported (r : Remote E β) (key : KeyEvent) (f : Front E β) : RimeContextProto :=
  (r.backend.getContext (idOf r) (commitCall r (keyCall r key f)).link.server).1

theorem decoded_eq (key : KeyEvent) (f : Front E β) :
    decoded r key f =
      if answered (commitCall r (keyCall r key f)).link then
        decodeContext r.search r.client (reported r key f)
      else .ok none := rfl

@[simp] theorem deliver_cached (text : String) (f : Front E β) :
    (deliver r text f).cached = f.cached := by
  rw [deliver]
  split <;> rfl

theorem forwarded_cached (key : KeyEvent) (f : Front E β) :
    (forwarded r key f).cached = (decoded r key f).toOption.getD f.cached := by
  rw [forwarded, contextSynced, commitSynced, deliver_link, deliver_cached]
  rfl

theorem forwarded_decoded {key : KeyEvent} {f : Front E β} {context : Option RemoteContext}
    (h : decoded r key f = .ok context) : (forwarded r key f).cached = context := by
  rw [forwarded_cached, h]
  rfl

/-- The only thing that a forwarded key does to the engine before the verdict. -/
theorem forwarded_engine (key : KeyEvent) (f : Front E β) :
    (forwarded r key f).engine = f.engine ∨
      ∃ text, (forwarded r key f).engine = r.engine.commitText text f.engine :=
  (deliver_engine _ (commitCall r (keyCall r key f))).imp_right fun h => ⟨_, h⟩

theorem contextChanged_eq (oldPreedit : String) (f : Front E β) :
    contextChanged oldPreedit f = (cachedPreedit f != oldPreedit) := by
  rw [contextChanged, cachedPreedit]
  cases f.cached with
  | some rc => rfl
  | none => exact bne_comm

def Toggles (r : Remote E β) (f : Front E β) : Prop := r.engine.asciiMode f.engine ≠ f.asciiWasOn

instance (r : Remote E β) (f : Front E β) : Decidable (Toggles r f) :=
  inferInstanceAs (Decidable (r.engine.asciiMode f.engine ≠ f.asciiWasOn))

def Forwards (r : Remote E β) (key : KeyEvent) (f : Front E β) : Prop :=
  ¬Toggles r f ∧ passesThrough key (r.engine.asciiMode f.engine) = false

instance (r : Remote E β) (key : KeyEvent) (f : Front E β) : Decidable (Forwards r key f) :=
  inferInstanceAs (Decidable (¬Toggles r f ∧ _ = false))

theorem event_cases (r : Remote E β) (key : KeyEvent) (f : Front E β) :
    r.grpcSessionOpen = false ∨ r.grpcSessionOpen = true ∧
      (Toggles r f ∨
        ¬Toggles r f ∧ passesThrough key (r.engine.asciiMode f.engine) = true ∨
        Forwards r key f) := by
  cases hopen : r.grpcSessionOpen with
  | false => exact Or.inl rfl
  | true =>
      refine Or.inr ⟨rfl, ?_⟩
      by_cases htoggle : Toggles r f
      · exact Or.inl htoggle
      · cases hpass : passesThrough key (r.engine.asciiMode f.engine) with
        | true => exact Or.inr (Or.inl ⟨htoggle, rfl⟩)
        | false => exact Or.inr (Or.inr ⟨htoggle, hpass⟩)

theorem processKeyEvent_closed (h : r.grpcSessionOpen = false) (key : KeyEvent) (f : Front E β) :
    processKeyEvent r key f = (.ok .noop, f) := by
  rw [processKeyEvent, if_pos h]
  rfl

theorem processKeyEvent_toggle (hopen : r.grpcSessionOpen = true) (key : KeyEvent)
    {f : Front E β} (h : Toggles r f) :
    processKeyEvent r key f =
      (.ok .accepted, { (if r.engine.asciiMode f.engine && f.cached.isSome then
        (handleAsciiModeToggle r key.keycode f).2 else f) with
          asciiWasOn := r.engine.asciiMode f.engine }) := by
  rw [Toggles] at h
  rw [processKeyEvent, if_neg (by simp [hopen]), bind_run, observe_run, bind_run, observe_run,
    if_pos h, bind_run, observe_run]
  cases r.engine.asciiMode f.engine && f.cached.isSome <;> rfl

/-- The key that a toggle sends to the backend. -/
def toggleKey (r : Remote E β) (key : KeyEvent) (f : Front E β) : Option KeyEvent :=
  if r.engine.asciiMode f.engine && f.cached.isSome then
    dismissal (styleOf (switchKeyBindings r.config) key.keycode)
  else none

theorem toggle_link (hopen : r.grpcSessionOpen = true) (hknown : Known r) (key : KeyEvent)
    {f : Front E β} (h : Toggles r f) :
    (processKeyEvent r key f).2.link =
      match toggleKey r key f with
      | none => f.link
      | some sent => (commitCall r (keyCall r sent f)).link := by
  rw [processKeyEvent_toggle hopen key h, toggleKey]
  cases hctx : r.engine.asciiMode f.engine && f.cached.isSome with
  | false => rfl
  | true =>
      have hcached : f.cached.isSome = true := (Bool.and_eq_true_iff.mp hctx).2
      rw [if_pos rfl, if_pos rfl, handleAsciiModeToggle_known hknown key.keycode hcached]
      exact toggled_link key.keycode f

theorem processKeyEvent_pass (hopen : r.grpcSessionOpen = true) {key : KeyEvent}
    {f : Front E β} (h : ¬Toggles r f) (hpass : passesThrough key (r.engine.asciiMode f.engine)) :
    processKeyEvent r key f = (.ok .noop, f) := by
  rw [Toggles] at h
  rw [processKeyEvent, if_neg (by simp [hopen]), bind_run, observe_run, bind_run, observe_run,
    if_neg h, if_pos hpass]
  rfl

theorem processKeyEvent_forward (hopen : r.grpcSessionOpen = true) {key : KeyEvent}
    {f : Front E β} (h : Forwards r key f) : processKeyEvent r key f = forwardKey r key f := by
  obtain ⟨htoggle, hpass⟩ := h
  rw [Toggles] at htoggle
  rw [processKeyEvent, if_neg (by simp [hopen]), bind_run, observe_run, bind_run, observe_run,
    if_neg htoggle, if_neg (by simp [hpass])]

theorem forward_link (hopen : r.grpcSessionOpen = true) (hknown : Known r) {key : KeyEvent}
    {f : Front E β} (h : Forwards r key f) :
    (processKeyEvent r key f).2.link = (contextCall r (commitCall r (keyCall r key f))).link := by
  rw [processKeyEvent_forward hopen h, ← forwarded_link]
  obtain hstate | hstate := forwardKey_state hknown key f
  · rw [hstate]
  · rw [hstate]

theorem callProcessKey_unknown (h : ¬Known r) (keycode mask : UInt32) (f : Front E β) :
    callProcessKey r keycode mask f = (false, f) := by
  rw [callProcessKey, onLink, processKey_unknown r.backend (not_not.mp h)]

theorem callGetCommit_unknown (h : ¬Known r) (f : Front E β) : callGetCommit r f = (none, f) := by
  rw [callGetCommit, onLink, getCommit_unknown r.backend (not_not.mp h)]

theorem callGetContext_unknown (h : ¬Known r) (f : Front E β) : callGetContext r f = (none, f) := by
  rw [callGetContext, onLink, getContext_unknown r.backend (not_not.mp h)]

theorem syncCommit_unknown (h : ¬Known r) (f : Front E β) :
    syncCommitFromBackend r f = ((), f) := by
  rw [syncCommitFromBackend, bind_run, callGetCommit_unknown h]
  rfl

theorem syncContext_unknown (h : ¬Known r) (f : Front E β) :
    syncContextFromBackend r f = (.ok (), { f with cached := none }) := by
  rw [syncContextFromBackend, bind_run, callGetContext_unknown h]
  rfl

theorem forwardKey_unknown (h : ¬Known r) (key : KeyEvent) (f : Front E β) :
    forwardKey r key f =
      if cachedPreedit f = "" then (.ok .noop, { f with cached := none })
      else (.ok .accepted, { f with
        cached := none, engine := applyContext r.engine none f.engine }) := by
  simp only [forwardKey, judgeKey, andThen, bind_run, observe_run, callProcessKey_unknown h,
    syncCommit_unknown h, syncContext_unknown h, contextChanged]
  by_cases hp : cachedPreedit f = "" <;> simp [hp]

/-- Nothing was called or delivered, and at most the cached context was dropped. -/
def Untouched (f f' : Front E β) : Prop :=
  f'.link = f.link ∧ f'.emitted = f.emitted ∧ (f'.cached = f.cached ∨ f'.cached = none)

theorem handleAsciiModeToggle_unknown (h : ¬Known r) (keycode : UInt32) (f : Front E β) :
    Untouched f (handleAsciiModeToggle r keycode f).2 := by
  rw [handleAsciiModeToggle, bind_run, observe_run]
  cases f.cached.isSome with
  | false => exact ⟨rfl, rfl, Or.inl rfl⟩
  | true =>
      rw [if_pos rfl]
      cases styleOf (switchKeyBindings r.config) keycode <;>
        simp [Untouched, callProcessKey_unknown h, callGetCommit_unknown h, syncCommit_unknown h,
          onEngine, setCached]

theorem processKeyEvent_unknown (h : ¬Known r) (key : KeyEvent) (f : Front E β) :
    Untouched f (processKeyEvent r key f).2 := by
  obtain hclosed | ⟨hopen, htoggle | ⟨hsame, hpass⟩ | hforward⟩ := event_cases r key f
  · rw [processKeyEvent_closed hclosed]
    exact ⟨rfl, rfl, Or.inl rfl⟩
  · rw [processKeyEvent_toggle hopen key htoggle]
    cases r.engine.asciiMode f.engine && f.cached.isSome with
    | false => exact ⟨rfl, rfl, Or.inl rfl⟩
    | true => exact handleAsciiModeToggle_unknown h key.keycode f
  · rw [processKeyEvent_pass hopen hsame hpass]
    exact ⟨rfl, rfl, Or.inl rfl⟩
  · rw [processKeyEvent_forward hopen hforward, forwardKey_unknown h]
    split <;> exact ⟨rfl, rfl, Or.inr rfl⟩

end

end RimeWinime.Events
