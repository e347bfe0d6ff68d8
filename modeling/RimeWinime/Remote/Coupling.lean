import RimeWinime.Remote.KeyVerdict

namespace RimeWinime.Coupling

open World Run Proto Backend Client SharedState Processor View Events KeyVerdict Desk

variable {E β : Type}

/-- The candidates that a menu lists, whatever number it gives for them. -/
def listedCandidates (menu : MenuProto) : List RemoteCandidate :=
  menu.candidates.map fun c => ⟨c.text, c.comment⟩

theorem shown_candidates (preedit : String) (candidates : List RemoteCandidate) :
    ((shown preedit candidates).map (·.2)).getD [] = candidates := by
  rw [shown]
  split
  · next h => exact h.2.symm
  · rfl

def heldView (proto : RimeContextProto) : Option (String × List RemoteCandidate) :=
  shown (preeditOf proto) ((proto.menu.map listedCandidates).getD [])

def CountsCandidates (proto : RimeContextProto) : Prop :=
  ∀ menu ∈ proto.menu, menu.numCandidates.toInt = menu.candidates.length

instance (proto : RimeContextProto) : Decidable (CountsCandidates proto) :=
  inferInstanceAs (Decidable (∀ menu ∈ proto.menu, _ = _))

theorem declared_eq_listed (menu : MenuProto) :
    declaredCandidates menu = .ok (listedCandidates menu) ↔
      menu.numCandidates.toInt = menu.candidates.length := by
  have hreads := declaredCandidates_ok menu
  constructor
  · intro h
    have hcount := hreads.mp ⟨_, h⟩
    have hlength := congrArg List.length (declaredCandidates_eq h)
    rw [listedCandidates, List.length_map, List.length_map, List.length_take, turns] at hlength
    omega
  · intro h
    obtain ⟨read, hread⟩ := hreads.mpr ⟨by omega, by omega⟩
    have hturns : turns menu = menu.candidates.length := by
      rw [turns]
      omega
    rw [hread, declaredCandidates_eq hread, hturns, List.take_length, listedCandidates]

theorem viewOf_eq_heldView (proto : RimeContextProto) :
    viewOf proto = .ok (heldView proto) ↔ CountsCandidates proto := by
  have hcounts : CountsCandidates proto ↔
      candidatesOf proto = .ok ((proto.menu.map listedCandidates).getD []) := by
    rw [CountsCandidates, candidatesOf]
    cases proto.menu with
    | none => simp
    | some menu => simp [declared_eq_listed]
  rw [hcounts, viewOf, heldView]
  constructor
  · intro h
    cases hread : candidatesOf proto with
    | error fault =>
        rw [hread] at h
        cases h
    | ok candidates =>
        rw [hread] at h
        have hshown := congrArg (fun view => (view.map (·.2)).getD []) (Except.ok.inj h)
        rw [shown_candidates, shown_candidates] at hshown
        rw [hshown]
  · intro h
    rw [h]
    rfl

def cachedView (f : Front E β) : Option (String × List RemoteCandidate) :=
  f.cached.map fun rc => (rc.preedit, rc.candidates)

section

variable {r : Remote E β} (v : SessionView r.backend (idOf r))

def serverView (l : Link β) : Option (String × List RemoteCandidate) := heldView (v.context l.server)

/-- The cached context is the backend's composition, and while the backend has one the
engine has one too. -/
structure InStep (f : Front E β) : Prop where
  cached : cachedView f = serverView v f.link
  composing : serverView v f.link ≠ none → r.engine.isComposing f.engine = true

/-- The event returns a result, and both sides are in step after it. -/
structure StepsTogether (f : Front E β) (e : KeyStep E) : Prop where
  returns : ∃ result, (processKeyEvent r e.key (arrive f e)).1 = .ok result
  inStep : InStep v (step r f e)

/-- When an event leaves both sides in step. A toggle must keep the composition on both
sides or end it on both, and a key that is let through must find the engine composing. -/
def KeepsStep (f : Front E β) (e : KeyStep E) : Prop :=
  let g := arrive f e
  if Toggles r g ∧ r.engine.asciiMode g.engine = true ∧ f.cached.isSome = true then
    match styleOf (switchKeyBindings r.config) e.key.keycode with
    | .inlineAscii => r.engine.isComposing g.engine = true
    | .noop => False
    | .commitText => serverView v (commitCall r (keyCall r ⟨SPACE, 0⟩ g)).link = none
    | .commitCode | .clear => serverView v (commitCall r (keyCall r ⟨ESCAPE, 0⟩ g)).link = none
  else if Forwards r e.key g then
    CountsCandidates (reported r e.key g) ∧
      (heldView (reported r e.key g) ≠ none →
        keyAccepted r e.key g.link = true ∨ preeditOf (reported r e.key g) ≠ cachedPreedit f ∨
          r.engine.isComposing g.engine = true)
  else serverView v f.link ≠ none → r.engine.isComposing g.engine = true

theorem inStep_kept {f g : Front E β} (h : InStep v f) (hserver : g.link.server = f.link.server)
    (hcached : g.cached = f.cached) :
    InStep v g ↔ (serverView v f.link ≠ none → r.engine.isComposing g.engine = true) := by
  have hview : serverView v g.link = serverView v f.link := by rw [serverView, serverView, hserver]
  constructor
  · intro hg
    rw [← hview]
    exact hg.composing
  · intro hcomposing
    refine ⟨?_, ?_⟩
    · rw [cachedView, hcached, hview]
      exact h.cached
    · rwa [hview]

theorem inStep_dropped {g : Front E β} (hcached : g.cached = none) :
    InStep v g ↔ serverView v g.link = none := by
  constructor
  · intro hg
    have hview := hg.cached
    rw [cachedView, hcached] at hview
    exact hview.symm
  · intro hview
    refine ⟨?_, fun hheld => absurd hview hheld⟩
    rw [cachedView, hcached, hview]
    rfl

theorem applyContext_composing (laws : EngineLaws r.engine) (rc : RemoteContext) (e : E) :
    r.engine.isComposing (applyContext r.engine (some rc) e) = true := by
  have hinput : (if rc.preedit = "" then " " else rc.preedit) ≠ "" := by
    split
    · decide
    · assumption
  simp only [applyContext]
  generalize (if rc.preedit = "" then " " else rc.preedit) = inputText at hinput ⊢
  split
  · rw [laws.setCaretPos_composing]
    exact laws.setInput_composing _ _ hinput
  · exact laws.setInput_composing _ _ hinput

theorem toggle_inStep (hopen : r.grpcSessionOpen = true) (hknown : Known r) {f : Front E β}
    {e : KeyStep E} (h : InStep v f) (htoggle : Toggles r (arrive f e))
    (hctx : r.engine.asciiMode (arrive f e).engine = true ∧ f.cached.isSome = true) :
    InStep v (step r f e) ↔ KeepsStep v f e := by
  have hheld : serverView v f.link ≠ none := by
    rw [← h.cached, cachedView]
    simpa [Option.isSome_iff_ne_none] using hctx.2
  have hboth : (r.engine.asciiMode (arrive f e).engine && (arrive f e).cached.isSome) = true :=
    Bool.and_eq_true_iff.mpr hctx
  have hcase : Toggles r (arrive f e) ∧ r.engine.asciiMode (arrive f e).engine = true ∧
      f.cached.isSome = true := ⟨htoggle, hctx⟩
  rw [step, processKeyEvent_toggle hopen e.key htoggle, if_pos hboth, KeepsStep, if_pos hcase,
    handleAsciiModeToggle_known hknown e.key.keycode (f := arrive f e) hctx.2, toggled]
  cases styleOf (switchKeyBindings r.config) e.key.keycode with
  | inlineAscii =>
      refine (inStep_kept v h ?_ ?_).trans ?_
      · rfl
      · rfl
      · exact ⟨fun hcomposing => hcomposing hheld, fun hcomposing _ => hcomposing⟩
  | noop =>
      refine (inStep_dropped v rfl).trans ?_
      exact ⟨fun hnone => hheld hnone, False.elim⟩
  | commitCode => exact inStep_dropped v rfl
  | clear => exact inStep_dropped v rfl
  | commitText =>
      refine (inStep_dropped v rfl).trans ?_
      rw [serverView, serverView]
      exact iff_of_eq (congrArg (fun l : Link β => heldView (v.context l.server) = none)
        (deliver_link _ _))

theorem idle_inStep {f g : Front E β} {e : KeyStep E} (h : InStep v f)
    (hlink : g.link = f.link) (hcached : g.cached = f.cached)
    (hengine : g.engine = (arrive f e).engine)
    (hcase : ¬(Toggles r (arrive f e) ∧ r.engine.asciiMode (arrive f e).engine = true ∧
      f.cached.isSome = true)) (hkept : ¬Forwards r e.key (arrive f e)) :
    InStep v g ↔ KeepsStep v f e := by
  rw [inStep_kept v h (congrArg Link.server hlink) hcached, hengine, KeepsStep, if_neg hcase,
    if_neg hkept]

theorem forward_server (hopen : r.grpcSessionOpen = true) (hknown : Known r) {key : KeyEvent}
    {f : Front E β} (h : Forwards r key f)
    (hanswered : answered (commitCall r (keyCall r key f)).link = true) :
    serverView v (processKeyEvent r key f).2.link = heldView (reported r key f) := by
  have hnext : (commitCall r (keyCall r key f)).link.next = .delivered := by
    simpa [answered] using hanswered
  have hserver : (processKeyEvent r key f).2.link.server =
      (r.backend.getContext (idOf r) (commitCall r (keyCall r key f)).link.server).2 := by
    rw [forward_link hopen hknown h, contextCall, executed, hnext]
    rfl
  rw [serverView, hserver, reported, v.getContext_reports]

theorem forward_view (hopen : r.grpcSessionOpen = true) (hknown : Known r) {key : KeyEvent}
    {f : Front E β} (h : Forwards r key f) {context : Option RemoteContext}
    (hread : decoded r key f = .ok context)
    (hanswered : answered (commitCall r (keyCall r key f)).link = true) :
    viewOf (reported r key f) = .ok (cachedView (processKeyEvent r key f).2) := by
  rw [decoded_eq, if_pos hanswered] at hread
  have hview := decodeContext_view r.search r.client (reported r key f)
  rw [hread] at hview
  have hcached : (processKeyEvent r key f).2.cached = context := by
    rw [forward_cached hopen hknown h]
    apply forwarded_decoded
    rw [decoded_eq, if_pos hanswered, hread]
  rw [← hview, cachedView, hcached]
  rfl

theorem accepted_composing (laws : EngineLaws r.engine) (hopen : r.grpcSessionOpen = true)
    (hknown : Known r) {key : KeyEvent} {f : Front E β} (h : Forwards r key f)
    {context : Option RemoteContext} (hread : decoded r key f = .ok context)
    (haccepted : (processKeyEvent r key f).1 ≠ .ok .noop)
    (hcached : (processKeyEvent r key f).2.cached ≠ none) :
    r.engine.isComposing (processKeyEvent r key f).2.engine = true := by
  rw [processKeyEvent_forward hopen h, forwardKey_decoded hknown hread] at haccepted hcached ⊢
  split at haccepted
  · exact absurd rfl haccepted
  · next hc =>
      rw [if_neg hc] at hcached ⊢
      obtain ⟨rc, hrc⟩ := Option.ne_none_iff_exists'.mp hcached
      have hrc : (forwarded r key f).cached = some rc := hrc
      simp only [hrc]
      exact applyContext_composing laws rc _

theorem noop_composing (laws : EngineLaws r.engine) (hopen : r.grpcSessionOpen = true)
    (hknown : Known r) {key : KeyEvent} {f : Front E β} (h : Forwards r key f)
    (hnoop : (processKeyEvent r key f).1 = .ok .noop) :
    r.engine.isComposing (processKeyEvent r key f).2.engine = r.engine.isComposing f.engine := by
  rw [noop_state hopen hknown h hnoop]
  obtain hengine | ⟨text, hengine⟩ := forwarded_engine (r := r) key f
  · rw [hengine]
  · rw [hengine, laws.commitText_composing]

theorem decodes_of_counts {proto : RimeContextProto} (h : CountsCandidates proto) :
    Decodes proto := by
  rw [← viewOf_eq_heldView, viewOf] at h
  cases hread : candidatesOf proto with
  | ok candidates => exact ⟨candidates, hread⟩
  | error fault =>
      rw [hread] at h
      cases h

theorem forward_inStep (laws : EngineLaws r.engine) (hopen : r.grpcSessionOpen = true)
    (hknown : Known r) {f : Front E β} {e : KeyStep E} (hforward : Forwards r e.key (arrive f e))
    (hanswered : answered (commitCall r (keyCall r e.key (arrive f e))).link = true) :
    StepsTogether v f e ↔ KeepsStep v f e := by
  have hserver := forward_server v hopen hknown hforward hanswered
  have hcase : ¬(Toggles r (arrive f e) ∧ r.engine.asciiMode (arrive f e).engine = true ∧
      f.cached.isSome = true) := fun hall => hforward.1 hall.1
  have hverdict := noop_reported_iff hopen hknown hforward hanswered
  rw [KeepsStep, if_neg hcase, if_pos hforward]
  constructor
  -- an accepted key composes anew, so only a key let through can leave the engine idle
  · rintro ⟨⟨result, hresult⟩, hview, hcomposing⟩
    have hread := decoded_of_ok hopen hknown hforward hresult
    have hreported := forward_view hopen hknown hforward hread hanswered
    rw [step, hserver] at hview
    rw [step, hserver] at hcomposing
    rw [hview] at hreported
    refine ⟨(viewOf_eq_heldView _).mp hreported, fun hheld => ?_⟩
    by_cases hnoop : (processKeyEvent r e.key (arrive f e)).1 = .ok .noop
    · rw [noop_composing laws hopen hknown hforward hnoop] at hcomposing
      exact Or.inr (Or.inr (hcomposing hheld))
    · rw [hverdict] at hnoop
      by_cases haccepted : keyAccepted r e.key (arrive f e).link = true
      · exact Or.inl haccepted
      · have hdecodes := decodes_of_counts ((viewOf_eq_heldView _).mp hreported)
        refine Or.inr (Or.inl fun hsame => hnoop ⟨?_, hdecodes, hsame⟩)
        exact Bool.eq_false_iff.mpr haccepted
  · rintro ⟨hcounts, hcondition⟩
    obtain ⟨context, hcontext⟩ :=
      (decodeContext_ok r.search r.client _).mpr (decodes_of_counts hcounts)
    have hread : decoded r e.key (arrive f e) = .ok context := by
      rw [decoded_eq, if_pos hanswered, hcontext]
    have hreported := forward_view hopen hknown hforward hread hanswered
    rw [(viewOf_eq_heldView _).mpr hcounts] at hreported
    have hview : heldView (reported r e.key (arrive f e)) = cachedView (step r f e) :=
      Except.ok.inj hreported
    refine ⟨?_, ?_, fun hheld => ?_⟩
    · rw [processKeyEvent_forward hopen hforward, forwardKey_decoded hknown hread]
      split
      · exact ⟨.noop, rfl⟩
      · exact ⟨.accepted, rfl⟩
    · rw [← hview, step, hserver]
    · rw [step, hserver] at hheld
      by_cases hnoop : (processKeyEvent r e.key (arrive f e)).1 = .ok .noop
      · rw [step, noop_composing laws hopen hknown hforward hnoop]
        obtain ⟨hrefused, -, hsame⟩ := hverdict.mp hnoop
        rcases hcondition hheld with haccepted | hchanged | hcomposing
        · rw [hrefused] at haccepted
          cases haccepted
        · exact absurd hsame hchanged
        · exact hcomposing
      · apply accepted_composing laws hopen hknown hforward hread hnoop
        intro hnone
        rw [hview, cachedView, step, hnone] at hheld
        exact hheld rfl

def Delivers (f : Front E β) : Prop := ∀ n, f.link.outcome n = .delivered

theorem Delivers.answered {f : Front E β} (h : Delivers f) : Client.answered f.link = true := by
  rw [Client.answered, Link.next, h]
  rfl

theorem Delivers.executed {α : Type} {f : Front E β} (h : Delivers f) (handler : Act β α) :
    Client.executed f.link handler = (handler f.link.server).2 := by
  rw [Client.executed, Link.next, h]
  rfl

theorem step_outcome (hopen : r.grpcSessionOpen = true) (hknown : Known r) (f : Front E β)
    (e : KeyStep E) : (step r f e).link.outcome = f.link.outcome := by
  rw [step]
  obtain hclosed | ⟨-, htoggle | ⟨hsame, hpass⟩ | hforward⟩ := event_cases r e.key (arrive f e)
  · rw [processKeyEvent_closed hclosed]
    rfl
  · rw [toggle_link hopen hknown e.key htoggle]
    cases toggleKey r e.key (arrive f e) <;> rfl
  · rw [processKeyEvent_pass hopen hsame hpass]
    rfl
  · rw [forward_link hopen hknown hforward]
    rfl

theorem stepsTogether_of_ok {f : Front E β} {e : KeyStep E} {result : ProcessResult}
    (h : (processKeyEvent r e.key (arrive f e)).1 = .ok result) :
    StepsTogether v f e ↔ InStep v (step r f e) :=
  ⟨fun hboth => hboth.inStep, fun hin => ⟨⟨result, h⟩, hin⟩⟩

theorem step_inStep_iff (laws : EngineLaws r.engine) (hopen : r.grpcSessionOpen = true)
    (hknown : Known r) {f : Front E β} (hdelivers : Delivers f) (h : InStep v f) (e : KeyStep E) :
    StepsTogether v f e ↔ KeepsStep v f e := by
  obtain hclosed | ⟨-, htoggle | ⟨hsame, hpass⟩ | hforward⟩ := event_cases r e.key (arrive f e)
  · rw [hopen] at hclosed
    cases hclosed
  · have hevent := processKeyEvent_toggle hopen e.key htoggle
    rw [stepsTogether_of_ok v (congrArg Prod.fst hevent)]
    by_cases hctx : r.engine.asciiMode (arrive f e).engine = true ∧ f.cached.isSome = true
    · exact toggle_inStep v hopen hknown h htoggle hctx
    · have hskip : (r.engine.asciiMode (arrive f e).engine && (arrive f e).cached.isSome) ≠ true :=
        fun hboth => hctx (Bool.and_eq_true_iff.mp hboth)
      rw [step, hevent, if_neg hskip]
      refine idle_inStep v h ?_ ?_ ?_ ?_ ?_
      · rfl
      · rfl
      · rfl
      · exact fun hall => hctx hall.2
      · exact fun hforward => hforward.1 htoggle
  · have hevent := processKeyEvent_pass hopen hsame hpass
    rw [stepsTogether_of_ok v (congrArg Prod.fst hevent), step, hevent]
    refine idle_inStep v h ?_ ?_ ?_ ?_ ?_
    · rfl
    · rfl
    · rfl
    · exact fun hall => hsame hall.1
    · intro hforward
      rw [hforward.2] at hpass
      cases hpass
  · apply forward_inStep v laws hopen hknown hforward
    exact Delivers.answered (f := commitCall r (keyCall r e.key (arrive f e))) hdelivers

/-- With every call delivered, every event returns and leaves both sides in step exactly
when every event keeps the step. -/
theorem in_step_iff (laws : EngineLaws r.engine) (hopen : r.grpcSessionOpen = true)
    (hknown : Known r) (engine : E) (server : β) (hfresh : heldView (v.context server) = none)
    (events : List (KeyStep E)) :
    Allowed (step r) (StepsTogether v) (start r engine server fun _ => .delivered) events ↔
      Allowed (step r) (KeepsStep v) (start r engine server fun _ => .delivered) events := by
  have hiff : ∀ (f : Front E β) (e : KeyStep E), Delivers f ∧ InStep v f →
      (StepsTogether v f e ↔ KeepsStep v f e) :=
    fun f e h => step_inStep_iff v laws hopen hknown h.1 h.2 e
  have hstart : Delivers (start r engine server fun _ => .delivered) ∧
      InStep v (start r engine server fun _ => .delivered) :=
    ⟨fun _ => rfl, (inStep_dropped v rfl).mpr hfresh⟩
  apply @allowed_iff_of_invariant _ _ _ _ _ (fun f => Delivers f ∧ InStep v f) hiff _ _ hstart
  intro f e h hkeeps
  refine ⟨?_, ((hiff f e h).mpr hkeeps).inStep⟩
  intro n
  rw [step_outcome hopen hknown]
  exact h.1 n

end

def switchedOn : KeyStep Pad := ⟨fun p => { p with ascii := true }, id, ⟨0x6E, 0⟩⟩

/-- The cached context is dropped, and the backend keeps its composition. -/
theorem composition_left_behind :
    ¬Allowed (step deskRemote) (StepsTogether deskView)
      (start deskRemote pad emptyDesk fun _ => .delivered) [plainKey 0x6E, switchedOn] := by
  rintro ⟨-, htogether, -⟩
  have hview := htogether.inStep.cached
  revert hview
  decide

theorem typing_in_step :
    Allowed (step deskRemote) (StepsTogether deskView)
      (start deskRemote pad emptyDesk fun _ => .delivered) [plainKey 0x6E, plainKey SPACE] :=
  (in_step_iff deskView padLaws rfl (by decide) pad emptyDesk rfl _).mpr (by
    refine ⟨?_, ?_, trivial⟩
    · rw [KeepsStep, if_neg (by decide), if_pos (by decide)]
      exact ⟨by decide, fun _ => Or.inl (by decide)⟩
    · rw [KeepsStep, if_neg (by decide), if_pos (by decide)]
      exact ⟨by decide, fun _ => Or.inl (by decide)⟩)

end RimeWinime.Coupling
