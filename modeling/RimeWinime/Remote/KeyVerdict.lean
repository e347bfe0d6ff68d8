import RimeWinime.Remote.Desk

namespace RimeWinime.KeyVerdict

open World Text Proto Backend Client SharedState Processor View Events Desk

variable {E β : Type} {r : Remote E β}

theorem noop_iff (hopen : r.grpcSessionOpen = true) (hknown : Known r) {key : KeyEvent}
    {f : Front E β} (h : Forwards r key f) {context : Option RemoteContext}
    (hread : decoded r key f = .ok context) :
    (processKeyEvent r key f).1 = .ok .noop ↔
      keyAccepted r key f.link = false ∧ cachedPreedit (forwarded r key f) = cachedPreedit f := by
  rw [processKeyEvent_forward hopen h, forwardKey_decoded hknown hread, contextChanged_eq]
  split
  · next hc => simpa using hc
  · next hc => simpa using hc

theorem fault_of_forward (hopen : r.grpcSessionOpen = true) (hknown : Known r) {key : KeyEvent}
    {f : Front E β} (h : Forwards r key f) {fault : DecodeFault}
    (hread : decoded r key f = .error fault) : (processKeyEvent r key f).1 = .error fault := by
  rw [processKeyEvent_forward hopen h, forwardKey_fault hknown hread]

theorem noop_reported_iff (hopen : r.grpcSessionOpen = true) (hknown : Known r) {key : KeyEvent}
    {f : Front E β} (h : Forwards r key f)
    (hcontext : answered (commitCall r (keyCall r key f)).link = true) :
    (processKeyEvent r key f).1 = .ok .noop ↔
      keyAccepted r key f.link = false ∧ Decodes (reported r key f) ∧
        preeditOf (reported r key f) = cachedPreedit f := by
  have hdecoded : decoded r key f = decodeContext r.search r.client (reported r key f) := by
    rw [decoded_eq, if_pos hcontext]
  cases hread : decodeContext r.search r.client (reported r key f) with
  | error fault =>
      have hnot : ¬Decodes (reported r key f) := by
        rw [← decodeContext_ok r.search r.client]
        rintro ⟨context, hok⟩
        rw [hread] at hok
        cases hok
      rw [fault_of_forward hopen hknown h (hdecoded.trans hread)]
      constructor
      · intro hnoop
        cases hnoop
      · rintro ⟨-, hdecodes, -⟩
        exact absurd hdecodes hnot
  | ok context =>
      have hdecodes : Decodes (reported r key f) :=
        (decodeContext_ok r.search r.client _).mp ⟨context, hread⟩
      have hpreedit : cachedPreedit (forwarded r key f) = preeditOf (reported r key f) := by
        rw [cachedPreedit, forwarded_decoded (hdecoded.trans hread), decodeContext_preedit hread]
      rw [noop_iff hopen hknown h (hdecoded.trans hread), hpreedit]
      exact ⟨fun hnoop => ⟨hnoop.1, hdecodes, hnoop.2⟩, fun hall => ⟨hall.1, hall.2.2⟩⟩

def afterKey (r : Remote E β) (key : KeyEvent) (f : Front E β) : β := (keyCall r key f).link.server

/-- What the backend has done with the key: neither preedit nor menu nor pending
text is another than before. -/
def Ignored (v : SessionView r.backend (idOf r)) (key : KeyEvent) (f : Front E β) : Prop :=
  let after := afterKey r key f
  preeditOf (v.context after) = preeditOf (v.context f.link.server) ∧
    (v.context after).menu = (v.context f.link.server).menu ∧
    v.pending after = v.pending f.link.server

def Unheard (r : Remote E β) (key : KeyEvent) (f : Front E β) : Prop :=
  f.link.next ≠ .delivered ∨ (r.backend.processKey (idOf r) key f.link.server).1 = false

def Stirs (v : SessionView r.backend (idOf r)) (key : KeyEvent) (f : Front E β) : Prop :=
  (v.context (afterKey r key f)).menu ≠ (v.context f.link.server).menu ∨
    v.pending (afterKey r key f) ≠ v.pending f.link.server

/-- The keys with an effect that a comparison of preedits does not see: the session keeps the
cached preedit (`silent`), comes to it (`caughtUp`), or is at it only once its commit and its
context have been fetched (`movedBack`). -/
inductive Overlooked (v : SessionView r.backend (idOf r)) (key : KeyEvent) (f : Front E β) : Prop
  | silent (cached : cachedPreedit f = preeditOf (v.context f.link.server))
      (kept : preeditOf (v.context (afterKey r key f)) = preeditOf (v.context f.link.server))
      (stirs : Stirs v key f)
      (seen : preeditOf (reported r key f) = preeditOf (v.context (afterKey r key f)))
  | caughtUp (behind : cachedPreedit f ≠ preeditOf (v.context f.link.server))
      (turned : preeditOf (v.context (afterKey r key f)) = cachedPreedit f)
      (seen : preeditOf (reported r key f) = preeditOf (v.context (afterKey r key f)))
  | movedBack
      (effect : preeditOf (v.context (afterKey r key f)) ≠ preeditOf (v.context f.link.server) ∨
        Stirs v key f)
      (moved : preeditOf (reported r key f) ≠ preeditOf (v.context (afterKey r key f)))
      (back : preeditOf (reported r key f) = cachedPreedit f)

theorem unheard_iff (key : KeyEvent) (f : Front E β) :
    keyAccepted r key f.link = false ↔ Unheard r key f := by
  rw [keyAccepted, Bool.and_eq_false_iff, Unheard, answered, decide_eq_false_iff_not]

theorem not_ignored_iff (v : SessionView r.backend (idOf r)) (key : KeyEvent) (f : Front E β) :
    ¬Ignored v key f ↔
      preeditOf (v.context (afterKey r key f)) ≠ preeditOf (v.context f.link.server) ∨
        Stirs v key f := by
  rw [Ignored, Stirs, not_and_or, not_and_or]

theorem overlooked_iff (v : SessionView r.backend (idOf r)) (key : KeyEvent) (f : Front E β) :
    Overlooked v key f ↔
      ¬Ignored v key f ∧ preeditOf (reported r key f) = cachedPreedit f := by
  rw [not_ignored_iff]
  constructor
  · intro h
    cases h with
    | silent cached kept stirs seen => exact ⟨Or.inr stirs, (seen.trans kept).trans cached.symm⟩
    | caughtUp behind turned seen =>
        exact ⟨Or.inl fun hsame => behind (turned.symm.trans hsame), seen.trans turned⟩
    | movedBack effect moved back => exact ⟨effect, back⟩
  · rintro ⟨heffect, hback⟩
    by_cases hseen : preeditOf (reported r key f) = preeditOf (v.context (afterKey r key f))
    · have hafter : preeditOf (v.context (afterKey r key f)) = cachedPreedit f :=
        hseen.symm.trans hback
      by_cases hkept : preeditOf (v.context (afterKey r key f)) = preeditOf (v.context f.link.server)
      · exact .silent (hafter.symm.trans hkept) hkept (heffect.resolve_left fun hno => hno hkept) hseen
      · exact .caughtUp (fun hcached => hkept (hafter.trans hcached)) hafter hseen
    · exact .movedBack heffect hseen hback

/-- A key that is let through was ignored, unless it is one of the overlooked keys, its
acceptance is not heard and the menu that is reported after it is read. -/
theorem noop_ignored_iff (v : SessionView r.backend (idOf r)) (hopen : r.grpcSessionOpen = true)
    (hknown : Known r) {key : KeyEvent} {f : Front E β} (h : Forwards r key f)
    (hcontext : answered (commitCall r (keyCall r key f)).link = true) :
    ((processKeyEvent r key f).1 = .ok .noop → Ignored v key f) ↔
      ¬(Unheard r key f ∧ Decodes (reported r key f) ∧ Overlooked v key f) := by
  rw [noop_reported_iff hopen hknown h hcontext, unheard_iff, overlooked_iff]
  constructor
  · rintro himp ⟨hunheard, hdecodes, heffect, hback⟩
    exact heffect (himp ⟨hunheard, hdecodes, hback⟩)
  · rintro hno ⟨hunheard, hdecodes, hback⟩
    by_contra heffect
    exact hno ⟨hunheard, hdecodes, heffect, hback⟩

theorem overlooked_inStep (v : SessionView r.backend (idOf r)) {key : KeyEvent} {f : Front E β}
    (hcached : cachedPreedit f = preeditOf (v.context f.link.server))
    (hquiet : preeditOf (reported r key f) = preeditOf (v.context (afterKey r key f))) :
    Overlooked v key f ↔
      Stirs v key f ∧
        preeditOf (v.context (afterKey r key f)) = preeditOf (v.context f.link.server) := by
  constructor
  · intro h
    cases h with
    | silent _ kept stirs _ => exact ⟨stirs, kept⟩
    | caughtUp behind _ _ => exact absurd hcached behind
    | movedBack _ moved _ => exact absurd hquiet moved
  · rintro ⟨hstirs, hkept⟩
    exact .silent hcached hkept hstirs hquiet

def pageDown : KeyEvent := ⟨PAGE_DOWN, 0⟩

theorem page_turns_twice :
    Forwards deskRemote pageDown (typed (lostAt 3)) ∧ (typed (lostAt 3)).link.next = .replyLost ∧
      (keyCall deskRemote pageDown (typed (lostAt 3))).link.next = .delivered ∧
      answered (commitCall deskRemote (keyCall deskRemote pageDown (typed (lostAt 3)))).link = true ∧
      ¬((processKeyEvent deskRemote pageDown (typed (lostAt 3))).1 = .ok .noop →
        Ignored deskView pageDown (typed (lostAt 3))) := by
  refine ⟨by decide, by decide, by decide, by decide, ?_⟩
  intro himp
  have hmenu := (himp (by decide)).2.1
  revert hmenu
  decide

theorem page_turns_once :
    keyAccepted deskRemote pageDown (typed fun _ => .delivered).link = true ∧
      ((processKeyEvent deskRemote pageDown (typed fun _ => .delivered)).1 = .ok .noop →
        Ignored deskView pageDown (typed fun _ => .delivered)) := by
  refine ⟨by decide, ?_⟩
  apply (noop_ignored_iff deskView rfl (by decide) (by decide) (by decide)).mpr
  rintro ⟨hunheard, -⟩
  rw [← unheard_iff] at hunheard
  revert hunheard
  decide

def Undisturbed (r : Remote E β) (key : KeyEvent) (f : Front E β) : Prop :=
  let f' := (processKeyEvent r key f).2
  (processKeyEvent r key f).1 = .ok .noop ∧ f'.cached = f.cached ∧
    r.engine.input f'.engine = r.engine.input f.engine ∧
    r.engine.caretPos f'.engine = r.engine.caretPos f.engine

theorem forward_cached (hopen : r.grpcSessionOpen = true) (hknown : Known r) {key : KeyEvent}
    {f : Front E β} (h : Forwards r key f) :
    (processKeyEvent r key f).2.cached = (forwarded r key f).cached := by
  rw [processKeyEvent_forward hopen h]
  obtain hstate | hstate := forwardKey_state hknown key f
  · rw [hstate]
  · rw [hstate]

theorem decoded_of_ok (hopen : r.grpcSessionOpen = true) (hknown : Known r) {key : KeyEvent}
    {f : Front E β} (h : Forwards r key f) {result : ProcessResult}
    (hok : (processKeyEvent r key f).1 = .ok result) :
    decoded r key f = .ok (forwarded r key f).cached := by
  cases hread : decoded r key f with
  | ok context => rw [forwarded_decoded hread]
  | error fault =>
      rw [fault_of_forward hopen hknown h hread] at hok
      cases hok

theorem noop_state (hopen : r.grpcSessionOpen = true) (hknown : Known r) {key : KeyEvent}
    {f : Front E β} (h : Forwards r key f) (hnoop : (processKeyEvent r key f).1 = .ok .noop) :
    (processKeyEvent r key f).2 = forwarded r key f := by
  have hread := decoded_of_ok hopen hknown h hnoop
  rw [processKeyEvent_forward hopen h, forwardKey_decoded hknown hread] at hnoop ⊢
  split at hnoop
  · next hc => rw [if_pos hc]
  · cases hnoop

/-- A key that the backend rejects disturbs nothing exactly when the reply to
`GetContext` arrives and describes the cached context. -/
theorem undisturbed_iff (laws : EngineLaws r.engine) (hopen : r.grpcSessionOpen = true)
    (hknown : Known r) {key : KeyEvent} {f : Front E β} (h : Forwards r key f)
    (hcached : f.cached.isSome)
    (hrejected : (r.backend.processKey (idOf r) key f.link.server).1 = false) :
    Undisturbed r key f ↔
      answered (commitCall r (keyCall r key f)).link = true ∧
        decodeContext r.search r.client (reported r key f) = .ok f.cached := by
  have haccepted : keyAccepted r key f.link = false := by
    rw [keyAccepted, hrejected, Bool.and_false]
  have hdecoded := decoded_eq (r := r) key f
  constructor
  · rintro ⟨hnoop, hsame, -⟩
    have hread := decoded_of_ok hopen hknown h hnoop
    rw [forward_cached hopen hknown h] at hsame
    rw [hsame, hdecoded] at hread
    cases hanswered : answered (commitCall r (keyCall r key f)).link with
    | true =>
        rw [hanswered, if_pos rfl] at hread
        exact ⟨rfl, hread⟩
    | false =>
        rw [hanswered, if_neg Bool.false_ne_true] at hread
        rw [← Except.ok.inj hread] at hcached
        cases hcached
  · rintro ⟨hanswered, hread⟩
    rw [if_pos hanswered, hread] at hdecoded
    have hfetched := forwarded_decoded hdecoded
    have hpreedit : cachedPreedit (forwarded r key f) = cachedPreedit f := by
      rw [cachedPreedit, hfetched, cachedPreedit]
    have hnoop := (noop_iff hopen hknown h hdecoded).mpr ⟨haccepted, hpreedit⟩
    refine ⟨hnoop, (forward_cached hopen hknown h).trans hfetched, ?_⟩
    rw [noop_state hopen hknown h hnoop]
    obtain hengine | ⟨text, hengine⟩ := forwarded_engine (r := r) key f
    · rw [hengine]
      exact ⟨rfl, rfl⟩
    · rw [hengine]
      exact ⟨laws.commitText_input text _, laws.commitText_caretPos text _⟩

def homeKey : KeyEvent := ⟨0xFF50, 0⟩

/-- The rejected key ends the composition when the reply to `GetContext` is lost. -/
theorem rejected_key_ends_composition :
    (typed (lostAt 5)).cached.isSome ∧
      padEngine.isComposing (typed (lostAt 5)).engine = true ∧
      Forwards deskRemote homeKey (typed (lostAt 5)) ∧
      deskRemote.backend.processKey (idOf deskRemote) homeKey (typed (lostAt 5)).link.server =
        (false, (typed (lostAt 5)).link.server) ∧
      ¬Undisturbed deskRemote homeKey (typed (lostAt 5)) := by
  refine ⟨by decide, by decide, by decide, by decide, ?_⟩
  intro hundisturbed
  have hnoop := hundisturbed.1
  revert hnoop
  decide

theorem rejected_key_goes_on : Undisturbed deskRemote homeKey (typed fun _ => .delivered) :=
  (undisturbed_iff padLaws rfl (by decide) (by decide) (by decide) (by decide)).mpr
    ⟨by decide, by decide⟩

end RimeWinime.KeyVerdict
