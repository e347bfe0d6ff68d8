import RimeWinime.Remote.Hooks

namespace RimeWinime.HookedSelection

open World Run Proto Backend Client Hooks
open Proxy (SessionState)
open SharedState (DecodeFault)

variable {E β α : Type}

/-- What became of a key event. -/
inductive KeyFate
  | taken
  | released
  | kept
  | forwarded (accepted : Bool)
deriving DecidableEq

section

variable (p : Plugin E β)

def isTaken (h : Hooked E β) (keycode mask : UInt32) : Bool :=
  (p.engine.processKey keycode mask h.engine).1 ||
    p.engine.asciiMode h.engine != p.engine.asciiMode (p.engine.processKey keycode mask h.engine).2

def isKept (h : Hooked E β) (keycode mask : UInt32) : Bool :=
  p.engine.asciiMode (p.engine.processKey keycode mask h.engine).2 || isModifierOnlyKey keycode

def fate (h : Hooked E β) (keycode mask : UInt32) : KeyFate :=
  if isTaken p h keycode mask then .taken
  else if mask &&& kReleaseMask ≠ 0 then .released
  else if isKept p h keycode mask then .kept
  else .forwarded (processKey p.backend p.client p.sessionId keycode mask h.link).1

def fateOf (h : Hooked E β) : HookCall E → Option KeyFate
  | .processKey keycode mask => some (fate p h keycode mask)
  | _ => none

structure Traced (E β : Type) where
  hooked : Hooked E β
  fates : List KeyFate

def trace (t : Traced E β) (call : HookCall E) : Traced E β :=
  ⟨step p t.hooked call, t.fates ++ (fateOf p t.hooked call).toList⟩

/-- The flags tell whether the last event was a release, and whether the last
press was accepted by the backend. -/
structure Flags (t : Traced E β) : Prop where
  skip : t.hooked.session.lastWasKeyupSkip = decide (t.fates.getLast? = some .released)
  accepted : t.hooked.session.lastProcessKeyAccepted =
    decide ((t.fates.filter (· ≠ .released)).getLast? = some (.forwarded true))

def flagged (ss : SessionState) : KeyFate → Bool × Bool
  | .taken => (false, false)
  | .released => (true, ss.lastProcessKeyAccepted)
  | .kept => (false, false)
  | .forwarded accepted => (false, accepted)

def flagsOf (ss : SessionState) : Bool × Bool := (ss.lastWasKeyupSkip, ss.lastProcessKeyAccepted)

theorem endComposition_flags (keycode : UInt32) :
    Steady (fun h : Hooked E β => flagsOf h.session) (endComposition p keycode) := by
  have hset (f : SessionState → SessionState) (hf : ∀ ss, flagsOf (f ss) = flagsOf ss) :
      Steady (fun h : Hooked E β => flagsOf h.session) (setSession f) := fun h => hf h.session
  have hlink {γ : Type} (op : Act (Link β) γ) :
      Steady (fun h : Hooked E β => flagsOf h.session) (onLink op) := fun _ => rfl
  have hlast := hset (fun ss => { ss with lastIsComposing := false }) fun _ => rfl
  rw [endComposition]
  cases switchKey (styleOf p.switchKeyBindings keycode) with
  | none => exact hlast
  | some key =>
      refine (hlink _).bind fun _ => Steady.ite ?_ hlast
      refine (hlink _).bind fun text => ?_
      cases text with
      | none => exact hlast
      | some text => exact Steady.ite ((hset _ fun _ => rfl).bind fun _ => hlast) hlast

theorem takeKey_flags (keycode : UInt32) (switchedOn : Bool) (h : Hooked E β) :
    flagsOf (takeKey p keycode switchedOn h).2.session = (false, false) := by
  have hrest : Steady (fun h : Hooked E β => flagsOf h.session)
      (do
        let composing ← observe fun h => h.session.lastIsComposing
        if switchedOn && composing then endComposition p keycode
        pure true) := by
    refine (Steady.observe _).bind fun composing => Steady.ite ?_ (Steady.pure _)
    exact (endComposition_flags p keycode).bind fun _ => Steady.pure _
  exact hrest _

theorem myProcessKey_flags (keycode mask : UInt32) (h : Hooked E β) :
    flagsOf (myProcessKey p keycode mask h).2.session = flagged h.session (fate p h keycode mask) := by
  rw [fate]
  simp only [myProcessKey, bind_run, observe_run, onEngine, setSession, change_run]
  by_cases htaken : isTaken p h keycode mask = true
  · rw [if_pos htaken]
    simp only [isTaken] at htaken
    simp only [htaken, reduceIte]
    exact takeKey_flags p keycode _ _
  · rw [if_neg htaken]
    simp only [isTaken, Bool.not_eq_true] at htaken
    simp only [htaken, Bool.false_eq_true, reduceIte]
    by_cases hreleased : mask &&& kReleaseMask ≠ 0
    · simp only [hreleased, ne_eq, not_false_eq_true, reduceIte]
      rfl
    · simp only [hreleased, reduceIte]
      by_cases hkept : isKept p h keycode mask = true
      · rw [if_pos hkept]
        simp only [isKept] at hkept
        simp only [hkept, reduceIte]
        rfl
      · rw [if_neg hkept]
        simp only [isKept, Bool.not_eq_true] at hkept
        simp only [hkept, Bool.false_eq_true, reduceIte]
        rfl

/-- What the reads and the selections leave alone: the engine, a text that waits
and the flags. -/
def outlook (h : Hooked E β) : E × String × Bool × Bool :=
  (h.engine, h.session.pendingCommit, flagsOf h.session)

theorem selectCandidate_outlook (index : Int32) : Steady outlook (Hooks.selectCandidate p index) := by
  intro h
  by_cases hknown : findSession p.client p.sessionId = ""
  · simp [Hooks.selectCandidate, hknown]
  · cases houtcome : h.selectOutcome h.selections <;>
      simp [Hooks.selectCandidate, hknown, houtcome, outlook]

theorem giveContext_outlook (proto : RimeContextProto) : Steady outlook (giveContext p proto) := by
  rw [giveContext]
  cases readContext p.search p.client proto with
  | error fault => exact Steady.pure _
  | ok c => exact Steady.bind (fun _ => rfl) fun _ => Steady.pure _

theorem myGetContext_outlook : Steady outlook (myGetContext p) := by
  refine (Steady.observe id).bind fun h => Steady.ite (Steady.pure _) ?_
  refine Steady.ite (Steady.pure _) (Steady.bind (fun _ => rfl) fun proto => ?_)
  cases proto with
  | none => exact Steady.pure _
  | some proto => exact giveContext_outlook p proto

theorem myGetStatus_outlook : Steady outlook (myGetStatus p) := by
  refine (Steady.observe id).bind fun h => Steady.ite (Steady.pure _) ?_
  refine Steady.bind (fun _ => rfl) fun proto => ?_
  cases proto with
  | none => exact Steady.pure _
  | some proto => exact Steady.bind (fun _ => rfl) fun _ => Steady.pure _

theorem myGetCommit_flags : Steady (fun h : Hooked E β => flagsOf h.session) (myGetCommit p) := by
  refine (Steady.observe _).bind fun ss => Steady.ite ?_ ?_
  · exact Steady.bind (fun _ => rfl) fun _ => Steady.pure _
  · exact Steady.ite (Steady.pure _) (Steady.bind (fun _ => rfl) fun _ => Steady.pure _)

theorem step_flags (h : Hooked E β) (call : HookCall E) :
    flagsOf (step p h call).session =
      ((fateOf p h call).map (flagged h.session)).getD (flagsOf h.session) := by
  cases call with
  | processKey keycode mask => exact myProcessKey_flags p keycode mask h
  | getContext => exact congrArg (·.2.2) (myGetContext_outlook p h)
  | getStatus => exact congrArg (·.2.2) (myGetStatus_outlook p h)
  | getCommit => exact myGetCommit_flags p h
  | selectCandidate index => exact congrArg (·.2.2) (selectCandidate_outlook p _ h)
  | selectCandidateOnCurrentPage index => exact congrArg (·.2.2) (selectCandidate_outlook p _ h)
  | elsewhere engine => rfl

theorem flags_trace {t : Traced E β} (ht : Flags t) (call : HookCall E) : Flags (trace p t call) := by
  have hflags := step_flags p t.hooked call
  obtain ⟨hskip, haccepted⟩ := ht
  cases hfate : fateOf p t.hooked call with
  | none =>
      rw [hfate] at hflags
      obtain ⟨h1, h2⟩ := Prod.mk.inj hflags
      refine ⟨?_, ?_⟩
      · rw [trace, hfate]
        simpa using h1.trans hskip
      · rw [trace, hfate]
        simpa using h2.trans haccepted
  | some fate =>
      rw [hfate] at hflags
      obtain ⟨h1, h2⟩ := Prod.mk.inj hflags
      constructor
      · rw [trace, hfate]
        cases fate <;> simp [h1]
      · rw [trace, hfate]
        cases fate <;> simp_all

theorem flags_start (engine : E) (ss : SessionState) (schemaId : String) (server : β)
    (outcome selectOutcome : Nat → RpcOutcome) :
    Flags ⟨start engine ss schemaId server outcome selectOutcome, []⟩ := ⟨rfl, rfl⟩

theorem flags_iff_accepted {t : Traced E β} (ht : Flags t) :
    flagsOf t.hooked.session = (false, true) ↔ t.fates.getLast? = some (.forwarded true) := by
  rw [flagsOf, Prod.mk.injEq, ht.skip, ht.accepted, decide_eq_false_iff_not, decide_eq_true_iff]
  rcases List.eq_nil_or_concat t.fates with hnil | ⟨past, last, hlast⟩
  · simp [hnil]
  · rw [hlast]
    cases last <;> simp

/-- A call of the application that selects a candidate, and the answer it gets. -/
def selects (h : Hooked E β) : HookCall E → Bool
  | .selectCandidate index => (mySelectCandidate p index h).1
  | .selectCandidateOnCurrentPage index => (mySelectCandidateOnCurrentPage p index h).1
  | _ => false

def isRead : HookCall E → Bool
  | .getContext => true
  | .getStatus => true
  | _ => false

theorem known_of_selects {h : Hooked E β} {call : HookCall E} (hselects : selects p h call = true) :
    findSession p.client p.sessionId ≠ "" := by
  intro hunknown
  cases call <;>
    simp [selects, mySelectCandidate, mySelectCandidateOnCurrentPage, Hooks.selectCandidate,
      hunknown] at hselects

theorem outlook_of_selects {h : Hooked E β} {call : HookCall E} (hselects : selects p h call = true) :
    outlook (step p h call) = outlook h := by
  cases call with
  | selectCandidate index => exact selectCandidate_outlook p _ h
  | selectCandidateOnCurrentPage index => exact selectCandidate_outlook p _ h
  | _ => cases hselects

theorem outlook_of_reads {reads : List (HookCall E)} (hreads : ∀ call ∈ reads, isRead call = true)
    (h : Hooked E β) : outlook (run (step p) h reads) = outlook h := by
  induction reads generalizing h with
  | nil => rfl
  | cons call reads ih =>
      obtain ⟨hcall, hrest⟩ := List.forall_mem_cons.mp hreads
      refine (ih hrest _).trans ?_
      cases call with
      | getContext => exact myGetContext_outlook p h
      | getStatus => exact myGetStatus_outlook p h
      | _ => cases hcall

def committed (h : Hooked E β) : Option String :=
  (p.backend.getCommit (remoteId p.client p.sessionId) h.link.server).1

def heldContext (h : Hooked E β) : RimeContextProto :=
  (p.backend.getContext (remoteId p.client p.sessionId) h.link.server).1

def freshContext (h : Hooked E β) : Except DecodeFault RimeContext :=
  readContext p.search p.client (heldContext p h)

/-- The caller gets the backend's text, and the backend's context. -/
structure Delivered (h : Hooked E β) (text : String) : Prop where
  commit : (myGetCommit p h).1 = some text
  context : ∃ c, freshContext p h = .ok c ∧ (myGetContext p h).1 = .ok (some c)

variable {p}

theorem myGetCommit_waiting {h : Hooked E β} (hwaits : h.session.pendingCommit ≠ "") :
    (myGetCommit p h).1 = some h.session.pendingCommit := by
  simp only [myGetCommit, bind_run, observe_run, ne_eq, hwaits, not_false_eq_true, reduceIte]
  rfl

theorem myGetCommit_skipped {h : Hooked E β} (hidle : h.session.pendingCommit = "")
    (hflags : flagsOf h.session ≠ (false, true)) : (myGetCommit p h).1 = none := by
  have hskip : (h.session.lastWasKeyupSkip || !h.session.lastProcessKeyAccepted) = true := by
    by_contra hno
    rw [Bool.not_eq_true, Bool.or_eq_false_iff, Bool.not_eq_false'] at hno
    exact hflags (Prod.ext hno.1 hno.2)
  simp only [myGetCommit, bind_run, observe_run, hidle, hskip, ne_eq, not_true_eq_false, reduceIte,
    pure_run]

theorem myGetCommit_fetched {h : Hooked E β} (hknown : findSession p.client p.sessionId ≠ "")
    (hidle : h.session.pendingCommit = "") (hflags : flagsOf h.session = (false, true)) :
    (myGetCommit p h).1 = (if answered h.link then committed p h else none).filter (· ≠ "") := by
  obtain ⟨hskip, haccepted⟩ := Prod.mk.inj hflags
  simp only [myGetCommit, bind_run, observe_run, hidle, hskip, haccepted, ne_eq, not_true_eq_false,
    Bool.not_true, Bool.or_self, Bool.false_eq_true, reduceIte, onLink,
    getCommit_known p.backend hknown, pure_run]
  rfl

theorem myGetContext_ascii {h : Hooked E β} (hascii : p.engine.asciiMode h.engine = true) :
    (myGetContext p h).1 = .ok (some {}) := by
  simp only [myGetContext, bind_run, observe_run, id, hascii, reduceIte, pure_run]

theorem myGetContext_fetched {h : Hooked E β} (hknown : findSession p.client p.sessionId ≠ "")
    (hascii : p.engine.asciiMode h.engine = false) (hskip : h.session.lastWasKeyupSkip = false)
    (hanswered : answered h.link = true) :
    (myGetContext p h).1 = (freshContext p h).map some := by
  simp only [myGetContext, bind_run, observe_run, id, hascii, hskip, Bool.false_and,
    Bool.false_eq_true, reduceIte, onLink, getContext_known p.backend hknown, hanswered]
  rw [freshContext, heldContext, giveContext]
  cases readContext p.search p.client
      (p.backend.getContext (remoteId p.client p.sessionId) h.link.server).1 <;> rfl

theorem delivered_iff {h : Hooked E β} {text : String}
    (hknown : findSession p.client p.sessionId ≠ "") (htext : committed p h = some text)
    (hnew : text ≠ h.session.pendingCommit) :
    Delivered p h text ↔ flagsOf h.session = (false, true) ∧ h.session.pendingCommit = "" ∧
      (p.engine.asciiMode h.engine = false ∨ freshContext p h = .ok {}) ∧
      CountsWithin (heldContext p h) ∧ answered h.link = true := by
  constructor
  · rintro ⟨hcommit, c, hfresh, hcontext⟩
    have hidle : h.session.pendingCommit = "" := by
      by_contra hwaits
      rw [myGetCommit_waiting hwaits] at hcommit
      exact hnew (Option.some.inj hcommit).symm
    have hflags : flagsOf h.session = (false, true) := by
      by_contra hno
      rw [myGetCommit_skipped hidle hno] at hcommit
      cases hcommit
    have hanswered : answered h.link = true := by
      by_contra hno
      rw [myGetCommit_fetched hknown hidle hflags, if_neg hno] at hcommit
      cases hcommit
    refine ⟨hflags, hidle, ?_, (readContext_ok _ _ _).mp ⟨c, hfresh⟩, hanswered⟩
    cases hascii : p.engine.asciiMode h.engine with
    | false => exact Or.inl rfl
    | true =>
        rw [myGetContext_ascii hascii] at hcontext
        rw [hfresh, ← Option.some.inj (Except.ok.inj hcontext)]
        exact Or.inr rfl
  · rintro ⟨hflags, hidle, hascii, hcounts, hanswered⟩
    obtain ⟨c, hfresh⟩ := (readContext_ok p.search p.client _).mpr hcounts
    have hfresh : freshContext p h = .ok c := hfresh
    have hsome : text ≠ "" := fun hempty => hnew (hempty.trans hidle.symm)
    constructor
    · rw [myGetCommit_fetched hknown hidle hflags, if_pos hanswered, htext]
      simp [hsome]
    · refine ⟨c, hfresh, ?_⟩
      cases hmode : p.engine.asciiMode h.engine with
      | false =>
          rw [myGetContext_fetched hknown hmode (congrArg Prod.fst hflags) hanswered, hfresh]
          rfl
      | true =>
          have hempty := hascii.resolve_left (by simp [hmode])
          rw [hfresh] at hempty
          rw [myGetContext_ascii hmode, Except.ok.inj hempty]

/-- After a selection that the backend has answered with a text of its own, the
caller gets the text and the context just when the session's last key event was
a press that the backend accepted, no text of a mode switch waits, the session is
not in ASCII mode, no menu counts past its candidates and the call gets through. -/
theorem selection_delivered_iff (p : Plugin E β) (engine : E) (ss : SessionState)
    (schemaId : String) (server : β) (outcome selectOutcome : Nat → RpcOutcome)
    (history : List (HookCall E)) (call : HookCall E) (reads : List (HookCall E))
    (hreads : ∀ read ∈ reads, isRead read = true) (text : String) :
    let t := run (trace p) ⟨start engine ss schemaId server outcome selectOutcome, []⟩ history
    let h := run (step p) (step p t.hooked call) reads
    selects p t.hooked call = true → committed p h = some text →
      text ≠ t.hooked.session.pendingCommit →
      (Delivered p h text ↔
        t.fates.getLast? = some (.forwarded true) ∧ t.hooked.session.pendingCommit = "" ∧
          (p.engine.asciiMode t.hooked.engine = false ∨ freshContext p h = .ok {}) ∧
          CountsWithin (heldContext p h) ∧ answered h.link = true) := by
  intro t h hselects htext hnew
  have hflags : Flags t :=
    run_invariant Flags (fun _ call ht => flags_trace p ht call)
      (flags_start engine ss schemaId server outcome selectOutcome) history
  have houtlook : outlook h = outlook t.hooked :=
    (outlook_of_reads p hreads _).trans (outlook_of_selects p hselects)
  obtain ⟨hengine, hrest⟩ := Prod.mk.inj houtlook
  obtain ⟨hpending, hkept⟩ := Prod.mk.inj hrest
  rw [delivered_iff (known_of_selects p hselects) htext (hpending ▸ hnew), hengine, hpending, hkept,
    flags_iff_accepted hflags]

end

def typed (text : Option String) : RimeContextProto :=
  if text.isSome then emptyContext else ⟨some ⟨1, 1, 0, 1, "n"⟩, none, ""⟩

def picker : RimeBackend (Option String) where
  openSession := pure (some 1)
  destroySession := fun _ => pure ()
  processKey := fun _ _ => pure true
  getContext := fun _ => observe typed
  getCommit := fun _ text => (text, none)
  selectCandidate := fun _ _ _ => (true, some "你")

def plugin : Plugin Unit (Option String) where
  engine := ⟨fun _ _ => pure false, fun _ => false⟩
  backend := picker
  client := ⟨AList.singleton 7 "1", none⟩
  sessionId := 7
  search := fun _ _ => false
  switchKeyBindings := []

def opened : Hooked Unit (Option String) :=
  start () {} "luna" none (fun _ => .delivered) fun _ => .delivered

/-- The key goes down, the application draws, and selects with the key still down. -/
theorem pressed_delivered :
    selects plugin (run (trace plugin) ⟨opened, []⟩ [.processKey 0x6E 0]).hooked
        (.selectCandidate 0) = true ∧
      Delivered plugin
        (step plugin (run (trace plugin) ⟨opened, []⟩ [.processKey 0x6E 0]).hooked
          (.selectCandidate 0)) "你" :=
  ⟨by decide,
    (selection_delivered_iff plugin () {} "luna" none (fun _ => .delivered) (fun _ => .delivered)
      [.processKey 0x6E 0] (.selectCandidate 0) [] (by simp) "你" (by decide) (by decide)
      (by decide)).mpr ⟨by decide, by decide, Or.inl rfl, by decide, by decide⟩⟩

/-- With the key released before the selection the text is not asked for, and the
snapshot with the letter is shown. -/
theorem release_hides_commit :
    let released := run (step plugin) opened [.processKey 0x6E 0, .getContext,
      .processKey 0x6E kReleaseMask]
    let picked := mySelectCandidate plugin 0 released
    picked.1 = true ∧ committed plugin picked.2 = some "你" ∧
      (myGetCommit plugin picked.2).1 = none ∧
      (freshContext plugin picked.2).map (·.preedit) = .ok none ∧
      (myGetContext plugin picked.2).1.map (fun c => c.bind (·.preedit)) = .ok (some "n") := by
  refine ⟨?_, ?_, ?_, ?_, ?_⟩ <;> decide

end RimeWinime.HookedSelection
