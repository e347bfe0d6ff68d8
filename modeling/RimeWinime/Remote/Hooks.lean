import RimeWinime.Lib.Run
import RimeWinime.Remote.Proxy
import RimeWinime.Remote.SharedState

namespace RimeWinime.Hooks

open World Proto Backend Client
open SharedState (AsciiSwitchStyle RegexSearch matchesVMode alphaKeys numKeys DecodeFault
  RemoteCandidate copyCandidates turns)
open Proxy (SessionState)

variable {E β α : Type}

/-- `RimeContext`, with the pointers that may be null as options. -/
structure RimeContext where
  length : Int32 := 0
  cursorPos : Int32 := 0
  selStart : Int32 := 0
  selEnd : Int32 := 0
  preedit : Option String := none
  pageSize : Int32 := 0
  pageNo : Int32 := 0
  isLastPage : Bool := false
  highlightedCandidateIndex : Int32 := 0
  numCandidates : Int32 := 0
  selectKeys : Option String := none
  candidates : List (String × String) := []
  commitTextPreview : Option String := none
deriving DecidableEq

/-- The real engine, as far as the hooks ask it. -/
structure LocalEngine (E : Type) where
  processKey : UInt32 → UInt32 → Act E Bool
  asciiMode : E → Bool

structure Plugin (E β : Type) where
  engine : LocalEngine E
  backend : RimeBackend β
  client : GrpcImeClientV2
  sessionId : Nat
  search : RegexSearch
  switchKeyBindings : List (UInt32 × AsciiSwitchStyle)

/-- A session of the API that stays on its schema, so that `EnsureSession` only gives back its
state, its engine, and the link to the backend. The calls that select a candidate have
outcomes of their own. -/
structure Hooked (E β : Type) where
  engine : E
  session : SessionState
  lastContext : RimeContext
  link : Link β
  selections : Nat
  selectOutcome : Nat → RpcOutcome

def onLink (op : Act (Link β) α) : Act (Hooked E β) α := fun h =>
  let r := op h.link
  (r.1, { h with link := r.2 })

def onEngine (op : Act E α) : Act (Hooked E β) α := fun h =>
  let r := op h.engine
  (r.1, { h with engine := r.2 })

def setSession (f : SessionState → SessionState) : Act (Hooked E β) Unit :=
  change fun h => { h with session := f h.session }

def nonNull (s : String) : Option String := if s = "" then none else some s

def readComposition (comp : Option CompositionProto) (c : RimeContext) : RimeContext :=
  match comp with
  | none => c
  | some comp =>
      { c with
        length := comp.length
        cursorPos := comp.cursorPos
        selStart := comp.selStart
        selEnd := comp.selEnd
        preedit := nonNull comp.preedit }

def menuCandidates (menu : MenuProto) : Except DecodeFault (List RemoteCandidate) :=
  if menu.numCandidates > 0 then copyCandidates menu 0 (turns menu) else .ok []

def readMenu (menu : Option MenuProto) (c : RimeContext) : Except DecodeFault RimeContext :=
  match menu with
  | none => .ok c
  | some menu => do
      let candidates ← menuCandidates menu
      pure { c with
        pageSize := menu.pageSize
        pageNo := menu.pageNo
        isLastPage := menu.isLastPage
        highlightedCandidateIndex := menu.highlightedCandidateIndex
        numCandidates := menu.numCandidates
        selectKeys := nonNull menu.selectKeys
        candidates := candidates.map fun c => (c.text, c.comment) }

def overrideSelectKeys (search : RegexSearch) (client : GrpcImeClientV2) (c : RimeContext) :
    RimeContext :=
  match c.preedit with
  | none => c
  | some preedit =>
      if 0 < c.pageSize ∧ client.vModeRegex.isSome then
        let srcKeys := if matchesVMode search client preedit then alphaKeys else numKeys
        let n := if c.pageSize > 10 then 10 else c.pageSize
        { c with selectKeys := some (String.ofList (srcKeys.take n.toInt.toNat)) }
      else c

def readContext (search : RegexSearch) (client : GrpcImeClientV2) (proto : RimeContextProto) :
    Except DecodeFault RimeContext := do
  let c ← readMenu proto.menu (readComposition proto.composition {})
  pure (overrideSelectKeys search client
    { c with commitTextPreview := nonNull proto.commitTextPreview })

def CountsWithin (proto : RimeContextProto) : Prop :=
  ∀ menu ∈ proto.menu, menu.numCandidates.toInt ≤ menu.candidates.length

instance (proto : RimeContextProto) : Decidable (CountsWithin proto) :=
  inferInstanceAs (Decidable (∀ menu ∈ proto.menu, _ ≤ _))

theorem menuCandidates_eq {menu : MenuProto}
    (h : menu.numCandidates.toInt ≤ menu.candidates.length) :
    menuCandidates menu =
      .ok ((menu.candidates.take (turns menu)).map fun c => ⟨c.text, c.comment⟩) := by
  have hpos : menu.numCandidates > 0 ↔ 0 < menu.numCandidates.toInt := Int32.lt_iff_toInt_lt
  have hturns : turns menu = 0 ∨ 0 + turns menu ≤ menu.candidates.length := by
    rw [turns]
    omega
  rw [menuCandidates]
  split
  · exact SharedState.copyCandidates_eq hturns
  · next hn =>
      have hle : ¬0 < menu.numCandidates.toInt := fun hp => hn (hpos.mpr hp)
      have hzero : turns menu = 0 := by
        rw [turns]
        omega
      rw [hzero, List.take_zero, List.map_nil]

theorem menuCandidates_ok (menu : MenuProto) :
    (∃ read, menuCandidates menu = .ok read) ↔
      menu.numCandidates.toInt ≤ menu.candidates.length := by
  have hpos : menu.numCandidates > 0 ↔ 0 < menu.numCandidates.toInt := Int32.lt_iff_toInt_lt
  constructor
  · rintro ⟨read, hread⟩
    rw [menuCandidates] at hread
    split at hread
    · have hin := (SharedState.copyCandidates_ok menu 0 (turns menu)).mp ⟨read, hread⟩
      rw [turns] at hin
      omega
    · next hn =>
      have hle : ¬0 < menu.numCandidates.toInt := fun hp => hn (hpos.mpr hp)
      omega
  · intro h
    exact ⟨_, menuCandidates_eq h⟩

theorem readContext_ok (search : RegexSearch) (client : GrpcImeClientV2)
    (proto : RimeContextProto) :
    (∃ c, readContext search client proto = .ok c) ↔ CountsWithin proto := by
  rw [readContext, CountsWithin]
  cases proto.menu with
  | none =>
      constructor
      · rintro - menu hmenu
        cases hmenu
      · intro _
        exact ⟨_, rfl⟩
  | some menu =>
      have hcounts : (∀ listed ∈ some menu, listed.numCandidates.toInt ≤ listed.candidates.length) ↔
          menu.numCandidates.toInt ≤ menu.candidates.length := by simp
      rw [hcounts, ← menuCandidates_ok]
      dsimp only [readMenu]
      cases menuCandidates menu with
      | ok candidates => exact ⟨fun _ => ⟨candidates, rfl⟩, fun _ => ⟨_, rfl⟩⟩
      | error fault =>
          constructor
          · rintro ⟨c, hc⟩
            cases hc
          · rintro ⟨candidates, hread⟩
            cases hread

def saveContextSnapshot (c : RimeContext) : Act (Hooked E β) Unit :=
  change fun h => { h with
    lastContext := c
    session := { h.session with hasLastContext := true, lastIsComposing := 0 < c.length } }

def isModifierOnlyKey (keycode : UInt32) : Bool := 0xFFE1 ≤ keycode && keycode ≤ 0xFFEE

def kReleaseMask : UInt32 := 0x40000000

def styleOf (bindings : List (UInt32 × AsciiSwitchStyle)) (keycode : UInt32) : AsciiSwitchStyle :=
  ((bindings.find? fun binding => binding.1 == keycode).map (·.2)).getD .commitCode

def switchKey : AsciiSwitchStyle → Option (UInt32 × Bool)
  | .commitCode => some (0xFF0D, true)
  | .commitText => some (0x20, true)
  | .clear => some (0xFF1B, false)
  | .inlineAscii => none
  | .noop => none

section

variable (p : Plugin E β)

def selectCandidate (index : Int32) : Act (Hooked E β) Bool := fun h =>
  let mySession := findSession p.client p.sessionId
  if mySession = "" then (false, h)
  else
    let served := Server.selectCandidateOnCurrentPage p.backend ⟨mySession, index⟩ h.link.server
    let success :=
      match served.1 with
      | .ok resp => resp.success
      | .error _ => false
    let reached := { h with link := { h.link with server := served.2 }, selections := h.selections + 1 }
    match h.selectOutcome h.selections with
    | .delivered => (success, reached)
    | .replyLost => (false, reached)
    | .notExecuted => (false, { h with selections := h.selections + 1 })

def endComposition (keycode : UInt32) : Act (Hooked E β) Unit := do
  match switchKey (styleOf p.switchKeyBindings keycode) with
  | none => pure ()
  | some (key, fetches) => do
      let _ ← onLink (processKey p.backend p.client p.sessionId key 0)
      if fetches then do
        match ← onLink (getCommit p.backend p.client p.sessionId) with
        | some text => if text ≠ "" then setSession fun ss => { ss with pendingCommit := text }
        | none => pure ()
  setSession fun ss => { ss with lastIsComposing := false }

/-- The engine has taken the key, or switched its mode: the key is not forwarded. -/
def takeKey (keycode : UInt32) (switchedOn : Bool) : Act (Hooked E β) Bool := do
  setSession fun ss => { ss with lastWasKeyupSkip := false, lastProcessKeyAccepted := false }
  let composing ← observe fun h => h.session.lastIsComposing
  if switchedOn && composing then endComposition p keycode
  pure true

def skipRelease : Act (Hooked E β) Bool := do
  setSession fun ss => { ss with lastWasKeyupSkip := true }
  pure false

def keepKey : Act (Hooked E β) Bool := do
  setSession fun ss => { ss with lastWasKeyupSkip := false, lastProcessKeyAccepted := false }
  pure false

def forwardKey (keycode mask : UInt32) : Act (Hooked E β) Bool := do
  setSession fun ss => { ss with lastWasKeyupSkip := false }
  let res ← onLink (processKey p.backend p.client p.sessionId keycode mask)
  setSession fun ss => { ss with lastProcessKeyAccepted := res }
  pure res

def myProcessKey (keycode mask : UInt32) : Act (Hooked E β) Bool := do
  let asciiBefore ← observe fun h => p.engine.asciiMode h.engine
  let localHandled ← onEngine (p.engine.processKey keycode mask)
  let asciiAfter ← observe fun h => p.engine.asciiMode h.engine
  setSession fun ss => { ss with lastAsciiMode := asciiAfter }
  if localHandled || asciiBefore != asciiAfter then takeKey p keycode (asciiAfter && !asciiBefore)
  else if mask &&& kReleaseMask ≠ 0 then skipRelease
  else if asciiAfter || isModifierOnlyKey keycode then keepKey
  else forwardKey p keycode mask

def giveContext (proto : RimeContextProto) :
    Act (Hooked E β) (Except DecodeFault (Option RimeContext)) :=
  match readContext p.search p.client proto with
  | .ok c => do
      saveContextSnapshot c
      pure (.ok (some c))
  | .error fault => pure (.error fault)

def myGetContext : Act (Hooked E β) (Except DecodeFault (Option RimeContext)) := do
  let h ← observe id
  if p.engine.asciiMode h.engine then pure (.ok (some {}))
  else if h.session.lastWasKeyupSkip && h.session.hasLastContext then
    pure (.ok (some h.lastContext))
  else
    match ← onLink (getContext p.backend p.client p.sessionId) with
    | some proto => giveContext p proto
    | none => pure (.ok none)

/-- The flags `is_composing` and `is_ascii_mode`, the rest is the schema's. -/
def myGetStatus : Act (Hooked E β) (Option (Bool × Bool)) := do
  let h ← observe id
  let asciiMode := p.engine.asciiMode h.engine
  if h.session.lastWasKeyupSkip then pure (some (h.session.lastIsComposing && !asciiMode, asciiMode))
  else
    match ← onLink (getContext p.backend p.client p.sessionId) with
    | some proto => do
        let composing := proto.composition.isSome && !asciiMode
        setSession fun ss => { ss with lastIsComposing := composing }
        pure (some (composing, asciiMode))
    | none => pure none

def myGetCommit : Act (Hooked E β) (Option String) := do
  let ss ← observe fun h => h.session
  if ss.pendingCommit ≠ "" then do
    setSession fun ss => { ss with pendingCommit := "" }
    pure (some ss.pendingCommit)
  else if ss.lastWasKeyupSkip || !ss.lastProcessKeyAccepted then pure none
  else do
    let text ← onLink (getCommit p.backend p.client p.sessionId)
    pure (text.filter (· ≠ ""))

def mySelectCandidate (index : UInt64) : Act (Hooked E β) Bool :=
  selectCandidate p index.toUInt32.toInt32

def mySelectCandidateOnCurrentPage (index : UInt64) : Act (Hooked E β) Bool :=
  selectCandidate p index.toUInt32.toInt32

/-- A call of the application, or a change of the engine from elsewhere. -/
inductive HookCall (E : Type)
  | processKey (keycode mask : UInt32)
  | getContext
  | getStatus
  | getCommit
  | selectCandidate (index : UInt64)
  | selectCandidateOnCurrentPage (index : UInt64)
  | elsewhere (engine : E)

def step (h : Hooked E β) : HookCall E → Hooked E β
  | .processKey keycode mask => (myProcessKey p keycode mask h).2
  | .getContext => (myGetContext p h).2
  | .getStatus => (myGetStatus p h).2
  | .getCommit => (myGetCommit p h).2
  | .selectCandidate index => (mySelectCandidate p index h).2
  | .selectCandidateOnCurrentPage index => (mySelectCandidateOnCurrentPage p index h).2
  | .elsewhere engine => { h with engine := engine }

/-- A session that `EnsureSession` has just put on its schema. -/
def start (engine : E) (ss : SessionState) (schemaId : String) (server : β)
    (outcome selectOutcome : Nat → RpcOutcome) : Hooked E β :=
  ⟨engine, { Proxy.afterChange ss schemaId with isGrpc := true }, {}, ⟨server, [], outcome⟩, 0,
    selectOutcome⟩

end

end RimeWinime.Hooks
