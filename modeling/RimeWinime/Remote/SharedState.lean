import RimeWinime.Remote.Client

namespace RimeWinime.SharedState

open Proto Client

structure RemoteCandidate where
  text : String
  comment : String
deriving DecidableEq

structure RemoteContext where
  preedit : String := ""
  cursorPos : Int32 := 0
  selStart : Int32 := 0
  selEnd : Int32 := 0
  candidates : List RemoteCandidate := []
  pageSize : Int32 := 5
  pageNo : Int32 := 0
  isLastPage : Bool := false
  highlightedCandidateIndex : Int32 := 0
  selectKeys : String := ""
  commitTextPreview : String := ""
deriving DecidableEq

inductive AsciiSwitchStyle
  | noop
  | inlineAscii
  | commitText
  | commitCode
  | clear
deriving DecidableEq

def parseSwitchStyle (s : String) : AsciiSwitchStyle :=
  if s = "inline_ascii" then .inlineAscii
  else if s = "commit_text" then .commitText
  else if s = "commit_code" then .commitCode
  else if s = "clear" then .clear
  else .noop

def keyNames : List (String × UInt32) :=
  [("Shift_L", 0xFFE1), ("Shift_R", 0xFFE2), ("Control_L", 0xFFE3), ("Control_R", 0xFFE4),
    ("Caps_Lock", 0xFFE5), ("Eisu_toggle", 0xFF30)]

def switchKeyBindings (config : String → Option String) : List (UInt32 × AsciiSwitchStyle) :=
  keyNames.filterMap fun (name, keycode) =>
    (config ("ascii_composer/switch_key/" ++ name)).map fun style => (keycode, parseSwitchStyle style)

def styleOf (bindings : List (UInt32 × AsciiSwitchStyle)) (keycode : UInt32) : AsciiSwitchStyle :=
  ((bindings.find? fun binding => binding.1 == keycode).map (·.2)).getD .noop

theorem bound_keycode {config : String → Option String} {binding : UInt32 × AsciiSwitchStyle}
    (h : binding ∈ switchKeyBindings config) : binding.1 ∈ keyNames.map (·.2) := by
  obtain ⟨key, hkey, hstyle⟩ := List.mem_filterMap.mp h
  obtain ⟨style, -, rfl⟩ := Option.map_eq_some_iff.mp hstyle
  exact List.mem_map.mpr ⟨key, hkey, rfl⟩

theorem styleOf_switchKeyBindings (config : String → Option String) {keycode : UInt32}
    (h : styleOf (switchKeyBindings config) keycode ≠ .noop) : keycode ∈ keyNames.map (·.2) := by
  rw [styleOf] at h
  cases hf : (switchKeyBindings config).find? fun binding => binding.1 == keycode with
  | none => simp [hf] at h
  | some binding =>
      have hkey : binding.1 = keycode :=
        beq_iff_eq.mp (List.find?_some (p := fun b : UInt32 × AsciiSwitchStyle => b.1 == keycode) hf)
      rw [← hkey]
      exact bound_keycode (List.mem_of_find?_eq_some hf)

/-- `std::regex_search` with a pattern, which is not modelled. -/
abbrev RegexSearch := String → String → Bool

def matchesVMode (search : RegexSearch) (client : GrpcImeClientV2) (preedit : String) : Bool :=
  match client.vModeRegex with
  | some pattern => search pattern preedit
  | none => false

def alphaKeys : List Char := ['a', 'b', 'c', 'd', 'e', 'f', 'g', 'h', 'i', 'j']

def numKeys : List Char := ['1', '2', '3', '4', '5', '6', '7', '8', '9', '0']

/-- What C++ does not define, or answers with an exception. -/
inductive DecodeFault
  | negativeSize
  | outOfRange
deriving DecidableEq

/-- `menu.candidates(i)`. -/
def candidateAt (menu : MenuProto) (i : Nat) : Except DecodeFault CandidateProto :=
  match menu.candidates[i]? with
  | some c => .ok c
  | none => .error .outOfRange

/-- The loop from `i` on, with `left` turns to go. -/
def copyCandidates (menu : MenuProto) : Nat → Nat → Except DecodeFault (List RemoteCandidate)
  | _, 0 => .ok []
  | i, left + 1 => do
      let c ← candidateAt menu i
      let rest ← copyCandidates menu (i + 1) left
      pure (⟨c.text, c.comment⟩ :: rest)

def turns (menu : MenuProto) : Nat := menu.numCandidates.toInt.toNat

/-- `reserve` takes a `size_t`, and a negative count does not fit one. -/
def declaredCandidates (menu : MenuProto) : Except DecodeFault (List RemoteCandidate) :=
  if menu.numCandidates < 0 then .error .negativeSize else copyCandidates menu 0 (turns menu)

def readComposition (composition : Option CompositionProto) : RemoteContext :=
  match composition with
  | some comp =>
      { preedit := comp.preedit, cursorPos := comp.cursorPos, selStart := comp.selStart
        selEnd := comp.selEnd }
  | none => {}

def readMenu (menu : Option MenuProto) (rc : RemoteContext) : Except DecodeFault RemoteContext :=
  match menu with
  | none => .ok rc
  | some menu => do
      let candidates ← declaredCandidates menu
      pure { rc with
        pageSize := menu.pageSize
        pageNo := menu.pageNo
        isLastPage := menu.isLastPage
        highlightedCandidateIndex := menu.highlightedCandidateIndex
        selectKeys := menu.selectKeys
        candidates := candidates }

def readContext (proto : RimeContextProto) : Except DecodeFault RemoteContext := do
  let rc ← readMenu proto.menu (readComposition proto.composition)
  pure { rc with commitTextPreview := proto.commitTextPreview }

def overrideSelectKeys (search : RegexSearch) (client : GrpcImeClientV2) (rc : RemoteContext) :
    RemoteContext :=
  if rc.preedit ≠ "" ∧ 0 < rc.pageSize ∧ client.vModeRegex.isSome then
    let src := if matchesVMode search client rc.preedit then alphaKeys else numKeys
    let n := if rc.pageSize > 10 then 10 else rc.pageSize
    { rc with selectKeys := String.ofList (src.take n.toInt.toNat) }
  else rc

/-- What there is to show, if anything. -/
def shown (preedit : String) (candidates : List RemoteCandidate) :
    Option (String × List RemoteCandidate) :=
  if preedit = "" ∧ candidates = [] then none else some (preedit, candidates)

/-- The snapshot to cache, or nothing when there is neither preedit nor candidate. -/
def decodeContext (search : RegexSearch) (client : GrpcImeClientV2) (proto : RimeContextProto) :
    Except DecodeFault (Option RemoteContext) := do
  let rc ← readContext proto
  let rc := overrideSelectKeys search client rc
  pure (if rc.preedit = "" ∧ rc.candidates = [] then none else some rc)

def preeditOf (proto : RimeContextProto) : String := (proto.composition.map (·.preedit)).getD ""

def candidatesOf (proto : RimeContextProto) : Except DecodeFault (List RemoteCandidate) :=
  match proto.menu with
  | some menu => declaredCandidates menu
  | none => .ok []

def Decodes (proto : RimeContextProto) : Prop := ∃ candidates, candidatesOf proto = .ok candidates

theorem copyCandidates_eq {menu : MenuProto} {i left : Nat}
    (h : left = 0 ∨ i + left ≤ menu.candidates.length) :
    copyCandidates menu i left =
      .ok (((menu.candidates.drop i).take left).map fun c => ⟨c.text, c.comment⟩) := by
  induction left generalizing i with
  | zero => rfl
  | succ left ih =>
      have hi : i < menu.candidates.length := by omega
      have hat : candidateAt menu i = .ok menu.candidates[i] := by
        rw [candidateAt, List.getElem?_eq_getElem hi]
      rw [copyCandidates, hat, ih (by omega), List.drop_eq_getElem_cons hi]
      rfl

theorem copyCandidates_outOfRange {menu : MenuProto} {i left : Nat}
    (h : ¬(left = 0 ∨ i + left ≤ menu.candidates.length)) :
    copyCandidates menu i left = .error .outOfRange := by
  induction left generalizing i with
  | zero => exact absurd (Or.inl rfl) h
  | succ left ih =>
      rw [copyCandidates]
      by_cases hi : i < menu.candidates.length
      · have hat : candidateAt menu i = .ok menu.candidates[i] := by
          rw [candidateAt, List.getElem?_eq_getElem hi]
        rw [hat, ih (by omega)]
        rfl
      · have hat : candidateAt menu i = .error .outOfRange := by
          rw [candidateAt, List.getElem?_eq_none (Nat.le_of_not_lt hi)]
        rw [hat]
        rfl

theorem copyCandidates_ok (menu : MenuProto) (i left : Nat) :
    (∃ read, copyCandidates menu i left = .ok read) ↔
      left = 0 ∨ i + left ≤ menu.candidates.length := by
  constructor
  · rintro ⟨read, hread⟩
    by_contra hout
    rw [copyCandidates_outOfRange hout] at hread
    cases hread
  · intro h
    exact ⟨_, copyCandidates_eq h⟩

theorem declaredCandidates_ok (menu : MenuProto) :
    (∃ read, declaredCandidates menu = .ok read) ↔
      0 ≤ menu.numCandidates.toInt ∧ menu.numCandidates.toInt ≤ menu.candidates.length := by
  have hneg : menu.numCandidates < 0 ↔ menu.numCandidates.toInt < 0 := Int32.lt_iff_toInt_lt
  rw [declaredCandidates]
  by_cases hn : menu.numCandidates < 0
  · rw [if_pos hn]
    constructor
    · rintro ⟨read, hread⟩
      cases hread
    · intro h
      have hlt := hneg.mp hn
      omega
  · rw [if_neg hn, copyCandidates_ok, turns]
    have hge : ¬menu.numCandidates.toInt < 0 := fun h => hn (hneg.mpr h)
    omega

theorem declaredCandidates_eq {menu : MenuProto} {read : List RemoteCandidate}
    (h : declaredCandidates menu = .ok read) :
    read = (menu.candidates.take (turns menu)).map fun c => ⟨c.text, c.comment⟩ := by
  rw [declaredCandidates] at h
  split at h
  · cases h
  · rw [copyCandidates_eq ((copyCandidates_ok menu 0 (turns menu)).mp ⟨read, h⟩)] at h
    exact (Except.ok.inj h).symm

theorem overrideSelectKeys_preedit (search : RegexSearch) (client : GrpcImeClientV2)
    (rc : RemoteContext) : (overrideSelectKeys search client rc).preedit = rc.preedit := by
  rw [overrideSelectKeys]
  split <;> rfl

theorem overrideSelectKeys_candidates (search : RegexSearch) (client : GrpcImeClientV2)
    (rc : RemoteContext) : (overrideSelectKeys search client rc).candidates = rc.candidates := by
  rw [overrideSelectKeys]
  split <;> rfl

theorem readComposition_preedit (proto : RimeContextProto) :
    (readComposition proto.composition).preedit = preeditOf proto := by
  rw [preeditOf]
  cases proto.composition <;> rfl

theorem readContext_view (proto : RimeContextProto) :
    (readContext proto).map (fun rc => (rc.preedit, rc.candidates)) =
      (candidatesOf proto).map fun candidates => (preeditOf proto, candidates) := by
  rw [readContext, candidatesOf, ← readComposition_preedit]
  cases proto.menu with
  | none => cases proto.composition <;> rfl
  | some menu =>
      dsimp only [readMenu]
      cases declaredCandidates menu <;> rfl

def viewOf (proto : RimeContextProto) :
    Except DecodeFault (Option (String × List RemoteCandidate)) :=
  (candidatesOf proto).map (shown (preeditOf proto))

theorem decodeContext_view (search : RegexSearch) (client : GrpcImeClientV2)
    (proto : RimeContextProto) :
    (decodeContext search client proto).map
        (fun context => context.map fun rc => (rc.preedit, rc.candidates)) = viewOf proto := by
  have hread := readContext_view proto
  rw [decodeContext, viewOf]
  cases hrc : readContext proto with
  | error fault =>
      rw [hrc] at hread
      cases hcandidates : candidatesOf proto with
      | error fault' =>
          rw [hcandidates] at hread
          exact congrArg Except.error (Except.error.inj hread)
      | ok candidates =>
          rw [hcandidates] at hread
          cases hread
  | ok rc =>
      rw [hrc] at hread
      cases hcandidates : candidatesOf proto with
      | error fault =>
          rw [hcandidates] at hread
          cases hread
      | ok candidates =>
          rw [hcandidates] at hread
          obtain ⟨hpreedit, hlist⟩ := Prod.mk.inj (Except.ok.inj hread)
          rw [← hpreedit, ← hlist]
          change Except.ok (Option.map _ _) = Except.ok (shown rc.preedit rc.candidates)
          rw [shown, overrideSelectKeys_preedit, overrideSelectKeys_candidates]
          split
          · rfl
          · rw [Option.map_some, overrideSelectKeys_preedit, overrideSelectKeys_candidates]

theorem decodeContext_ok (search : RegexSearch) (client : GrpcImeClientV2)
    (proto : RimeContextProto) :
    (∃ context, decodeContext search client proto = .ok context) ↔ Decodes proto := by
  have hview := decodeContext_view search client proto
  rw [viewOf] at hview
  constructor
  · rintro ⟨context, hcontext⟩
    rw [hcontext] at hview
    cases hcandidates : candidatesOf proto with
    | ok candidates => exact ⟨candidates, hcandidates⟩
    | error fault =>
        rw [hcandidates] at hview
        cases hview
  · rintro ⟨candidates, hcandidates⟩
    rw [hcandidates] at hview
    cases hcontext : decodeContext search client proto with
    | ok context => exact ⟨context, rfl⟩
    | error fault =>
        rw [hcontext] at hview
        cases hview

theorem decodeContext_preedit {search : RegexSearch} {client : GrpcImeClientV2}
    {proto : RimeContextProto} {context : Option RemoteContext}
    (h : decodeContext search client proto = .ok context) :
    (context.map (·.preedit)).getD "" = preeditOf proto := by
  have hview := decodeContext_view search client proto
  obtain ⟨candidates, hcandidates⟩ := (decodeContext_ok search client proto).mp ⟨context, h⟩
  rw [viewOf, h, hcandidates] at hview
  have hshown : context.map (fun rc => (rc.preedit, rc.candidates)) =
      shown (preeditOf proto) candidates := Except.ok.inj hview
  cases context with
  | none =>
      rw [shown] at hshown
      split at hshown
      · next hempty => exact hempty.1.symm
      · cases hshown
  | some rc =>
      rw [shown] at hshown
      split at hshown
      · cases hshown
      · exact congrArg Prod.fst (Option.some.inj hshown)

end RimeWinime.SharedState
