import RimeWinime.Remote.ContextOwners

namespace RimeWinime.ContextMemory

open World Proto Client Blocks
open Hooks (nonNull)
open SharedState (RegexSearch turns)

def text (p : Chars) : Option String := p.map Ptr.holds

/-- The callers read a null text as an empty one. -/
def cellText (cell : Cell) : String × String := ((text cell.1).getD "", (text cell.2).getD "")

def Context.shown (c : Context) : Hooks.RimeContext where
  length := c.length
  cursorPos := c.cursorPos
  selStart := c.selStart
  selEnd := c.selEnd
  preedit := text c.preedit
  pageSize := c.pageSize
  pageNo := c.pageNo
  isLastPage := c.isLastPage
  highlightedCandidateIndex := c.highlightedCandidateIndex
  numCandidates := c.numCandidates
  selectKeys := text c.selectKeys
  candidates := c.candidates.elim [] fun p => p.holds.map cellText
  commitTextPreview := text c.commitTextPreview

def clip (hasPreview : Bool) (c : Hooks.RimeContext) : Hooks.RimeContext :=
  if hasPreview then c else { c with commitTextPreview := none }

theorem newChars_returns (s : String) : Returns (fun p => text p = some s) (newChars s) :=
  Returns.after fun _ => Returns.pure rfl

theorem newNonNull_returns (s : String) : Returns (fun p => text p = nonNull s) (newNonNull s) := by
  apply Returns.ite
  · intro h
    exact Returns.pure (if_pos h).symm
  · intro h
    have hsome : nonNull s = some s := if_neg h
    rw [hsome]
    exact newChars_returns s

theorem strDup_returns (p : Chars) : Returns (fun q => text q = text p) (strDup p) := by
  cases p with
  | none => exact Returns.pure rfl
  | some p => exact Returns.after fun _ => newChars_returns p.holds

/-- What a copy of a candidate's text may differ in. -/
def SameText (dup : Chars → Act Heap Chars) : Prop :=
  ∀ p, Returns (fun q => (text q).getD "" = (text p).getD "") (dup p)

theorem strDup_sameText : SameText strDup := fun p heap =>
  congrArg (fun t => t.getD "") (strDup_returns p heap)

theorem strDupOrEmpty_sameText : SameText strDupOrEmpty := by
  intro p
  cases p with
  | none => exact fun heap => congrArg (fun t => t.getD "") (newChars_returns "" heap)
  | some p => exact strDup_sameText (some p)

section

variable {dup : Chars → Act Heap Chars} (hdup : SameText dup)

include hdup

theorem copyCells_returns (block : Nat) (n : Nat) (l : List Cell) (h : l.length = n) :
    Returns (fun copy => copy.map cellText = l.map cellText) (copyCells dup block n l) := by
  induction l generalizing n with
  | nil =>
      subst h
      exact Returns.pure rfl
  | cons cell l ih =>
      subst h
      apply Returns.after
      intro _
      refine Returns.bind (hdup cell.1) ?_
      intro first hfirst
      refine Returns.bind (hdup cell.2) ?_
      intro second hsecond
      refine Returns.bind (ih l.length rfl) ?_
      intro rest hrest
      apply Returns.pure
      rw [List.map_cons, List.map_cons, hrest, cellText, cellText, hfirst, hsecond]

/-- The copy of the candidates is as long as they are, and reads the same. -/
def SameCells (n : Nat) (p copy : Option (Ptr (List Cell))) : Prop :=
  Sized n copy ∧ (copy.elim [] fun q => q.holds.map cellText) = p.elim [] fun q => q.holds.map cellText

theorem copyCandidates_returns {n : Nat} {p : Option (Ptr (List Cell))} (h : Sized n p) :
    Returns (SameCells n p) (copyCandidates dup n p) := by
  cases p with
  | none => exact Returns.pure ⟨h, rfl⟩
  | some p =>
      apply Returns.ite
      · intro _
        apply Returns.after
        intro block
        refine Returns.bind (copyCells_returns hdup p.block n p.holds h) ?_
        intro copy hcopy
        apply Returns.pure
        have hlength := congrArg List.length hcopy
        rw [List.length_map, List.length_map] at hlength
        exact ⟨hlength.trans h, hcopy⟩
      · intro hzero
        have hn : n = 0 := Nat.eq_zero_of_not_pos hzero
        have hempty : p.holds = [] := List.length_eq_zero_iff.mp (h.trans hn)
        apply Returns.pure
        refine ⟨hn, ?_⟩
        rw [Option.elim_none, Option.elim_some, hempty, List.map_nil]

theorem copyContext_returns (hasPreview : Bool) {src : Context} (h : src.Sized) :
    Returns (fun copy => copy.shown = clip hasPreview src.shown ∧ copy.Sized)
      (copyContext dup hasPreview src) := by
  refine Returns.bind (strDup_returns src.preedit) ?_
  intro preedit hpreedit
  refine Returns.bind (strDup_returns src.selectKeys) ?_
  intro selectKeys hkeys
  refine Returns.bind (copyCandidates_returns hdup h) ?_
  intro candidates hcells
  have hpreview : Returns
      (fun p => text p = if hasPreview then text src.commitTextPreview else none)
      (copyPreview hasPreview src.commitTextPreview) := by
    cases hasPreview with
    | false => exact Returns.pure rfl
    | true => exact strDup_returns src.commitTextPreview
  refine Returns.bind hpreview ?_
  intro preview hpreview
  apply Returns.pure
  refine ⟨?_, hcells.1⟩
  rw [Context.shown, Context.shown, hpreedit, hkeys, hcells.2, hpreview, clip]
  cases hasPreview with
  | false => rfl
  | true => rfl

end

theorem saveContextSnapshot_returns (last : Option Context) (hasPreview : Bool) {src : Context}
    (h : src.Sized) :
    Returns (fun snapshot => snapshot.shown = clip hasPreview src.shown ∧ snapshot.Sized)
      (saveContextSnapshot last hasPreview src) :=
  Returns.after fun _ => copyContext_returns strDupOrEmpty_sameText hasPreview h

/-- The context reads as `told`, and its array is as long as it says. -/
def Reads (told : Hooks.RimeContext) (c : Context) : Prop := c.shown = told ∧ c.Sized

theorem readComposition_returns (comp : Option CompositionProto) :
    Returns (fun c => Reads (Hooks.readComposition comp {}) c ∧ c.Bare)
      (readComposition comp {}) := by
  cases comp with
  | none => exact Returns.pure ⟨⟨rfl, rfl⟩, rfl, rfl, rfl⟩
  | some comp =>
      refine Returns.bind (newNonNull_returns comp.preedit) ?_
      intro preedit hpreedit
      apply Returns.pure
      refine ⟨⟨?_, rfl⟩, rfl, rfl, rfl⟩
      rw [Context.shown, hpreedit]
      rfl

theorem readCells_returns {n : Nat} {candidates : List CandidateProto}
    (h : n ≤ candidates.length) :
    Returns (fun read => read.map cellText = (candidates.take n).map fun c => (c.text, c.comment))
      (readCells n candidates) := by
  induction n generalizing candidates with
  | zero => exact Returns.pure rfl
  | succ n ih =>
      cases candidates with
      | nil => exact absurd h (Nat.not_succ_le_zero n)
      | cons c candidates =>
          refine Returns.bind (newChars_returns _) ?_
          intro first hfirst
          refine Returns.bind (newChars_returns _) ?_
          intro second hsecond
          refine Returns.bind (ih (Nat.le_of_succ_le_succ h)) ?_
          intro rest hrest
          apply Returns.pure
          rw [List.map_cons, hrest, cellText, hfirst, hsecond, List.take_succ_cons, List.map_cons]
          rfl

/-- The candidates that the menu counts, as the callers get them. -/
def menuCells (menu : MenuProto) : List (String × String) :=
  (menu.candidates.take (turns menu)).map fun c => (c.text, c.comment)

theorem readCandidates_returns {menu : MenuProto} (h : turns menu ≤ menu.candidates.length) :
    Returns (fun p => Sized (turns menu) p ∧
        (p.elim [] fun q => q.holds.map cellText) = menuCells menu)
      (readCandidates menu (turns menu)) := by
  apply Returns.ite
  · intro _
    apply Returns.after
    intro block
    refine Returns.bind (readCells_returns h) ?_
    intro read hread
    apply Returns.pure
    have hlength := congrArg List.length hread
    rw [List.length_map, List.length_map, List.length_take, Nat.min_eq_left h] at hlength
    exact ⟨hlength, hread⟩
  · intro hzero
    have hn : turns menu = 0 := Nat.eq_zero_of_not_pos hzero
    apply Returns.pure
    refine ⟨hn, ?_⟩
    rw [Option.elim_none, menuCells, hn, List.take_zero, List.map_nil]

theorem readMenu_returns {menu : Option MenuProto} {c : Context} {told read : Hooks.RimeContext}
    (h : Reads told c) (hread : Hooks.readMenu menu told = .ok read)
    (hcounts : ∀ listed ∈ menu, listed.numCandidates.toInt ≤ listed.candidates.length) :
    Returns (Reads read) (readMenu menu c) := by
  cases menu with
  | none =>
      cases hread
      exact Returns.pure h
  | some menu =>
      rw [Hooks.readMenu, Hooks.menuCandidates_eq (hcounts menu rfl)] at hread
      refine Returns.bind (newNonNull_returns menu.selectKeys) ?_
      intro selectKeys hkeys
      refine Returns.bind (readCandidates_returns (turns_le (hcounts menu rfl))) ?_
      intro candidates hcells
      apply Returns.pure
      refine ⟨?_, hcells.1⟩
      rw [← Except.ok.inj hread, ← h.1, Context.shown, hkeys, hcells.2, menuCells, List.map_map]
      rfl

theorem readPreview_returns (hasPreview : Bool) (preview : String) :
    Returns (fun p => text p = if hasPreview then nonNull preview else none)
      (readPreview hasPreview preview) := by
  cases hasPreview with
  | false => exact Returns.pure rfl
  | true => exact newNonNull_returns preview

theorem overrideSelectKeys_returns (search : RegexSearch) (client : GrpcImeClientV2) {c : Context}
    {told : Hooks.RimeContext} (h : Reads told c) :
    Returns (Reads (Hooks.overrideSelectKeys search client told))
      (overrideSelectKeys search client c) := by
  obtain ⟨hshown, hsized⟩ := h
  subst hshown
  cases hpreedit : c.preedit with
  | none =>
      have hsame : Hooks.overrideSelectKeys search client c.shown = c.shown := by
        simp [Hooks.overrideSelectKeys, Context.shown, text, hpreedit]
      rw [overrideSelectKeys, hpreedit, hsame]
      exact Returns.pure ⟨rfl, hsized⟩
  | some preedit =>
      have hread : c.shown.preedit = some preedit.holds := by rw [Context.shown, hpreedit]; rfl
      rw [overrideSelectKeys, hpreedit, Hooks.overrideSelectKeys, hread]
      by_cases hmode : 0 < c.pageSize ∧ client.vModeRegex.isSome
      · dsimp only
        rw [if_pos hmode, if_pos (show 0 < c.shown.pageSize ∧ client.vModeRegex.isSome from hmode)]
        apply Returns.after
        intro _
        apply Returns.after
        intro _
        refine Returns.bind (newChars_returns _) ?_
        intro selectKeys hkeys
        apply Returns.pure
        refine ⟨?_, hsized⟩
        rw [Context.shown, hkeys, hpreedit]
        rfl
      · dsimp only
        rw [if_neg hmode, if_neg (show ¬(0 < c.shown.pageSize ∧ client.vModeRegex.isSome) from hmode)]
        exact Returns.pure ⟨rfl, hsized⟩

theorem overrideSelectKeys_clip (search : RegexSearch) (client : GrpcImeClientV2)
    (hasPreview : Bool) (told : Hooks.RimeContext) :
    Hooks.overrideSelectKeys search client (clip hasPreview told) =
      clip hasPreview (Hooks.overrideSelectKeys search client told) := by
  cases hasPreview with
  | true => rfl
  | false =>
      simp only [clip, Bool.false_eq_true, if_false, Hooks.overrideSelectKeys]
      split
      · rfl
      · split
        · rfl
        · rfl

theorem readContext_returns {search : RegexSearch} {client : GrpcImeClientV2} (hasPreview : Bool)
    {proto : RimeContextProto} {told : Hooks.RimeContext}
    (h : Hooks.readContext search client proto = .ok told) :
    Returns (Reads (clip hasPreview told)) (readContext search client hasPreview proto) := by
  have hcounts := (Hooks.readContext_ok search client proto).mp ⟨told, h⟩
  rw [Hooks.readContext] at h
  cases hmenu : Hooks.readMenu proto.menu (Hooks.readComposition proto.composition {}) with
  | error fault =>
      rw [hmenu] at h
      cases h
  | ok read =>
      rw [hmenu] at h
      have htold : Hooks.overrideSelectKeys search client
          { read with commitTextPreview := nonNull proto.commitTextPreview } = told :=
        Except.ok.inj h
      refine Returns.bind (readComposition_returns proto.composition) ?_
      intro composed hcomposed
      refine Returns.bind (readMenu_returns hcomposed.1 hmenu hcounts) ?_
      intro c hc
      refine Returns.bind (readPreview_returns hasPreview proto.commitTextPreview) ?_
      intro preview hpreview
      have hreads : Reads (clip hasPreview
          { read with commitTextPreview := nonNull proto.commitTextPreview })
          { c with commitTextPreview := preview } := by
        refine ⟨?_, hc.2⟩
        rw [← hc.1, Context.shown, hpreview]
        cases hasPreview with
        | false => rfl
        | true => rfl
      rw [← htold, ← overrideSelectKeys_clip]
      exact overrideSelectKeys_returns search client hreads

theorem readMenu_preview (menu : Option MenuProto) (c : Context) :
    Returns (fun read => read.commitTextPreview = c.commitTextPreview) (readMenu menu c) := by
  cases menu with
  | none => exact Returns.pure rfl
  | some menu => exact Returns.after fun _ => Returns.after fun _ => Returns.pure rfl

theorem readContext_owns (search : RegexSearch) (client : GrpcImeClientV2) (hasPreview : Bool)
    {proto : RimeContextProto} (h : Hooks.CountsWithin proto) :
    Owns 0 (readContext search client hasPreview proto) Context.blocks := by
  have hbare : Returns Context.Bare (readComposition proto.composition {}) :=
    fun heap => (readComposition_returns proto.composition heap).2
  apply (readComposition_owns proto.composition).bind_of hbare
  intro composed hcomposed
  apply (readMenu_owns hcomposed h).bind_of (readMenu_preview proto.menu composed)
  intro c hc
  have hpreview := (readPreview_owns hasPreview proto.commitTextPreview).frame c.blocks
  apply Owns.bind (hpreview.congr (Multiset.add_zero _).symm fun _ => rfl)
  intro preview
  have hblocks : c.blocks + chars preview =
      Context.blocks { c with commitTextPreview := preview } := by
    rw [Context.blocks, Context.blocks, hc, hcomposed.preview]
    simp only [chars, Option.elim_none]
    abel
  exact (overrideSelectKeys_owns search client _).congr hblocks fun _ => rfl

end RimeWinime.ContextMemory
