import Mathlib.Tactic.Abel
import RimeWinime.Remote.ContextMemory

namespace RimeWinime.ContextMemory

open World Proto Client Blocks
open SharedState (RegexSearch turns)

def chars (p : Chars) : Multiset Nat := p.elim 0 fun p => {p.block}

def cells : List Cell → Multiset Nat
  | [] => 0
  | cell :: rest => chars cell.1 + chars cell.2 + cells rest

def array (p : Option (Ptr (List Cell))) : Multiset Nat := p.elim 0 fun p => {p.block} + cells p.holds

def Context.blocks (c : Context) : Multiset Nat :=
  chars c.preedit + chars c.selectKeys + array c.candidates + chars c.commitTextPreview

/-- The array is as long as the context says. -/
def Sized (n : Nat) (p : Option (Ptr (List Cell))) : Prop := p.elim (n = 0) fun p => p.holds.length = n

def Context.Sized (c : Context) : Prop := ContextMemory.Sized c.count c.candidates

theorem newChars_owns (text : String) : Owns 0 (newChars text) chars :=
  Owns.bind alloc_owns fun block => Owns.pure chars (some ⟨block, text⟩)

theorem newNonNull_owns (text : String) : Owns 0 (newNonNull text) chars := by
  apply Owns.ite
  · intro _
    exact Owns.pure chars none
  · intro _
    exact newChars_owns text

theorem deleteChars_owns (p : Chars) : Owns (chars p) (deleteChars p) fun _ => 0 := by
  cases p with
  | none => exact Owns.pure (fun _ => 0) ()
  | some p => exact free_owns p.block

/-- A copy leaves what it copies. -/
def Copies (dup : Chars → Act Heap Chars) : Prop :=
  ∀ p, Owns (chars p) (dup p) fun q => chars p + chars q

theorem strDup_copies : Copies strDup := by
  intro p
  cases p with
  | none => exact Owns.pure (fun q => chars none + chars q) none
  | some p =>
      have hread : p.block ∈ chars (some p) := Multiset.mem_singleton_self p.block
      apply Owns.bind (access_owns hread)
      intro _
      have hnew := (newChars_owns p.holds).frame (chars (some p))
      rwa [Multiset.add_zero] at hnew

theorem strDupOrEmpty_copies : Copies strDupOrEmpty := by
  intro p
  cases p with
  | none =>
      have hnew := (newChars_owns "").frame (chars none)
      rwa [Multiset.add_zero] at hnew
  | some p => exact strDup_copies (some p)

theorem deleteCells_owns (block : Nat) (n : Nat) (l : List Cell) (h : l.length = n) :
    Owns ({block} + cells l) (deleteCells block n l) fun _ => {block} := by
  induction l generalizing n with
  | nil =>
      subst h
      exact Owns.pure (fun _ => {block}) ()
  | cons cell l ih =>
      subst h
      have hread : block ∈ ({block} + cells (cell :: l) : Multiset Nat) := by simp
      apply Owns.bind (access_owns hread)
      intro _
      have htext := (deleteChars_owns cell.1).frame ({block} + cells l + chars cell.2)
      have hcomment := (deleteChars_owns cell.2).frame ({block} + cells l)
      apply Owns.bind (htext.congr (by rw [cells]; abel) fun _ => rfl)
      intro _
      apply Owns.bind (hcomment.congr (by abel) fun _ => rfl)
      intro _
      exact (ih l.length rfl).congr (by abel) fun _ => rfl

theorem deleteCandidates_owns {n : Nat} {p : Option (Ptr (List Cell))} (h : Sized n p) :
    Owns (array p) (deleteCandidates n p) fun _ => 0 := by
  cases p with
  | none =>
      apply Owns.ite
      · intro hpos
        exact absurd h hpos.ne'
      · intro _
        exact Owns.pure (fun _ => 0) ()
  | some p => exact Owns.bind (deleteCells_owns p.block n p.holds h) fun _ => free_owns p.block

theorem deleteContext_owns {c : Context} (h : c.Sized) :
    Owns c.blocks (deleteContext c) fun _ => 0 := by
  have hpreedit := (deleteChars_owns c.preedit).frame
    (chars c.selectKeys + array c.candidates + chars c.commitTextPreview)
  have hkeys := (deleteChars_owns c.selectKeys).frame (array c.candidates + chars c.commitTextPreview)
  have hcells := (deleteCandidates_owns h).frame (chars c.commitTextPreview)
  apply Owns.bind (hpreedit.congr (by rw [Context.blocks]; abel) fun _ => rfl)
  intro _
  apply Owns.bind (hkeys.congr (by abel) fun _ => rfl)
  intro _
  apply Owns.bind (hcells.congr (by abel) fun _ => rfl)
  intro _
  exact (deleteChars_owns c.commitTextPreview).congr (by abel) fun _ => rfl

section

variable {dup : Chars → Act Heap Chars} (hdup : Copies dup)

include hdup

theorem copyCells_owns (block : Nat) (n : Nat) (l : List Cell) (h : l.length = n) :
    Owns ({block} + cells l) (copyCells dup block n l)
      fun copy => {block} + cells l + cells copy := by
  induction l generalizing n with
  | nil =>
      subst h
      exact (Owns.pure (fun copy => {block} + cells [] + cells copy) []).congr
        (by simp [cells]) fun _ => rfl
  | cons cell l ih =>
      subst h
      have hread : block ∈ ({block} + cells (cell :: l) : Multiset Nat) := by simp
      apply Owns.bind (access_owns hread)
      intro _
      have htext := (hdup cell.1).frame ({block} + cells l + chars cell.2)
      apply Owns.bind (htext.congr (by rw [cells]; abel) fun _ => rfl)
      intro text
      have hcomment := (hdup cell.2).frame ({block} + cells l + chars cell.1 + chars text)
      apply Owns.bind (hcomment.congr (by abel) fun _ => rfl)
      intro comment
      have hrest := (ih l.length rfl).frame
        (chars cell.1 + chars cell.2 + chars text + chars comment)
      apply Owns.bind (hrest.congr (by abel) fun _ => rfl)
      intro rest
      exact (Owns.pure (fun copy => {block} + cells (cell :: l) + cells copy)
        ((text, comment) :: rest)).congr (by rw [cells, cells]; abel) fun _ => rfl

theorem copyCandidates_owns {n : Nat} {p : Option (Ptr (List Cell))} (h : Sized n p) :
    Owns (array p) (copyCandidates dup n p) fun copy => array p + array copy := by
  have hnone : Owns (array p) (pure none) fun copy => array p + array copy :=
    (Owns.pure (fun copy => array p + array copy) none).congr
      (by rw [array, array, Option.elim_none, Multiset.add_zero]) fun _ => rfl
  cases p with
  | none => exact hnone
  | some p =>
      apply Owns.ite
      · intro _
        have hnew := alloc_owns.frame (array (some p))
        apply Owns.bind (hnew.congr (Multiset.add_zero _).symm fun _ => rfl)
        intro block
        have hcells := (copyCells_owns hdup p.block n p.holds h).frame {block}
        apply Owns.bind (hcells.congr (by rw [array, Option.elim_some]; abel) fun _ => rfl)
        intro copy
        exact (Owns.pure (fun copy => array (some p) + array copy)
          (some ⟨block, copy⟩)).congr
          (by rw [array, array, Option.elim_some, Option.elim_some]; abel) fun _ => rfl
      · intro _
        exact hnone

theorem copyContext_owns (hasPreview : Bool) {src : Context} (h : src.Sized) :
    Owns src.blocks (copyContext dup hasPreview src) fun copy => src.blocks + copy.blocks := by
  have hpreedit := (strDup_copies src.preedit).frame
    (chars src.selectKeys + array src.candidates + chars src.commitTextPreview)
  apply Owns.bind (hpreedit.congr (by rw [Context.blocks]; abel) fun _ => rfl)
  intro preedit
  have hkeys := (strDup_copies src.selectKeys).frame
    (chars src.preedit + array src.candidates + chars src.commitTextPreview + chars preedit)
  apply Owns.bind (hkeys.congr (by abel) fun _ => rfl)
  intro selectKeys
  have hcells := (copyCandidates_owns hdup h).frame
    (chars src.preedit + chars src.selectKeys + chars src.commitTextPreview + chars preedit +
      chars selectKeys)
  apply Owns.bind (hcells.congr (by abel) fun _ => rfl)
  intro candidates
  have hpreview : Owns (chars src.commitTextPreview) (copyPreview hasPreview src.commitTextPreview)
      fun preview => chars src.commitTextPreview + chars preview := by
    apply Owns.ite
    · intro _
      exact strDup_copies src.commitTextPreview
    · intro _
      exact (Owns.pure (fun preview => chars src.commitTextPreview + chars preview)
        none).congr (by simp [chars]) fun _ => rfl
  have hlast := hpreview.frame
    (chars src.preedit + chars src.selectKeys + array src.candidates + chars preedit +
      chars selectKeys + array candidates)
  apply Owns.bind (hlast.congr (by abel) fun _ => rfl)
  intro preview
  let copy : Context :=
    { src with preedit, selectKeys, candidates, commitTextPreview := preview }
  exact (Owns.pure (fun copy => src.blocks + copy.blocks) copy).congr
    (by rw [Context.blocks, Context.blocks]; abel) fun _ => rfl

end

/-- The blocks of the snapshot that a session has, if it has one. -/
def kept (last : Option Context) : Multiset Nat := last.elim 0 Context.blocks

theorem deleteSnapshot_owns {last : Option Context} (hlast : ∀ c ∈ last, c.Sized) :
    Owns (kept last) (deleteSnapshot last) fun _ => 0 := by
  cases last with
  | none => exact Owns.pure (fun _ => 0) ()
  | some c => exact deleteContext_owns (hlast c rfl)

theorem saveContextSnapshot_owns {last : Option Context} (hlast : ∀ c ∈ last, c.Sized)
    (hasPreview : Bool) {src : Context} (h : src.Sized) :
    Owns (src.blocks + kept last) (saveContextSnapshot last hasPreview src)
      fun snapshot => src.blocks + snapshot.blocks := by
  apply Owns.bind ((deleteSnapshot_owns hlast).frame src.blocks)
  intro _
  exact (copyContext_owns strDupOrEmpty_copies hasPreview h).congr (Multiset.add_zero _) fun _ => rfl

theorem readComposition_owns (comp : Option CompositionProto) :
    Owns 0 (readComposition comp {}) Context.blocks := by
  cases comp with
  | none => exact Owns.pure Context.blocks {}
  | some comp =>
      apply Owns.bind (newNonNull_owns comp.preedit)
      intro preedit
      let c : Context :=
        { length := comp.length
          cursorPos := comp.cursorPos
          selStart := comp.selStart
          selEnd := comp.selEnd
          preedit := preedit }
      exact (Owns.pure Context.blocks c).congr
        (by simp [c, Context.blocks, chars, array]) fun _ => rfl

theorem readCells_owns {n : Nat} {candidates : List CandidateProto} (h : n ≤ candidates.length) :
    Owns 0 (readCells n candidates) cells := by
  induction n generalizing candidates with
  | zero => exact Owns.pure cells []
  | succ n ih =>
      cases candidates with
      | nil => exact absurd h (Nat.not_succ_le_zero n)
      | cons c candidates =>
          apply Owns.bind (newChars_owns _)
          intro text
          have hcomment := (newChars_owns c.comment).frame (chars text)
          apply Owns.bind (hcomment.congr (Multiset.add_zero _).symm fun _ => rfl)
          intro comment
          have hrest := (ih (Nat.le_of_succ_le_succ h)).frame (chars text + chars comment)
          apply Owns.bind (hrest.congr (Multiset.add_zero _).symm fun _ => rfl)
          intro rest
          exact Owns.pure cells ((text, comment) :: rest)

theorem readCandidates_owns {menu : MenuProto} {n : Nat} (h : n ≤ menu.candidates.length) :
    Owns 0 (readCandidates menu n) array := by
  apply Owns.ite
  · intro _
    apply Owns.bind alloc_owns
    intro block
    have hcells := (readCells_owns h).frame {block}
    apply Owns.bind (hcells.congr (Multiset.add_zero _).symm fun _ => rfl)
    intro read
    exact Owns.pure array (some ⟨block, read⟩)
  · intro _
    exact Owns.pure array none

/-- The context has neither select keys nor candidates yet. -/
structure Context.Bare (c : Context) : Prop where
  selectKeys : c.selectKeys = none
  candidates : c.candidates = none
  preview : c.commitTextPreview = none

/-- The loop stays in the list of a menu that counts within it. -/
theorem turns_le {menu : MenuProto} (h : menu.numCandidates.toInt ≤ menu.candidates.length) :
    turns menu ≤ menu.candidates.length := by
  rw [turns]
  omega

theorem readMenu_owns {menu : Option MenuProto} {c : Context} (hbare : c.Bare)
    (h : ∀ listed ∈ menu, listed.numCandidates.toInt ≤ listed.candidates.length) :
    Owns c.blocks (readMenu menu c) Context.blocks := by
  cases menu with
  | none => exact Owns.pure Context.blocks c
  | some menu =>
      have hkeys := (newNonNull_owns menu.selectKeys).frame c.blocks
      apply Owns.bind (hkeys.congr (Multiset.add_zero _).symm fun _ => rfl)
      intro selectKeys
      have hcells := (readCandidates_owns (turns_le (h menu rfl))).frame
        (c.blocks + chars selectKeys)
      apply Owns.bind (hcells.congr (Multiset.add_zero _).symm fun _ => rfl)
      intro candidates
      let read : Context := { c with
        pageSize := menu.pageSize
        pageNo := menu.pageNo
        isLastPage := menu.isLastPage
        highlightedCandidateIndex := menu.highlightedCandidateIndex
        numCandidates := menu.numCandidates
        selectKeys := selectKeys
        candidates := candidates }
      have hblocks : c.blocks + chars selectKeys + array candidates = read.blocks := by
        simp only [read, Context.blocks, hbare.selectKeys, hbare.candidates, chars, array, Option.elim_none]
        abel
      exact (Owns.pure Context.blocks read).congr hblocks fun _ => rfl

theorem readPreview_owns (hasPreview : Bool) (preview : String) :
    Owns 0 (readPreview hasPreview preview) chars := by
  apply Owns.ite
  · intro _
    exact newNonNull_owns preview
  · intro _
    exact Owns.pure chars none

theorem overrideSelectKeys_owns (search : RegexSearch) (client : GrpcImeClientV2) (c : Context) :
    Owns c.blocks (overrideSelectKeys search client c) Context.blocks := by
  have hsame := Owns.pure Context.blocks c
  cases hpreedit : c.preedit with
  | none =>
      rw [overrideSelectKeys, hpreedit]
      exact hsame
  | some preedit =>
      rw [overrideSelectKeys, hpreedit]
      apply Owns.ite
      · intro _
        have hread : preedit.block ∈ c.blocks := by simp [Context.blocks, hpreedit, chars]
        apply Owns.bind (access_owns hread)
        intro _
        have hold := (deleteChars_owns c.selectKeys).frame
          (chars c.preedit + array c.candidates + chars c.commitTextPreview)
        apply Owns.bind (hold.congr (by rw [Context.blocks]; abel) fun _ => rfl)
        intro _
        have hnew := (newChars_owns (String.ofList
          ((if SharedState.matchesVMode search client preedit.holds then SharedState.alphaKeys
            else SharedState.numKeys).take (if c.pageSize > 10 then 10 else c.pageSize).toInt.toNat))).frame
          (chars c.preedit + array c.candidates + chars c.commitTextPreview)
        apply Owns.bind hnew
        intro selectKeys
        exact (Owns.pure Context.blocks { c with selectKeys := selectKeys }).congr
          (by rw [Context.blocks]; abel) fun _ => rfl
      · intro _
        exact hsame

end RimeWinime.ContextMemory
