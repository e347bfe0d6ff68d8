import RimeWinime.Lib.Blocks
import RimeWinime.Remote.Hooks

namespace RimeWinime.ContextMemory

open World Proto Client Blocks
open Hooks (nonNull)
open SharedState (RegexSearch matchesVMode alphaKeys numKeys turns)

abbrev Chars := Option (Ptr String)

abbrev Cell := Chars × Chars

structure Context where
  length : Int32 := 0
  cursorPos : Int32 := 0
  selStart : Int32 := 0
  selEnd : Int32 := 0
  preedit : Chars := none
  pageSize : Int32 := 0
  pageNo : Int32 := 0
  isLastPage : Bool := false
  highlightedCandidateIndex : Int32 := 0
  numCandidates : Int32 := 0
  candidates : Option (Ptr (List Cell)) := none
  selectKeys : Chars := none
  commitTextPreview : Chars := none

def Context.count (c : Context) : Nat := c.numCandidates.toInt.toNat

def newChars (text : String) : Act Heap Chars := do
  let block ← alloc
  pure (some ⟨block, text⟩)

def strDup : Chars → Act Heap Chars
  | none => pure none
  | some p => do
      access p.block
      newChars p.holds

def newNonNull (text : String) : Act Heap Chars :=
  if text = "" then pure none else newChars text

def deleteChars : Chars → Act Heap Unit
  | none => pure ()
  | some p => free p.block

def deleteCells (array : Nat) : Nat → List Cell → Act Heap Unit
  | 0, _ => pure ()
  | _ + 1, [] => wild
  | n + 1, cell :: cells => do
      access array
      deleteChars cell.1
      deleteChars cell.2
      deleteCells array n cells

def deleteCandidates (n : Nat) : Option (Ptr (List Cell)) → Act Heap Unit
  | none => if 0 < n then wild else pure ()
  | some array => do
      deleteCells array.block n array.holds
      free array.block

def deleteContext (c : Context) : Act Heap Unit := do
  deleteChars c.preedit
  deleteChars c.selectKeys
  deleteCandidates c.count c.candidates
  deleteChars c.commitTextPreview

/-- How `SaveContextSnapshot` and `EnsureSession` free what a session has kept. -/
def deleteSnapshot : Option Context → Act Heap Unit
  | none => pure ()
  | some c => deleteContext c

def copyCells (dup : Chars → Act Heap Chars) (array : Nat) : Nat → List Cell → Act Heap (List Cell)
  | 0, _ => pure []
  | _ + 1, [] => do
      wild
      pure []
  | n + 1, cell :: cells => do
      access array
      let text ← dup cell.1
      let comment ← dup cell.2
      let rest ← copyCells dup array n cells
      pure ((text, comment) :: rest)

def copyCandidates (dup : Chars → Act Heap Chars) (n : Nat) :
    Option (Ptr (List Cell)) → Act Heap (Option (Ptr (List Cell)))
  | none => pure none
  | some array =>
      if 0 < n then do
        let block ← alloc
        let cells ← copyCells dup array.block n array.holds
        pure (some ⟨block, cells⟩)
      else pure none

def strDupOrEmpty : Chars → Act Heap Chars
  | none => newChars ""
  | some p => strDup (some p)

/-- `RIME_STRUCT_HAS_MEMBER` of the preview: an old context does not have it. -/
def copyPreview (hasPreview : Bool) (preview : Chars) : Act Heap Chars :=
  if hasPreview then strDup preview else pure none

def copyContext (dup : Chars → Act Heap Chars) (hasPreview : Bool) (src : Context) :
    Act Heap Context := do
  let preedit ← strDup src.preedit
  let selectKeys ← strDup src.selectKeys
  let candidates ← copyCandidates dup src.count src.candidates
  let commitTextPreview ← copyPreview hasPreview src.commitTextPreview
  pure { src with preedit, selectKeys, candidates, commitTextPreview }

/-- `SaveContextSnapshot`: `last` is the snapshot that there is. -/
def saveContextSnapshot (last : Option Context) (hasPreview : Bool) (src : Context) :
    Act Heap Context := do
  deleteSnapshot last
  copyContext strDupOrEmpty hasPreview src

def restoreContextSnapshot (hasPreview : Bool) (last : Context) : Act Heap Context :=
  copyContext strDup hasPreview last

def readComposition (comp : Option CompositionProto) (c : Context) : Act Heap Context :=
  match comp with
  | none => pure c
  | some comp => do
      let preedit ← newNonNull comp.preedit
      pure { c with
        length := comp.length
        cursorPos := comp.cursorPos
        selStart := comp.selStart
        selEnd := comp.selEnd
        preedit := preedit }

def readCells : Nat → List CandidateProto → Act Heap (List Cell)
  | 0, _ => pure []
  | _ + 1, [] => do
      wild
      pure []
  | n + 1, c :: candidates => do
      let text ← newChars c.text
      let comment ← newChars c.comment
      let rest ← readCells n candidates
      pure ((text, comment) :: rest)

def readCandidates (menu : MenuProto) (n : Nat) : Act Heap (Option (Ptr (List Cell))) :=
  if 0 < n then do
    let block ← alloc
    let cells ← readCells n menu.candidates
    pure (some ⟨block, cells⟩)
  else pure none

def readMenu (menu : Option MenuProto) (c : Context) : Act Heap Context :=
  match menu with
  | none => pure c
  | some menu => do
      let selectKeys ← newNonNull menu.selectKeys
      let candidates ← readCandidates menu (turns menu)
      pure { c with
        pageSize := menu.pageSize
        pageNo := menu.pageNo
        isLastPage := menu.isLastPage
        highlightedCandidateIndex := menu.highlightedCandidateIndex
        numCandidates := menu.numCandidates
        selectKeys := selectKeys
        candidates := candidates }

def readPreview (hasPreview : Bool) (preview : String) : Act Heap Chars :=
  if hasPreview then newNonNull preview else pure none

/-- The select keys are replaced: `n` of those of the mode that the preedit is in. -/
def replaceSelectKeys (search : RegexSearch) (client : GrpcImeClientV2) (preedit : Ptr String)
    (c : Context) : Act Heap Context := do
  access preedit.block
  let srcKeys := if matchesVMode search client preedit.holds then alphaKeys else numKeys
  let n := if c.pageSize > 10 then 10 else c.pageSize
  deleteChars c.selectKeys
  let selectKeys ← newChars (String.ofList (srcKeys.take n.toInt.toNat))
  pure { c with selectKeys := selectKeys }

def overrideSelectKeys (search : RegexSearch) (client : GrpcImeClientV2) (c : Context) :
    Act Heap Context :=
  match c.preedit with
  | none => pure c
  | some preedit =>
      if 0 < c.pageSize ∧ client.vModeRegex.isSome then replaceSelectKeys search client preedit c
      else pure c

/-- What `MyGetContext` puts into the caller's context for an answer of the backend. -/
def readContext (search : RegexSearch) (client : GrpcImeClientV2) (hasPreview : Bool)
    (proto : RimeContextProto) : Act Heap Context := do
  let c ← readComposition proto.composition {}
  let c ← readMenu proto.menu c
  let preview ← readPreview hasPreview proto.commitTextPreview
  overrideSelectKeys search client { c with commitTextPreview := preview }

end RimeWinime.ContextMemory
