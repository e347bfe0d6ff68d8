import RimeWinime.Remote.Events

namespace RimeWinime.Desk

open World Text Proto Backend Client SharedState Processor View Events

/-- One session: what is typed, its candidates, the pending text, and a result that
arrives only with the next `get_context`. -/
structure Table where
  preedit : String
  candidates : List String
  pending : String
  late : String
deriving DecidableEq

def PAGE_DOWN : UInt32 := 0xFF56
def COMMA : UInt32 := 0x2C

/-- Space takes the first candidate, Escape drops the composition, a page turns the
candidates, a comma is a text of its own, and a letter is typed. -/
def processKey (key : KeyEvent) (d : Table) : Bool × Table :=
  if key.keycode = SPACE ∧ d.preedit ≠ "" then
    (true, { d with preedit := "", candidates := [], pending := d.pending ++ d.candidates.headD "" })
  else if key.keycode = ESCAPE ∧ d.preedit ≠ "" then (true, { d with preedit := "", candidates := [] })
  else if key.keycode = PAGE_DOWN ∧ d.preedit ≠ "" then
    (true, { d with candidates := d.candidates.rotate 1 })
  else if key.keycode = COMMA then (true, { d with pending := d.pending ++ "，" })
  else if 0x61 ≤ key.keycode ∧ key.keycode ≤ 0x7A then
    (true, { d with preedit := d.preedit ++ "n", candidates := ["你", "能"] })
  else (false, d)

def composition (d : Table) : Option CompositionProto :=
  if d.preedit = "" then none
  else some ⟨d.preedit.utf8ByteSize.toInt32, d.preedit.utf8ByteSize.toInt32, 0, 0, d.preedit⟩

def menu (d : Table) : Option MenuProto :=
  if d.candidates = [] then none
  else some ⟨d.candidates.map fun text => ⟨text, ""⟩, 5, 0, true, 0, d.candidates.length.toInt32, ""⟩

def context (d : Table) : RimeContextProto := ⟨composition d, menu d, ""⟩

def backend : RimeBackend Table where
  openSession d := (some 1, d)
  destroySession _ d := ((), d)
  processKey _ := processKey
  getContext _ d := (context d, { d with pending := d.pending ++ d.late, late := "" })
  getCommit _ d := (if d.pending = "" then none else some d.pending, { d with pending := "" })
  selectCandidate _ _ d := (false, d)

theorem processKey_grows (key : KeyEvent) (d : Table) :
    ∃ t, (processKey key d).2.pending = d.pending ++ t := by
  rw [processKey]
  split_ifs
  · exact ⟨_, rfl⟩
  · exact ⟨"", String.append_empty.symm⟩
  · exact ⟨"", String.append_empty.symm⟩
  · exact ⟨_, rfl⟩
  · exact ⟨"", String.append_empty.symm⟩
  · exact ⟨"", String.append_empty.symm⟩

def view (id : Nat) : SessionView backend id where
  pending := Table.pending
  context := context
  processKey_grows := processKey_grows
  getContext_grows d := ⟨d.late, rfl⟩
  getContext_reports _ := rfl
  getCommit_takes d := by
    refine ⟨"", ?_⟩
    rw [String.append_empty]
    by_cases hd : d.pending = "" <;> simp [backend, hd]
  getCommit_empties _ := rfl

structure Pad where
  ascii : Bool
  input : String
  caret : Nat
deriving DecidableEq

def padEngine : RimeEngine Pad where
  asciiMode := Pad.ascii
  isComposing p := p.input ≠ ""
  input := Pad.input
  caretPos := Pad.caret
  clear p := { p with input := "", caret := 0 }
  setInput text p := { p with input := text, caret := text.utf8ByteSize }
  setCaretPos n p := { p with caret := min n p.input.utf8ByteSize }
  setSelectKeys _ p := p
  commitText _ p := p

theorem padLaws : EngineLaws padEngine where
  commitText_input _ _ := rfl
  commitText_caretPos _ _ := rfl
  commitText_composing _ _ := rfl
  setInput_composing text e htext := by simpa [padEngine] using htext
  setCaretPos_composing _ _ := rfl

def deskConfig (path : String) : Option String :=
  [("ascii_composer/switch_key/Shift_L", "commit_code"),
    ("ascii_composer/switch_key/Shift_R", "commit_text"),
    ("ascii_composer/switch_key/Control_L", "clear"),
    ("ascii_composer/switch_key/Control_R", "inline_ascii")].lookup path

def deskRemote : Remote Pad Table where
  engine := padEngine
  backend := backend
  search _ _ := false
  client := ⟨(∅ : AList fun _ : Nat => String).insert 7 "1", none⟩
  sessionId := 7
  grpcSessionOpen := true
  config := deskConfig

def deskView : SessionView deskRemote.backend (idOf deskRemote) := view (idOf deskRemote)

def pad : Pad := ⟨false, "", 0⟩

def emptyDesk : Table := ⟨"", [], "", ""⟩

def plainKey (keycode : UInt32) : KeyStep Pad := ⟨id, id, ⟨keycode, 0⟩⟩

def lostAt (n i : Nat) : RpcOutcome := if i = n then .replyLost else .delivered

def typed (outcome : Nat → RpcOutcome) : Front Pad Table :=
  reached deskRemote pad emptyDesk outcome [plainKey 0x6E]

end RimeWinime.Desk
