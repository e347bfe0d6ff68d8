import RimeWinime.Lib.World
import Mathlib.Data.List.Destutter

namespace RimeWinime.Worker

open World

variable {β : Type}

structure BackendKeyEvent where
  keyDown : Bool
  virtualKey : UInt32
  scanCode : UInt32
  shift : Bool
  ctrl : Bool
  alt : Bool
  repeated : Bool
  extended : Bool
  timestampMs : Int64
  sourceKeycode : UInt32
  sourceModifier : UInt32
deriving DecidableEq

structure Candidate where
  index : UInt32
  text : String
  comment : String
deriving DecidableEq

structure Snapshot where
  composition : String
  backendStateVersion : UInt64
deriving DecidableEq

structure BackendResult where
  composition : String
  reading : String
  candidates : List Candidate
  selectedIndex : UInt32
  pageSize : UInt32
  backendStateVersion : UInt64
deriving DecidableEq

structure CommitResult where
  committedText : String
  backendStateVersion : UInt64
deriving DecidableEq

/-- The five requests of the pipe protocol. -/
inductive WorkerIpcRequest
  | snapshot
  | resetSession
  | sendKeyEvent (keyEvent : BackendKeyEvent) (maxCandidates : Nat)
  | queryCandidates (inputSnapshot : String) (maxCandidates : Nat)
  | commitSelection (committedText : String) (candidateIndex : Nat)
deriving DecidableEq

structure WorkerIpcResponse where
  ok : Bool := false
  backendStateVersion : UInt64 := 0
  composition : String := ""
  reading : String := ""
  candidates : List Candidate := []
  selectedIndex : UInt32 := 0
  pageSize : UInt32 := 0
  committedText : String := ""
  errorCode : String := ""
  errorMessage : String := ""
deriving DecidableEq

/-- The trait `ImeBackend` of a worker process. -/
structure ImeBackend (β : Type) where
  snapshot : β → Snapshot
  resetForNewSession : Act β UInt64
  applyKeyEvent : BackendKeyEvent → Nat → Act β (Except String BackendResult)
  queryCandidates : String → Nat → Act β (Except String BackendResult)
  commitSelection : String → Nat → Act β (Except String CommitResult)
  reset : Act β (Except String UInt64)

def workerErrorResponse (snapshot : Snapshot) (code message : String) : WorkerIpcResponse :=
  { backendStateVersion := snapshot.backendStateVersion
    composition := snapshot.composition
    errorCode := code
    errorMessage := message }

def answerOrError (backend : ImeBackend β) {α : Type} (code : String)
    (answer : α → WorkerIpcResponse) (op : Act β (Except String α)) : Act β WorkerIpcResponse := do
  match ← op with
  | .ok result => pure (answer result)
  | .error message => do
      let snapshot ← observe backend.snapshot
      pure (workerErrorResponse snapshot code message)

def resultResponse (result : BackendResult) : WorkerIpcResponse :=
  { ok := true
    backendStateVersion := result.backendStateVersion
    composition := result.composition
    reading := result.reading
    candidates := result.candidates
    selectedIndex := result.selectedIndex
    pageSize := result.pageSize }

def handleBackendRequest (backend : ImeBackend β) : WorkerIpcRequest → Act β WorkerIpcResponse
  | .snapshot => do
      let s ← observe backend.snapshot
      pure { ok := true, backendStateVersion := s.backendStateVersion, composition := s.composition }
  | .resetSession =>
      answerOrError backend "BACKEND_RESET_FAILED"
        (fun version => { ok := true, backendStateVersion := version }) backend.reset
  | .sendKeyEvent keyEvent maxCandidates =>
      let limit := if maxCandidates = 0 then 9 else maxCandidates
      answerOrError backend "BACKEND_SEND_KEY_FAILED" resultResponse
        (backend.applyKeyEvent keyEvent limit)
  | .queryCandidates inputSnapshot maxCandidates =>
      let limit := if maxCandidates = 0 then 9 else maxCandidates
      answerOrError backend "BACKEND_QUERY_FAILED" resultResponse
        (backend.queryCandidates inputSnapshot limit)
  | .commitSelection committedText candidateIndex =>
      answerOrError backend "BACKEND_COMMIT_FAILED"
        (fun result =>
          { ok := true
            backendStateVersion := result.backendStateVersion
            committedText := result.committedText })
        (backend.commitSelection committedText candidateIndex)

structure WorkerRuntime where
  input : String
  reading : String
  candidates : List Candidate
  lastCommit : String
  backendStateVersion : UInt64
deriving DecidableEq

namespace WorkerRuntime

def new : WorkerRuntime := ⟨"", "", [], "", 1⟩

def reset (r : WorkerRuntime) : UInt64 × WorkerRuntime :=
  let version := r.backendStateVersion + 1
  (version, ⟨"", "", [], "", version⟩)

def fakeCandidates (input : String) (maxCount : Nat) : List Candidate :=
  if input = "" ∨ maxCount = 0 then []
  else
    let templates := [input, input ++ "1", input ++ "2", input ++ "3", input ++ "4"]
    ((templates.destutter (· ≠ ·)).take maxCount).zipIdx.map fun p =>
      ⟨UInt32.ofNat p.2, p.1, "stub"⟩

def toAsciiLowercase (c : Char) : Char := if c.isUpper then Char.ofNat (c.toNat + 32) else c

/-- What a key that goes down does to the input: 0x08 takes the last character
away, a letter, a digit or an apostrophe is appended in lower case. -/
def typeKey (input : String) (virtualKey : UInt32) : String :=
  if virtualKey = 0x08 then String.ofList input.toList.dropLast
  else if 0x20 ≤ virtualKey ∧ virtualKey ≤ 0x7E then
    let ch := toAsciiLowercase (Char.ofNat virtualKey.toNat)
    if ch.isAlphanum ∨ ch.toNat = 39 then input.push ch else input
  else input

def refresh (r : WorkerRuntime) (input : String) (maxCandidates : Nat) : WorkerRuntime :=
  { r with
    input := input
    reading := input
    candidates := fakeCandidates input maxCandidates
    backendStateVersion := r.backendStateVersion + 1 }

def result (r : WorkerRuntime) (maxCandidates : Nat) : BackendResult :=
  ⟨r.input, r.reading, r.candidates, 0, UInt32.ofNat maxCandidates, r.backendStateVersion⟩

def applyKeyEvent (keyEvent : BackendKeyEvent) (maxCandidates : Nat) :
    Act WorkerRuntime (Except String BackendResult) := fun r =>
  let input := if keyEvent.keyDown then typeKey r.input keyEvent.virtualKey else r.input
  let next := r.refresh input maxCandidates
  (.ok (next.result maxCandidates), next)

def queryCandidates (inputSnapshot : String) (maxCandidates : Nat) :
    Act WorkerRuntime (Except String BackendResult) := fun r =>
  let input := if inputSnapshot ≠ "" then inputSnapshot else r.input
  let next := r.refresh input maxCandidates
  (.ok (next.result maxCandidates), next)

def commitSelection (committedText : String) (candidateIndex : Nat) :
    Act WorkerRuntime (Except String CommitResult) := fun r =>
  let committed :=
    if committedText = "" then ((r.candidates[candidateIndex]?).map (·.text)).getD ""
    else committedText
  if committed = "" then (.error "no committed_text and candidate_index is invalid", r)
  else
    let version := r.backendStateVersion + 1
    (.ok ⟨committed, version⟩, ⟨"", "", [], committed, version⟩)

/-- A commit without a text fails before it does anything. -/
theorem commitSelection_cases (committedText : String) (candidateIndex : Nat) (r : WorkerRuntime) :
    (∃ e, commitSelection committedText candidateIndex r = (.error e, r)) ∨
      ∃ committed, commitSelection committedText candidateIndex r =
        (.ok ⟨committed, r.backendStateVersion + 1⟩,
          ⟨"", "", [], committed, r.backendStateVersion + 1⟩) := by
  rw [commitSelection]
  generalize (if committedText = "" then ((r.candidates[candidateIndex]?).map (·.text)).getD ""
    else committedText) = committed
  by_cases hempty : committed = ""
  · exact Or.inl ⟨_, if_pos hempty⟩
  · exact Or.inr ⟨committed, if_neg hempty⟩

def backend : ImeBackend WorkerRuntime where
  snapshot r := ⟨r.input, r.backendStateVersion⟩
  resetForNewSession := reset
  applyKeyEvent := applyKeyEvent
  queryCandidates := queryCandidates
  commitSelection := commitSelection
  reset r := let done := r.reset; (.ok done.1, done.2)

end WorkerRuntime

end RimeWinime.Worker
