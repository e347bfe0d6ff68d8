import RimeWinime.Gateway.Worker

namespace RimeWinime.Backends

open World Worker

variable {N E α β : Type}

/-- The socket of the legacy host. `connect` covers the options set on it. -/
structure LegacyHost (N : Type) where
  connect : Act N (Except String Unit)
  writeLine : String → Act N (Except String Unit)
  readLine : Act N (Except String (Option String))

structure LegacyTcpRuntime where
  codepage : Int
  command : String
  connected : Bool := false
  activated : Bool := false
  input : String := ""
  composition : String := ""
  reading : String := ""
  candidates : List Candidate := []
  lastCommit : String := ""
  backendStateVersion : UInt64 := 1
deriving DecidableEq

def isWhitespace (c : Char) : Bool :=
  (9 ≤ c.toNat && c.toNat ≤ 13) || (0x2000 ≤ c.toNat && c.toNat ≤ 0x200A) ||
    [0x20, 0x85, 0xA0, 0x1680, 0x2028, 0x2029, 0x202F, 0x205F, 0x3000].contains c.toNat

def afterFirst (pattern : List Char) : List Char → Option (List Char)
  | [] => if pattern = [] then some [] else none
  | c :: rest =>
      if pattern.isPrefixOf (c :: rest) then some ((c :: rest).drop pattern.length)
      else afterFirst pattern rest

def extractBetween (text opening : String) (endChar : Char) : Option String := do
  let rest ← afterFirst opening.toList text.toList
  if endChar ∈ rest then some (String.ofList (rest.takeWhile (· ≠ endChar))) else none

def firstWord (text : List Char) : Option String :=
  let word := (text.dropWhile isWhitespace).takeWhile fun c => !isWhitespace c
  if word = [] then none else some (String.ofList word)

def legacyCandidates (rawItems : String) (maxCandidates : Nat) : List Candidate :=
  let items := (rawItems.toList.splitOn '|').map String.ofList
  let kept := (items.filter fun item => item ≠ "" && item ≠ "...").take maxCandidates
  kept.zipIdx.map fun p => ⟨UInt32.ofNat p.2, p.1, "legacy"⟩

def parseCandidateReply (line : String) (maxCandidates : Nat) :
    Except String (String × String × List Candidate) :=
  if !line.startsWith "CAND_RET " then .error ("unexpected reply: " ++ line)
  else
    match afterFirst "err=".toList line.toList with
    | some rest => .error ("legacy host returned error: " ++ (firstWord rest).getD "unknown")
    | none =>
        let composition := (extractBetween line "comp=[" ']').getD ""
        let reading := (extractBetween line "read=[" ']').getD ""
        let rawItems := (extractBetween line "items=[" ']').getD ""
        .ok (composition, reading, legacyCandidates rawItems maxCandidates)

namespace LegacyTcpRuntime

abbrev Legacy (N : Type) := LegacyTcpRuntime × N

def onHost (op : Act N α) : Act (Legacy N) α := fun s =>
  let r := op s.2
  (r.1, s.1, r.2)

def update (f : LegacyTcpRuntime → LegacyTcpRuntime) : Act (Legacy N) Unit :=
  change fun s => (f s.1, s.2)

def clearLocalState (r : LegacyTcpRuntime) : LegacyTcpRuntime :=
  { r with input := "", composition := "", reading := "", candidates := [], lastCommit := "" }

def resetConnection (r : LegacyTcpRuntime) : LegacyTcpRuntime :=
  { r with connected := false, activated := false }

/-- `self.backend_state_version += 1`. -/
def bump (r : LegacyTcpRuntime) : LegacyTcpRuntime :=
  { r with backendStateVersion := r.backendStateVersion + 1 }

section

variable (host : LegacyHost N)

def connectIfNeeded : Act (Legacy N) (Except String Unit) := do
  let connected ← observe (·.1.connected)
  if connected then pure (.ok ())
  else andThen (onHost host.connect) fun _ => do
    update fun r => { r with connected := true, activated := false }
    pure (.ok ())

def receive (command expected : String) : Nat → String → Act (Legacy N) (Except String String)
  | 0, last =>
      pure (.error (String.join ["unexpected response for command '", command, "', last='", last, "'"]))
  | turns + 1, last =>
      andThen (onHost host.readLine) fun line =>
        match line with
        | none => pure (.error "legacy host closed connection")
        | some line =>
            if line = "" ∨ line.startsWith "HELLO " then receive command expected turns last
            else if expected = "" ∨ line.startsWith expected then pure (.ok line)
            else receive command expected turns line

def sendCommandRaw (command expected : String) : Act (Legacy N) (Except String String) := do
  let connected ← observe (·.1.connected)
  if connected then
    andThen (onHost (host.writeLine command)) fun _ => receive host command expected 16 ""
  else pure (.error "legacy stream not connected")

def ensureReady : Act (Legacy N) (Except String Unit) :=
  andThen (connectIfNeeded host) fun _ => do
    let activated ← observe (·.1.activated)
    if activated then pure (.ok ())
    else
      andThen (sendCommandRaw host "ACTIVATE" "OK ACTIVATE") fun _ => do
        let codepage ← observe (·.1.codepage)
        andThen (sendCommandRaw host ("CP " ++ toString codepage) "OK CP") fun _ => do
          update fun r => { r with activated := true }
          pure (.ok ())

/-- Two attempts, each on a connection of its own when the one before it failed. -/
def sendAttempts (command expected : String) : Nat → String → Act (Legacy N) (Except String String)
  | 0, lastError => pure (.error lastError)
  | turns + 1, _ => do
      match ← ensureReady host with
      | .error e => do
          update resetConnection
          sendAttempts command expected turns e
      | .ok () =>
          match ← sendCommandRaw host command expected with
          | .ok line => pure (.ok line)
          | .error e => do
              update resetConnection
              sendAttempts command expected turns e

def sendCommand (command expected : String) : Act (Legacy N) (Except String String) :=
  sendAttempts host command expected 2 "unknown error"

def queryLoop (maxCandidates : Nat) : List String → String × String × List Candidate →
    Act (Legacy N) (Except String (String × String × List Candidate))
  | [], last => pure (.ok last)
  | cmd :: rest, (lastComp, lastRead, _) => do
      let input ← observe (·.1.input)
      andThen (sendCommand host (cmd ++ " " ++ input) "CAND_RET ") fun line =>
        match parseCandidateReply line maxCandidates with
        | .error e => pure (.error e)
        | .ok (comp, read, candidates) =>
            let lastComp := if comp ≠ "" then comp else lastComp
            let lastRead := if read ≠ "" then read else lastRead
            if candidates ≠ [] then pure (.ok (lastComp, lastRead, candidates))
            else queryLoop maxCandidates rest (lastComp, lastRead, candidates)

def queryRemoteUpdate (maxCandidates : Nat) : Act (Legacy N) (Except String Unit) := do
  let input ← observe (·.1.input)
  if input = "" then do
    update fun r => { r with composition := "", reading := "", candidates := [] }
    pure (.ok ())
  else do
    let command ← observe (·.1.command)
    let commands := [command, "CAND", "KEYTEXTU", "TEXTU"].destutter (· ≠ ·)
    andThen (queryLoop host maxCandidates commands (input, input, [])) fun last => do
      update fun r => { r with composition := last.1, reading := last.2.1, candidates := last.2.2 }
      pure (.ok ())

/-- `RESET` is sent when the host can be reached, whatever it answers. -/
def resetRemote : Act (Legacy N) Unit := do
  match ← ensureReady host with
  | .ok () => do
      let _ ← sendCommand host "RESET" "OK RESET"
  | .error _ => pure ()

def resetForNewSession : Act (Legacy N) UInt64 := do
  update bump
  update clearLocalState
  resetRemote host
  observe (·.1.backendStateVersion)

def result (r : LegacyTcpRuntime) (maxCandidates : Nat) : BackendResult :=
  ⟨r.composition, r.reading, r.candidates, 0, UInt32.ofNat maxCandidates, r.backendStateVersion⟩

def applyKeyEvent (keyEvent : BackendKeyEvent) (maxCandidates : Nat) :
    Act (Legacy N) (Except String BackendResult) := do
  update bump
  update fun r =>
    if keyEvent.keyDown then
      { r with input := WorkerRuntime.typeKey r.input keyEvent.virtualKey }
    else r
  andThen (queryRemoteUpdate host maxCandidates) fun _ => do
    let r ← observe (·.1)
    pure (.ok (r.result maxCandidates))

def queryCandidates (inputSnapshot : String) (maxCandidates : Nat) :
    Act (Legacy N) (Except String BackendResult) := do
  update bump
  update fun r => if inputSnapshot ≠ "" then { r with input := inputSnapshot } else r
  andThen (queryRemoteUpdate host maxCandidates) fun _ => do
    let r ← observe (·.1)
    pure (.ok (r.result maxCandidates))

def commitSelection (committedText : String) (candidateIndex : Nat) :
    Act (Legacy N) (Except String CommitResult) := do
  let candidates ← observe (·.1.candidates)
  let committed :=
    if committedText = "" then ((candidates[candidateIndex]?).map (·.text)).getD ""
    else committedText
  if committed = "" then pure (.error "no committed_text and candidate_index is invalid")
  else do
    update bump
    update fun r => clearLocalState { r with lastCommit := committed }
    resetRemote host
    let version ← observe (·.1.backendStateVersion)
    pure (.ok ⟨committed, version⟩)

def backend : ImeBackend (Legacy N) where
  snapshot s := ⟨s.1.composition, s.1.backendStateVersion⟩
  resetForNewSession := resetForNewSession host
  applyKeyEvent := applyKeyEvent host
  queryCandidates := queryCandidates host
  commitSelection := commitSelection host
  reset := do
    let version ← resetForNewSession host
    pure (.ok version)

end

end LegacyTcpRuntime

/-- What one reading of the input context gives. -/
structure ImmRead where
  comp : String
  reading : String
  candidates : List Candidate
  selectedIndex : UInt32
  pageSize : UInt32

/-- The calls into the IMM and the IME. None of them sees the backend's fields. -/
structure Imm (E : Type) where
  activate : Act E Unit
  driveKey : BackendKeyEvent → Act E Unit
  available : Act E Bool
  read : Nat → Act E (Except String ImmRead)

structure WinImmBackend where
  composition : String := ""
  reading : String := ""
  candidates : List Candidate := []
  backendStateVersion : UInt64 := 1
  forceRealImm : Bool
deriving DecidableEq

namespace WinImmBackend

abbrev WinImm (E : Type) := WinImmBackend × E

def onImm (op : Act E α) : Act (WinImm E) α := fun s =>
  let r := op s.2
  (r.1, s.1, r.2)

def update (f : WinImmBackend → WinImmBackend) : Act (WinImm E) Unit :=
  change fun s => (f s.1, s.2)

def bump (b : WinImmBackend) : WinImmBackend :=
  { b with backendStateVersion := b.backendStateVersion + 1 }

def clearLocalState (b : WinImmBackend) : WinImmBackend :=
  { b with composition := "", reading := "", candidates := [] }

def fakeCandidates (input : String) (maxCount : Nat) : List Candidate :=
  (WorkerRuntime.fakeCandidates input maxCount).map fun c => { c with comment := "win_imm-min" }

def refreshFallbackCandidates (maxCandidates : Nat) (b : WinImmBackend) : WinImmBackend :=
  { b with reading := b.composition, candidates := fakeCandidates b.composition maxCandidates }

def takeRead (r : ImmRead) (b : WinImmBackend) : WinImmBackend :=
  let composition := if r.comp ≠ "" then r.comp else b.composition
  { b with
    composition := composition
    reading := if r.reading = "" then composition else r.reading
    candidates := r.candidates }

/-- The key code of a key, or its source code when it has none. -/
def keyCode (keyEvent : BackendKeyEvent) : UInt32 :=
  if keyEvent.virtualKey = 0 ∧ keyEvent.sourceKeycode ≤ 0xFF then keyEvent.sourceKeycode
  else keyEvent.virtualKey

def applyKeyToBuffer (keyEvent : BackendKeyEvent) (b : WinImmBackend) : WinImmBackend :=
  if keyEvent.keyDown then
    { b with composition := WorkerRuntime.typeKey b.composition (keyCode keyEvent) }
  else b

section

variable (imm : Imm E)

def refreshFromImm (maxCandidates : Nat) : Act (WinImm E) (Except String (UInt32 × UInt32)) := do
  match ← onImm (imm.read maxCandidates) with
  | .error e => pure (.error e)
  | .ok r => do
      update (takeRead r)
      pure (.ok (r.selectedIndex, r.pageSize))

/-- Candidates made up from the composition, unless only real ones will do. -/
def fallBack (max : Nat) (refusal : String) : Act (WinImm E) (Except String (UInt32 × UInt32)) := do
  let forceRealImm ← observe (·.1.forceRealImm)
  if forceRealImm then pure (.error refusal)
  else do
    update (refreshFallbackCandidates max)
    pure (.ok (0, UInt32.ofNat max))

/-- The candidates of a key event or of a query, which differ where the IMM has
a composition but no candidates and only real ones will do: there `unlisted` is
the answer. -/
def refreshCandidates (max : Nat)
    (unlisted : UInt32 × UInt32 → Except String (UInt32 × UInt32)) :
    Act (WinImm E) (Except String (UInt32 × UInt32)) := do
  if ← onImm imm.available then
    match ← refreshFromImm imm max with
    | .error e => fallBack max ("IMM_REAL_REQUIRED: " ++ e)
    | .ok (selected, size) => do
        let b ← observe (·.1)
        let page := (selected, if 0 < size then size else UInt32.ofNat max)
        if b.candidates = [] ∧ b.composition ≠ "" then
          if b.forceRealImm then pure (unlisted page)
          else do
            update (refreshFallbackCandidates max)
            pure (.ok (0, UInt32.ofNat max))
        else pure (.ok page)
  else fallBack max "IMM_REAL_REQUIRED: runtime context unavailable"

def finish (page : Except String (UInt32 × UInt32)) : Act (WinImm E) (Except String BackendResult) :=
  match page with
  | .error e => pure (.error e)
  | .ok (selected, size) => do
      let b ← observe (·.1)
      pure (.ok ⟨b.composition, b.reading, b.candidates, selected, size, b.backendStateVersion⟩)

def resetForNewSession : Act (WinImm E) UInt64 := do
  update bump
  update clearLocalState
  onImm imm.activate
  observe (·.1.backendStateVersion)

def applyKeyEvent (keyEvent : BackendKeyEvent) (maxCandidates : Nat) :
    Act (WinImm E) (Except String BackendResult) := do
  update bump
  let max := if maxCandidates = 0 then 9 else maxCandidates
  onImm (imm.driveKey keyEvent)
  update (applyKeyToBuffer keyEvent)
  let page ← refreshCandidates imm max .ok
  finish page

def queryCandidates (inputSnapshot : String) (maxCandidates : Nat) :
    Act (WinImm E) (Except String BackendResult) := do
  update bump
  update fun b => if inputSnapshot ≠ "" then { b with composition := inputSnapshot } else b
  let max := if maxCandidates = 0 then 9 else maxCandidates
  let page ← refreshCandidates imm max fun _ =>
    .error "IMM_REAL_REQUIRED: no candidate list returned from IMM"
  finish page

def commitSelection (committedText : String) (candidateIndex : Nat) :
    Act (WinImm E) (Except String CommitResult) := do
  update bump
  let b ← observe (·.1)
  let committed :=
    if committedText = "" then ((b.candidates[candidateIndex]?).map (·.text)).getD ""
    else committedText
  if committed = "" then pure (.error "no committed_text and candidate_index is invalid")
  else do
    update clearLocalState
    pure (.ok ⟨committed, b.backendStateVersion⟩)

def backend : ImeBackend (WinImm E) where
  snapshot s := ⟨s.1.composition, s.1.backendStateVersion⟩
  resetForNewSession := resetForNewSession imm
  applyKeyEvent := applyKeyEvent imm
  queryCandidates := queryCandidates imm
  commitSelection := commitSelection
  reset := do
    let version ← resetForNewSession imm
    pure (.ok version)

end

/-- What stands in for the backend in a build that is not for Windows. -/
def standIn : ImeBackend Unit :=
  let notReady := "win_imm backend requires Windows runtime; current build is non-windows"
  { snapshot := fun _ => ⟨"", 0⟩
    resetForNewSession := pure 0
    applyKeyEvent := fun _ _ => pure (.error notReady)
    queryCandidates := fun _ _ => pure (.error notReady)
    commitSelection := fun _ _ => pure (.error notReady)
    reset := pure (.ok 0) }

end WinImmBackend

inductive WorkerBackendRuntime (N E : Type)
  | stub (runtime : WorkerRuntime)
  | legacyTcp (runtime : LegacyTcpRuntime.Legacy N)
  | winImm (runtime : WinImmBackend.WinImm E)
  | winImmStandIn

namespace WorkerBackendRuntime

def within (wrap : β → WorkerBackendRuntime N E) (op : Act β α) (runtime : β) :
    α × WorkerBackendRuntime N E :=
  let r := op runtime
  (r.1, wrap r.2)

variable (host : LegacyHost N) (imm : Imm E)

def dispatch (op : {β : Type} → ImeBackend β → Act β α) : Act (WorkerBackendRuntime N E) α
  | .stub runtime => within .stub (op WorkerRuntime.backend) runtime
  | .legacyTcp runtime => within .legacyTcp (op (LegacyTcpRuntime.backend host)) runtime
  | .winImm runtime => within .winImm (op (WinImmBackend.backend imm)) runtime
  | .winImmStandIn => within (fun _ => .winImmStandIn) (op WinImmBackend.standIn) ()

def snapshot (runtime : WorkerBackendRuntime N E) : Snapshot :=
  (dispatch host imm (fun backend => observe backend.snapshot) runtime).1

def resetForNewSession : Act (WorkerBackendRuntime N E) UInt64 :=
  dispatch host imm fun backend => backend.resetForNewSession

def handleRequest (req : WorkerIpcRequest) : Act (WorkerBackendRuntime N E) WorkerIpcResponse :=
  dispatch host imm fun backend => handleBackendRequest backend req

end WorkerBackendRuntime

end RimeWinime.Backends
