import RimeWinime.Remote.Engines

namespace RimeWinime.Proxy

open World Table ClientPool Engines

variable {α : Type}

/-- `hasLastContext` says whether there is a snapshot of a context, which is not
modelled. -/
structure SessionState where
  isGrpc : Bool := false
  schemaId : String := ""
  backendAddress : String := ""
  lastWasKeyupSkip : Bool := false
  lastProcessKeyAccepted : Bool := false
  hasLastContext : Bool := false
  lastIsComposing : Bool := false
  lastAsciiMode : Bool := false
  pendingCommit : String := ""
deriving DecidableEq

structure GrpcSchemaInfo where
  backendAddress : String
  vModePreeditRegex : String := ""

/-- `sessions` and `grpcSchemas` are the source's `g_sessions` and
`g_grpc_schemas`. -/
structure Callers where
  processors : Processors
  sessions : Map Nat SessionState
  grpcSchemas : Map String GrpcSchemaInfo

def start : Callers := ⟨Engines.start, ∅, ∅⟩

def clients (s : Callers) : Clients := s.processors.clients

def onClients (op : Act Clients α) : Act Callers α := fun s =>
  let r := Engines.onClients op s.processors
  (r.1, { s with processors := r.2 })

def stateOf (s : Callers) (sessionId : Nat) : SessionState :=
  (s.sessions.lookup sessionId).getD {}

def setState (sessionId : Nat) (ss : SessionState) : Act Callers Unit :=
  change fun s => { s with sessions := s.sessions.insert sessionId ss }

def hasVModeRegex (c : Clients) (client : Nat) : Bool :=
  (c.made[client]?.bind fun o => o.vModeRegex).isSome

def tearDown (sessionId : Nat) (ss : SessionState) : Act Clients Unit := do
  if ss.isGrpc && ss.backendAddress ≠ "" then
    match ← observe (find ss.backendAddress) with
    | some client => destroySession client sessionId
    | none => pure ()

def schemaClient (info : GrpcSchemaInfo) : Act Clients Nat := do
  let client ← getOrCreate info.backendAddress
  let hasRegex ← observe fun c => hasVModeRegex c client
  if info.vModePreeditRegex ≠ "" && !hasRegex then setVModeRegex client info.vModePreeditRegex
  pure client

def afterChange (ss : SessionState) (schemaId : String) : SessionState :=
  { ss with
    schemaId := schemaId
    isGrpc := false
    backendAddress := ""
    lastWasKeyupSkip := false
    lastProcessKeyAccepted := false
    hasLastContext := false
    lastIsComposing := false }

def ensureSession (sessionId : Nat) (curSchema : String) (reply : Option String) :
    Act Callers Unit := do
  let ss ← observe fun s => stateOf s sessionId
  if curSchema = ss.schemaId then setState sessionId ss
  else do
    onClients (tearDown sessionId ss)
    let ss := afterChange ss curSchema
    match ← observe fun s : Callers => s.grpcSchemas.lookup curSchema with
    | none => setState sessionId ss
    | some info => do
        let client ← onClients (schemaClient info)
        if ← onClients (openSession client sessionId reply) then
          setState sessionId { ss with isGrpc := true, backendAddress := info.backendAddress }
        else setState sessionId ss

/-- `schemas` are the schemas with a backend address, in the order of the list. -/
def rimeGrpcProxyV2Initialize (schemas : List (String × GrpcSchemaInfo)) : Act Callers Unit :=
  change fun s => { s with
    sessions := ∅
    grpcSchemas := schemas.foldl (fun t schema => t.insert schema.1 schema.2) ∅ }

def rimeGrpcProxyV2Finalize : Act Callers Unit := do
  onClients shutdownAll
  change fun s => { s with sessions := ∅ }

def rimeRemoteFinalize : Act Callers Unit := onClients shutdownAll

inductive Event
  | processor (e : Engines.Event)
  | ensureSession (sessionId : Nat) (curSchema : String) (reply : Option String)
  | rimeGrpcProxyV2Initialize (schemas : List (String × GrpcSchemaInfo))
  | rimeGrpcProxyV2Finalize
  | rimeRemoteFinalize

def step (s : Callers) : Event → Callers
  | .processor e => { s with processors := Engines.step s.processors e }
  | .ensureSession sessionId curSchema reply => (ensureSession sessionId curSchema reply s).2
  | .rimeGrpcProxyV2Initialize schemas => (rimeGrpcProxyV2Initialize schemas s).2
  | .rimeGrpcProxyV2Finalize => (rimeGrpcProxyV2Finalize s).2
  | .rimeRemoteFinalize => (rimeRemoteFinalize s).2

end RimeWinime.Proxy
