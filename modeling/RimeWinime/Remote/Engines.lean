import RimeWinime.Remote.ClientPool

namespace RimeWinime.Engines

open World Table Client ClientPool

variable {α : Type}

/-- What a constructor reads from the schema of its engine. -/
structure RemoteConfig where
  backendAddress : String := "127.0.0.1:50051"
  vModePreeditRegex : String := ""
deriving DecidableEq

/-- An instance with its shared state. The engine's address is the local
session id. -/
structure RemoteProcessor where
  id : Nat
  engine : Nat
  config : RemoteConfig
  client : Nat
  grpcSessionOpen : Bool
deriving DecidableEq

/-- `registry` says whose state `RemoteStateRegistry::Get` returns; `alive` is
in the order of construction. -/
structure Processors where
  clients : Clients
  registry : Map Nat Nat
  alive : List RemoteProcessor
  made : Nat

def start : Processors := ⟨noClients, ∅, [], 0⟩

def onClients (op : Act Clients α) : Act Processors α := fun s =>
  let r := op s.clients
  (r.1, { s with clients := r.2 })

def attach (config : RemoteConfig) : Act Clients Nat := do
  let client ← getOrCreate config.backendAddress
  if config.vModePreeditRegex ≠ "" then setVModeRegex client config.vModePreeditRegex
  pure client

def pairSession (client engine : Nat) (reply : Option String) : Act Clients Bool := do
  if ← observe fun c => hasSession c client engine then pure true
  else openSession client engine reply

def construct (engine : Nat) (config : RemoteConfig) (reply : Option String) : Act Processors Unit := do
  let client ← onClients (attach config)
  let grpcSessionOpen ← onClients (pairSession client engine reply)
  change fun s => { s with
    registry := s.registry.insert engine s.made
    alive := s.alive ++ [⟨s.made, engine, config, client, grpcSessionOpen⟩]
    made := s.made + 1 }

def destroy (p : RemoteProcessor) : Act Processors Unit := do
  change fun s => { s with registry := s.registry.erase p.engine }
  if p.grpcSessionOpen then onClients (destroySession p.client p.engine)
  change fun s => { s with alive := s.alive.filter (·.id ≠ p.id) }

theorem pairSession_sessionsOnly (client engine : Nat) (reply : Option String) (c : Clients) :
    SessionsOnly c (pairSession client engine reply c).2 := by
  rw [pairSession, bind_run, observe_run, ite_run]
  split
  · exact .same
  · exact openSession_sessionsOnly client engine reply c

inductive Event
  | construct (engine : Nat) (config : RemoteConfig) (reply : Option String)
  | destroy (id : Nat)

def step (s : Processors) : Event → Processors
  | .construct engine config reply => (construct engine config reply s).2
  | .destroy id =>
      match s.alive.find? (·.id = id) with
      | none => s
      | some p => (destroy p s).2

/-- What the clients hold is the same, as far as sessions go. -/
structure SameSessions (c c' : Clients) : Prop where
  pooled : Pooled c → Pooled c'
  length : c.made.length ≤ c'.made.length
  mapped : ∀ k j, mappedAt c' k j = mappedAt c k j
  calls : c'.calls = c.calls

theorem SameSessions.refl (c : Clients) : SameSessions c c :=
  ⟨id, Nat.le_refl _, fun _ _ => rfl, rfl⟩

theorem SameSessions.trans {a b c : Clients} (hab : SameSessions a b) (hbc : SameSessions b c) :
    SameSessions a c :=
  ⟨fun h => hbc.pooled (hab.pooled h), Nat.le_trans hab.length hbc.length,
    fun k j => (hbc.mapped k j).trans (hab.mapped k j), hbc.calls.trans hab.calls⟩

theorem sameSessions_getOrCreate (targetAddress : String) (c : Clients) :
    SameSessions c (getOrCreate targetAddress c).2 :=
  ⟨fun h => pooled_getOrCreate h targetAddress, getOrCreate_length targetAddress c,
    mappedAt_getOrCreate targetAddress c, getOrCreate_calls targetAddress c⟩

theorem sameSessions_setVModeRegex (client : Nat) (pattern : String) (c : Clients) :
    SameSessions c (setVModeRegex client pattern c).2 := by
  refine ⟨fun h => pooled_onClient h client _, ?_, fun k j => ?_, rfl⟩
  · simp [setVModeRegex, onClient]
  · apply mappedAt_kept
    intro o
    rfl

theorem sameSessions_setIf (p : Prop) [Decidable p] (client : Nat) (pattern : String) (c : Clients) :
    SameSessions c (if p then (setVModeRegex client pattern c).2 else c) := by
  split
  · exact sameSessions_setVModeRegex client pattern c
  · exact SameSessions.refl c

theorem oneEach_setIf {c : Clients} (h : OneEach c) (p : Prop) [Decidable p] (client : Nat)
    (pattern : String) : OneEach (if p then (setVModeRegex client pattern c).2 else c) := by
  split
  · exact oneEach_modify h client _ _
  · exact h

theorem attach_run (config : RemoteConfig) (c : Clients) :
    attach config c = ((getOrCreate config.backendAddress c).1,
      if config.vModePreeditRegex ≠ "" then
        (setVModeRegex (getOrCreate config.backendAddress c).1 config.vModePreeditRegex
          (getOrCreate config.backendAddress c).2).2
      else (getOrCreate config.backendAddress c).2) := by
  by_cases hp : config.vModePreeditRegex = "" <;> simp [attach, hp]

theorem sameSessions_attach (config : RemoteConfig) (c : Clients) :
    SameSessions c (attach config c).2 := by
  rw [attach_run]
  exact (sameSessions_getOrCreate config.backendAddress c).trans (sameSessions_setIf _ _ _ _)

theorem oneEach_attach {c : Clients} (h : OneEach c) (config : RemoteConfig) :
    OneEach (attach config c).2 := by
  rw [attach_run]
  exact oneEach_setIf (oneEach_getOrCreate h config.backendAddress) _ _ _

theorem attach_lt {c : Clients} (h : Pooled c) (config : RemoteConfig) :
    (attach config c).1 < (attach config c).2.made.length := by
  have hlt := getOrCreate_lt h config.backendAddress
  rw [attach_run]
  split
  · simpa [setVModeRegex, onClient] using hlt
  · exact hlt

/-- What a construction does when the server answers an `OpenSession`: the new
instance is registered, and the client has a session for its engine, the one
it had or the one that the server has opened. -/
structure Constructed (s s' : Processors) (engine : Nat) (config : RemoteConfig) (remoteId : String)
    (client : Nat) : Prop where
  pooled : Pooled s'.clients
  bound : client < s'.clients.made.length
  length : s.clients.made.length ≤ s'.clients.made.length
  registry : s'.registry = s.registry.insert engine s.made
  alive : s'.alive = s.alive ++ [⟨s.made, engine, config, client, true⟩]
  made : s'.made = s.made + 1
  sessions :
    ((mappedAt s.clients client engine).isSome ∧
        (∀ k j, mappedAt s'.clients k j = mappedAt s.clients k j) ∧
        s'.clients.calls = s.clients.calls) ∨
      (mappedAt s.clients client engine = none ∧
        (∀ k j, mappedAt s'.clients k j =
          if k = client ∧ j = engine then some remoteId else mappedAt s.clients k j) ∧
        s'.clients.calls = s.clients.calls ++ [.openSession client engine remoteId])

theorem constructed {s : Processors} (h : Pooled s.clients) (engine : Nat) (config : RemoteConfig)
    {remoteId : String} (hreply : remoteId ≠ "") :
    Constructed s (step s (.construct engine config (some remoteId))) engine config remoteId
      (attach config s.clients).1 := by
  have hsame := sameSessions_attach config s.clients
  have hlt := attach_lt h config
  have hpooled := hsame.pooled h
  generalize hattached : attach config s.clients = r at hsame hlt hpooled
  obtain ⟨client, c⟩ := r
  cases hmapped : mappedAt c client engine with
  | some remoteId' =>
      have hrun : step s (.construct engine config (some remoteId)) =
          { clients := c
            registry := s.registry.insert engine s.made
            alive := s.alive ++ [⟨s.made, engine, config, client, true⟩]
            made := s.made + 1 } := by
        simp [step, construct, onClients, hattached, pairSession, hasSession, hmapped]
      rw [hrun]
      refine ⟨hpooled, hlt, hsame.length, rfl, rfl, rfl, Or.inl ⟨?_, hsame.mapped, hsame.calls⟩⟩
      rw [← hsame.mapped, hmapped]
      rfl
  | none =>
      have hrun : step s (.construct engine config (some remoteId)) =
          { clients := (openSession client engine (some remoteId) c).2
            registry := s.registry.insert engine s.made
            alive := s.alive ++ [⟨s.made, engine, config, client, true⟩]
            made := s.made + 1 } := by
        simp [step, construct, onClients, hattached, pairSession, hasSession, hmapped, openSession,
          hreply]
      have hlength : (openSession client engine (some remoteId) c).2.made.length = c.made.length := by
        simp [openSession, hreply, onClient, rpcMade]
      have hpool : (openSession client engine (some remoteId) c).2.pool = c.pool := by
        simp [openSession, hreply, onClient, rpcMade]
      rw [hrun]
      refine ⟨?_, ?_, ?_, rfl, rfl, rfl, Or.inr ⟨?_, fun k j => ?_, ?_⟩⟩
      · intro address other hfound
        rw [hlength]
        exact hpooled address other (hpool ▸ hfound)
      · rw [hlength]
        exact hlt
      · rw [hlength]
        exact hsame.length
      · rw [← hsame.mapped]
        exact hmapped
      · rw [mappedAt_openSession hlt hreply, hsame.mapped]
      · rw [openSession_calls hreply, hsame.calls]

end RimeWinime.Engines
