import RimeWinime.Lib.Table
import RimeWinime.Remote.Client

namespace RimeWinime.ClientPool

open World Table Client

/-- What the server is asked: to open a session, for which it returns the
remote id, or to destroy one. -/
inductive SessionRpc
  | openSession (client sessionId : Nat) (remoteId : String)
  | destroySession (client sessionId : Nat) (remoteId : String)
deriving DecidableEq

/-- A client object. The stub is gone once the client is shut down. -/
structure PooledClient extends GrpcImeClientV2 where
  stub : Bool

/-- Every client object that was made, in the order in which they were made,
and the pool's entries for them. -/
structure Clients where
  made : List PooledClient
  pool : Map String Nat
  calls : List SessionRpc

def noClients : Clients := ⟨[], ∅, []⟩

def getOrCreate (targetAddress : String) : Act Clients Nat := fun c =>
  match c.pool.lookup targetAddress with
  | some client => (client, c)
  | none =>
      let client := c.made.length
      (client, { c with
        made := c.made ++ [⟨⟨∅, none⟩, true⟩]
        pool := c.pool.insert targetAddress client })

def find (targetAddress : String) (c : Clients) : Option Nat := c.pool.lookup targetAddress

def onClient (client : Nat) (update : PooledClient → PooledClient) : Act Clients Unit :=
  change fun c => { c with made := c.made.modify client update }

def setVModeRegex (client : Nat) (pattern : String) : Act Clients Unit :=
  onClient client fun o => { o with vModeRegex := some pattern }

def mappedAt (c : Clients) (client sessionId : Nat) : Option String :=
  c.made[client]?.bind fun o => o.sessions.lookup sessionId

def hasSession (c : Clients) (client sessionId : Nat) : Bool := (mappedAt c client sessionId).isSome

def rpcMade (call : SessionRpc) : Act Clients Unit :=
  change fun c => { c with calls := c.calls ++ [call] }

/-- `reply` is the session id of an `Ok` response. -/
def openSession (client sessionId : Nat) (reply : Option String) : Act Clients Bool :=
  match reply with
  | none => pure false
  | some remoteId =>
      if remoteId = "" then pure false
      else do
        rpcMade (.openSession client sessionId remoteId)
        onClient client fun o => { o with sessions := o.sessions.insert sessionId remoteId }
        pure true

def destroySession (client sessionId : Nat) : Act Clients Unit := do
  match ← observe fun c => mappedAt c client sessionId with
  | none => pure ()
  | some remoteId => do
      onClient client fun o => { o with sessions := o.sessions.erase sessionId }
      if remoteId ≠ "" then rpcMade (.destroySession client sessionId remoteId)

def shutdown (client : Nat) : Act Clients Unit := fun c =>
  match c.made[client]? with
  | none => ((), c)
  | some o =>
      if o.stub then
        ((), { c with
          made := c.made.modify client fun o => { o with sessions := ∅, stub := false }
          calls := c.calls ++
            o.sessions.entries.map fun entry => .destroySession client entry.1 entry.2 })
      else ((), c)

def shutdownEach : List Nat → Act Clients Unit
  | [] => pure ()
  | client :: rest => do
      shutdown client
      shutdownEach rest

def shutdownAll : Act Clients Unit := do
  let pooled ← observe fun c : Clients => values c.pool
  shutdownEach pooled
  change fun c => { c with pool := ∅ }

/-- Every entry of the pool is a client that was made. -/
def Pooled (c : Clients) : Prop :=
  ∀ targetAddress client, c.pool.lookup targetAddress = some client → client < c.made.length

/-- No two addresses have the same client. -/
structure OneEach (c : Clients) : Prop where
  pooled : Pooled c
  distinct : ∀ address address' client, c.pool.lookup address = some client →
    c.pool.lookup address' = some client → address = address'

section

variable {c : Clients} {client sessionId : Nat} {targetAddress : String}

theorem getOrCreate_found (h : find targetAddress c = some client) :
    getOrCreate targetAddress c = (client, c) := by
  rw [find] at h
  rw [getOrCreate, h]

theorem getOrCreate_fresh (h : find targetAddress c = none) :
    (getOrCreate targetAddress c).1 = c.made.length := by
  rw [find] at h
  rw [getOrCreate, h]

theorem mappedAt_getOrCreate (targetAddress : String) (c : Clients) (client sessionId : Nat) :
    mappedAt (getOrCreate targetAddress c).2 client sessionId = mappedAt c client sessionId := by
  rw [getOrCreate]
  split
  · rfl
  · simp only [mappedAt]
    by_cases hlt : client < c.made.length
    · rw [List.getElem?_append_left hlt]
    · rw [List.getElem?_eq_none (Nat.le_of_not_lt hlt)]
      rw [List.getElem?_append_right (Nat.le_of_not_lt hlt)]
      cases client - c.made.length <;> rfl

theorem getOrCreate_calls (targetAddress : String) (c : Clients) :
    (getOrCreate targetAddress c).2.calls = c.calls := by
  rw [getOrCreate]
  split <;> rfl

theorem getOrCreate_lt (h : Pooled c) (targetAddress : String) :
    (getOrCreate targetAddress c).1 < (getOrCreate targetAddress c).2.made.length := by
  rw [getOrCreate]
  split
  · next client hfound => exact h targetAddress client hfound
  · simp

theorem getOrCreate_length (targetAddress : String) (c : Clients) :
    c.made.length ≤ (getOrCreate targetAddress c).2.made.length := by
  rw [getOrCreate]
  split
  · exact Nat.le_refl _
  · simp

theorem pooled_getOrCreate (h : Pooled c) (targetAddress : String) :
    Pooled (getOrCreate targetAddress c).2 := by
  intro address client hfound
  rw [getOrCreate] at hfound ⊢
  split at hfound
  · exact h address client hfound
  · simp only [lookup_insert_eq] at hfound
    rw [List.length_append, List.length_singleton]
    split at hfound
    · cases hfound
      omega
    · have := h address client hfound
      omega

theorem getOrCreate_lookup (c : Clients) (address address' : String) :
    (getOrCreate address c).2.pool.lookup address' =
      if address' = address then some (getOrCreate address c).1 else c.pool.lookup address' := by
  rw [getOrCreate]
  split
  · next client hfound =>
    split
    · next heq => rw [heq, hfound]
    · rfl
  · exact lookup_insert_eq c.pool address' address c.made.length

theorem getOrCreate_own (c : Clients) (address : String) :
    (getOrCreate address c).2.pool.lookup address = some (getOrCreate address c).1 := by
  rw [getOrCreate_lookup, if_pos rfl]

theorem getOrCreate_kept (c : Clients) (address address' : String) (client : Nat)
    (h : c.pool.lookup address' = some client) :
    (getOrCreate address c).2.pool.lookup address' = some client := by
  rw [getOrCreate]
  split
  · exact h
  · next hnone =>
    rw [lookup_insert_eq, if_neg, h]
    rintro rfl
    rw [hnone] at h
    cases h

theorem oneEach_getOrCreate (h : OneEach c) (address : String) :
    OneEach (getOrCreate address c).2 := by
  refine ⟨pooled_getOrCreate h.pooled address, ?_⟩
  -- the client of the address is its own, or younger than all others
  have hown : ∀ other, c.pool.lookup other = some (getOrCreate address c).1 → other = address := by
    intro other hfound
    rw [getOrCreate] at hfound
    split at hfound
    · next client hclient => exact h.distinct other address client hfound hclient
    · have hlt := h.pooled other _ hfound
      exact absurd hlt (Nat.lt_irrefl _)
  intro a b client ha hb
  rw [getOrCreate_lookup] at ha hb
  split at ha <;> split at hb
  · next haddress hbaddress => rw [haddress, hbaddress]
  · next haddress _ =>
    cases ha
    rw [haddress, hown b hb]
  · next _ hbaddress =>
    cases hb
    rw [hbaddress, hown a ha]
  · exact h.distinct a b client ha hb

theorem pooled_onClient (h : Pooled c) (client : Nat) (update : PooledClient → PooledClient) :
    Pooled (onClient client update c).2 := by
  intro address other hfound
  have hlength : (onClient client update c).2.made.length = c.made.length := by
    simp [onClient, List.length_modify]
  rw [hlength]
  exact h address other hfound

theorem oneEach_modify (h : OneEach c) (client : Nat) (update : PooledClient → PooledClient)
    (calls : List SessionRpc) :
    OneEach { c with made := c.made.modify client update, calls := calls } :=
  ⟨pooled_onClient h.pooled client update, h.distinct⟩

theorem mappedAt_kept {update : PooledClient → PooledClient}
    (hkept : ∀ o, (update o).sessions = o.sessions) (c : Clients) (j k sessionId : Nat) :
    mappedAt (onClient j update c).2 k sessionId = mappedAt c k sessionId := by
  simp only [mappedAt, onClient, change_run, List.getElem?_modify]
  cases c.made[k]? with
  | none => rfl
  | some o => by_cases hj : j = k <;> simp [hj, hkept]

theorem mappedAt_openSession {remoteId : String} (hlt : client < c.made.length)
    (hreply : remoteId ≠ "") (sessionId k j : Nat) :
    mappedAt (openSession client sessionId (some remoteId) c).2 k j =
      if k = client ∧ j = sessionId then some remoteId else mappedAt c k j := by
  simp only [openSession, if_neg hreply, mappedAt, onClient, rpcMade, bind_run, change_run,
    pure_run, List.getElem?_modify]
  by_cases hk : client = k
  · subst hk
    rw [List.getElem?_eq_getElem hlt]
    simp [lookup_insert_eq]
  · have hne : ¬(k = client ∧ j = sessionId) := fun h => hk h.1.symm
    rw [if_neg hne]
    simp [hk]

theorem openSession_calls {remoteId : String} (hreply : remoteId ≠ "") :
    (openSession client sessionId (some remoteId) c).2.calls =
      c.calls ++ [.openSession client sessionId remoteId] := by
  simp [openSession, hreply, onClient, rpcMade]

theorem destroySession_unmapped (h : mappedAt c client sessionId = none) :
    destroySession client sessionId c = ((), c) := by
  simp [destroySession, h]

theorem destroySession_mapped {remoteId : String} (h : mappedAt c client sessionId = some remoteId)
    (hne : remoteId ≠ "") :
    (destroySession client sessionId c).2 =
      { c with
        made := c.made.modify client fun o => { o with sessions := o.sessions.erase sessionId }
        calls := c.calls ++ [.destroySession client sessionId remoteId] } := by
  simp [destroySession, h, hne, onClient, rpcMade]

theorem destroySession_calls {remoteId : String} (h : mappedAt c client sessionId = some remoteId)
    (hne : remoteId ≠ "") : (destroySession client sessionId c).2.calls =
      c.calls ++ [.destroySession client sessionId remoteId] := by
  rw [destroySession_mapped h hne]

theorem mappedAt_destroySession {remoteId : String}
    (h : mappedAt c client sessionId = some remoteId) (hne : remoteId ≠ "") (k j : Nat) :
    mappedAt (destroySession client sessionId c).2 k j =
      if k = client ∧ j = sessionId then none else mappedAt c k j := by
  rw [destroySession_mapped h hne]
  simp only [mappedAt, List.getElem?_modify]
  by_cases hk : client = k
  · subst hk
    cases c.made[client]? with
    | none => simp
    | some o => simp [lookup_erase_eq]
  · have hother : ¬(k = client ∧ j = sessionId) := fun h => hk h.1.symm
    rw [if_neg hother]
    simp [hk]

/-- What opening or destroying a session does: the sessions of one client change,
and the calls. -/
inductive SessionsOnly (c : Clients) : Clients → Prop
  | same : SessionsOnly c c
  | changed (client : Nat) (f : Map Nat String → Map Nat String) (calls : List SessionRpc) :
      SessionsOnly c { c with
        made := c.made.modify client fun o => { o with sessions := f o.sessions }
        calls := calls }

theorem openSession_sessionsOnly (client sessionId : Nat) (reply : Option String) (c : Clients) :
    SessionsOnly c (openSession client sessionId reply c).2 := by
  cases reply with
  | none => exact .same
  | some remoteId =>
      rw [openSession]
      split
      · exact .same
      · exact .changed client (fun t => t.insert sessionId remoteId) _

theorem destroySession_sessionsOnly (client sessionId : Nat) (c : Clients) :
    SessionsOnly c (destroySession client sessionId c).2 := by
  cases hmapped : mappedAt c client sessionId with
  | none =>
      rw [destroySession_unmapped hmapped]
      exact .same
  | some remoteId =>
      simp only [destroySession, bind_run, observe_run, hmapped, ite_run]
      split <;> exact .changed client (fun t => t.erase sessionId) _

theorem SessionsOnly.oneEach {c' : Clients} (hsessions : SessionsOnly c c') (h : OneEach c) :
    OneEach c' := by
  cases hsessions with
  | same => exact h
  | changed client f calls => exact oneEach_modify h client _ calls

end

end RimeWinime.ClientPool
