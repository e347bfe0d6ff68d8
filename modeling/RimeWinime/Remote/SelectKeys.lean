import RimeWinime.Lib.Run
import RimeWinime.Remote.SharedState
import RimeWinime.Remote.Engines

namespace RimeWinime.SelectKeys

open World Table Run Proto Client SharedState ClientPool Engines

def keysOf (context : Except DecodeFault (Option RemoteContext)) : Option String :=
  context.toOption.bind fun context => context.map (·.selectKeys)

def computedKeys (search : RegexSearch) (s : Processors) (p : RemoteProcessor)
    (proto : RimeContextProto) : Option String := do
  let o ← s.clients.made[p.client]?
  keysOf (decodeContext search o.toGrpcImeClientV2 proto)

def patternSet (address : String) : Event → Option String
  | .construct _ config _ =>
      if config.backendAddress = address ∧ config.vModePreeditRegex ≠ "" then
        some config.vModePreeditRegex
      else none
  | .destroy _ => none

/-- The pattern of the last construction that has set one for the address. -/
def lastPattern (address : String) (events : List Event) : Option String :=
  (events.filterMap (patternSet address)).getLast?

/-- Both set no pattern, or their patterns are found in the same preedits. -/
def SameMatches (search : RegexSearch) : Option String → Option String → Prop
  | none, none => True
  | some a, some b => ∀ preedit, preedit ≠ "" → search a preedit = search b preedit
  | _, _ => False

section

variable {search : RegexSearch} {a b : GrpcImeClientV2}

theorem matchesVMode_congr (h : SameMatches search a.vModeRegex b.vModeRegex) {preedit : String}
    (hne : preedit ≠ "") : matchesVMode search a preedit = matchesVMode search b preedit := by
  rw [matchesVMode, matchesVMode]
  cases ha : a.vModeRegex <;> cases hb : b.vModeRegex <;> rw [ha, hb] at h
  · exact h.elim
  · exact h.elim
  · exact h preedit hne

theorem isSome_congr (h : SameMatches search a.vModeRegex b.vModeRegex) :
    a.vModeRegex.isSome = b.vModeRegex.isSome := by
  cases ha : a.vModeRegex <;> cases hb : b.vModeRegex <;> simp only [ha, hb] at h ⊢
  · exact h.elim
  · exact h.elim
  · rfl

theorem decodeContext_congr (h : SameMatches search a.vModeRegex b.vModeRegex)
    (proto : RimeContextProto) : decodeContext search a proto = decodeContext search b proto := by
  have hkeys : ∀ rc, overrideSelectKeys search a rc = overrideSelectKeys search b rc := by
    intro rc
    rw [overrideSelectKeys, overrideSelectKeys, isSome_congr h]
    split
    · next hcase => rw [matchesVMode_congr h hcase.1]
    · rfl
  simp only [decodeContext, hkeys]

/-- A context with nothing but a preedit, and the keys that a pattern gives it. -/
def preeditOnly (preedit : String) : RimeContextProto :=
  ⟨some ⟨0, 0, 0, 0, preedit⟩, none, ""⟩

def preeditKeys (search : RegexSearch) (pattern : Option String) (preedit : String) : String :=
  match pattern with
  | none => ""
  | some pattern => if search pattern preedit then "abcde" else "12345"

theorem keys_preeditOnly {preedit : String} (hne : preedit ≠ "") (client : GrpcImeClientV2) :
    keysOf (decodeContext search client (preeditOnly preedit)) =
      some (preeditKeys search client.vModeRegex preedit) := by
  let rc : RemoteContext := { preedit := preedit, cursorPos := 0, selStart := 0, selEnd := 0 }
  have hread : decodeContext search client (preeditOnly preedit) =
      .ok (some (overrideSelectKeys search client rc)) := by
    change Except.ok (if _ = "" ∧ _ = [] then none else some _) = _
    rw [if_neg fun hempty => hne ((overrideSelectKeys_preedit search client rc).symm.trans hempty.1)]
    rfl
  have hkeys : (overrideSelectKeys search client rc).selectKeys =
      preeditKeys search client.vModeRegex preedit := by
    cases hp : client.vModeRegex with
    | none => simp [rc, overrideSelectKeys, preeditKeys, hp]
    | some pattern =>
        cases hs : search pattern preedit <;>
          simp [rc, overrideSelectKeys, preeditKeys, hne, hp, matchesVMode, hs] <;>
          decide
  rw [hread, keysOf, ← hkeys]
  rfl

theorem sameMatches_of_preeditKeys {pattern pattern' : Option String}
    (h : ∀ preedit, preedit ≠ "" →
      preeditKeys search pattern preedit = preeditKeys search pattern' preedit) :
    SameMatches search pattern pattern' := by
  cases pattern with
  | none =>
      cases pattern' with
      | none => trivial
      | some pattern' =>
          have hx := h "x" (by decide)
          cases hs : search pattern' "x" <;> simp [preeditKeys, hs] at hx
  | some pattern =>
      cases pattern' with
      | none =>
          have hx := h "x" (by decide)
          cases hs : search pattern "x" <;> simp [preeditKeys, hs] at hx
      | some pattern' =>
          intro preedit hne
          have hpreedit := h preedit hne
          cases hs : search pattern preedit <;> cases hs' : search pattern' preedit <;>
            simp [preeditKeys, hs, hs'] at hpreedit ⊢

theorem keys_agree_iff :
    (∀ proto, keysOf (decodeContext search a proto) = keysOf (decodeContext search b proto)) ↔
      SameMatches search a.vModeRegex b.vModeRegex := by
  constructor
  · intro h
    apply sameMatches_of_preeditKeys
    intro preedit hne
    have hkeys := h (preeditOnly preedit)
    rw [keys_preeditOnly hne, keys_preeditOnly hne] at hkeys
    exact Option.some.inj hkeys
  · intro h proto
    rw [decodeContext_congr h]

end

def patternAt (c : Clients) (client : Nat) : Option String :=
  c.made[client]?.bind fun o => o.vModeRegex

def patternOf (c : Clients) (address : String) : Option String :=
  (c.pool.lookup address).bind (patternAt c)

/-- The same pool, and no client's pattern has changed. -/
structure SamePatterns (c c' : Clients) : Prop where
  pool : c'.pool = c.pool
  length : c'.made.length = c.made.length
  pattern : ∀ client, patternAt c' client = patternAt c client

theorem SamePatterns.refl (c : Clients) : SamePatterns c c := ⟨rfl, rfl, fun _ => rfl⟩

theorem SamePatterns.patternOf {c c' : Clients} (h : SamePatterns c c') (address : String) :
    patternOf c' address = SelectKeys.patternOf c address := by
  rw [SelectKeys.patternOf, SelectKeys.patternOf, h.pool]
  congr 1
  funext client
  exact h.pattern client

theorem SamePatterns.oneEach {c c' : Clients} (h : SamePatterns c c') (hone : OneEach c) :
    OneEach c' := by
  refine ⟨fun address client hfound => ?_, ?_⟩
  · rw [h.length]
    exact hone.pooled address client (h.pool ▸ hfound)
  · rw [h.pool]
    exact hone.distinct

section

variable {c : Clients} {client engine : Nat} {address pattern : String}

theorem samePatterns_onClient {update : PooledClient → PooledClient}
    (hkept : ∀ o, (update o).vModeRegex = o.vModeRegex) (client : Nat) (calls : List SessionRpc) :
    SamePatterns c { c with made := c.made.modify client update, calls := calls } := by
  refine ⟨rfl, List.length_modify _ _ _, fun k => ?_⟩
  simp only [patternAt, List.getElem?_modify]
  cases c.made[k]? with
  | none => rfl
  | some o => by_cases hk : client = k <;> simp [hk, hkept]

theorem samePatterns_of_sessionsOnly {c' : Clients} (h : SessionsOnly c c') : SamePatterns c c' := by
  cases h with
  | same => exact SamePatterns.refl c
  | changed client f calls =>
      refine samePatterns_onClient ?_ client calls
      intro o
      rfl

theorem patternOf_getOrCreate (h : Pooled c) (address address' : String) :
    patternOf (getOrCreate address c).2 address' = patternOf c address' := by
  rw [getOrCreate]
  split
  · rfl
  · next hnone =>
    simp only [patternOf, lookup_insert_eq]
    split
    · next heq => rw [heq, hnone]; simp [patternAt]
    · cases hfound : c.pool.lookup address' with
      | none => rfl
      | some client =>
          have hlt := h address' client hfound
          simp [patternAt, List.getElem?_append_left hlt]

theorem patternOf_setVModeRegex (h : OneEach c) (hclient : c.pool.lookup address = some client)
    (address' : String) :
    patternOf (setVModeRegex client pattern c).2 address' =
      if address' = address then some pattern else patternOf c address' := by
  have hlt := h.pooled address client hclient
  have hpattern : ∀ k, patternAt (setVModeRegex client pattern c).2 k =
      if k = client then some pattern else patternAt c k := by
    intro k
    simp only [patternAt, setVModeRegex, onClient, change_run, List.getElem?_modify]
    by_cases hk : client = k
    · subst hk
      simp [List.getElem?_eq_getElem hlt]
    · simp [hk, Ne.symm hk]
  change (c.pool.lookup address').bind _ = _
  split
  · next heq =>
    rw [heq, hclient, Option.bind_some, hpattern, if_pos rfl]
  · next hne =>
    rw [patternOf]
    cases hfound : c.pool.lookup address' with
    | none => rfl
    | some k =>
        have hk : k ≠ client := by
          rintro rfl
          exact hne (h.distinct _ _ _ hfound hclient)
        rw [Option.bind_some, Option.bind_some, hpattern, if_neg hk]

theorem attached (h : OneEach c) (config : RemoteConfig) :
    OneEach (attach config c).2 ∧
      (attach config c).2.pool.lookup config.backendAddress = some (attach config c).1 ∧
      (∀ address client, c.pool.lookup address = some client →
        (attach config c).2.pool.lookup address = some client) ∧
      ∀ address, patternOf (attach config c).2 address =
        if config.backendAddress = address ∧ config.vModePreeditRegex ≠ "" then
          some config.vModePreeditRegex
        else patternOf c address := by
  have hcreated := oneEach_getOrCreate h config.backendAddress
  have hkept := getOrCreate_kept c config.backendAddress
  have hclient := getOrCreate_own c config.backendAddress
  have hpattern := patternOf_getOrCreate h.pooled config.backendAddress
  rw [attach_run]
  generalize getOrCreate config.backendAddress c = r at hcreated hkept hclient hpattern
  by_cases hset : config.vModePreeditRegex ≠ ""
  · rw [if_pos hset]
    refine ⟨oneEach_modify hcreated _ _ _, hclient, hkept, fun address => ?_⟩
    rw [patternOf_setVModeRegex hcreated hclient, hpattern]
    simp [hset, eq_comm]
  · rw [if_neg hset]
    refine ⟨hcreated, hclient, hkept, fun address => ?_⟩
    rw [hpattern, if_neg fun hcase => hset hcase.2]

end

/-- What the events so far make of the pool: the clients' patterns are the last
ones set, and an instance works with the client of its address. -/
structure Patterned (past : List Event) (s : Processors) : Prop where
  oneEach : OneEach s.clients
  pattern : ∀ address, patternOf s.clients address = lastPattern address past
  client : ∀ p ∈ s.alive, s.clients.pool.lookup p.config.backendAddress = some p.client

theorem lastPattern_append (address : String) (past : List Event) (e : Event) :
    lastPattern address (past ++ [e]) = (patternSet address e).or (lastPattern address past) := by
  rw [lastPattern, List.filterMap_append, List.getLast?_append]
  cases hset : patternSet address e with
  | none => simp [hset, lastPattern]
  | some pattern => simp [hset]

theorem patterned_start : Patterned [] start where
  oneEach := ⟨nofun, nofun⟩
  pattern := fun _ => rfl
  client := fun _ h => absurd h List.not_mem_nil

theorem patterned_construct {past : List Event} {s : Processors} (h : Patterned past s)
    (engine : Nat) (config : RemoteConfig) (reply : Option String) :
    Patterned (past ++ [.construct engine config reply]) (step s (.construct engine config reply)) := by
  obtain ⟨hone, hown, hkept, hpattern⟩ := attached h.oneEach config
  have hsame := samePatterns_of_sessionsOnly
    (pairSession_sessionsOnly (attach config s.clients).1 engine reply (attach config s.clients).2)
  have hpool : (step s (.construct engine config reply)).clients.pool =
      (attach config s.clients).2.pool := hsame.pool
  refine ⟨hsame.oneEach hone, fun address => ?_, fun p hp => ?_⟩
  · rw [lastPattern_append, ← h.pattern, patternSet]
    refine (hsame.patternOf address).trans ((hpattern address).trans ?_)
    split <;> rfl
  · rw [hpool]
    rcases List.mem_append.mp hp with hold | hnew
    · exact hkept _ _ (h.client p hold)
    · rw [List.mem_singleton.mp hnew]
      exact hown

theorem patterned_destroy {past : List Event} {s : Processors} (h : Patterned past s) (id : Nat) :
    Patterned (past ++ [.destroy id]) (step s (.destroy id)) := by
  have hlast : ∀ address, lastPattern address (past ++ [.destroy id]) = lastPattern address past :=
    fun address => lastPattern_append address past (.destroy id)
  rw [step]
  split
  · exact ⟨h.oneEach, fun address => (h.pattern address).trans (hlast address).symm, h.client⟩
  · next p _ =>
    have hsame : SamePatterns s.clients (destroy p s).2.clients := by
      rw [destroy, bind_run, ite_run]
      split
      · exact samePatterns_of_sessionsOnly (destroySession_sessionsOnly _ _ _)
      · exact SamePatterns.refl _
    have halive : ∀ q ∈ (destroy p s).2.alive, q ∈ s.alive := by
      intro q hq
      rw [destroy, bind_run, ite_run] at hq
      split at hq <;> exact List.mem_of_mem_filter hq
    refine ⟨hsame.oneEach h.oneEach, fun address => ?_, fun q hq => ?_⟩
    · rw [hlast, hsame.patternOf, h.pattern]
    · rw [hsame.pool]
      exact h.client q (halive q hq)

theorem patterned_run (events : List Event) : Patterned events (run step start events) := by
  have hall : Allowed step (fun _ _ => True) start events :=
    allowed_of_forall (fun _ _ => trivial) start events
  refine history_of_allowed ?_ patterned_start hall
  intro past s e h _
  cases e with
  | construct engine config reply => exact patterned_construct h engine config reply
  | destroy id => exact patterned_destroy h id

section

variable {search : RegexSearch} {events events' : List Event} {p p' : RemoteProcessor}

theorem pattern_of_alive (hp : p ∈ (run step start events).alive) :
    ∃ o, (run step start events).clients.made[p.client]? = some o ∧
      o.vModeRegex = lastPattern p.config.backendAddress events := by
  have h := patterned_run events
  have hclient := h.client p hp
  have hlt := h.oneEach.pooled _ _ hclient
  refine ⟨_, List.getElem?_eq_getElem hlt, ?_⟩
  rw [← h.pattern, patternOf, hclient, Option.bind_some, patternAt, List.getElem?_eq_getElem hlt,
    Option.bind_some]

theorem computedKeys_eq {s : Processors} {o : PooledClient}
    (ho : s.clients.made[p.client]? = some o) (proto : RimeContextProto) :
    computedKeys search s p proto = keysOf (decodeContext search o.toGrpcImeClientV2 proto) := by
  rw [computedKeys, ho]
  rfl

/-- Of two runs, an instance gets the same select keys for every context exactly if
the last patterns set for its address match the same preedits. -/
theorem same_keys_iff (search : RegexSearch) (hp : p ∈ (run step start events).alive)
    (hp' : p' ∈ (run step start events').alive) :
    (∀ proto, computedKeys search (run step start events) p proto =
        computedKeys search (run step start events') p' proto) ↔
      SameMatches search (lastPattern p.config.backendAddress events)
        (lastPattern p'.config.backendAddress events') := by
  obtain ⟨o, ho, hpattern⟩ := pattern_of_alive hp
  obtain ⟨o', ho', hpattern'⟩ := pattern_of_alive hp'
  simp only [computedKeys_eq ho, computedKeys_eq ho']
  rw [keys_agree_iff, hpattern, hpattern']

end

def plainSearch : RegexSearch := fun pattern preedit => pattern.toList <:+: preedit.toList

def plain : RemoteConfig := {}

def vMode : RemoteConfig := { vModePreeditRegex := "v" }

def onePage : RimeContextProto :=
  ⟨some ⟨1, 1, 0, 0, "v"⟩, some ⟨[⟨"a", ""⟩], 1, 0, true, 0, 1, "z"⟩, ""⟩

def alone (config : RemoteConfig) : List Event := [.construct 1 config (some "1")]

def beside (other config : RemoteConfig) : List Event :=
  [.construct 2 other (some "1"), .construct 1 config (some "2")]

theorem beside_plain_same_keys :
    ⟨1, 1, vMode, 0, true⟩ ∈ (run step start (beside plain vMode)).alive ∧
      ∀ proto,
        computedKeys plainSearch (run step start (alone vMode)) ⟨0, 1, vMode, 0, true⟩ proto =
          computedKeys plainSearch (run step start (beside plain vMode)) ⟨1, 1, vMode, 0, true⟩
            proto := by
  refine ⟨by decide, (same_keys_iff plainSearch (by decide) (by decide)).mpr ?_⟩
  intro preedit _
  rfl

/-- The pattern of the engine 2 takes the backend's keys from the engine 1, which
has no pattern. -/
theorem beside_vMode_other_keys :
    ⟨0, 1, plain, 0, true⟩ ∈ (run step start (alone plain)).alive ∧
      computedKeys plainSearch (run step start (alone plain)) ⟨0, 1, plain, 0, true⟩ onePage =
        some "z" ∧
      ⟨1, 1, plain, 0, true⟩ ∈ (run step start (beside vMode plain)).alive ∧
      computedKeys plainSearch (run step start (beside vMode plain)) ⟨1, 1, plain, 0, true⟩
        onePage = some "a" := by
  decide

end RimeWinime.SelectKeys
