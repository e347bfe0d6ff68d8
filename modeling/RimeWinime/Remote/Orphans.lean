import RimeWinime.Lib.Run
import RimeWinime.Remote.Ownership
import RimeWinime.Remote.Proxy

namespace RimeWinime.Orphans

open World Table Run Client ClientPool Engines Ownership Proxy

def entered (s : Callers) (sessionId : Nat) (curSchema : String) : Option GrpcSchemaInfo :=
  if curSchema = (stateOf s sessionId).schemaId then none else s.grpcSchemas.lookup curSchema

/-- The `OpenSession` that an event makes: by which client, for which local id,
and the clients as they are at that moment. -/
def opening (s : Callers) : Proxy.Event → Option (Nat × Nat × Clients)
  | .processor (.construct engine config _) =>
      let r := attach config (clients s)
      if hasSession r.2 r.1 engine then none else some (r.1, engine, r.2)
  | .ensureSession sessionId curSchema _ =>
      (entered s sessionId curSchema).map fun info =>
        let r := schemaClient info (tearDown sessionId (stateOf s sessionId) (clients s)).2
        (r.1, sessionId, r.2)
  | _ => none

def replyOf : Proxy.Event → Option String
  | .processor (.construct _ _ reply) => reply
  | .ensureSession _ _ reply => reply
  | _ => none

def OpenSucceeds (s : Callers) (e : Proxy.Event) : Prop :=
  ∀ call ∈ opening s e, ∃ remoteId ∈ replyOf e, remoteId ≠ ""

/-- The server hands out no id that it has in use for the client. -/
def HandsOutUnused (s : Callers) (e : Proxy.Event) : Prop :=
  ∀ call ∈ opening s e, ∀ remoteId ∈ replyOf e, ¬Live call.2.2 call.1 remoteId

/-- The session table has the local session on this backend, so that a change of
its schema tears it down. -/
def OnRecord (s : Callers) (sessionId : Nat) (address : String) : Prop :=
  (stateOf s sessionId).isGrpc = true ∧ (stateOf s sessionId).backendAddress = address ∧
    address ≠ ""

/-- A session of the client that the schema to enter uses is on record. -/
def KeepsRecord (s : Callers) : Proxy.Event → Prop
  | .ensureSession sessionId curSchema _ => ∀ info ∈ entered s sessionId curSchema,
      ∀ client ∈ find info.backendAddress (clients s),
        hasSession (clients s) client sessionId = true → OnRecord s sessionId info.backendAddress
  | _ => True

section

variable {c : Clients} {s : Callers} {e : Proxy.Event} {client sessionId : Nat}

theorem schemaClient_run (info : GrpcSchemaInfo) (c : Clients) :
    schemaClient info c = ((getOrCreate info.backendAddress c).1,
      if info.vModePreeditRegex ≠ "" ∧ hasVModeRegex (getOrCreate info.backendAddress c).2
          (getOrCreate info.backendAddress c).1 = false then
        (setVModeRegex (getOrCreate info.backendAddress c).1 info.vModePreeditRegex
          (getOrCreate info.backendAddress c).2).2
      else (getOrCreate info.backendAddress c).2) := by
  cases hhas : hasVModeRegex (getOrCreate info.backendAddress c).2
    (getOrCreate info.backendAddress c).1 <;>
  by_cases hp : info.vModePreeditRegex = "" <;> simp [schemaClient, hp, hhas]

theorem sameSessions_schemaClient (info : GrpcSchemaInfo) (c : Clients) :
    SameSessions c (schemaClient info c).2 := by
  rw [schemaClient_run]
  exact (sameSessions_getOrCreate info.backendAddress c).trans (sameSessions_setIf _ _ _ _)

theorem oneEach_schemaClient (h : OneEach c) (info : GrpcSchemaInfo) :
    OneEach (schemaClient info c).2 := by
  rw [schemaClient_run]
  exact oneEach_setIf (oneEach_getOrCreate h info.backendAddress) _ _ _

theorem tearDown_cases (sessionId : Nat) (ss : SessionState) (c : Clients) :
    (tearDown sessionId ss c).2 = c ∧ ¬(ss.isGrpc = true ∧ ss.backendAddress ≠ "" ∧
        (find ss.backendAddress c).isSome) ∨
      ∃ client, ss.isGrpc = true ∧ ss.backendAddress ≠ "" ∧
        find ss.backendAddress c = some client ∧
        (tearDown sessionId ss c).2 = (destroySession client sessionId c).2 := by
  by_cases hgrpc : ss.isGrpc = true ∧ ss.backendAddress ≠ ""
  · cases hfind : find ss.backendAddress c with
    | none =>
        refine Or.inl ⟨?_, fun h => Bool.false_ne_true h.2.2⟩
        simp [tearDown, hgrpc, hfind]
    | some client =>
        refine Or.inr ⟨client, hgrpc.1, hgrpc.2, rfl, ?_⟩
        simp [tearDown, hgrpc, hfind]
  · refine Or.inl ⟨?_, fun h => hgrpc ⟨h.1, h.2.1⟩⟩
    have hcond : ¬(ss.isGrpc && decide (ss.backendAddress ≠ "")) = true := by
      rw [Bool.and_eq_true, decide_eq_true_eq]
      exact hgrpc
    rw [tearDown, if_neg hcond]
    rfl

theorem accounted_tearDown (h : Accounted c) (sessionId : Nat) (ss : SessionState) :
    Accounted (tearDown sessionId ss c).2 := by
  obtain ⟨hsame, -⟩ | ⟨client, -, -, -, hdestroy⟩ := tearDown_cases sessionId ss c
  · rw [hsame]
    exact h
  · rw [hdestroy]
    exact accounted_destroySession h client sessionId

theorem pool_tearDown (h : Accounted c) (sessionId : Nat) (ss : SessionState) :
    (tearDown sessionId ss c).2.pool = c.pool := by
  obtain ⟨hsame, -⟩ | ⟨client, -, -, -, hdestroy⟩ := tearDown_cases sessionId ss c
  · rw [hsame]
  · rw [hdestroy]
    cases hmapped : mappedAt c client sessionId with
    | none => rw [destroySession_unmapped hmapped]
    | some remoteId => rw [destroySession_mapped hmapped (h.named _ _ _ hmapped)]

theorem mappedAt_tearDown (h : Accounted c) {address : String} (hfind : find address c = some client)
    (sessionId : Nat) (ss : SessionState) :
    mappedAt (tearDown sessionId ss c).2 client sessionId =
      if ss.isGrpc = true ∧ ss.backendAddress = address ∧ address ≠ "" then none
      else mappedAt c client sessionId := by
  obtain ⟨hsame, hno⟩ | ⟨other, hgrpc, hne, hother, hdestroy⟩ := tearDown_cases sessionId ss c
  · rw [hsame, if_neg]
    rintro ⟨hgrpc, rfl, hne⟩
    exact hno ⟨hgrpc, hne, by rw [hfind]; rfl⟩
  · rw [hdestroy, mappedAt_destroySession_named h]
    by_cases haddress : ss.backendAddress = address
    · subst haddress
      have hclient : other = client := Option.some.inj (hother.symm.trans hfind)
      rw [if_pos ⟨hclient.symm, rfl⟩, if_pos ⟨hgrpc, rfl, hne⟩]
    · have hclient : client ≠ other := by
        rintro rfl
        exact haddress (h.oneEach.distinct _ _ _ hother hfind)
      rw [if_neg fun hhere => hclient hhere.1, if_neg fun hrecord => haddress hrecord.2.1]

theorem opening_cases (hopening : opening s e = some (client, sessionId, c)) :
    (∃ config reply, e = .processor (.construct sessionId config reply) ∧
        attach config (clients s) = (client, c) ∧ mappedAt c client sessionId = none) ∨
      ∃ curSchema reply info, e = .ensureSession sessionId curSchema reply ∧
        entered s sessionId curSchema = some info ∧
        schemaClient info (tearDown sessionId (stateOf s sessionId) (clients s)).2 = (client, c) := by
  cases e with
  | processor e =>
      cases e with
      | destroy id => cases hopening
      | construct engine config reply =>
          rw [opening] at hopening
          split at hopening
          · cases hopening
          · next hno =>
            cases hopening
            rw [hasSession, Bool.not_eq_true, Option.isSome_eq_false_iff, Option.isNone_iff_eq_none]
              at hno
            exact Or.inl ⟨config, reply, rfl, rfl, hno⟩
  | ensureSession id curSchema reply =>
      obtain ⟨info, hentered, hcall⟩ := Option.map_eq_some_iff.mp hopening
      cases hcall
      exact Or.inr ⟨curSchema, reply, info, rfl, hentered, rfl⟩
  | rimeGrpcProxyV2Initialize | rimeGrpcProxyV2Finalize | rimeRemoteFinalize => cases hopening

theorem accounted_opening (h : Accounted (clients s))
    (hopening : opening s e = some (client, sessionId, c)) :
    Accounted c ∧ client < c.made.length := by
  rcases opening_cases hopening with ⟨config, reply, rfl, hattach, -⟩ |
    ⟨curSchema, reply, info, rfl, -, hschema⟩
  · have hattached := accounted_of_same h (sameSessions_attach config _)
      (oneEach_attach h.oneEach config)
    have hlt := attach_lt h.oneEach.pooled config
    rw [hattach] at hattached hlt
    exact ⟨hattached, hlt⟩
  · have htorn := accounted_tearDown h sessionId (stateOf s sessionId)
    have hentered := accounted_of_same htorn (sameSessions_schemaClient info _)
      (oneEach_schemaClient htorn.oneEach info)
    have hlt := getOrCreate_lt htorn.oneEach.pooled info.backendAddress
    rw [hschema] at hentered
    refine ⟨hentered, ?_⟩
    rw [schemaClient_run, Prod.mk.injEq] at hschema
    rw [← hschema.1, ← hschema.2]
    exact Nat.lt_of_lt_of_le hlt (sameSessions_setIf _ _ _ _).length

theorem unmapped_iff_keepsRecord (h : Accounted (clients s))
    (hopening : opening s e = some (client, sessionId, c)) :
    mappedAt c client sessionId = none ↔ KeepsRecord s e := by
  rcases opening_cases hopening with ⟨config, reply, rfl, -, hno⟩ |
    ⟨curSchema, reply, info, rfl, hentered, hschema⟩
  · exact ⟨fun _ => trivial, fun _ => hno⟩
  · have htorn := accounted_tearDown h sessionId (stateOf s sessionId)
    have hpool := pool_tearDown h sessionId (stateOf s sessionId)
    have hclient : (getOrCreate info.backendAddress
        (tearDown sessionId (stateOf s sessionId) (clients s)).2).1 = client :=
      congrArg Prod.fst ((schemaClient_run info _).symm.trans hschema)
    have hmapped := (sameSessions_schemaClient info
      (tearDown sessionId (stateOf s sessionId) (clients s)).2).mapped client sessionId
    rw [hschema] at hmapped
    rw [hmapped, ← hclient]
    simp only [KeepsRecord, hentered, Option.mem_def, Option.some.injEq, forall_eq']
    cases hfind : find info.backendAddress (clients s) with
    | none =>
        -- a client of its own has no session yet
        have hfresh : find info.backendAddress
            (tearDown sessionId (stateOf s sessionId) (clients s)).2 = none := by
          rw [find, hpool]
          exact hfind
        rw [getOrCreate_fresh hfresh, mappedAt, List.getElem?_eq_none (Nat.le_refl _)]
        refine ⟨fun _ client hclient => ?_, fun _ => rfl⟩
        cases hclient
    | some found =>
        have hfound : find info.backendAddress
            (tearDown sessionId (stateOf s sessionId) (clients s)).2 = some found := by
          rw [find, hpool]
          exact hfind
        rw [getOrCreate_found hfound, mappedAt_tearDown h hfind]
        simp only [Option.some.injEq, forall_eq', hasSession, Option.isSome_iff_ne_none]
        split
        · next hrecord => exact ⟨fun _ _ => hrecord, fun _ => rfl⟩
        · next hno =>
          constructor
          · intro hnone hsome
            exact absurd hnone hsome
          · intro hkept
            by_contra hsome
            exact hno (hkept hsome)

theorem clients_ensureSession (s : Callers) (sessionId : Nat) (curSchema : String)
    (reply : Option String) :
    clients (ensureSession sessionId curSchema reply s).2 =
      match entered s sessionId curSchema with
      | some info =>
          let r := schemaClient info (tearDown sessionId (stateOf s sessionId) (clients s)).2
          (openSession r.1 sessionId reply r.2).2
      | none =>
          if curSchema = (stateOf s sessionId).schemaId then clients s
          else (tearDown sessionId (stateOf s sessionId) (clients s)).2 := by
  rw [ensureSession, bind_run, observe_run, ite_run, entered]
  split
  · rfl
  · have hschemas : ∀ t : Callers, (Proxy.onClients (tearDown sessionId (stateOf s sessionId)) t).2.grpcSchemas
        = t.grpcSchemas := fun _ => rfl
    rw [bind_run, bind_run, observe_run, hschemas]
    cases hinfo : s.grpcSchemas.lookup curSchema with
    | none => rfl
    | some info =>
        simp only [bind_run, ite_run]
        split <;> rfl

theorem clients_construct (s : Callers) (engine : Nat) (config : RemoteConfig)
    (reply : Option String) :
    clients (Proxy.step s (.processor (.construct engine config reply))) =
      (pairSession (attach config (clients s)).1 engine reply (attach config (clients s)).2).2 := rfl

theorem clients_destroy (s : Callers) (id : Nat) :
    clients (Proxy.step s (.processor (.destroy id))) = clients s ∨
      ∃ p : RemoteProcessor, clients (Proxy.step s (.processor (.destroy id))) =
        (destroySession p.client p.engine (clients s)).2 := by
  simp only [Proxy.step, Engines.step, clients]
  split
  · exact Or.inl rfl
  · next p _ =>
    rw [destroy, bind_run, ite_run]
    split
    · exact Or.inr ⟨p, rfl⟩
    · exact Or.inl rfl

theorem step_opening (hopening : opening s e = some (client, sessionId, c)) :
    clients (Proxy.step s e) = (openSession client sessionId (replyOf e) c).2 := by
  rcases opening_cases hopening with ⟨config, reply, rfl, hattach, hno⟩ |
    ⟨curSchema, reply, info, rfl, hentered, hschema⟩
  · have hhas : ¬hasSession c client sessionId = true := by simp [hasSession, hno]
    rw [clients_construct, hattach, pairSession, bind_run, observe_run, ite_run, if_neg hhas]
    rfl
  · rw [Proxy.step, clients_ensureSession, hentered]
    simp only [hschema]
    rfl

theorem accounted_step_closed (h : Accounted (clients s)) (hclosed : opening s e = none) :
    Accounted (clients (Proxy.step s e)) := by
  cases e with
  | processor e =>
      cases e with
      | destroy id =>
          rcases clients_destroy s id with hsame | ⟨p, hdestroy⟩
          · rw [hsame]
            exact h
          · rw [hdestroy]
            exact accounted_destroySession h p.client p.engine
      | construct engine config reply =>
          rw [opening] at hclosed
          split at hclosed
          · next hhas =>
            rw [clients_construct, pairSession, bind_run, observe_run, ite_run, if_pos hhas]
            exact accounted_of_same h (sameSessions_attach _ _) (oneEach_attach h.oneEach config)
          · cases hclosed
  | ensureSession sessionId curSchema reply =>
      rw [opening, Option.map_eq_none_iff] at hclosed
      rw [Proxy.step, clients_ensureSession, hclosed]
      simp only
      split
      · exact h
      · exact accounted_tearDown h sessionId _
  | rimeGrpcProxyV2Initialize schemas => exact h
  | rimeGrpcProxyV2Finalize => exact accounted_shutdownAll h
  | rimeRemoteFinalize => exact accounted_shutdownAll h

theorem keepsRecord_closed (hclosed : opening s e = none) : KeepsRecord s e := by
  cases e with
  | processor e => trivial
  | ensureSession sessionId curSchema reply =>
      rw [opening, Option.map_eq_none_iff] at hclosed
      intro info hentered
      rw [hclosed] at hentered
      cases hentered
  | rimeGrpcProxyV2Initialize | rimeGrpcProxyV2Finalize | rimeRemoteFinalize => trivial

end

/-- No session is lost in any state of a run exactly if each local session whose
client has a session is on record when it enters a schema of that client, and no
server hands out an id that it has in use. -/
theorem owned_iff {events : List Proxy.Event} (h : Allowed Proxy.step OpenSucceeds Proxy.start events) :
    Always Proxy.step (fun s => Owned (clients s)) Proxy.start events ↔
      Allowed Proxy.step (fun s e => KeepsRecord s e ∧ HandsOutUnused s e) Proxy.start events := by
  have hstart : Accounted (clients Proxy.start) := accounted_noClients
  refine always_iff_of_invariant (fun s => Accounted (clients s)) (fun s hs => hs.owned) ?_ ?_
    hstart h
  · rintro s e hs hopens ⟨hrecord, hunused⟩
    cases hopening : opening s e with
    | none => exact accounted_step_closed hs hopening
    | some call =>
        obtain ⟨client, sessionId, c⟩ := call
        obtain ⟨remoteId, hreply, hne⟩ := hopens _ hopening
        obtain ⟨hc, hlt⟩ := accounted_opening hs hopening
        have hfree := (unmapped_iff_keepsRecord hs hopening).mpr hrecord
        rw [step_opening hopening, hreply]
        exact accounted_openSession hc hlt hfree hne (hunused _ hopening remoteId hreply)
  · intro s e hs hopens hlost howned
    cases hopening : opening s e with
    | none => exact hlost ⟨keepsRecord_closed hopening, fun _ hcall => nomatch hopening.symm.trans hcall⟩
    | some call =>
        obtain ⟨client, sessionId, c⟩ := call
        obtain ⟨remoteId, hreply, hne⟩ := hopens _ hopening
        obtain ⟨hc, hlt⟩ := accounted_opening hs hopening
        rw [step_opening hopening, hreply] at howned
        obtain ⟨hfree, hunused⟩ := (owned_openSession_iff hc hlt hne).mp howned
        refine hlost ⟨(unmapped_iff_keepsRecord hs hopening).mp hfree, ?_⟩
        intro call hcall rid hrid
        cases hopening.symm.trans hcall
        cases hreply.symm.trans hrid
        exact hunused

instance (c : Clients) (client : Nat) (remoteId : String) : Decidable (Live c client remoteId) :=
  inferInstanceAs (Decidable (_ < _))

instance (s : Callers) (e : Proxy.Event) : Decidable (OpenSucceeds s e) :=
  inferInstanceAs (Decidable (∀ call ∈ opening s e, ∃ remoteId ∈ replyOf e, remoteId ≠ ""))

instance (s : Callers) (e : Proxy.Event) : Decidable (HandsOutUnused s e) :=
  inferInstanceAs (Decidable (∀ call ∈ opening s e, ∀ remoteId ∈ replyOf e,
    ¬Live call.2.2 call.1 remoteId))

instance (s : Callers) (sessionId : Nat) (address : String) :
    Decidable (OnRecord s sessionId address) :=
  inferInstanceAs (Decidable (_ = _ ∧ _ = _ ∧ _ ≠ _))

instance (s : Callers) (e : Proxy.Event) : Decidable (KeepsRecord s e) :=
  match e with
  | .ensureSession sessionId curSchema _ =>
      inferInstanceAs (Decidable (∀ info ∈ entered s sessionId curSchema,
        ∀ client ∈ find info.backendAddress (clients s),
          hasSession (clients s) client sessionId = true →
            OnRecord s sessionId info.backendAddress))
  | .processor _ | .rimeGrpcProxyV2Initialize _ | .rimeGrpcProxyV2Finalize | .rimeRemoteFinalize =>
      inferInstanceAs (Decidable True)

def schemas : List (String × GrpcSchemaInfo) := [("wubi", ⟨"a", ""⟩), ("pinyin", ⟨"a", ""⟩)]

/-- The session 1 changes its schema, an engine comes and goes, and the module ends. -/
def switching : List Proxy.Event :=
  [.rimeGrpcProxyV2Initialize schemas, .ensureSession 1 "wubi" (some "1"),
    .ensureSession 1 "pinyin" (some "2"), .processor (.construct 7 ⟨"a", ""⟩ (some "3")),
    .processor (.destroy 0), .rimeGrpcProxyV2Finalize]

def redeploying : List Proxy.Event :=
  [.rimeGrpcProxyV2Initialize schemas, .ensureSession 1 "wubi" (some "1"),
    .rimeGrpcProxyV2Initialize schemas, .ensureSession 1 "wubi" (some "2")]

theorem switching_owned :
    Always Proxy.step (fun s => Owned (clients s)) Proxy.start switching := by
  have hopens : Allowed Proxy.step OpenSucceeds Proxy.start switching := by decide
  exact (owned_iff hopens).mpr (by decide)

/-- The session "1" was handed out once; no local id has it, and it was never
destroyed. -/
theorem redeploying_orphans :
    Allowed Proxy.step OpenSucceeds Proxy.start redeploying ∧
      Allowed Proxy.step HandsOutUnused Proxy.start redeploying ∧
      opened (clients (run Proxy.step Proxy.start redeploying)) 0 "1" = 1 ∧
      destroyed (clients (run Proxy.step Proxy.start redeploying)) 0 "1" = 0 ∧
      ((clients (run Proxy.step Proxy.start redeploying)).made.map fun o => values o.sessions) =
        [["2"]] ∧
      ¬Owned (clients (run Proxy.step Proxy.start redeploying)) := by
  have hopened : opened (clients (run Proxy.step Proxy.start redeploying)) 0 "1" = 1 := by decide
  have hdestroyed : destroyed (clients (run Proxy.step Proxy.start redeploying)) 0 "1" = 0 := by
    decide
  have hvalues : ((clients (run Proxy.step Proxy.start redeploying)).made.map fun o =>
      values o.sessions) = [["2"]] := by
    decide
  refine ⟨by decide, by decide, hopened, hdestroyed, hvalues, fun howned => ?_⟩
  rcases howned.once hopened with ⟨⟨j, hj, -⟩, -⟩ | ⟨-, hone⟩
  · obtain ⟨o, ho, hlookup⟩ := Option.bind_eq_some_iff.mp hj
    have hfirst := congrArg (·[0]?) hvalues
    simp only [List.getElem?_map, ho, Option.map_some, List.getElem?_cons_zero,
      Option.some.injEq] at hfirst
    have hmem := mem_values.mpr ⟨j, hlookup⟩
    rw [hfirst] at hmem
    exact absurd hmem (by decide)
  · rw [hdestroyed] at hone
    cases hone

end RimeWinime.Orphans
