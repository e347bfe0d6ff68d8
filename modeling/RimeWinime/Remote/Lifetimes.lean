import RimeWinime.Remote.AsciiMode
import RimeWinime.Remote.Engines

namespace RimeWinime.Lifetimes

open World Table Run Proto Client Processor ClientPool Engines

/-- The instance of the engine that was constructed last among those alive. -/
def newest (s : Processors) (engine : Nat) : Option RemoteProcessor :=
  (s.alive.filter (·.engine = engine)).getLast?

def atWork {E β : Type} (p : RemoteProcessor) (client : GrpcImeClientV2) (r : Remote E β) :
    Remote E β :=
  { r with client := client, sessionId := p.engine, grpcSessionOpen := p.grpcSessionOpen }

/-- A key that the instance does not keep to itself goes to the backend, under the
session that the client has for the engine. -/
def SendsKeys (c : Clients) (p : RemoteProcessor) : Prop :=
  ∃ o, c.made[p.client]? = some o ∧
    ∀ {E β : Type} (r : Remote E β) (key : KeyEvent) (f : Front E β),
      Events.Forwards (atWork p o.toGrpcImeClientV2 r) key f →
        ∃ x after,
          (processKeyEvent (atWork p o.toGrpcImeClientV2 r) key f).2.link.exchanges =
            f.link.exchanges ++ x :: after ∧
          x.request = .processKey ⟨findSession o.toGrpcImeClientV2 p.engine, some key⟩

def opened (c : Clients) (client engine : Nat) (remoteId : String) : Nat :=
  c.calls.count (.openSession client engine remoteId)

def destroyed (c : Clients) (client engine : Nat) (remoteId : String) : Nat :=
  c.calls.count (.destroySession client engine remoteId)

/-- With an instance alive, the registry has the newest one, whose flag says what
the client has and whose keys go out. With none, every session that was opened
for the engine has been destroyed as often. -/
def Served (s : Processors) (engine : Nat) : Prop :=
  match newest s engine with
  | some p =>
      s.registry.lookup engine = some p.id ∧
        p.grpcSessionOpen = hasSession s.clients p.client engine ∧ SendsKeys s.clients p
  | none => ∀ client remoteId,
      destroyed s.clients client engine remoteId = opened s.clients client engine remoteId

def OpenSucceeds (_ : Processors) : Event → Prop
  | .construct _ _ reply => ∃ remoteId, reply = some remoteId ∧ remoteId ≠ ""
  | .destroy _ => True

/-- No instance is destroyed while another one of its engine is alive. -/
def DestroysAlone (s : Processors) : Event → Prop
  | .construct _ _ _ => True
  | .destroy id => ∀ p ∈ s.alive, p.id = id → ∀ q ∈ s.alive, q.engine = p.engine → q.id = id

section

variable {s : Processors} {engine id : Nat} {p : RemoteProcessor}

theorem newest_mem (h : newest s engine = some p) : p ∈ s.alive ∧ p.engine = engine := by
  have hmem : p ∈ s.alive.filter (·.engine = engine) := List.mem_of_getLast? h
  rw [List.mem_filter, decide_eq_true_eq] at hmem
  exact hmem

theorem newest_none : newest s engine = none ↔ ∀ p ∈ s.alive, p.engine ≠ engine := by
  rw [newest, List.getLast?_eq_none_iff, List.filter_eq_nil_iff]
  simp

theorem newest_append {s' : Processors} (h : s'.alive = s.alive ++ [p]) (engine : Nat) :
    newest s' engine = if engine = p.engine then some p else newest s engine := by
  rw [newest, h, List.filter_append]
  by_cases he : engine = p.engine
  · rw [if_pos he, List.filter_cons_of_pos (by simp [he])]
    exact List.getLast?_concat
  · rw [if_neg he, List.filter_cons_of_neg (by simpa using Ne.symm he), List.filter_nil,
      List.append_nil]
    rfl

theorem sendsKeys_of_mapped {c : Clients} {remoteId : String} (hopen : p.grpcSessionOpen = true)
    (hmapped : mappedAt c p.client p.engine = some remoteId) (hne : remoteId ≠ "") :
    SendsKeys c p := by
  obtain ⟨o, ho, hlookup⟩ := Option.bind_eq_some_iff.mp hmapped
  refine ⟨o, ho, ?_⟩
  intro E β r key f hforwards
  have hfind : findSession o.toGrpcImeClientV2 p.engine = remoteId := by
    rw [findSession, hlookup]
    rfl
  have hknown : Events.Known (atWork p o.toGrpcImeClientV2 r) := by
    change findSession o.toGrpcImeClientV2 p.engine ≠ ""
    rw [hfind]
    exact hne
  obtain ⟨after, hexchanges⟩ := AsciiMode.forward_exchanges hopen hknown hforwards
  exact ⟨_, after, hexchanges.trans (List.append_assoc _ _ _), rfl⟩

/-- What the code keeps when no instance is destroyed beside another one: each
session has an owner alive and each instance alive has its session. -/
structure Kept (s : Processors) : Prop where
  pooled : Pooled s.clients
  ids : (s.alive.map (·.id)).Nodup
  fresh : ∀ p ∈ s.alive, p.id < s.made
  isOpen : ∀ p ∈ s.alive, p.grpcSessionOpen = true
  session : ∀ p ∈ s.alive, ∃ remoteId, mappedAt s.clients p.client p.engine = some remoteId
  named : ∀ k j remoteId, mappedAt s.clients k j = some remoteId → remoteId ≠ ""
  owner : ∀ k j remoteId, mappedAt s.clients k j = some remoteId →
    ∃ p ∈ s.alive, p.client = k ∧ p.engine = j
  registry : ∀ engine, s.registry.lookup engine = (newest s engine).map (·.id)
  paid : ∀ k j remoteId, opened s.clients k j remoteId =
    destroyed s.clients k j remoteId + if mappedAt s.clients k j = some remoteId then 1 else 0

theorem kept_start : Kept start where
  pooled := fun _ _ h => by cases h
  ids := List.nodup_nil
  fresh := fun _ h => absurd h List.not_mem_nil
  isOpen := fun _ h => absurd h List.not_mem_nil
  session := fun _ h => absurd h List.not_mem_nil
  named := fun _ _ _ h => by cases h
  owner := fun _ _ _ h => by cases h
  registry := fun _ => rfl
  paid := fun _ _ _ => rfl

theorem served_of_kept (h : Kept s) (engine : Nat) : Served s engine := by
  rw [Served]
  split
  · next p hp =>
    obtain ⟨hmem, hengine⟩ := newest_mem hp
    obtain ⟨remoteId, hmapped⟩ := h.session p hmem
    refine ⟨?_, ?_, ?_⟩
    · rw [h.registry, hp]
      rfl
    · rw [h.isOpen p hmem, hasSession, ← hengine, hmapped]
      rfl
    · exact sendsKeys_of_mapped (h.isOpen p hmem) hmapped (h.named _ _ _ hmapped)
  · next hnone =>
    intro client remoteId
    have hunmapped : mappedAt s.clients client engine ≠ some remoteId := by
      intro hmapped
      obtain ⟨p, hmem, -, hengine⟩ := h.owner client engine remoteId hmapped
      exact newest_none.mp hnone p hmem hengine
    have hpaid := h.paid client engine remoteId
    rw [if_neg hunmapped] at hpaid
    exact hpaid.symm

theorem id_unique (h : Kept s) {q : RemoteProcessor} (hp : p ∈ s.alive) (hq : q ∈ s.alive)
    (hid : q.id = p.id) : q = p :=
  List.inj_on_of_nodup_map h.ids hq hp hid

section

variable {s' : Processors} {config : RemoteConfig} {remoteId : String} {client : Nat}

theorem mapped_of_constructed (hc : Constructed s s' engine config remoteId client) {k j : Nat}
    {rid : String} (hmapped : mappedAt s.clients k j = some rid) :
    mappedAt s'.clients k j = some rid := by
  rcases hc.sessions with ⟨-, hsame, -⟩ | ⟨hnone, hput, -⟩
  · rw [hsame, hmapped]
  · rw [hput, if_neg, hmapped]
    rintro ⟨rfl, rfl⟩
    rw [hnone] at hmapped
    cases hmapped

theorem mapped_before_construction (hc : Constructed s s' engine config remoteId client) {k j : Nat}
    {rid : String} (hmapped : mappedAt s'.clients k j = some rid) :
    mappedAt s.clients k j = some rid ∨ k = client ∧ j = engine ∧ rid = remoteId := by
  rcases hc.sessions with ⟨-, hsame, -⟩ | ⟨-, hput, -⟩
  · exact Or.inl (hsame k j ▸ hmapped)
  · rw [hput] at hmapped
    split at hmapped
    · next hhere => exact Or.inr ⟨hhere.1, hhere.2, (Option.some.inj hmapped).symm⟩
    · exact Or.inl hmapped

theorem constructed_mapped (hc : Constructed s s' engine config remoteId client) :
    ∃ rid, mappedAt s'.clients client engine = some rid := by
  rcases hc.sessions with ⟨hsome, hsame, -⟩ | ⟨-, hput, -⟩
  · rw [hsame]
    exact Option.isSome_iff_exists.mp hsome
  · exact ⟨remoteId, by rw [hput, if_pos ⟨rfl, rfl⟩]⟩

theorem constructed_paid (h : Kept s) (hc : Constructed s s' engine config remoteId client)
    (k j : Nat) (rid : String) : opened s'.clients k j rid =
      destroyed s'.clients k j rid + if mappedAt s'.clients k j = some rid then 1 else 0 := by
  have hpaid := h.paid k j rid
  rw [opened, destroyed] at hpaid ⊢
  rcases hc.sessions with ⟨-, hsame, hcalls⟩ | ⟨hnone, hput, hcalls⟩
  · rw [hcalls, hsame]
    exact hpaid
  · rw [hcalls, hput, List.count_append, List.count_append, List.count_singleton,
      List.count_singleton]
    by_cases hhere : k = client ∧ j = engine
    · obtain ⟨rfl, rfl⟩ := hhere
      rw [hnone] at hpaid
      by_cases hrid : remoteId = rid <;> simp_all
    · have hne : ∀ rid', SessionRpc.openSession client engine rid' ≠ .openSession k j rid := by
        intro rid' heq
        injection heq with hk hj
        exact hhere ⟨hk.symm, hj.symm⟩
      simp [hhere, hne, hpaid]

theorem kept_constructed (h : Kept s) (hc : Constructed s s' engine config remoteId client)
    (hreply : remoteId ≠ "") : Kept s' := by
  have hmem : ∀ q, q ∈ s'.alive ↔ q ∈ s.alive ∨ q = ⟨s.made, engine, config, client, true⟩ := by
    intro q
    rw [hc.alive, List.mem_append, List.mem_singleton]
  refine ⟨hc.pooled, ?_, ?_, ?_, ?_, ?_, ?_, ?_, constructed_paid h hc⟩
  · rw [hc.alive, List.map_append, List.map_singleton, ← List.concat_eq_append]
    refine h.ids.concat ?_
    rw [List.mem_map]
    rintro ⟨q, hq, hid⟩
    exact Nat.ne_of_lt (h.fresh q hq) hid
  · intro q hq
    rw [hc.made]
    rcases (hmem q).mp hq with hold | rfl
    · have := h.fresh q hold
      omega
    · exact Nat.lt_succ_self _
  · intro q hq
    rcases (hmem q).mp hq with hold | rfl
    · exact h.isOpen q hold
    · rfl
  · intro q hq
    rcases (hmem q).mp hq with hold | rfl
    · obtain ⟨rid, hmapped⟩ := h.session q hold
      exact ⟨rid, mapped_of_constructed hc hmapped⟩
    · exact constructed_mapped hc
  · intro k j rid hmapped
    rcases mapped_before_construction hc hmapped with hold | ⟨-, -, rfl⟩
    · exact h.named k j rid hold
    · exact hreply
  · intro k j rid hmapped
    rcases mapped_before_construction hc hmapped with hold | ⟨rfl, rfl, -⟩
    · obtain ⟨q, hq, hk, hj⟩ := h.owner k j rid hold
      exact ⟨q, (hmem q).mpr (Or.inl hq), hk, hj⟩
    · exact ⟨_, (hmem _).mpr (Or.inr rfl), rfl, rfl⟩
  · intro engine'
    rw [hc.registry, lookup_insert_eq, newest_append hc.alive, h.registry]
    split <;> rfl

end

theorem destroy_step (hfound : s.alive.find? (·.id = id) = some p)
    (hopen : p.grpcSessionOpen = true) : step s (.destroy id) =
      { clients := (destroySession p.client p.engine s.clients).2
        registry := s.registry.erase p.engine
        alive := s.alive.filter (·.id ≠ p.id)
        made := s.made } := by
  simp [step, hfound, destroy, hopen, onClients]

theorem newest_filter (h : Kept s) {s' : Processors} (hp : p ∈ s.alive)
    (halone : ∀ q ∈ s.alive, q.engine = p.engine → q.id = p.id)
    (halive : s'.alive = s.alive.filter (·.id ≠ p.id)) (engine : Nat) :
    newest s' engine = if engine = p.engine then none else newest s engine := by
  split
  · next he =>
    rw [newest_none, halive]
    intro q hq hqe
    rw [List.mem_filter, decide_eq_true_eq] at hq
    exact hq.2 (halone q hq.1 (hqe.trans he))
  · next he =>
    rw [newest, newest, halive, List.filter_filter]
    congr 1
    apply List.filter_congr
    intro q hq
    by_cases hqe : q.engine = engine
    · have hid : q.id ≠ p.id := by
        intro hid
        apply he
        rw [← hqe, id_unique h hp hq hid]
      simp [hqe, hid]
    · simp [hqe]

theorem destroyed_paid (h : Kept s) {remoteId : String}
    (hmapped : mappedAt s.clients p.client p.engine = some remoteId) {c : Clients}
    (hcalls : c.calls = s.clients.calls ++ [.destroySession p.client p.engine remoteId])
    (hafter : ∀ k j, mappedAt c k j =
      if k = p.client ∧ j = p.engine then none else mappedAt s.clients k j)
    (k j : Nat) (rid : String) : opened c k j rid =
      destroyed c k j rid + if mappedAt c k j = some rid then 1 else 0 := by
  have hpaid := h.paid k j rid
  rw [opened, destroyed] at hpaid ⊢
  rw [hcalls, hafter, List.count_append, List.count_append, List.count_singleton,
    List.count_singleton]
  by_cases hhere : k = p.client ∧ j = p.engine
  · obtain ⟨rfl, rfl⟩ := hhere
    rw [hmapped] at hpaid
    by_cases hrid : remoteId = rid <;> simp_all
  · have hne : ∀ rid', SessionRpc.destroySession p.client p.engine rid' ≠
        .destroySession k j rid := by
      intro rid' heq
      injection heq with hk hj
      exact hhere ⟨hk.symm, hj.symm⟩
    simp [hhere, hne, hpaid]

theorem kept_destroy (h : Kept s) (hfound : s.alive.find? (·.id = id) = some p)
    (halone : ∀ q ∈ s.alive, q.engine = p.engine → q.id = p.id) : Kept (step s (.destroy id)) := by
  have hp : p ∈ s.alive := List.mem_of_find?_eq_some hfound
  obtain ⟨remoteId, hmapped⟩ := h.session p hp
  have hne := h.named _ _ _ hmapped
  have hafter := mappedAt_destroySession hmapped hne
  have hcalls := destroySession_calls hmapped hne
  have hpooled : Pooled (destroySession p.client p.engine s.clients).2 := by
    rw [destroySession_mapped hmapped hne]
    exact pooled_onClient h.pooled p.client _
  rw [destroy_step hfound (h.isOpen p hp)]
  generalize (destroySession p.client p.engine s.clients).2 = c at hafter hcalls hpooled
  have hleft : ∀ q, q ∈ s.alive.filter (·.id ≠ p.id) ↔ q ∈ s.alive ∧ q.engine ≠ p.engine := by
    intro q
    rw [List.mem_filter, decide_eq_true_eq]
    constructor
    · rintro ⟨hq, hid⟩
      exact ⟨hq, fun he => hid (halone q hq he)⟩
    · rintro ⟨hq, he⟩
      exact ⟨hq, fun hid => he (by rw [id_unique h hp hq hid])⟩
  have hback : ∀ k j rid, mappedAt c k j = some rid → mappedAt s.clients k j = some rid ∧
      ¬(k = p.client ∧ j = p.engine) := by
    intro k j rid hm
    rw [hafter] at hm
    split at hm
    · cases hm
    · next hne => exact ⟨hm, hne⟩
  refine ⟨hpooled, h.ids.sublist (List.filter_sublist.map _), ?_, ?_, ?_, ?_, ?_, ?_,
    destroyed_paid h hmapped hcalls hafter⟩
  · intro q hq
    exact h.fresh q (List.mem_of_mem_filter hq)
  · intro q hq
    exact h.isOpen q (List.mem_of_mem_filter hq)
  · intro q hq
    obtain ⟨hold, he⟩ := (hleft q).mp hq
    obtain ⟨rid, hm⟩ := h.session q hold
    refine ⟨rid, ?_⟩
    rw [hafter, if_neg (fun hhere => he hhere.2), hm]
  · intro k j rid hm
    exact h.named k j rid (hback k j rid hm).1
  · intro k j rid hm
    obtain ⟨hold, hother⟩ := hback k j rid hm
    obtain ⟨q, hq, rfl, rfl⟩ := h.owner k j rid hold
    refine ⟨q, (hleft q).mpr ⟨hq, fun he => hother ⟨?_, he⟩⟩, rfl, rfl⟩
    rw [id_unique h hp hq (halone q hq he)]
  · intro engine
    rw [lookup_erase_eq, newest_filter h hp halone rfl, h.registry]
    split <;> rfl

theorem kept_step (h : Kept s) (e : Event) (hopen : OpenSucceeds s e) (halone : DestroysAlone s e) :
    Kept (step s e) := by
  cases e with
  | construct engine config reply =>
      obtain ⟨remoteId, rfl, hreply⟩ := hopen
      exact kept_constructed h (constructed h.pooled engine config hreply) hreply
  | destroy id =>
      cases hfound : s.alive.find? (·.id = id) with
      | none => simpa [step, hfound] using h
      | some p =>
          have hid : p.id = id := by simpa using List.find?_some hfound
          apply kept_destroy h hfound
          rw [hid]
          exact halone p (List.mem_of_find?_eq_some hfound) hid

theorem not_served_of_shared (h : Kept s) {e : Event} (hshared : ¬DestroysAlone s e) :
    ∃ engine, ¬Served (step s e) engine := by
  cases e with
  | construct engine config reply => exact absurd trivial hshared
  | destroy id =>
      simp only [DestroysAlone, not_forall] at hshared
      obtain ⟨p, hp, hid, q, hq, he, hne⟩ := hshared
      have hfound : s.alive.find? (·.id = id) = some p := by
        cases hf : s.alive.find? (·.id = id) with
        | none => exact absurd (by simpa using hid) (List.find?_eq_none.mp hf p hp)
        | some p' =>
            have hid' : p'.id = id := by simpa using List.find?_some hf
            rw [id_unique h hp (List.mem_of_find?_eq_some hf) (hid'.trans hid.symm)]
      refine ⟨p.engine, fun hserved => ?_⟩
      rw [destroy_step hfound (h.isOpen p hp), Served] at hserved
      split at hserved
      · next p' _ =>
        have hregistered := hserved.1
        rw [lookup_erase_eq, if_pos rfl] at hregistered
        cases hregistered
      · next hnone =>
        refine newest_none.mp hnone q ?_ he
        exact List.mem_filter.mpr ⟨hq, by simpa [hid] using hne⟩

end

/-- The newest instance is served in every state of a run exactly if no instance
is destroyed while another one of its engine is alive. -/
theorem newest_served_iff {events : List Event} (h : Allowed step OpenSucceeds start events) :
    Always step (fun s => ∀ engine, Served s engine) start events ↔
      Allowed step DestroysAlone start events := by
  refine always_iff_of_invariant Kept (fun s => served_of_kept) ?_ ?_ kept_start h
  · intro s e hk hopen halone
    exact kept_step hk e hopen halone
  · intro s e hk hopen hshared hserved
    obtain ⟨engine, hnot⟩ := not_served_of_shared hk hshared
    exact hnot (hserved engine)

instance (s : Processors) (e : Event) : Decidable (DestroysAlone s e) :=
  match e with
  | .construct _ _ _ => inferInstanceAs (Decidable True)
  | .destroy id =>
      inferInstanceAs (Decidable (∀ p ∈ s.alive, p.id = id →
        ∀ q ∈ s.alive, q.engine = p.engine → q.id = id))

theorem openSucceeds_answered {s : Processors} {engine : Nat} {config : RemoteConfig}
    {remoteId : String} (hne : remoteId ≠ "") :
    OpenSucceeds s (.construct engine config (some remoteId)) :=
  ⟨remoteId, rfl, hne⟩

def oneByOne : List Event :=
  [.construct 7 {} (some "1"), .destroy 0, .construct 7 {} (some "2"), .destroy 1]

def overlapping : List Event :=
  [.construct 7 {} (some "1"), .construct 7 {} (some "2"), .destroy 0]

theorem one_by_one_served :
    Always step (fun s => ∀ engine, Served s engine) start oneByOne := by
  have hopen : Allowed step OpenSucceeds start oneByOne :=
    ⟨openSucceeds_answered (by decide), trivial, openSucceeds_answered (by decide), trivial, trivial⟩
  exact (newest_served_iff hopen).mpr (by decide)

/-- The second instance is alive, but the registry has no state for the engine,
and its client no session. -/
theorem overlapping_unserved :
    Allowed step OpenSucceeds start overlapping ∧
      (run step start overlapping).alive = [⟨1, 7, {}, 0, true⟩] ∧
      (run step start overlapping).registry.lookup 7 = none ∧
      hasSession (run step start overlapping).clients 0 7 = false ∧
      ¬Served (run step start overlapping) 7 := by
  refine ⟨⟨openSucceeds_answered (by decide), openSucceeds_answered (by decide), trivial, trivial⟩,
    by decide, by decide, by decide, ?_⟩
  rintro ⟨hregistered, -⟩
  exact absurd hregistered (by decide)

end RimeWinime.Lifetimes
