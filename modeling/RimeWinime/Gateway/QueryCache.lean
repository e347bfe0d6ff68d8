import RimeWinime.Gateway.ImeClient
import RimeWinime.Gateway.WorkerLoop

namespace RimeWinime.QueryCache

open World Worker Pool Service Calls Run ImeClient

variable {P : Type}

/-- What becomes of a request on the pipe of a worker. -/
inductive PipeOutcome
  | carried
  | answerLost
  | requestLost
deriving DecidableEq

/-- A stub behind its pipe, and the requests that the pipe has been given. -/
structure PipedStub where
  runtime : WorkerRuntime
  requests : Nat
  outcome : Nat → PipeOutcome

/-- `outcome n` is what becomes of the requests to the n-th worker. -/
def pipedStub (outcome : Nat → Nat → PipeOutcome) : Machine PipedStub where
  spawn n := some ⟨(WorkerRuntime.backend.resetForNewSession WorkerRuntime.new).2, 0, outcome n⟩
  request req := fun p =>
    let r := handleBackendRequest WorkerRuntime.backend req p.runtime
    match p.outcome p.requests with
    | .carried => (.ok r.1, { p with runtime := r.2, requests := p.requests + 1 })
    | .answerLost =>
        (.error "worker closed pipe unexpectedly",
          { p with runtime := r.2, requests := p.requests + 1 })
    | .requestLost => (.error "write request failed", { p with requests := p.requests + 1 })

/-- What the machine answers is what the stub answers, in some state. -/
def StubAnswers (m : Machine P) : Prop :=
  ∀ req process resp, (m.request req process).1 = .ok resp →
    ∃ runtime, resp = (handleBackendRequest WorkerRuntime.backend req runtime).1

def views (candidates : List Candidate) : List CandidateView :=
  candidates.map fun c => ⟨c.text, c.comment⟩

def stubResult (text : String) (limit : Int32) : QueryResult where
  composition := text
  reading := text
  candidates := views (WorkerRuntime.fakeCandidates text limit.toNatClampNeg)
  selectedIndex := 0
  pageSize := limit

def Sound (c : GrpcImeClient) : Prop :=
  c.hasCachedQuery = true → ∃ text limit, c.cachedQuery = stubResult text limit

def shown (out : QueryResult) : String × String × List CandidateView :=
  (out.composition, out.reading, out.candidates)

theorem pipedStub_answers (outcome : Nat → Nat → PipeOutcome) : StubAnswers (pipedStub outcome) := by
  intro req p resp h
  refine ⟨p.runtime, ?_⟩
  simp only [pipedStub] at h
  split at h
  · cases h
    rfl
  · cases h
  · cases h

section

variable {m : Machine P}

theorem forward_ok {workerId what : String} {req : WorkerIpcRequest} {pool : WorkerPool P}
    {resp : WorkerIpcResponse} (h : (forward m workerId what req pool).1 = .ok resp) :
    ∃ process, (m.request req process).1 = .ok resp := by
  cases hworker : pool.workers.lookup workerId with
  | none =>
      simp only [forward, bind_run, requestWorker, hworker, pure_run] at h
      cases h
  | some worker =>
      exact ⟨worker.process, (((forward_puts m workerId what req).taken pool worker resp hworker).mp h).1⟩

def limitOf (req : QueryCandidatesRequest) : Nat :=
  if req.maxCandidates = 0 then 9 else req.maxCandidates.toNat

theorem applyQuery_reply (workerId : String) (req : QueryCandidatesRequest) (pool : WorkerPool P) :
    ∃ reply, (applyQuery m workerId req pool).1 = .done reply ∧
      (errorCode reply = some "" → ∃ process resp,
        (m.request (.queryCandidates req.inputSnapshot (limitOf req)) process).1 = .ok resp ∧
          reply = .queryCandidates ⟨req.sessionId, resp.backendStateVersion, resp.composition,
            resp.reading, resp.candidates, resp.selectedIndex, resp.pageSize, "", ""⟩) := by
  simp only [applyQuery, bind_run]
  rcases error_or_ok (queryCandidates m workerId req.inputSnapshot (limitOf req) pool).1 with
    ⟨message, hanswer⟩ | ⟨resp, hanswer⟩
  · rw [limitOf] at hanswer
    rw [hanswer]
    exact ⟨_, rfl, fun hcode => by simp [errorCode] at hcode⟩
  · obtain ⟨process, hprocess⟩ := forward_ok hanswer
    rw [limitOf] at hanswer
    rw [hanswer]
    exact ⟨_, rfl, fun _ => ⟨process, resp, hprocess, rfl⟩⟩

theorem query_reply {now : Nat} {req : QueryCandidatesRequest} {l : ImeClient.Link P} {reply : Reply}
    (h : (rpc m now (.queryCandidates req) l).1 = some reply) (hcode : errorCode reply = some "") :
    ∃ process resp,
      (m.request (.queryCandidates req.inputSnapshot (limitOf req)) process).1 = .ok resp ∧
        reply = .queryCandidates ⟨req.sessionId, resp.backendStateVersion, resp.composition,
          resp.reading, resp.candidates, resp.selectedIndex, resp.pageSize, "", ""⟩ := by
  have htarget : target (.queryCandidates req) = some req.sessionId := rfl
  simp only [rpc] at h
  cases hsession : l.state.sessions.lookup req.sessionId with
  | none =>
      obtain ⟨status, hserve⟩ := serve_unknown m now htarget hsession
      rw [hserve] at h
      cases h
      cases hcode
  | some session =>
      have hasked : asked (.queryCandidates req) session =
          some (.applyQuery session.workerId req, some (queried req)) := rfl
      obtain ⟨-, hserve⟩ := serve_asked m now htarget hsession hasked
      obtain ⟨answer, hanswer, hworker⟩ := applyQuery_reply (m := m) session.workerId req
        (store now req.sessionId session (some (queried req)) l.state).pool
      rw [hserve] at h
      simp only [advance, withPool, hanswer] at h
      cases h
      exact hworker hcode

theorem clampedMax_pos (maxCandidates : Int32) : 0 < clampedMax maxCandidates := by
  have hmax : clampedMax maxCandidates = if (1 : Int32) ≤ maxCandidates then maxCandidates else 1 := rfl
  have hone : (0 : Int32) < 1 := by decide
  rw [hmax]
  split
  · next hle => exact Int32.lt_of_lt_of_le hone hle
  · exact hone

theorem limitOf_clamped (sessionId : String) (seq : UInt64) (input : String) {limit : Int32}
    (h : 0 < limit) : limitOf ⟨sessionId, seq, input, limit.toUInt32⟩ = limit.toNatClampNeg := by
  have hnat : limit.toUInt32.toNat = limit.toNatClampNeg :=
    Int32.toNat_toUInt32_of_le (Int32.le_of_lt h)
  have hpos := (Int32.toNatClampNeg_pos_iff limit).mpr h
  have hsome : limit.toUInt32 ≠ 0 := by
    intro hzero
    rw [hzero] at hnat
    rw [← hnat] at hpos
    exact Nat.lt_irrefl 0 hpos
  rw [limitOf, if_neg hsome, hnat]

theorem pageSize_back {limit : Int32} (h : 0 < limit) :
    (UInt32.ofNat limit.toNatClampNeg).toInt32 = limit := by
  rw [UInt32.toInt32_ofNat', Int32.ofNat_toNatClampNeg limit (Int32.le_of_lt h)]

theorem queryResult_of_stub (hm : StubAnswers m) {now : Nat} {sessionId input : String} {seq : UInt64}
    {limit : Int32} (hlimit : 0 < limit) {l : ImeClient.Link P} {reply : Reply}
    (h : (rpc m now (.queryCandidates ⟨sessionId, seq, input, limit.toUInt32⟩) l).1 = some reply)
    (hcode : errorCode reply = some "") :
    ∃ text, (input ≠ "" → text = input) ∧ queryResult reply = stubResult text limit := by
  obtain ⟨process, resp, hresp, rfl⟩ := query_reply h hcode
  obtain ⟨runtime, rfl⟩ := hm _ _ _ hresp
  have hsome : limit.toNatClampNeg ≠ 0 :=
    Nat.ne_of_gt ((Int32.toNatClampNeg_pos_iff limit).mpr hlimit)
  refine ⟨if input ≠ "" then input else runtime.input, fun hinput => if_pos hinput, ?_⟩
  rw [limitOf_clamped sessionId seq input hlimit]
  simp only [handleBackendRequest, if_neg hsome]
  change QueryResult.mk _ _ _ _ (UInt32.ofNat limit.toNatClampNeg).toInt32 = _
  rw [pageSize_back hlimit]
  rfl

def SoundLink (l : ImeClient.Link P) : Prop := Sound l.client

theorem update_keeps {f : GrpcImeClient → GrpcImeClient} (h : ∀ c, Sound c → Sound (f c)) :
    Keeps (SoundLink (P := P)) (fun _ => True) (update f) := fun l hl => ⟨trivial, h l.client hl⟩

theorem rpc_keeps (now : Nat) (call : Call) {Q : Option Reply → Prop}
    (h : ∀ l, Q (rpc m now call l).1) : Keeps SoundLink Q (rpc m now call) := fun l hl => ⟨h l, hl⟩

theorem failFast_keeps : Keeps (SoundLink (P := P)) (fun _ => True) failFastIfNeeded :=
  update_keeps fun _ hc => hc

theorem handleStatus_keeps (code : Option String) :
    Keeps (SoundLink (P := P)) (fun ok => ok = true → code = some "") (handleStatusLocked code) := by
  refine Keeps.ite (fun hcode => Keeps.pure fun _ => hcode) fun _ => ?_
  exact failFast_keeps.bind fun _ _ => Keeps.pure fun h => by cases h

theorem observe_keeps {α : Type} (f : ImeClient.Link P → α) :
    Keeps SoundLink (fun _ => True) (observe f) := Keeps.observe fun _ _ => trivial

theorem ensureSession_keeps (now : Nat) (sessionId : String) :
    Keeps SoundLink (fun _ => True) (ensureSessionLocked m now sessionId) := by
  have hfailed : Keeps (SoundLink (P := P)) (fun _ => True) (do
      failFastIfNeeded
      pure false) := failFast_keeps.bind fun _ _ => Keeps.pure trivial
  refine (observe_keeps _).bind fun client _ => Keeps.ite (fun _ => Keeps.pure trivial) fun _ => ?_
  refine (rpc_keeps now _ (Q := fun _ => True) fun _ => trivial).bind fun reply _ => ?_
  rcases reply with _ | (_ | resp | _ | _ | _ | _)
  case some.openSession =>
    refine Keeps.ite (fun _ => hfailed) fun _ => ?_
    exact (update_keeps fun _ _ h => by cases h).bind fun _ _ => Keeps.pure trivial
  all_goals exact hfailed

theorem query_keeps (hm : StubAnswers m) (now : Nat) (input : String) (maxCandidates : Int32)
    (allowCached : Bool) :
    Keeps SoundLink (fun out => allowCached = false → ∀ fresh, out = some fresh →
        ∃ text, (input ≠ "" → text = input) ∧ fresh = stubResult text (clampedMax maxCandidates))
      (queryCandidatesLocked m now input maxCandidates allowCached) := by
  refine (observe_keeps _).bind fun client _ => Keeps.ite (fun hcached => ?_) fun _ => ?_
  · refine Keeps.pure fun hnot => ?_
    rw [hnot] at hcached
    cases hcached
  · refine (update_keeps (f := nextSeq) fun _ hc => hc).bind fun _ _ => (observe_keeps _).bind fun client _ => ?_
    refine (rpc_keeps now _ (Q := fun reply => ∀ r, reply = some r → errorCode r = some "" →
        ∃ text, (input ≠ "" → text = input) ∧
          queryResult r = stubResult text (clampedMax maxCandidates))
      fun l r hr hcode => queryResult_of_stub hm (clampedMax_pos _) hr hcode).bind fun reply hreply => ?_
    refine (handleStatus_keeps _).bind fun ok hok => Keeps.ite (fun hyes => ?_) fun _ =>
      Keeps.pure fun _ _ h => by cases h
    obtain ⟨r, hr, hcode⟩ := Option.bind_eq_some_iff.mp (hok hyes)
    obtain ⟨text, htext, hresult⟩ := hreply r hr hcode
    have hout : (reply.map queryResult).getD {} = stubResult text (clampedMax maxCandidates) := by
      rw [hr, ← hresult]
      rfl
    rw [hout]
    refine (update_keeps fun _ _ _ => ⟨text, _, rfl⟩).bind fun _ _ => Keeps.pure fun _ fresh hfresh => ?_
    exact ⟨text, htext, (Option.some.inj hfresh).symm⟩

theorem sendKeyEvent_keeps (hm : StubAnswers m) (now : Nat) (sessionId : String) (key : RimeKeyEvent)
    (timestampMs : Int64) :
    Keeps SoundLink (fun _ => True) (sendKeyEvent m now sessionId key timestampMs) := by
  refine (ensureSession_keeps now sessionId).bind fun ready _ =>
    Keeps.ite (fun _ => ?_) fun _ => Keeps.pure trivial
  refine (update_keeps (f := nextSeq) fun _ hc => hc).bind fun _ _ => (observe_keeps _).bind fun client _ => ?_
  refine (rpc_keeps now _ (Q := fun _ => True) fun _ => trivial).bind fun reply _ => ?_
  refine (handleStatus_keeps _).bind fun ok _ => Keeps.ite (fun _ => ?_) fun _ => Keeps.pure trivial
  refine Keeps.ite (fun _ => Keeps.pure trivial) fun _ => ?_
  exact (query_keeps hm now "" _ false).bind fun _ _ => Keeps.pure trivial

theorem commitSelection_keeps (now : Nat) (sessionId text : String) (index : Int32) (seqHint : UInt64) :
    Keeps SoundLink (fun _ => True)
      (ImeClient.commitSelection m now sessionId text index seqHint) := by
  refine (ensureSession_keeps now sessionId).bind fun ready _ =>
    Keeps.ite (fun _ => ?_) fun _ => Keeps.pure trivial
  refine (update_keeps fun c hc => ?_).bind fun _ _ => (observe_keeps _).bind fun client _ => ?_
  · split
    · exact hc
    · exact hc
  · refine (rpc_keeps now _ (Q := fun _ => True) fun _ => trivial).bind fun reply _ => ?_
    refine (handleStatus_keeps _).bind fun ok _ => Keeps.ite (fun _ => ?_) fun _ => Keeps.pure trivial
    exact (update_keeps fun _ _ h => by cases h).bind fun _ _ => Keeps.pure trivial

theorem perform_keeps (hm : StubAnswers m) (now : Nat) (sessionId : String) (call : ClientCall) :
    Keeps SoundLink (fun _ => True) (perform m now sessionId call) := by
  cases call with
  | sendKeyEvent key timestampMs => exact sendKeyEvent_keeps hm now sessionId key timestampMs
  | queryCandidates input maxCandidates =>
      refine Keeps.bind (P := fun _ => True) ?_ fun out _ => Keeps.pure trivial
      refine (ensureSession_keeps now sessionId).bind fun ready _ =>
        Keeps.ite (fun _ => ?_) fun _ => Keeps.pure trivial
      exact (query_keeps hm now input maxCandidates true).mono fun _ _ => trivial
  | commitSelection text index seqHint => exact commitSelection_keeps now sessionId text index seqHint

theorem happen_sound (hm : StubAnswers m) {s : Pairing P} (h : Sound s.link.client) (e : Happening) :
    Sound (happen m s e).link.client := by
  cases e with
  | call sessionId call =>
      simp only [happen, attempt]
      split
      · exact h
      · exact (perform_keeps hm s.clock sessionId call s.link h).2
  | reap order => exact h
  | tick elapsed => exact h

theorem run_sound (hm : StubAnswers m) (cfg : GrpcClientConfig) (pool : PoolConfig)
    (sessionIdleTtl : Nat) (history : List Happening) :
    Sound (run (happen m) (begin m cfg pool sessionIdleTtl) history).link.client :=
  run_invariant (fun s : Pairing P => Sound s.link.client) (fun _ e h => happen_sound hm h e)
    (fun h => by cases h) history

end

theorem take_stub {text : String} (htext : text ≠ "") (limit n : Nat) :
    (views (WorkerRuntime.fakeCandidates text limit)).take n =
      views (WorkerRuntime.fakeCandidates text (min n limit)) := by
  rw [WorkerLoop.fakeCandidates_eq htext, WorkerLoop.fakeCandidates_eq htext, views, views,
    ← List.map_take, List.take_take]

theorem length_stub {text : String} (htext : text ≠ "") (limit : Nat) :
    (views (WorkerRuntime.fakeCandidates text limit)).length = min limit 5 := by
  rw [views, List.length_map, WorkerLoop.fakeCandidates_eq htext, List.length_take]
  rfl

theorem stub_same_iff {text : String} (htext : text ≠ "") (a b : Nat) :
    views (WorkerRuntime.fakeCandidates text a) = views (WorkerRuntime.fakeCandidates text b) ↔
      min a 5 = min b 5 := by
  constructor
  · intro h
    rw [← length_stub htext a, h, length_stub htext b]
  · intro h
    rw [WorkerLoop.fakeCandidates_eq htext, WorkerLoop.fakeCandidates_eq htext]
    exact congrArg views (List.take_eq_take_iff.mpr h)

/-- An answer from the cache shows what the query would have shown just where the
query of the cached answer asked for as many candidates, or for all that the stub
has. -/
theorem cached_answer_iff (outcome : Nat → Nat → PipeOutcome) (cfg : GrpcClientConfig)
    (pool : PoolConfig) (sessionIdleTtl : Nat) (history : List Happening) (input : String)
    (maxCandidates : Int32) :
    let m := pipedStub outcome
    let s := run (happen m) (begin m cfg pool sessionIdleTtl) history
    let answer := fun allowCached =>
      (queryCandidatesLocked m s.clock input maxCandidates allowCached s.link).1
    s.link.client.cacheHit input = true → ∀ cached fresh, answer true = some cached →
      answer false = some fresh →
      (shown cached = shown fresh ↔
        min 5 (clampedMax maxCandidates).toNatClampNeg ≤
          s.link.client.cachedQuery.pageSize.toNatClampNeg) := by
  intro m s answer hhit cached fresh hcached hfresh
  have hm : StubAnswers m := pipedStub_answers outcome
  have hsound : Sound s.link.client := run_sound hm cfg pool sessionIdleTtl history
  obtain ⟨hkept, hrest⟩ : s.link.client.hasCachedQuery = true ∧ input ≠ "" ∧
      (s.link.client.cachedQuery.composition = input ∨ s.link.client.cachedQuery.reading = input) := by
    simpa [GrpcImeClient.cacheHit, and_assoc] using hhit
  obtain ⟨hinput, hmatch⟩ := hrest
  obtain ⟨text, limit, hquery⟩ := hsound hkept
  have htext : text = input := by
    rw [hquery] at hmatch
    exact hmatch.elim id id
  subst htext
  obtain ⟨text', hsame, rfl⟩ := (query_keeps hm s.clock text maxCandidates false s.link hsound).1 rfl fresh hfresh
  cases hsame hinput
  have hout : cached = s.link.client.cachedQuery.clamp (clampedMax maxCandidates) := by
    have hrun : answer true = some (s.link.client.cachedQuery.clamp (clampedMax maxCandidates)) := by
      simp only [answer, queryCandidatesLocked, bind_run, observe_run, Bool.true_and, hhit, reduceIte,
        pure_run]
    rw [hrun] at hcached
    exact (Option.some.inj hcached).symm
  have hcandidates : shown cached = shown (stubResult text (clampedMax maxCandidates)) ↔
      views (WorkerRuntime.fakeCandidates text
        (min (clampedMax maxCandidates).toNatClampNeg limit.toNatClampNeg)) =
      views (WorkerRuntime.fakeCandidates text (clampedMax maxCandidates).toNatClampNeg) := by
    rw [hout, hquery]
    simp only [shown, QueryResult.clamp, stubResult, take_stub hinput, Prod.mk.injEq, true_and]
  have hpage : s.link.client.cachedQuery.pageSize = limit := by rw [hquery]; rfl
  rw [hcandidates, stub_same_iff hinput, hpage]
  omega

def asked (limit : Int32) : Pairing PipedStub :=
  run (happen (pipedStub fun _ _ => .carried)) (begin (pipedStub fun _ _ => .carried) {} ⟨0, 4, false⟩ 300)
    [.call "s" (.queryCandidates "ni" limit)]

def answerOf (limit maxCandidates : Int32) (allowCached : Bool) : Option QueryResult :=
  (queryCandidatesLocked (pipedStub fun _ _ => .carried) (asked limit).clock "ni" maxCandidates
    allowCached (asked limit).link).1

/-- Nine candidates are cached, and three of them asked for. -/
theorem fewer_from_cache :
    (asked 9).link.client.cacheHit "ni" = true ∧
      shown ((answerOf 9 3 true).getD {}) = shown ((answerOf 9 3 false).getD {}) :=
  ⟨by decide,
    (cached_answer_iff (fun _ _ => .carried) {} ⟨0, 4, false⟩ 300
      [.call "s" (.queryCandidates "ni" 9)] "ni" 3 (by decide) _ _ (by decide) (by decide)).mpr
      (by decide)⟩

/-- Two candidates are cached, and nine asked for: the cache has two, the worker five. -/
theorem cache_falls_short :
    (asked 2).link.client.cacheHit "ni" = true ∧
      ((answerOf 2 9 true).map fun out => out.candidates.map (·.text)) = some ["ni", "ni1"] ∧
      ((answerOf 2 9 false).map fun out => out.candidates.map (·.text)) =
        some ["ni", "ni1", "ni2", "ni3", "ni4"] := by
  refine ⟨?_, ?_, ?_⟩ <;> decide

end RimeWinime.QueryCache
