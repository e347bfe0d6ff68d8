import Mathlib.Algebra.Group.Nat.Defs
import RimeWinime.Gateway.ImeClient
import RimeWinime.Gateway.Partition

namespace RimeWinime.ImeCalls

open World Worker Table Pool Service Steps Calls ImeClient
open RimeWinime.Partition
  (taken answersReset answered spawnOr_cases obtainWorker_cases acquire_of_obtained)

variable {P : Type}

def queryLimit (maxCandidates : Int32) : Nat :=
  let sent := (clampedMax maxCandidates).toUInt32
  if sent = 0 then 9 else sent.toNat

def queryRequest (input : String) (maxCandidates : Int32) : WorkerIpcRequest :=
  .queryCandidates input (queryLimit maxCandidates)

/-- The requests that a call puts to the worker of the session. -/
def requests (c : GrpcImeClient) : ClientCall → List WorkerIpcRequest
  | .sendKeyEvent key timestampMs =>
      .sendKeyEvent (backendEvent (keyMessage key 0 timestampMs)) 9 ::
        if key.release then [] else [queryRequest "" c.cfg.maxCandidates]
  | .queryCandidates input maxCandidates =>
      if c.cacheHit input then [] else [queryRequest input maxCandidates]
  | .commitSelection committedText candidateIndex _ =>
      [.commitSelection committedText (commitIndex candidateIndex).toNat]

def answersAll (m : Machine P) : List WorkerIpcRequest → P → Bool
  | [], _ => true
  | req :: rest, process =>
      accepted (m.request req process).1 && answersAll m rest (m.request req process).2

/-- The number of times that a call moves the client's counter. -/
def draws (c : GrpcImeClient) : ClientCall → Nat
  | .sendKeyEvent key _ => if key.release then 1 else 2
  | .queryCandidates input _ => if c.cacheHit input then 0 else 1
  | .commitSelection _ _ seqHint => if 0 < seqHint then 0 else 1

/-- The session is the only one; `process` runs at its worker, and its last
number is at most `bound`. -/
structure Serving (s : GatewayState P) (sessionId : String) (process : P) (bound : UInt64) :
    Prop where
  entry : ∃ session worker, s.sessions.lookup sessionId = some session ∧
    session.lastSeq ≤ bound ∧ s.pool.workers.lookup session.workerId = some worker ∧
    worker.process = process
  only : ∀ j ∈ s.sessions, j = sessionId

section

variable {m : Machine P} {now : Nat} {s : GatewayState P} {sessionId : String} {process : P}
  {bound bound' : UInt64}

def asks : Call → Option WorkerIpcRequest
  | .openSession _ _ => none
  | .sendKeyEvent req => req.keyEvent.map fun event => .sendKeyEvent (backendEvent event) 9
  | .queryCandidates req =>
      some (.queryCandidates req.inputSnapshot
        (if req.maxCandidates = 0 then 9 else req.maxCandidates.toNat))
  | .commitSelection req => some (.commitSelection req.committedText req.candidateIndex.toNat)
  | .resetSession _ => some .resetSession

/-- A key is numbered above `bound`, and nothing above `bound'`. -/
def Admits (call : Call) (bound bound' : UInt64) : Prop :=
  bound ≤ bound' ∧
    match call with
    | .sendKeyEvent req => ∀ event ∈ req.keyEvent, bound < event.seq ∧ event.seq ≤ bound'
    | .queryCandidates req => req.seq ≤ bound'
    | .commitSelection req => req.seq ≤ bound'
    | _ => True

theorem answered_done {workerId : String} {req : WorkerIpcRequest} {pool : WorkerPool P}
    {worker : WorkerProcess P} {x : Act (WorkerPool P) (Except String WorkerIpcResponse)}
    (hx : Puts m workerId req x) (hw : pool.workers.lookup workerId = some worker)
    (haccepted : accepted (m.request req worker.process).1 = true)
    {op : Act (WorkerPool P) Handler} {ok : WorkerIpcResponse → Reply}
    {failed : String → Act (WorkerPool P) Handler}
    (hop : op = do
      match ← x with
      | .ok resp => pure (.done (ok resp))
      | .error message => failed message)
    (hcode : ∀ resp, errorCode (ok resp) = some "") :
    ∃ reply, (op pool).1 = .done reply ∧ errorCode reply = some "" ∧
      (op pool).2.workers = pool.workers.insert workerId (WorkerProcess.request m req worker).2 := by
  obtain ⟨resp, hresp, hok⟩ :
      ∃ resp, (m.request req worker.process).1 = .ok resp ∧ resp.ok = true := by
    cases hanswer : (m.request req worker.process).1 with
    | ok resp => exact ⟨resp, rfl, by rwa [hanswer] at haccepted⟩
    | error e =>
        rw [hanswer] at haccepted
        cases haccepted
  have hrun : (x pool).1 = .ok resp := (hx.taken pool worker resp hw).mpr ⟨hresp, hok⟩
  subst hop
  refine ⟨ok resp, ?_, hcode resp, ?_⟩
  · simp only [bind_run, hrun]
    rfl
  · simp only [bind_run, hrun]
    exact hx.workers pool worker hw

theorem Serving.after {s' : GatewayState P} {session : SessionState} {worker : WorkerProcess P}
    {change : SessionState → SessionState} (h : Serving s sessionId process bound)
    (hsessions : s'.sessions = s.sessions.insert sessionId ((change session).touch now))
    (hlast : (change session).lastSeq ≤ bound')
    (hsame : (change session).workerId = session.workerId)
    (hworkers : s'.pool.workers = s.pool.workers.insert session.workerId worker) :
    Serving s' sessionId worker.process bound' := by
  refine ⟨⟨(change session).touch now, worker, ?_, hlast, ?_, rfl⟩, fun j hj => ?_⟩
  · rw [hsessions, AList.lookup_insert]
  · have hworker : ((change session).touch now).workerId = session.workerId := hsame
    rw [hworkers, hworker, AList.lookup_insert]
  · rw [hsessions] at hj
    rcases (AList.mem_insert _).mp hj with rfl | hold
    · rfl
    · exact h.only j hold

theorem max_bound {a b : UInt64} (ha : a ≤ bound) (hb : b ≤ bound) : max a b ≤ bound := by
  have hmax : max a b = if a ≤ b then b else a := rfl
  rw [hmax]
  split
  · exact hb
  · exact ha

theorem queried_bound {req : QueryCandidatesRequest} {session : SessionState}
    (hlast : session.lastSeq ≤ bound') (hseq : req.seq ≤ bound') :
    (queried req session).lastSeq ≤ bound' := by
  rw [queried]
  split
  · exact max_bound hlast hseq
  · exact hlast

theorem rpc_served (now : Nat) {l : Link P} {call : Call} {req : WorkerIpcRequest}
    (h : Serving l.state sessionId process bound) (hcall : target call = some sessionId)
    (hreq : asks call = some req) (hadmits : Admits call bound bound')
    (haccepted : accepted (m.request req process).1 = true) :
    ∃ reply s', rpc m now call l = (some reply, { l with state := s' }) ∧
      errorCode reply = some "" ∧ Serving s' sessionId (m.request req process).2 bound' := by
  obtain ⟨session, worker, hs, hlast, hw, rfl⟩ := h.entry
  have hdone {handler : Handler} {change : SessionState → SessionState}
      {op : Act (WorkerPool P) Handler} (hasked : asked call session = some (handler, some change))
      (hop : ∀ s : GatewayState P, advance m now handler s = withPool op s)
      (hbound : (change session).lastSeq ≤ bound')
      (hrun : ∃ reply, (op l.state.pool).1 = .done reply ∧ errorCode reply = some "" ∧
        (op l.state.pool).2.workers =
          l.state.pool.workers.insert session.workerId (WorkerProcess.request m req worker).2) :
      ∃ reply s', rpc m now call l = (some reply, { l with state := s' }) ∧
        errorCode reply = some "" ∧ Serving s' sessionId (m.request req worker.process).2 bound' := by
    obtain ⟨reply, hreply, hcode, hworkers⟩ := hrun
    obtain ⟨-, hserve⟩ := serve_asked m now hcall hs hasked
    have hafter : Serving (withPool op (store now sessionId session (some change) l.state)).2
        sessionId (WorkerProcess.request m req worker).2.process bound' :=
      h.after rfl hbound (asked_workerId hasked) hworkers
    refine ⟨reply, _, ?_, hcode, hafter⟩
    rw [rpc, hserve, hop]
    simp only [withPool, store, hreply]
  cases call with
  | openSession id open_ => cases hcall
  | sendKeyEvent key =>
      cases hcall
      obtain ⟨event, hevent, rfl⟩ := Option.map_eq_some_iff.mp hreq
      obtain ⟨hfresh, hseq⟩ := hadmits.2 event hevent
      have hnew : ¬event.seq ≤ session.lastSeq :=
        UInt64.not_le.mpr (UInt64.lt_of_le_of_lt hlast hfresh)
      have hasked : asked (.sendKeyEvent key) session =
          some (.applyKey key.sessionId session.workerId event, some (keyed event)) := by
        rw [asked, hevent, Option.map_some, if_neg hnew]
      apply hdone hasked (fun _ => rfl)
      · exact hseq
      · exact answered_done (forward_puts m _ _ _) hw haccepted rfl fun _ => rfl
  | queryCandidates query =>
      cases hcall
      cases hreq
      apply hdone rfl (fun _ => rfl)
      · exact queried_bound (UInt64.le_trans hlast hadmits.1) hadmits.2
      · exact answered_done (forward_puts m _ _ _) hw haccepted rfl fun _ => rfl
  | commitSelection commit =>
      cases hcall
      cases hreq
      apply hdone rfl (fun _ => rfl)
      · exact max_bound (UInt64.le_trans hlast hadmits.1) hadmits.2
      · exact answered_done (commitSelection_puts m _ _ _) hw haccepted rfl fun _ => rfl
  | resetSession reset =>
      cases hcall
      cases hreq
      apply hdone rfl (fun _ => rfl)
      · exact UInt64.le_trans hlast hadmits.1
      · exact answered_done (forward_puts m _ _ _) hw haccepted rfl fun _ => rfl

end

section

variable (m : Machine P) {pool : WorkerPool P} {process : P}

theorem obtainWorker_taken (h : taken m pool true = some process) :
    ∃ id held worker, obtainWorker m true pool = (.ok id, held) ∧
      held.workers.lookup id = some worker ∧ worker.process = process := by
  rcases obtainWorker_cases m true pool with ⟨id, rest, -, htaken, hrun⟩ | ⟨failure, htaken, hrun⟩
  · rw [htaken] at h
    obtain ⟨worker, hw, hprocess⟩ := Option.map_eq_some_iff.mp h
    exact ⟨id, { pool with idle := rest }, worker, hrun, hw, hprocess⟩
  · rw [htaken] at h
    rcases spawnOr_cases m failure pool with ⟨-, hnone⟩ | ⟨fresh, hsome, hspawn⟩
    · cases hnone.symm.trans h
    · exact ⟨_, _, ⟨(m.request .resetSession fresh).2, [true]⟩, hrun.trans hspawn,
        AList.lookup_insert _, Option.some.inj (hsome.symm.trans h)⟩

theorem acquire_taken (htaken : taken m pool true = some process)
    (hreset : answersReset m process = true) (sessionId : String) :
    ∃ workerId version pool' worker,
      acquireForSession m sessionId true pool = (.ok (workerId, version), pool') ∧
        pool'.workers.lookup workerId = some worker ∧
        worker.process = (m.request .resetSession process).2 := by
  obtain ⟨id, held, worker, hrun, hw, rfl⟩ := obtainWorker_taken m htaken
  rcases acquire_of_obtained hrun hw sessionId with ⟨-, version, hacquired⟩ | ⟨hno, -⟩
  · exact ⟨id, version, _, answered m worker, hacquired, AList.lookup_insert _, rfl⟩
  · cases hno.symm.trans hreset

theorem serve_open (now : Nat) {s : GatewayState P} {sessionId workerId : String} {version : UInt64}
    {pool' : WorkerPool P}
    (h : acquireForSession m sessionId true s.pool = (.ok (workerId, version), pool')) :
    ∃ resp, serve m now (.openSession sessionId ⟨true⟩) s =
        (.done (.openSession resp),
          { s with sessions := s.sessions.insert sessionId ⟨workerId, 0, now⟩, pool := pool' }) ∧
      resp.sessionId = sessionId := by
  refine ⟨⟨sessionId, workerId, version, UInt32.ofNat pool'.idle.length⟩, ?_, rfl⟩
  simp only [serve, bind_run, advance, withPool, Service.openSession, h]
  rfl

end

/-- The client has a session, and `process` is at its service. -/
structure Linked (l : Link P) (process : P) : Prop where
  running : l.client.stopped = false
  opened : l.client.sessionId ≠ ""
  serving : Serving l.state l.client.sessionId process l.client.seq

/-- The client has not had a session. -/
structure Unopened (l : Link P) : Prop where
  running : l.client.stopped = false
  sessionId : l.client.sessionId = ""
  seq : l.client.seq = 0
  cached : l.client.hasCachedQuery = false
  sessions : ∀ j, j ∉ l.state.sessions

section

variable {m : Machine P} {now : Nat} {l : Link P} {process : P} {sessionId : String}

theorem ensureSession_held (h : l.client.sessionId ≠ "") :
    ensureSessionLocked m now sessionId l = (true, l) := by
  simp [ensureSessionLocked, h]

theorem ensureSession_opens (now : Nat) (h : Unopened l) (hid : sessionId ≠ "")
    (htaken : taken m l.state.pool true = some process) (hreset : answersReset m process = true) :
    ∃ s', ensureSessionLocked m now sessionId l =
        (true, ⟨{ l.client with sessionId := sessionId }, s'⟩) ∧
      Linked ⟨{ l.client with sessionId := sessionId }, s'⟩ (m.request .resetSession process).2 := by
  obtain ⟨workerId, version, pool', worker, hacquired, hw, hprocess⟩ :=
    acquire_taken m htaken hreset sessionId
  obtain ⟨resp, hserve, hresp⟩ := serve_open m now hacquired
  refine ⟨{ l.state with
    sessions := l.state.sessions.insert sessionId ⟨workerId, 0, now⟩, pool := pool' }, ?_, ?_⟩
  · have hrpc : rpc m now (.openSession sessionId ⟨true⟩) l = (some (.openSession resp), { l with
        state := { l.state with
          sessions := l.state.sessions.insert sessionId ⟨workerId, 0, now⟩, pool := pool' } }) := by
      rw [rpc, hserve]
    have hsame : { l.client with sessionId := sessionId, seq := 0, hasCachedQuery := false } =
        { l.client with sessionId := sessionId } := by rw [← h.seq, ← h.cached]
    simp only [ensureSessionLocked, bind_run, observe_run, h.sessionId, ne_eq, not_true, if_false,
      hrpc, hresp, if_neg hid, update, change_run, pure_run, hsame]
  · refine ⟨h.running, hid,
      ⟨⟨workerId, 0, now⟩, worker, AList.lookup_insert _, ?_, hw, hprocess⟩, ?_⟩
    · exact UInt64.zero_le
    · intro j hj
      rcases (AList.mem_insert _).mp hj with rfl | hold
      · rfl
      · exact absurd hold (h.sessions j)

def numbered (l : Link P) (seq : UInt64) : Link P :=
  { l with client := { l.client with seq := seq } }

@[simp] theorem numbered_sessionId (l : Link P) (seq : UInt64) :
    (numbered l seq).client.sessionId = l.client.sessionId := rfl

@[simp] theorem numbered_seq (l : Link P) (seq : UInt64) : (numbered l seq).client.seq = seq := rfl

@[simp] theorem numbered_cfg (l : Link P) (seq : UInt64) :
    (numbered l seq).client.cfg = l.client.cfg := rfl

def hinted (l : Link P) (seqHint : UInt64) : UInt64 :=
  if 0 < seqHint then l.client.seq else l.client.seq + 1

theorem update_nextSeq (l : Link P) : update nextSeq l = ((), numbered l (l.client.seq + 1)) := rfl

theorem update_hinted (l : Link P) (seqHint : UInt64) :
    update (fun c => if 0 < seqHint then c else nextSeq c) l =
      ((), numbered l (hinted l seqHint)) := by
  rw [update, change_run, hinted]
  split
  · rfl
  · rfl

theorem next_toNat {seq : UInt64} (h : seq.toNat + 1 < 2 ^ 64) :
    (seq + 1).toNat = seq.toNat + 1 := by
  rw [UInt64.toNat_add]
  exact Nat.mod_eq_of_lt h

theorem lt_next {seq : UInt64} (h : seq.toNat + 1 < 2 ^ 64) : seq < seq + 1 := by
  rw [UInt64.lt_iff_toNat_lt, next_toNat h]
  exact Nat.lt_succ_self _

theorem handleStatus_ok (l : Link P) : handleStatusLocked (some "") l = (true, l) := rfl

theorem rpc_linked (now : Nat) {call : Call} {req : WorkerIpcRequest} {seq : UInt64}
    (h : Linked l process) (hcall : target call = some l.client.sessionId)
    (hreq : asks call = some req) (hadmits : Admits call l.client.seq seq)
    (haccepted : accepted (m.request req process).1 = true) :
    ∃ reply s', rpc m now call (numbered l seq) = (some reply, ⟨(numbered l seq).client, s'⟩) ∧
      errorCode reply = some "" ∧
      Linked ⟨(numbered l seq).client, s'⟩ (m.request req process).2 := by
  have hserving : Serving (numbered l seq).state l.client.sessionId process l.client.seq := h.serving
  obtain ⟨reply, s', hrpc, hcode, hserved⟩ :=
    rpc_served now hserving hcall hreq hadmits haccepted
  exact ⟨reply, s', hrpc, hcode, h.running, h.opened, hserved⟩

theorem queryLocked_answered (now : Nat) (allowCached : Bool) {input : String}
    {maxCandidates : Int32} (h : Linked l process)
    (hmiss : (allowCached && l.client.cacheHit input) = false)
    (hroom : l.client.seq.toNat + 1 < 2 ^ 64)
    (haccepted : accepted (m.request (queryRequest input maxCandidates) process).1 = true) :
    ∃ out l', queryCandidatesLocked m now input maxCandidates allowCached l = (some out, l') ∧
      Linked l' (m.request (queryRequest input maxCandidates) process).2 ∧
      l'.client.sessionId = l.client.sessionId := by
  have hadmits : Admits (.queryCandidates ⟨l.client.sessionId, l.client.seq + 1, input,
      (clampedMax maxCandidates).toUInt32⟩) l.client.seq (l.client.seq + 1) :=
    ⟨UInt64.le_of_lt (lt_next hroom), UInt64.le_refl _⟩
  obtain ⟨reply, s', hrpc, hcode, hlinked⟩ := rpc_linked now h rfl rfl hadmits haccepted
  have hcached : Linked ⟨{ (numbered l (l.client.seq + 1)).client with
      cachedQuery := queryResult reply, hasCachedQuery := true }, s'⟩ _ :=
    ⟨hlinked.running, hlinked.opened, hlinked.serving⟩
  refine ⟨queryResult reply, _, ?_, hcached, rfl⟩
  rw [queryCandidatesLocked, bind_run, observe_run]
  simp only [hmiss, Bool.false_eq_true, reduceIte, bind_run, update_nextSeq, observe_run,
    numbered_sessionId, numbered_seq, hrpc, Option.bind_some, hcode, handleStatus_ok]
  rfl

/-- The call has succeeded, and the client still has its session. -/
structure Answered (sessionId : String) (r : Bool × Link P) : Prop where
  ok : r.1 = true
  linked : ∃ process, Linked r.2 process
  same : r.2.client.sessionId = sessionId

section

variable {l₀ : Link P} (hready : ensureSessionLocked m now sessionId l₀ = (true, l))

include hready

theorem sendKeyEvent_answered {key : RimeKeyEvent} {timestampMs : Int64} (h : Linked l process)
    (hroom : l.client.seq.toNat + draws l.client (.sendKeyEvent key timestampMs) < 2 ^ 64)
    (hanswers : answersAll m (requests l.client (.sendKeyEvent key timestampMs)) process = true) :
    Answered l.client.sessionId
      (ImeClient.sendKeyEvent m now sessionId key timestampMs l₀) := by
  rw [requests, answersAll, Bool.and_eq_true] at hanswers
  obtain ⟨haccepted, hafter⟩ := hanswers
  have hone : l.client.seq.toNat + 1 < 2 ^ 64 := by
    rw [draws] at hroom
    split at hroom <;> omega
  have hadmits : Admits (.sendKeyEvent ⟨l.client.sessionId,
      some (keyMessage key (l.client.seq + 1) timestampMs)⟩) l.client.seq (l.client.seq + 1) := by
    refine ⟨UInt64.le_of_lt (lt_next hone), ?_⟩
    rintro event ⟨⟩
    exact ⟨lt_next hone, UInt64.le_refl _⟩
  obtain ⟨reply, s', hrpc, hcode, hlinked⟩ := rpc_linked now h rfl rfl hadmits haccepted
  rw [ImeClient.sendKeyEvent, bind_run, hready]
  simp only [reduceIte, bind_run, update_nextSeq, observe_run, numbered_sessionId, numbered_seq,
    hrpc, Option.bind_some, hcode, handleStatus_ok]
  cases hrelease : key.release with
  | true => exact ⟨rfl, ⟨_, hlinked⟩, rfl⟩
  | false =>
      -- the query that follows a key that goes down
      rw [hrelease] at hafter
      have hroom' : (l.client.seq + 1).toNat + 1 < 2 ^ 64 := by
        rw [next_toNat hone]
        simpa [draws, hrelease] using hroom
      obtain ⟨out, l', hquery, hlinked', hsame⟩ := queryLocked_answered now false hlinked rfl
        hroom' (Bool.and_eq_true_iff.mp hafter).1
      simp only [Bool.false_eq_true, reduceIte, bind_run, numbered_cfg, hquery]
      exact ⟨rfl, ⟨_, hlinked'⟩, hsame⟩

theorem queryCandidates_answered {input : String} {maxCandidates : Int32} (h : Linked l process)
    (hroom : l.client.seq.toNat + draws l.client (.queryCandidates input maxCandidates) < 2 ^ 64)
    (hanswers : answersAll m (requests l.client (.queryCandidates input maxCandidates)) process =
      true) :
    Answered l.client.sessionId
      (perform m now sessionId (.queryCandidates input maxCandidates) l₀) := by
  rw [perform, bind_run, ImeClient.queryCandidates, bind_run, hready]
  simp only [reduceIte]
  cases hhit : l.client.cacheHit input with
  | true =>
      have hcached : queryCandidatesLocked m now input maxCandidates true l =
          (some (l.client.cachedQuery.clamp (clampedMax maxCandidates)), l) := by
        simp [queryCandidatesLocked, hhit]
      rw [hcached]
      exact ⟨rfl, ⟨_, h⟩, rfl⟩
  | false =>
      rw [requests, hhit] at hanswers
      rw [draws, hhit] at hroom
      obtain ⟨out, l', hquery, hlinked, hsame⟩ := queryLocked_answered now true h hhit hroom
        (Bool.and_eq_true_iff.mp hanswers).1
      rw [hquery]
      exact ⟨rfl, ⟨_, hlinked⟩, hsame⟩

theorem commitSelection_answered {committedText : String} {candidateIndex : Int32}
    {seqHint : UInt64} (h : Linked l process)
    (hroom : l.client.seq.toNat +
      draws l.client (.commitSelection committedText candidateIndex seqHint) < 2 ^ 64)
    (hhint : seqHint ≤ l.client.seq)
    (hanswers : answersAll m
      (requests l.client (.commitSelection committedText candidateIndex seqHint)) process = true) :
    Answered l.client.sessionId
      (ImeClient.commitSelection m now sessionId committedText candidateIndex seqHint l₀) := by
  have hadmits : Admits (.commitSelection ⟨l.client.sessionId,
      if 0 < seqHint then seqHint else hinted l seqHint, commitIndex candidateIndex, committedText⟩)
      l.client.seq (hinted l seqHint) := by
    rw [Admits, hinted]
    by_cases hgiven : 0 < seqHint
    · simp only [if_pos hgiven]
      exact ⟨UInt64.le_refl _, hhint⟩
    · rw [draws, if_neg hgiven] at hroom
      simp only [if_neg hgiven]
      exact ⟨UInt64.le_of_lt (lt_next hroom), UInt64.le_refl _⟩
  obtain ⟨reply, s', hrpc, hcode, hlinked⟩ :=
    rpc_linked now h rfl rfl hadmits (Bool.and_eq_true_iff.mp hanswers).1
  rw [ImeClient.commitSelection, bind_run, hready]
  simp only [reduceIte, bind_run, update_hinted, observe_run, numbered_sessionId, numbered_seq,
    hrpc, Option.bind_some, hcode, handleStatus_ok]
  exact ⟨rfl, ⟨_, hlinked.running, hlinked.opened, hlinked.serving⟩, rfl⟩

end

theorem perform_answered {call : ClientCall} {l₀ : Link P}
    (hready : ensureSessionLocked m now sessionId l₀ = (true, l)) (h : Linked l process)
    (hroom : l.client.seq.toNat + draws l.client call < 2 ^ 64)
    (hhint : ∀ text index seqHint, call = .commitSelection text index seqHint →
      seqHint ≤ l.client.seq)
    (hanswers : answersAll m (requests l.client call) process = true) :
    Answered l.client.sessionId (perform m now sessionId call l₀) := by
  cases call with
  | sendKeyEvent key timestampMs => exact sendKeyEvent_answered hready h hroom hanswers
  | queryCandidates input maxCandidates => exact queryCandidates_answered hready h hroom hanswers
  | commitSelection text index seqHint =>
      exact commitSelection_answered hready h hroom (hhint text index seqHint rfl) hanswers

end

structure Lost (l : Link P) : Prop where
  opened : l.client.sessionId ≠ ""
  gone : l.client.sessionId ∉ l.state.sessions

def fromCache (c : GrpcImeClient) : ClientCall → Bool
  | .queryCandidates input _ => c.cacheHit input
  | _ => false

/-- The client has changed its own fields at most, and keeps the id. -/
structure Stuck (l l' : Link P) : Prop where
  state : l'.state = l.state
  sessionId : l'.client.sessionId = l.client.sessionId

section

variable {m : Machine P} {now : Nat} {l : Link P} {sessionId : String}

theorem Stuck.lost {l' : Link P} (h : Lost l) (hstuck : Stuck l l') : Lost l' := by
  refine ⟨?_, ?_⟩
  · rw [hstuck.sessionId]
    exact h.opened
  · rw [hstuck.state, hstuck.sessionId]
    exact h.gone

theorem rpc_lost (m : Machine P) (now : Nat) (h : Lost l) (call : Call) (seq : UInt64)
    (hcall : target call = some l.client.sessionId) :
    ∃ status, rpc m now call (numbered l seq) = (some (.failed status), numbered l seq) := by
  have hgone : (numbered l seq).state.sessions.lookup l.client.sessionId = none :=
    AList.lookup_eq_none.mpr h.gone
  obtain ⟨status, hserve⟩ := serve_unknown m now hcall hgone
  refine ⟨status, ?_⟩
  rw [rpc, hserve]

theorem handleStatus_failed (l : Link P) : (handleStatusLocked none l).1 = false := rfl

theorem queryLocked_lost (m : Machine P) (now : Nat) (h : Lost l) (input : String)
    (maxCandidates : Int32) (allowCached : Bool) :
    (queryCandidatesLocked m now input maxCandidates allowCached l).1.isSome =
        (allowCached && l.client.cacheHit input) ∧
      Stuck l (queryCandidatesLocked m now input maxCandidates allowCached l).2 := by
  rw [queryCandidatesLocked, bind_run, observe_run]
  cases hhit : allowCached && l.client.cacheHit input with
  | true =>
      simp only [reduceIte]
      exact ⟨rfl, rfl, rfl⟩
  | false =>
      obtain ⟨status, hrpc⟩ := rpc_lost m now h (.queryCandidates ⟨l.client.sessionId,
        l.client.seq + 1, input, (clampedMax maxCandidates).toUInt32⟩) (l.client.seq + 1) rfl
      simp only [Bool.false_eq_true, reduceIte, bind_run, update_nextSeq, observe_run,
        numbered_sessionId, numbered_seq, hrpc, Option.bind_some, errorCode, handleStatus_failed]
      exact ⟨rfl, rfl, rfl⟩

theorem sendKeyEvent_lost (h : Lost l) (key : RimeKeyEvent) (timestampMs : Int64) :
    (ImeClient.sendKeyEvent m now sessionId key timestampMs l).1 = false ∧
      Stuck l (ImeClient.sendKeyEvent m now sessionId key timestampMs l).2 := by
  obtain ⟨status, hrpc⟩ := rpc_lost m now h (.sendKeyEvent ⟨l.client.sessionId,
    some (keyMessage key (l.client.seq + 1) timestampMs)⟩) (l.client.seq + 1) rfl
  rw [ImeClient.sendKeyEvent, bind_run, ensureSession_held h.opened]
  simp only [reduceIte, bind_run, update_nextSeq, observe_run, numbered_sessionId, numbered_seq,
    hrpc, Option.bind_some, errorCode, handleStatus_failed, Bool.false_eq_true]
  exact ⟨rfl, rfl, rfl⟩

theorem commitSelection_lost (h : Lost l) (committedText : String) (candidateIndex : Int32)
    (seqHint : UInt64) :
    (ImeClient.commitSelection m now sessionId committedText candidateIndex seqHint l).1 = false ∧
      Stuck l (ImeClient.commitSelection m now sessionId committedText candidateIndex seqHint l).2 := by
  obtain ⟨status, hrpc⟩ := rpc_lost m now h (.commitSelection ⟨l.client.sessionId,
    if 0 < seqHint then seqHint else hinted l seqHint, commitIndex candidateIndex, committedText⟩)
    (hinted l seqHint) rfl
  rw [ImeClient.commitSelection, bind_run, ensureSession_held h.opened]
  simp only [reduceIte, bind_run, update_hinted, observe_run, numbered_sessionId, numbered_seq,
    hrpc, Option.bind_some, errorCode, handleStatus_failed, Bool.false_eq_true]
  exact ⟨rfl, rfl, rfl⟩

theorem perform_lost (h : Lost l) (call : ClientCall) :
    (perform m now sessionId call l).1 = fromCache l.client call ∧
      Stuck l (perform m now sessionId call l).2 := by
  cases call with
  | sendKeyEvent key timestampMs => exact sendKeyEvent_lost h key timestampMs
  | queryCandidates input maxCandidates =>
      obtain ⟨hsome, hstuck⟩ : _ ∧ Stuck l _ :=
        queryLocked_lost m now h input maxCandidates true
      rw [perform, bind_run, ImeClient.queryCandidates, bind_run, ensureSession_held h.opened]
      simp only [reduceIte]
      exact ⟨hsome, hstuck⟩
  | commitSelection text index seqHint => exact commitSelection_lost h text index seqHint

end

end RimeWinime.ImeCalls
