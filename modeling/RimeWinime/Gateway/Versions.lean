import Mathlib.Algebra.Group.Nat.Defs
import RimeWinime.Gateway.Calls
import RimeWinime.Gateway.VersionCounter
import RimeWinime.Lib.Reports

namespace RimeWinime.Versions

open World Worker Table Pool Service Steps Calls Backends VersionCounter Run Reports

variable {N E P : Type}

/-- How a request on the pipe goes: it gets its answer, it never arrives, or it
is handled and the answer gets lost. -/
inductive Fate
  | delivered
  | requestLost (error : String)
  | replyLost (error : String)
deriving DecidableEq

/-- A runtime, and the fates of the requests to come; after them all is well. -/
structure Subprocess (N E : Type) where
  runtime : WorkerBackendRuntime N E
  fates : List Fate

def Subprocess.fate (p : Subprocess N E) : Fate := p.fates.headD .delivered

def requestSubprocess (host : LegacyHost N) (imm : Imm E) (req : WorkerIpcRequest) :
    Act (Subprocess N E) (Except String WorkerIpcResponse) := fun p =>
  let answered := WorkerBackendRuntime.handleRequest host imm req p.runtime
  match p.fate with
  | .delivered => (.ok answered.1, ⟨answered.2, p.fates.tail⟩)
  | .requestLost error => (.error error, ⟨p.runtime, p.fates.tail⟩)
  | .replyLost error => (.error error, ⟨answered.2, p.fates.tail⟩)

def machine (host : LegacyHost N) (imm : Imm E) (spawn : Nat → Option (Subprocess N E)) :
    Machine (Subprocess N E) := ⟨spawn, requestSubprocess host imm⟩

/-- The session that a response is for, whether it says that the call succeeded,
and its `backend_state_version`. -/
def versioned : Reply → Option (String × Report Nat)
  | .failed _ => none
  | .openSession _ => none
  | .sendKeyEvent resp =>
      some (resp.sessionId, ⟨resp.errorCode = "", resp.backendStateVersion.toNat⟩)
  | .queryCandidates resp =>
      some (resp.sessionId, ⟨resp.errorCode = "", resp.backendStateVersion.toNat⟩)
  | .commitSelection resp =>
      some (resp.sessionId, ⟨resp.errorCode = "", resp.backendStateVersion.toNat⟩)
  | .resetSession resp => some (resp.sessionId, ⟨resp.ok, resp.backendStateVersion.toNat⟩)

theorem code_failed (code : String) (h : code ≠ "") (sessionId : String) (version : Nat) :
    some (sessionId, (⟨decide (code = ""), version⟩ : Report Nat)) =
      some (sessionId, ⟨false, version⟩) := by
  rw [decide_eq_false h]

def reportFor (sessionId : String) : Handler → Option (Report Nat)
  | .done reply => (versioned reply).bind fun r => if r.1 = sessionId then some r.2 else none
  | _ => none

structure Gateway (P : Type) where
  state : GatewayState P
  clock : Nat

/-- A key, a query, a commit or a reset, some time after the call before. -/
structure Turn where
  elapsed : Nat
  call : Call
  named : (target call).isSome

def turn (m : Machine P) (g : Gateway P) (t : Turn) : Gateway P :=
  ⟨(serve m (g.clock + t.elapsed) t.call g.state).2, g.clock + t.elapsed⟩

def response (m : Machine P) (sessionId : String) (g : Gateway P) (t : Turn) : Option (Report Nat) :=
  reportFor sessionId (serve m (g.clock + t.elapsed) t.call g.state).1

section

variable (host : LegacyHost N) (imm : Imm E)

def Answers (req : WorkerIpcRequest) (p : Subprocess N E) : Prop :=
  p.fate = .delivered ∧ (WorkerBackendRuntime.handleRequest host imm req p.runtime).1.ok = true

def AnswersOrShows (req : WorkerIpcRequest) (p : Subprocess N E) : Prop :=
  Answers host imm req p ∨ p.fates.tail.headD .delivered = .delivered

/-- The response of the handler can say how far the backend is. A reset that
fails is never followed by a snapshot, and the reset of the stand-in for a
backend does not move the version. -/
def Told (handler : Handler) (p : Subprocess N E) : Prop :=
  match handler with
  | .staleKey _ _ _ => p.fate = .delivered
  | .applyKey _ _ event => AnswersOrShows host imm (.sendKeyEvent (backendEvent event) 9) p
  | .applyQuery _ req =>
      AnswersOrShows host imm (.queryCandidates req.inputSnapshot
        (if req.maxCandidates = 0 then 9 else req.maxCandidates.toNat)) p
  | .applyCommit _ req =>
      AnswersOrShows host imm (.commitSelection req.committedText req.candidateIndex.toNat) p
  | .applyReset _ _ => p.fate = .delivered ∧ ¬StandsIn p.runtime
  | _ => True

/-- The session has its worker, whose version is not at its end; a call on the
session is told. -/
def Sound (sessionId : String) (g : Gateway (Subprocess N E)) (t : Turn) : Prop :=
  ∀ session, g.state.sessions.lookup sessionId = some session →
    ∃ worker, g.state.pool.workers.lookup session.workerId = some worker ∧
      (runtimeVersion host imm worker.process.runtime).toNat + 1 < 2 ^ 64 ∧
      (target t.call = some sessionId → ∀ handler change,
        asked t.call session = some (handler, change) → Told host imm handler worker.process)

end

section

variable (host : LegacyHost N) (imm : Imm E)

def versionIn (p : Subprocess N E) : UInt64 := runtimeVersion host imm p.runtime

theorem request_steps (req : WorkerIpcRequest) (p : Subprocess N E) :
    versionIn host imm (requestSubprocess host imm req p).2 = versionIn host imm p ∨
      versionIn host imm (requestSubprocess host imm req p).2 = versionIn host imm p + 1 := by
  have hsteps := (runtime_counted host imm req p.runtime).steps
  rw [requestSubprocess]
  cases p.fate with
  | delivered => exact hsteps
  | requestLost error => exact Or.inl rfl
  | replyLost error => exact hsteps

theorem snapshot_still (p : Subprocess N E) :
    versionIn host imm (requestSubprocess host imm .snapshot p).2 = versionIn host imm p := by
  have hsame : (WorkerBackendRuntime.handleRequest host imm .snapshot p.runtime).2 = p.runtime := by
    cases p.runtime with
    | stub | legacyTcp | winImm | winImmStandIn => rfl
  rw [requestSubprocess, versionIn]
  cases p.fate with
  | delivered => exact congrArg _ hsame
  | requestLost error => rfl
  | replyLost error => exact congrArg _ hsame

theorem answer_told {req : WorkerIpcRequest} {p : Subprocess N E} {resp : WorkerIpcResponse}
    (h : (requestSubprocess host imm req p).1 = .ok resp) (hok : resp.ok = true) :
    resp.backendStateVersion = versionIn host imm (requestSubprocess host imm req p).2 ∧
      (Moves p.runtime req →
        versionIn host imm (requestSubprocess host imm req p).2 = versionIn host imm p + 1) := by
  have hcounted := runtime_counted host imm req p.runtime
  rw [requestSubprocess] at h ⊢
  cases hfate : p.fate with
  | delivered =>
      rw [hfate] at h
      cases h
      exact ⟨hcounted.exact hok, fun hmoves => hcounted.moved hmoves hok⟩
  | requestLost error =>
      rw [hfate] at h
      cases h
  | replyLost error =>
      rw [hfate] at h
      cases h

theorem answer_of_answers {req : WorkerIpcRequest} {p : Subprocess N E} (h : Answers host imm req p) :
    ∃ resp, (requestSubprocess host imm req p).1 = .ok resp ∧ resp.ok = true := by
  refine ⟨_, ?_, h.2⟩
  rw [requestSubprocess, h.1]

theorem fates_after (req : WorkerIpcRequest) (p : Subprocess N E) :
    (requestSubprocess host imm req p).2.fates = p.fates.tail := by
  rw [requestSubprocess]
  cases p.fate with
  | delivered | requestLost | replyLost => rfl

theorem snapshot_answers {p : Subprocess N E} (h : p.fate = .delivered) :
    Answers host imm .snapshot p := by
  refine ⟨h, ?_⟩
  cases p.runtime with
  | stub | legacyTcp | winImm | winImmStandIn => rfl

/-- What a request of a handler does: the version moves by one at most, and what
is told of it is where it is. -/
structure Turned (p p' : Subprocess N E) (told : Prop) (report : Option (Report Nat)) : Prop where
  steps : versionIn host imm p' = versionIn host imm p ∨
    versionIn host imm p' = versionIn host imm p + 1
  report : told → ∀ r ∈ report, r.value = (versionIn host imm p').toNat ∧
    (r.moved = true → versionIn host imm p' = versionIn host imm p + 1)

end

section

variable {host : LegacyHost N} {imm : Imm E} {spawn : Nat → Option (Subprocess N E)}
  {workerId sessionId : String} {req : WorkerIpcRequest}
  {x : Act (WorkerPool (Subprocess N E)) (Except String WorkerIpcResponse)}
  {pool : WorkerPool (Subprocess N E)} {worker : WorkerProcess (Subprocess N E)}

def TurnedIn (host : LegacyHost N) (imm : Imm E) (workerId : String)
    (worker : WorkerProcess (Subprocess N E)) (told : Prop)
    (r : Option (Report Nat)) (pool' : WorkerPool (Subprocess N E)) : Prop :=
  ∃ worker', pool'.workers.lookup workerId = some worker' ∧
    Turned host imm worker.process worker'.process told r

theorem shown_version (host : LegacyHost N) (imm : Imm E) (spawn : Nat → Option (Subprocess N E))
    (hw : pool.workers.lookup workerId = some worker) :
    ∃ worker', (snapshotOrNothing (machine host imm spawn) workerId pool).2.workers.lookup workerId =
        some worker' ∧
      versionIn host imm worker'.process = versionIn host imm worker.process ∧
      (worker.process.fate = .delivered →
        (snapshotOrNothing (machine host imm spawn) workerId pool).1.1 =
          versionIn host imm worker.process) := by
  have hputs := forward_puts (machine host imm spawn) workerId "snapshot" .snapshot
  have hpool : (snapshotOrNothing (machine host imm spawn) workerId pool).2 =
      (snapshot (machine host imm spawn) workerId pool).2 := by
    rw [snapshotOrNothing, bind_run]
    cases (snapshot (machine host imm spawn) workerId pool).1 with
    | ok resp => rfl
    | error e => rfl
  refine ⟨(WorkerProcess.request (machine host imm spawn) .snapshot worker).2, ?_,
    snapshot_still host imm worker.process, fun hfate => ?_⟩
  · rw [hpool]
    exact hputs.lookup hw
  · obtain ⟨resp, hanswer, hok⟩ := answer_of_answers host imm (snapshot_answers host imm hfate)
    have htaken : (snapshot (machine host imm spawn) workerId pool).1 = .ok resp :=
      (hputs.taken pool worker resp hw).mpr ⟨hanswer, hok⟩
    have hversion := (answer_told host imm hanswer hok).1
    rw [snapshotOrNothing, bind_run, htaken]
    exact hversion.trans (snapshot_still host imm worker.process)

theorem asked_or_shown (hx : Puts (machine host imm spawn) workerId req x)
    (hreq : req ≠ .snapshot ∧ req ≠ .resetSession) (ok : WorkerIpcResponse → Reply)
    (failed : String → UInt64 → String → Reply)
    (hok : ∀ resp, versioned (ok resp) = some (sessionId, ⟨true, resp.backendStateVersion.toNat⟩))
    (hfailed : ∀ message version composition,
      versioned (failed message version composition) = some (sessionId, ⟨false, version.toNat⟩))
    (hw : pool.workers.lookup workerId = some worker) {op : Act (WorkerPool (Subprocess N E)) Handler}
    (hop : op = do
      match ← x with
      | .ok resp => pure (.done (ok resp))
      | .error message => do
          let (version, composition) ← snapshotOrNothing (machine host imm spawn) workerId
          pure (.done (failed message version composition))) :
    TurnedIn host imm workerId worker (AnswersOrShows host imm req worker.process)
      (reportFor sessionId (op pool).1) (op pool).2 := by
  subst hop
  have hlookup := hx.lookup hw
  have hsteps := request_steps host imm req worker.process
  cases hanswer : (x pool).1 with
  | ok resp =>
      have htaken := (hx.taken pool worker resp hw).mp hanswer
      obtain ⟨hversion, hmoved⟩ := answer_told host imm htaken.1 htaken.2
      simp only [bind_run, hanswer]
      refine ⟨_, hlookup, hsteps, fun _ r hr => ?_⟩
      simp only [pure_run, reportFor, hok, Option.bind_some, if_true] at hr
      cases hr
      exact ⟨congrArg UInt64.toNat hversion, fun _ => hmoved ⟨hreq.1, fun _ => hreq.2⟩⟩
  | error message =>
      simp only [bind_run, hanswer]
      obtain ⟨worker', hw', hstill, hshown⟩ := shown_version host imm spawn hlookup
      refine ⟨worker', hw', ?_, fun htold r hr => ?_⟩
      · rw [hstill]
        exact hsteps
      · simp only [pure_run, reportFor, hfailed, Option.bind_some, if_true] at hr
        cases hr
        refine ⟨?_, fun hmoved => by cases hmoved⟩
        have hdelivered : worker.process.fates.tail.headD .delivered = .delivered := by
          refine htold.resolve_left fun hanswers => ?_
          obtain ⟨resp, htaken⟩ := answer_of_answers host imm hanswers
          have hcontra := (hx.taken pool worker resp hw).mpr htaken
          rw [hanswer] at hcontra
          cases hcontra
        rw [hstill]
        apply congrArg UInt64.toNat
        apply hshown
        change (requestSubprocess host imm req worker.process).2.fates.headD .delivered = .delivered
        rw [fates_after]
        exact hdelivered

theorem reset_answers {p : Subprocess N E} (h : p.fate = .delivered) :
    Answers host imm .resetSession p := by
  refine ⟨h, ?_⟩
  cases p.runtime with
  | stub | legacyTcp | winImm | winImmStandIn => rfl

theorem refuseKey_turned (lastSeq : UInt64) (hw : pool.workers.lookup workerId = some worker) :
    TurnedIn host imm workerId worker (worker.process.fate = .delivered)
      (reportFor sessionId (refuseKey (machine host imm spawn) sessionId workerId lastSeq pool).1)
      (refuseKey (machine host imm spawn) sessionId workerId lastSeq pool).2 := by
  have hputs := forward_puts (machine host imm spawn) workerId "snapshot" .snapshot
  have hlookup := hputs.lookup hw
  have hstill := snapshot_still host imm worker.process
  change (snapshot _ workerId pool).2.workers.lookup workerId = _ at hlookup
  cases hanswer : (snapshot (machine host imm spawn) workerId pool).1 with
  | ok resp =>
      have htaken := (hputs.taken pool worker resp hw).mp hanswer
      simp only [refuseKey, bind_run, hanswer]
      refine ⟨_, hlookup, Or.inl hstill, fun _ r hr => ?_⟩
      simp only [pure_run, reportFor, versioned, Option.bind_some, if_true] at hr
      cases hr
      refine ⟨congrArg UInt64.toNat (answer_told host imm htaken.1 htaken.2).1, fun hmoved => ?_⟩
      have hcode : ("SEQ_OUT_OF_ORDER" : String) = "" := of_decide_eq_true hmoved
      exact absurd hcode (by decide)
  | error message =>
      simp only [refuseKey, bind_run, hanswer]
      refine ⟨_, hlookup, Or.inl hstill, fun htold r _ => ?_⟩
      obtain ⟨resp, htaken⟩ := answer_of_answers host imm (snapshot_answers host imm htold)
      have hcontra := (hputs.taken pool worker resp hw).mpr htaken
      cases hanswer.symm.trans hcontra

theorem applyReset_turned (hw : pool.workers.lookup workerId = some worker) :
    TurnedIn host imm workerId worker
      (worker.process.fate = .delivered ∧ ¬StandsIn worker.process.runtime)
      (reportFor sessionId (applyReset (machine host imm spawn) sessionId workerId pool).1)
      (applyReset (machine host imm spawn) sessionId workerId pool).2 := by
  have hputs := forward_puts (machine host imm spawn) workerId "reset" .resetSession
  have hlookup := hputs.lookup hw
  have hsteps := request_steps host imm .resetSession worker.process
  change (resetWorker _ workerId pool).2.workers.lookup workerId = _ at hlookup
  cases hanswer : (resetWorker (machine host imm spawn) workerId pool).1 with
  | ok resp =>
      have htaken := (hputs.taken pool worker resp hw).mp hanswer
      obtain ⟨hversion, hmoved⟩ := answer_told host imm htaken.1 htaken.2
      simp only [applyReset, bind_run, hanswer]
      refine ⟨_, hlookup, hsteps, fun htold r hr => ?_⟩
      simp only [pure_run, reportFor, versioned, Option.bind_some, if_true] at hr
      cases hr
      refine ⟨congrArg UInt64.toNat hversion, fun _ => hmoved ⟨?_, fun hstands => ?_⟩⟩
      · intro h
        cases h
      · exact absurd hstands htold.2
  | error message =>
      simp only [applyReset, bind_run, hanswer]
      refine ⟨_, hlookup, hsteps, fun htold r _ => ?_⟩
      obtain ⟨resp, htaken⟩ := answer_of_answers host imm (reset_answers htold.1)
      have hcontra := (hputs.taken pool worker resp hw).mpr htaken
      cases hanswer.symm.trans hcontra

theorem advance_turned (now : Nat) {handler : Handler} {s : GatewayState (Subprocess N E)}
    (h : asking handler = some (sessionId, workerId))
    (hw : s.pool.workers.lookup workerId = some worker) :
    TurnedIn host imm workerId worker (Told host imm handler worker.process)
      (reportFor sessionId (advance (machine host imm spawn) now handler s).1)
      (advance (machine host imm spawn) now handler s).2.pool := by
  cases handler with
  | staleKey id w lastSeq =>
      cases h
      exact refuseKey_turned lastSeq hw
  | applyKey id w event =>
      cases h
      exact asked_or_shown
        (forward_puts _ workerId "send_key_event" (.sendKeyEvent (backendEvent event) 9))
        ⟨nofun, nofun⟩
        (fun resp => .sendKeyEvent
          ⟨sessionId, event.seq, resp.backendStateVersion, resp.composition, "", ""⟩)
        (fun message version composition => .sendKeyEvent
          ⟨sessionId, event.seq, version, composition, "BACKEND_SEND_KEY_FAILED", message⟩)
        (fun _ => rfl) (fun _ _ _ => code_failed "BACKEND_SEND_KEY_FAILED" (by decide) _ _) hw rfl
  | applyQuery w req =>
      cases h
      exact asked_or_shown
        (forward_puts _ workerId "query_candidates" (.queryCandidates req.inputSnapshot
          (if req.maxCandidates = 0 then 9 else req.maxCandidates.toNat)))
        ⟨nofun, nofun⟩
        (fun resp => .queryCandidates ⟨req.sessionId, resp.backendStateVersion, resp.composition,
          resp.reading, resp.candidates, resp.selectedIndex, resp.pageSize, "", ""⟩)
        (fun message version composition => .queryCandidates
          ⟨req.sessionId, version, composition, "", [], 0, 0, "BACKEND_QUERY_FAILED", message⟩)
        (fun _ => rfl) (fun _ _ _ => code_failed "BACKEND_QUERY_FAILED" (by decide) _ _) hw rfl
  | applyCommit w req =>
      cases h
      exact asked_or_shown
        (commitSelection_puts _ workerId req.committedText req.candidateIndex.toNat)
        ⟨nofun, nofun⟩
        (fun resp => .commitSelection
          ⟨req.sessionId, resp.backendStateVersion, resp.committedText, "", ""⟩)
        (fun message version _ => .commitSelection
          ⟨req.sessionId, version, "", "BACKEND_COMMIT_FAILED", message⟩)
        (fun _ => rfl) (fun _ _ _ => code_failed "BACKEND_COMMIT_FAILED" (by decide) _ _) hw rfl
  | applyReset id w =>
      cases h
      exact applyReset_turned hw
  | begun | assigned | freshKey | done => cases h

end

theorem advance_named (m : Machine P) (now : Nat) {handler : Handler} (s : GatewayState P)
    {sessionId workerId : String} (h : asking handler = some (sessionId, workerId)) :
    ∃ reply r, (advance m now handler s).1 = .done reply ∧ versioned reply = some (sessionId, r) := by
  cases handler with
  | staleKey id w lastSeq =>
      cases h
      simp only [advance, withPool, refuseKey, bind_run]
      cases (snapshot m workerId s.pool).1 with
      | ok | error => exact ⟨_, _, rfl, rfl⟩
  | applyKey id w event =>
      cases h
      simp only [advance, withPool, applyKey, bind_run]
      cases (applyKeyEvent m workerId (backendEvent event) 9 s.pool).1 with
      | ok | error => exact ⟨_, _, rfl, rfl⟩
  | applyQuery w req =>
      cases h
      simp only [advance, withPool, applyQuery, bind_run]
      cases (queryCandidates m workerId req.inputSnapshot
          (if req.maxCandidates = 0 then 9 else req.maxCandidates.toNat) s.pool).1 with
      | ok | error => exact ⟨_, _, rfl, rfl⟩
  | applyCommit w req =>
      cases h
      simp only [advance, withPool, applyCommit, bind_run]
      cases (commitSelection m workerId req.committedText req.candidateIndex.toNat s.pool).1 with
      | ok | error => exact ⟨_, _, rfl, rfl⟩
  | applyReset id w =>
      cases h
      simp only [advance, withPool, applyReset, bind_run]
      cases (resetWorker m workerId s.pool).1 with
      | ok | error => exact ⟨_, _, rfl, rfl⟩
  | begun | assigned | freshKey | done => cases h

section

variable (host : LegacyHost N) (imm : Imm E) (spawn : Nat → Option (Subprocess N E))

def sessionVersion (sessionId : String) (g : Gateway (Subprocess N E)) : Nat :=
  match g.state.sessions.lookup sessionId with
  | none => 0
  | some session =>
      match g.state.pool.workers.lookup session.workerId with
      | none => 0
      | some worker => (versionIn host imm worker.process).toNat

variable {host imm spawn} {sessionId : String} {g : Gateway (Subprocess N E)} {t : Turn}

theorem turn_refused {status : Status}
    (h : serve (machine host imm spawn) (g.clock + t.elapsed) t.call g.state =
      (.done (.failed status), g.state)) :
    Faithful (sessionVersion host imm sessionId) g (turn (machine host imm spawn) g t)
      (response (machine host imm spawn) sessionId g t) := by
  have hstate : (turn (machine host imm spawn) g t).state = g.state := by rw [turn, h]
  have hsame : sessionVersion host imm sessionId (turn (machine host imm spawn) g t) =
      sessionVersion host imm sessionId g := by rw [sessionVersion, hstate, sessionVersion]
  have hsilent : response (machine host imm spawn) sessionId g t = none := by rw [response, h]; rfl
  refine ⟨Nat.le_of_eq hsame.symm, fun r hr => ?_, fun r hr => ?_⟩
  · rw [hsilent] at hr
    cases hr
  · rw [hsilent] at hr
    cases hr

theorem store_workerId (now : Nat) {call : Call} {id : String} {session : SessionState}
    {handler : Handler} {change : Option (SessionState → SessionState)} {s : GatewayState P}
    (hs : s.sessions.lookup id = some session) (hasked : asked call session = some (handler, change))
    (j : String) : ((store now id session change s).sessions.lookup j).map (·.workerId) =
      (s.sessions.lookup j).map (·.workerId) := by
  cases change with
  | none => rfl
  | some f =>
      rw [store, lookup_insert_eq]
      split
      · next he =>
          rw [he, hs]
          exact congrArg some (asked_workerId hasked)
      · rfl

theorem sessionVersion_some {session : SessionState} {worker : WorkerProcess (Subprocess N E)}
    (hs : g.state.sessions.lookup sessionId = some session)
    (hw : g.state.pool.workers.lookup session.workerId = some worker) :
    sessionVersion host imm sessionId g = (versionIn host imm worker.process).toNat := by
  rw [sessionVersion, hs]
  simp only [hw]

theorem reportFor_other {m : Machine P} {now : Nat} {handler : Handler} {s : GatewayState P}
    {id workerId j : String} (h : asking handler = some (id, workerId)) (hne : id ≠ j) :
    reportFor j (advance m now handler s).1 = none := by
  obtain ⟨reply, r, hreply, hnamed⟩ := advance_named m now s h
  rw [hreply, reportFor, hnamed, Option.bind_some, if_neg hne]

theorem next_version {v v' : UInt64} (h : v' = v ∨ v' = v + 1) (hroom : v.toNat + 1 < 2 ^ 64) :
    v.toNat ≤ v'.toNat ∧ (v' = v + 1 → v.toNat < v'.toNat) := by
  have hsucc : (v + 1).toNat = v.toNat + 1 := by
    rw [UInt64.toNat_add]
    exact Nat.mod_eq_of_lt hroom
  rcases h with rfl | rfl
  · refine ⟨Nat.le_refl _, fun h => ?_⟩
    rw [← h] at hsucc
    omega
  · omega

/-- The turn asks the worker of the session `id`: the sessions are those of `s`
then, and the pool is `pool'`. -/
structure AskedTurn (m : Machine P) (g : Gateway P) (t : Turn) (id : String) (session : SessionState)
    (handler : Handler) (s : GatewayState P) (pool' : WorkerPool P) : Prop where
  asking : asking handler = some (id, session.workerId)
  pool : s.pool = g.state.pool
  served : Served session.workerId s.pool pool'
  advanced : (advance m (g.clock + t.elapsed) handler s).2 = { s with pool := pool' }
  state : (turn m g t).state = { s with pool := pool' }
  reply : ∀ j, response m j g t = reportFor j (advance m (g.clock + t.elapsed) handler s).1
  workerId : ∀ j, (s.sessions.lookup j).map (·.workerId) =
    (g.state.sessions.lookup j).map (·.workerId)

theorem turn_asked {m : Machine P} {g : Gateway P} {t : Turn} {id : String} {session : SessionState}
    {handler : Handler} {change : Option (SessionState → SessionState)}
    (hcall : target t.call = some id) (hid : g.state.sessions.lookup id = some session)
    (hasked : asked t.call session = some (handler, change)) :
    ∃ s pool', AskedTurn m g t id session handler s pool' := by
  obtain ⟨hasking, hrun⟩ := serve_asked m (g.clock + t.elapsed) hcall hid hasked
  obtain ⟨reply, pool', hadvance, hserved⟩ := advance_asking m (g.clock + t.elapsed)
    (store (g.clock + t.elapsed) id session change g.state) hasking
  refine ⟨_, pool', hasking, store_pool _ _ _ _ _, hserved, congrArg Prod.snd hadvance, ?_,
    fun j => ?_, store_workerId _ hid hasked⟩
  · rw [turn, hrun, hadvance]
  · rw [response, hrun]

section

variable {id : String} {session : SessionState} {handler : Handler}
  {s : GatewayState (Subprocess N E)} {pool' : WorkerPool (Subprocess N E)}

theorem AskedTurn.apart (h : AskedTurn (machine host imm spawn) g t id session handler s pool')
    (hne : id ≠ sessionId)
    (hapart : ∀ own, g.state.sessions.lookup sessionId = some own → own.workerId ≠ session.workerId) :
    Faithful (sessionVersion host imm sessionId) g (turn (machine host imm spawn) g t)
      (response (machine host imm spawn) sessionId g t) := by
  have hsame : sessionVersion host imm sessionId (turn (machine host imm spawn) g t) =
      sessionVersion host imm sessionId g := by
    have hkept := h.workerId sessionId
    rw [sessionVersion, sessionVersion, h.state]
    cases hj : g.state.sessions.lookup sessionId with
    | none =>
        rw [hj] at hkept
        simp only [Option.map_eq_none_iff.mp hkept]
    | some own =>
        rw [hj] at hkept
        obtain ⟨own', hown', hworker⟩ := Option.map_eq_some_iff.mp hkept
        have hothers := h.served.others own.workerId (hapart own hj)
        rw [h.pool] at hothers
        change own'.workerId = own.workerId at hworker
        simp only [hown']
        rw [hworker, hothers]
  rw [h.reply, reportFor_other h.asking hne]
  exact ⟨Nat.le_of_eq hsame.symm, nofun, nofun⟩

theorem AskedTurn.shared (h : AskedTurn (machine host imm spawn) g t id session handler s pool')
    {own : SessionState} (hown : g.state.sessions.lookup sessionId = some own)
    (hshared : own.workerId = session.workerId) {worker : WorkerProcess (Subprocess N E)}
    (hw : g.state.pool.workers.lookup own.workerId = some worker)
    (hroom : (versionIn host imm worker.process).toNat + 1 < 2 ^ 64)
    (htold : id = sessionId → Told host imm handler worker.process) :
    Faithful (sessionVersion host imm sessionId) g (turn (machine host imm spawn) g t)
      (response (machine host imm spawn) sessionId g t) := by
  have hkept := h.workerId sessionId
  rw [hown] at hkept
  obtain ⟨own', hown', hworker⟩ := Option.map_eq_some_iff.mp hkept
  change own'.workerId = own.workerId at hworker
  have hws : s.pool.workers.lookup session.workerId = some worker := by
    rw [h.pool, ← hshared]
    exact hw
  obtain ⟨worker', hw', hsteps, hreport⟩ :
      TurnedIn host imm session.workerId worker (Told host imm handler worker.process)
        (reportFor id (advance (machine host imm spawn) (g.clock + t.elapsed) handler s).1)
        (advance (machine host imm spawn) (g.clock + t.elapsed) handler s).2.pool :=
    advance_turned _ h.asking hws
  rw [h.advanced] at hw'
  have hbefore : sessionVersion host imm sessionId g = (versionIn host imm worker.process).toNat :=
    sessionVersion_some hown hw
  have hafter : sessionVersion host imm sessionId (turn (machine host imm spawn) g t) =
      (versionIn host imm worker'.process).toNat := by
    apply sessionVersion_some
    · rw [h.state]
      exact hown'
    · rw [h.state, hworker, hshared]
      exact hw'
  obtain ⟨hle, hlt⟩ := next_version hsteps hroom
  rw [← hbefore, ← hafter] at hle hlt
  rw [h.reply]
  by_cases hne : id = sessionId
  · subst hne
    have hreported := hreport (htold rfl)
    refine ⟨hle, fun r hr => ?_, fun r hr hmoved => hlt ((hreported r hr).2 hmoved)⟩
    rw [hafter]
    exact (hreported r hr).1
  · rw [reportFor_other h.asking hne]
    exact ⟨hle, nofun, nofun⟩

end

theorem turn_faithful (h : Sound host imm sessionId g t) :
    Faithful (sessionVersion host imm sessionId) g (turn (machine host imm spawn) g t)
      (response (machine host imm spawn) sessionId g t) := by
  obtain ⟨id, hcall⟩ := Option.isSome_iff_exists.mp t.named
  cases hid : g.state.sessions.lookup id with
  | none =>
      obtain ⟨status, hrun⟩ := serve_unknown (machine host imm spawn) (g.clock + t.elapsed) hcall hid
      exact turn_refused hrun
  | some session =>
      cases hasked : asked t.call session with
      | none =>
          obtain ⟨status, hrun⟩ : ∃ status,
              serve (machine host imm spawn) (g.clock + t.elapsed) t.call g.state =
                (.done (.failed status), g.state) := serve_refused _ _ hcall hasked
          exact turn_refused hrun
      | some p =>
          obtain ⟨handler, change⟩ := p
          obtain ⟨s, pool', hturn⟩ :
              ∃ s pool', AskedTurn (machine host imm spawn) g t id session handler s pool' :=
            turn_asked hcall hid hasked
          by_cases hshared : ∃ own, g.state.sessions.lookup sessionId = some own ∧
              own.workerId = session.workerId
          · obtain ⟨own, hown, hworker⟩ := hshared
            obtain ⟨worker, hw, hroom, htold⟩ := h own hown
            refine hturn.shared hown hworker hw hroom fun he => ?_
            subst he
            cases hid.symm.trans hown
            exact htold hcall handler change hasked
          · refine hturn.apart ?_ fun own hown hworker => hshared ⟨own, hown, hworker⟩
            rintro rfl
            exact hshared ⟨session, hid, rfl⟩

/-- The versions that a session is told never go back, and move with every call
that succeeds, in every sequence of sound calls. -/
theorem versions_in_order (host : LegacyHost N) (imm : Imm E)
    (spawn : Nat → Option (Subprocess N E)) (sessionId : String) (g : Gateway (Subprocess N E))
    (turns : List Turn)
    (h : Allowed (turn (machine host imm spawn)) (Sound host imm sessionId) g turns) :
    InOrder (reports (turn (machine host imm spawn)) (response (machine host imm spawn) sessionId)
      g turns) :=
  reports_inOrder (fun _ => True) (fun _ _ _ _ => trivial) (fun _ _ _ h => turn_faithful h) trivial h

end

def unreachableHost : LegacyHost Unit :=
  ⟨pure (.error "connect failed"), fun _ => pure (.error "socket write failed"),
    pure (.error "socket read failed")⟩

def absentImm : Imm Unit :=
  ⟨pure (), fun _ => pure (), pure false, fun _ => pure (.error "no context")⟩

def stubMachine : Machine (Subprocess Unit Unit) := machine unreachableHost absentImm fun _ => none

def stubGateway (fates : List Fate) : Gateway (Subprocess Unit Unit) where
  state :=
    { sessions := AList.singleton "s" ⟨"worker-000001", 0, 0⟩
      pool :=
        { cfg := ⟨0, 1, false⟩
          nextWorkerId := 1
          idle := []
          busyBySession := AList.singleton "s" "worker-000001"
          workers := AList.singleton "worker-000001" ⟨⟨.stub WorkerRuntime.new, fates⟩, [true]⟩ }
      sessionIdleTtl := 300 }
  clock := 0

def keyTurn : Turn :=
  ⟨1, .sendKeyEvent ⟨"s", some ⟨1, true, 0x4E, 0, false, false, false, false, false, 0, 0, 0⟩⟩, rfl⟩

def queryTurn : Turn := ⟨1, .queryCandidates ⟨"s", 2, "ni", 5⟩, rfl⟩

def resetTurn : Turn := ⟨1, .resetSession ⟨"s"⟩, rfl⟩

theorem sound_of {g : Gateway (Subprocess Unit Unit)} {t : Turn} {session : SessionState}
    {worker : WorkerProcess (Subprocess Unit Unit)}
    (hs : g.state.sessions.lookup "s" = some session)
    (hw : g.state.pool.workers.lookup session.workerId = some worker)
    (hroom : (runtimeVersion unreachableHost absentImm worker.process.runtime).toNat + 1 < 2 ^ 64)
    (htold : ∀ handler change, asked t.call session = some (handler, change) →
      Told unreachableHost absentImm handler worker.process) :
    Sound unreachableHost absentImm "s" g t := by
  intro own hown
  cases hs.symm.trans hown
  exact ⟨worker, hw, hroom, fun _ => htold⟩

theorem lost_query_in_order :
    InOrder (reports (turn stubMachine) (response stubMachine "s")
      (stubGateway [.delivered, .requestLost "broken pipe"]) [keyTurn, queryTurn, resetTurn]) := by
  apply versions_in_order unreachableHost absentImm (fun _ => none) "s"
    (stubGateway [.delivered, .requestLost "broken pipe"]) [keyTurn, queryTurn, resetTurn]
  refine ⟨?_, ?_, ?_, trivial⟩
  · refine sound_of rfl rfl (by decide) ?_
    rintro _ _ ⟨⟩
    exact Or.inl ⟨rfl, rfl⟩
  · refine sound_of rfl rfl (by decide) ?_
    rintro _ _ ⟨⟩
    exact Or.inr rfl
  · refine sound_of rfl rfl (by decide) ?_
    rintro _ _ ⟨⟩
    exact ⟨rfl, id⟩

theorem lost_reset_goes_back :
    ¬InOrder (reports (turn stubMachine) (response stubMachine "s")
      (stubGateway [.delivered, .requestLost "broken pipe"]) [keyTurn, resetTurn]) := by
  decide +kernel

end RimeWinime.Versions
