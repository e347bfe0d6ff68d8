import RimeWinime.Gateway.Steps
import RimeWinime.Lib.Run

namespace RimeWinime.Calls

open World Worker Table Pool Service Steps Run

variable {P : Type}

/-- A handler takes three locks at most. -/
def serve (m : Machine P) (now : Nat) (call : Call) : Act (GatewayState P) Handler := do
  let handler ← advance m now (.begun call)
  let handler ← advance m now handler
  advance m now handler

theorem resume_last (m : Machine P) (state : GatewayState P) (clock : Nat) (before : List Handler)
    (handler : Handler) (reaper : Reaper) :
    step m ⟨state, clock, before ++ [handler], reaper⟩ (.resume before.length) =
      ⟨(advance m clock handler state).2, clock, before ++ [(advance m clock handler state).1],
        reaper⟩ := by
  have hlast : (before ++ [handler])[before.length]? = some handler := by
    rw [List.getElem?_append_right (Nat.le_refl _), Nat.sub_self]
    rfl
  rw [step, System.resume]
  simp only [hlast]
  rw [List.set_append_right _ _ (Nat.le_refl _), Nat.sub_self]
  rfl

theorem serve_run (m : Machine P) (sys : System P) (call : Call) :
    run (step m) sys [.arrive call, .resume sys.handlers.length, .resume sys.handlers.length,
        .resume sys.handlers.length] =
      { sys with
        state := (serve m sys.clock call sys.state).2
        handlers := sys.handlers ++ [(serve m sys.clock call sys.state).1] } := by
  obtain ⟨state, clock, handlers, reaper⟩ := sys
  simp only [run_cons, run_nil]
  rw [step, resume_last, resume_last, resume_last]
  rfl

def target : Call → Option String
  | .openSession _ _ => none
  | .sendKeyEvent req => some req.sessionId
  | .queryCandidates req => some req.sessionId
  | .commitSelection req => some req.sessionId
  | .resetSession req => some req.sessionId

/-- The handler that puts the call to the worker of the session, and how the
session is written before; a stale key writes nothing. -/
def asked (call : Call) (session : SessionState) :
    Option (Handler × Option (SessionState → SessionState)) :=
  match call with
  | .openSession _ _ => none
  | .sendKeyEvent req =>
      req.keyEvent.map fun event =>
        if event.seq ≤ session.lastSeq then
          (.staleKey req.sessionId session.workerId session.lastSeq, none)
        else (.applyKey req.sessionId session.workerId event, some (keyed event))
  | .queryCandidates req => some (.applyQuery session.workerId req, some (queried req))
  | .commitSelection req => some (.applyCommit session.workerId req, some (committed req))
  | .resetSession req => some (.applyReset req.sessionId session.workerId, some id)

def store (now : Nat) (sessionId : String) (session : SessionState)
    (change : Option (SessionState → SessionState)) (s : GatewayState P) : GatewayState P :=
  match change with
  | none => s
  | some change => { s with sessions := s.sessions.insert sessionId ((change session).touch now) }

theorem store_pool (now : Nat) (sessionId : String) (session : SessionState)
    (change : Option (SessionState → SessionState)) (s : GatewayState P) :
    (store now sessionId session change s).pool = s.pool := by
  cases change with
  | none => rfl
  | some change => rfl

section

variable (m : Machine P) (now : Nat) {s : GatewayState P} {call : Call} {sessionId : String}
  {session : SessionState}

theorem advance_done (reply : Reply) (s : GatewayState P) :
    advance m now (.done reply) s = (.done reply, s) := rfl

theorem advance_asked {handler : Handler} {p : String × String} (h : asking handler = some p)
    (s : GatewayState P) :
    advance m now (advance m now handler s).1 (advance m now handler s).2 =
      advance m now handler s := by
  obtain ⟨reply, pool, hrun, -⟩ := advance_asking m now s h
  rw [hrun, advance_done]

theorem serve_unknown (h : target call = some sessionId) (hs : s.sessions.lookup sessionId = none) :
    ∃ status, serve m now call s = (.done (.failed status), s) := by
  have hwritten {change : SessionState → SessionState}
      (hupdating : updating (.begun call) = some (sessionId, change)) :
      serve m now call s = (sessionNotFound, s) := by
    rcases advance_updating m now s hupdating with ⟨-, hrun⟩ | ⟨session, hfound, -⟩
    · rw [serve, bind_run, bind_run, hrun]
      rfl
    · cases hs.symm.trans hfound
  cases call with
  | openSession id req => cases h
  | sendKeyEvent req =>
      cases h
      cases he : req.keyEvent with
      | none =>
          refine ⟨.invalidArgument "missing key_event", ?_⟩
          simp only [serve, bind_run, advance, checkSeq, he]
          rfl
      | some event =>
          refine ⟨.notFound "session not found", ?_⟩
          simp only [serve, bind_run, advance, checkSeq, he, hs]
          rfl
  | queryCandidates req => cases h; exact ⟨_, hwritten rfl⟩
  | commitSelection req => cases h; exact ⟨_, hwritten rfl⟩
  | resetSession req => cases h; exact ⟨_, hwritten rfl⟩

theorem serve_refused (h : target call = some sessionId) (hasked : asked call session = none) :
    ∃ status, serve m now call s = (.done (.failed status), s) := by
  cases call with
  | openSession id req => cases h
  | sendKeyEvent req =>
      rw [asked, Option.map_eq_none_iff] at hasked
      refine ⟨.invalidArgument "missing key_event", ?_⟩
      simp only [serve, bind_run, advance, checkSeq, hasked]
      rfl
  | queryCandidates | commitSelection | resetSession => cases hasked

theorem serve_asked (h : target call = some sessionId)
    (hs : s.sessions.lookup sessionId = some session) {handler : Handler}
    {change : Option (SessionState → SessionState)}
    (hasked : asked call session = some (handler, change)) :
    asking handler = some (sessionId, session.workerId) ∧
      serve m now call s = advance m now handler (store now sessionId session change s) := by
  have hwritten {f : SessionState → SessionState} {next : Handler}
      (hupdating : updating (.begun call) = some (sessionId, f))
      (hnext : following (.begun call) ((f session).touch now) = next)
      {p : String × String} (hasking : asking next = some p) :
      serve m now call s = advance m now next (store now sessionId session (some f) s) := by
    rcases advance_updating m now s hupdating with ⟨hnone, -⟩ | ⟨session', hfound, hrun⟩
    · cases hs.symm.trans hnone
    · cases hs.symm.trans hfound
      rw [serve, bind_run, bind_run, hrun, hnext]
      exact advance_asked m now hasking _
  cases call with
  | openSession id req => cases h
  | sendKeyEvent req =>
      cases h
      obtain ⟨event, he, hcase⟩ := Option.map_eq_some_iff.mp hasked
      by_cases hseq : event.seq ≤ session.lastSeq
      · rw [if_pos hseq] at hcase
        cases hcase
        refine ⟨rfl, ?_⟩
        have hcheck : advance m now (.begun (.sendKeyEvent req)) s =
            (.staleKey req.sessionId session.workerId session.lastSeq, s) := by
          simp only [advance, checkSeq, he, hs, if_pos hseq]
        rw [serve, bind_run, bind_run, hcheck]
        exact advance_asked m now rfl s
      · rw [if_neg hseq] at hcase
        cases hcase
        refine ⟨rfl, ?_⟩
        have hcheck : advance m now (.begun (.sendKeyEvent req)) s =
            (.freshKey req.sessionId session.workerId event, s) := by
          simp only [advance, checkSeq, he, hs, if_neg hseq]
        have hstored : advance m now (.freshKey req.sessionId session.workerId event) s =
            (.applyKey req.sessionId session.workerId event,
              store now req.sessionId session (some (keyed event)) s) := by
          simp only [advance, storeSeq, withSession, hs]
          rfl
        rw [serve, bind_run, bind_run, hcheck, hstored]
  | queryCandidates req =>
      cases h
      cases hasked
      have hupdating : updating (.begun (.queryCandidates req)) =
          some (req.sessionId, queried req) := rfl
      have hsame : (queried req session).workerId = session.workerId :=
        updating_workerId hupdating session
      exact ⟨rfl, hwritten hupdating (congrArg (Handler.applyQuery · req) hsame) rfl⟩
  | commitSelection req =>
      cases h
      cases hasked
      exact ⟨rfl, hwritten rfl rfl rfl⟩
  | resetSession req =>
      cases h
      cases hasked
      exact ⟨rfl, hwritten rfl rfl rfl⟩

end

theorem asked_workerId {call : Call} {session : SessionState} {handler : Handler}
    {f : SessionState → SessionState} (h : asked call session = some (handler, some f)) :
    (f session).workerId = session.workerId := by
  cases call with
  | openSession id req => cases h
  | sendKeyEvent req =>
      obtain ⟨event, -, hcase⟩ := Option.map_eq_some_iff.mp h
      split at hcase
      · cases hcase
      · cases hcase
        rfl
  | queryCandidates req =>
      cases h
      rw [queried]
      split
      · rfl
      · rfl
  | commitSelection req =>
      cases h
      rfl
  | resetSession req =>
      cases h
      rfl

/-- The action puts the request to the worker, and takes an answer that is `ok`. -/
structure Puts (m : Machine P) (workerId : String) (req : WorkerIpcRequest)
    (x : Act (WorkerPool P) (Except String WorkerIpcResponse)) : Prop where
  workers : ∀ pool worker, pool.workers.lookup workerId = some worker →
    (x pool).2.workers = pool.workers.insert workerId (WorkerProcess.request m req worker).2
  taken : ∀ pool worker resp, pool.workers.lookup workerId = some worker →
    ((x pool).1 = .ok resp ↔ (m.request req worker.process).1 = .ok resp ∧ resp.ok = true)

theorem requestOr_puts (m : Machine P) (workerId : String) (req : WorkerIpcRequest)
    (missing : String) (transport : String → String) (refused : WorkerIpcResponse → String) :
    Puts m workerId req (requestOr m workerId req missing transport refused) := by
  constructor
  · intro pool worker hw
    simp only [requestOr, bind_run, requestWorker, hw]
    cases hanswer : (WorkerProcess.request m req worker).1 with
    | error e => rfl
    | ok resp =>
        dsimp only
        split
        · rfl
        · rfl
  · intro pool worker resp hw
    simp only [requestOr, bind_run, requestWorker, hw]
    change _ ↔ (WorkerProcess.request m req worker).1 = .ok resp ∧ resp.ok = true
    cases hanswer : (WorkerProcess.request m req worker).1 with
    | error e =>
        refine iff_of_false (fun h => ?_) fun h => ?_
        · cases h
        · cases h.1
    | ok resp' =>
        dsimp only
        split
        · next hok =>
            refine ⟨fun h => ?_, fun h => ?_⟩
            · cases h
              exact ⟨rfl, hok⟩
            · cases h.1
              rfl
        · next hno =>
            refine iff_of_false (fun h => ?_) fun h => ?_
            · cases h
            · cases h.1
              exact hno h.2

theorem forward_puts (m : Machine P) (workerId what : String) (req : WorkerIpcRequest) :
    Puts m workerId req (forward m workerId what req) :=
  requestOr_puts m workerId req _ _ _

theorem commitSelection_puts (m : Machine P) (workerId text : String) (index : Nat) :
    Puts m workerId (.commitSelection text index) (commitSelection m workerId text index) :=
  requestOr_puts m workerId _ _ _ _

theorem Puts.lookup {m : Machine P} {workerId : String} {req : WorkerIpcRequest}
    {x : Act (WorkerPool P) (Except String WorkerIpcResponse)} {pool : WorkerPool P}
    {worker : WorkerProcess P} (hx : Puts m workerId req x)
    (hw : pool.workers.lookup workerId = some worker) :
    (x pool).2.workers.lookup workerId = some (WorkerProcess.request m req worker).2 := by
  rw [hx.workers pool worker hw, AList.lookup_insert]

end RimeWinime.Calls
