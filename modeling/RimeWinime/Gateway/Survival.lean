import RimeWinime.Gateway.ImeCalls
import RimeWinime.Lib.Run

namespace RimeWinime.Survival

open World Worker Table Pool Service Steps ImeClient ImeCalls Run
open RimeWinime.Partition (taken answersReset)

variable {P : Type}

/-- The process that gets the requests of a call: that of the session's worker,
or the one that an open takes, once it has answered its reset. -/
def reached (m : Machine P) (l : Link P) : Option P :=
  if l.client.sessionId = "" then
    (taken m l.state.pool true).map fun process => (m.request .resetSession process).2
  else do
    let session ← l.state.sessions.lookup l.client.sessionId
    let worker ← l.state.pool.workers.lookup session.workerId
    pure worker.process

/-- The workers do not fail: an open gets one, and every request that the call
puts to it is answered. The ids that the gateway draws are not empty. -/
def NeverFails (m : Machine P) (s : Pairing P) : Happening → Prop
  | .call sessionId call =>
      sessionId ≠ "" ∧
        (s.link.client.sessionId = "" →
          (taken m s.link.state.pool true).any (answersReset m) = true) ∧
        (reached m s.link).all (answersAll m (requests s.link.client call)) = true
  | _ => True

/-- The reaper does not remove the session that the client has; no call moves the
counter over its end, and none hints at a number that it has not come to. -/
def KeepsSession (s : Pairing P) : Happening → Prop
  | .call _ call =>
      s.link.client.seq.toNat + draws s.link.client call < 2 ^ 64 ∧
        match call with
        | .commitSelection _ _ seqHint => seqHint ≤ s.link.client.seq
        | _ => True
  | .reap _ =>
      match s.reaper with
      | .listed _ expired => s.link.client.sessionId ∉ expired
      | _ => True
  | .tick _ => True

def Harmless (s : Pairing P) : Prop :=
  match s.reaper with
  | .sleeping => True
  | .woken _ => True
  | .listed _ expired => s.link.client.sessionId ≠ "" ∧ s.link.client.sessionId ∈ expired
  | .removed _ => False

/-- The client has no session yet, or has one and a worker that serves it. -/
structure Sound (s : Pairing P) : Prop where
  link : Unopened s.link ∨ ∃ process, Linked s.link process
  harmless : Harmless s

structure Fulfilled (l : Link P) (r : Bool × Link P) : Prop where
  ok : r.1 = true
  linked : ∃ process, Linked r.2 process
  kept : l.client.sessionId ≠ "" → r.2.client.sessionId = l.client.sessionId

section

variable {m : Machine P} {s : Pairing P} {sessionId : String} {call : ClientCall}

theorem perform_served (hlink : Unopened s.link ∨ ∃ process, Linked s.link process)
    (hfine : NeverFails m s (.call sessionId call)) (hkeeps : KeepsSession s (.call sessionId call)) :
    Fulfilled s.link (perform m s.clock sessionId call s.link) := by
  obtain ⟨hid, hopen, hanswers⟩ := hfine
  obtain ⟨hroom, hhint⟩ := hkeeps
  have hhint' (text : String) (index : Int32) (seqHint : UInt64)
      (he : call = .commitSelection text index seqHint) : seqHint ≤ s.link.client.seq := by
    subst he
    exact hhint
  rcases hlink with hnone | ⟨process, hlinked⟩
  · obtain ⟨process, htaken, hreset⟩ := (Option.any_eq_true _ _).mp (hopen hnone.sessionId)
    have hreached : reached m s.link = some (m.request .resetSession process).2 := by
      rw [reached, if_pos hnone.sessionId, htaken]
      rfl
    rw [hreached] at hanswers
    obtain ⟨s', hready, hlinked⟩ := ensureSession_opens s.clock hnone hid htaken hreset
    have hanswered := perform_answered hready hlinked hroom hhint' hanswers
    exact ⟨hanswered.ok, hanswered.linked, fun hheld => absurd hnone.sessionId hheld⟩
  · obtain ⟨session, worker, hs, -, hw, rfl⟩ := hlinked.serving.entry
    have hreached : reached m s.link = some worker.process := by
      simp [reached, hlinked.opened, hs, hw]
    rw [hreached] at hanswers
    have hready : ensureSessionLocked m s.clock sessionId s.link = (true, s.link) :=
      ensureSession_held hlinked.opened
    have hanswered := perform_answered hready hlinked hroom hhint' hanswers
    exact ⟨hanswered.ok, hanswered.linked, fun _ => hanswered.same⟩

theorem Fulfilled.running {l : Link P} {r : Bool × Link P} (h : Fulfilled l r) :
    r.2.client.stopped = false := h.linked.elim fun _ hlinked => hlinked.running

theorem attempt_running {now : Nat} {l : Link P} (hrunning : l.client.stopped = false) :
    attempt m now sessionId call l =
      ((perform m now sessionId call l).1 && !(perform m now sessionId call l).2.client.stopped,
        (perform m now sessionId call l).2) := by
  rw [attempt, hrunning]
  rfl

theorem attempt_fulfilled (h : Sound s) (hfine : NeverFails m s (.call sessionId call))
    (hkeeps : KeepsSession s (.call sessionId call)) :
    Fulfilled s.link (attempt m s.clock sessionId call s.link) := by
  have hrunning : s.link.client.stopped = false :=
    h.link.elim (·.running) fun hlinked => hlinked.elim fun _ hlinked => hlinked.running
  have hperformed := perform_served h.link hfine hkeeps
  rw [attempt_running hrunning]
  refine ⟨?_, hperformed.linked, hperformed.kept⟩
  simp [hperformed.ok, hperformed.running]

theorem sound_call (h : Sound s) (hfine : NeverFails m s (.call sessionId call))
    (hkeeps : KeepsSession s (.call sessionId call)) :
    Sound (happen m s (.call sessionId call)) := by
  have hdone := attempt_fulfilled h hfine hkeeps
  refine ⟨Or.inr hdone.linked, ?_⟩
  have hharmless := h.harmless
  rw [Harmless] at hharmless ⊢
  rw [happen]
  cases hreaper : s.reaper with
  | sleeping | woken => trivial
  | listed now expired =>
      rw [hreaper] at hharmless
      have hkept := hdone.kept hharmless.1
      simp only [hkept]
      exact hharmless
  | removed expired =>
      rw [hreaper] at hharmless
      exact hharmless

theorem sound_reap (h : Sound s) {order : List String} (hkeeps : KeepsSession s (.reap order)) :
    Sound (happen m s (.reap order)) := by
  have hharmless := h.harmless
  rw [Harmless] at hharmless
  rw [KeepsSession] at hkeeps
  rw [happen]
  cases hreaper : s.reaper with
  | sleeping => exact ⟨h.link, trivial⟩
  | woken now =>
      refine ⟨h.link, ?_⟩
      simp only [Harmless, reap]
      by_cases hnone : (walk order s.link.state.sessions.keys).filter (expiredAt s.link.state now) = []
      · rw [if_pos hnone]
        trivial
      · rw [if_neg hnone]
        obtain ⟨id, hid⟩ := List.exists_mem_of_ne_nil _ hnone
        obtain ⟨session, hs, -⟩ := mem_expired hid
        rcases h.link with hunopened | ⟨process, hlinked⟩
        · exact absurd (mem_of_lookup hs) (hunopened.sessions id)
        · cases hlinked.serving.only id (mem_of_lookup hs)
          exact ⟨hlinked.opened, hid⟩
  | listed now expired =>
      rw [hreaper] at hharmless hkeeps
      exact absurd hharmless.2 hkeeps
  | removed expired =>
      rw [hreaper] at hharmless
      exact hharmless.elim

theorem sound_happen (h : Sound s) {e : Happening} (hfine : NeverFails m s e)
    (hkeeps : KeepsSession s e) : Sound (happen m s e) := by
  cases e with
  | call sessionId call => exact sound_call h hfine hkeeps
  | reap order => exact sound_reap h hkeeps
  | tick elapsed => exact ⟨h.link, h.harmless⟩

theorem sound_succeeds (h : Sound s) {e : Happening} (hfine : NeverFails m s e)
    (hkeeps : KeepsSession s e) : Succeeds m s e := by
  cases e with
  | call sessionId call => exact (attempt_fulfilled h hfine hkeeps).ok
  | reap | tick => trivial

end

theorem sound_begin (m : Machine P) (cfg : GrpcClientConfig) (pool : PoolConfig)
    (sessionIdleTtl : Nat) : Sound (begin m cfg pool sessionIdleTtl) :=
  ⟨Or.inl ⟨rfl, rfl, rfl, rfl, fun _ => AList.notMem_empty _⟩, trivial⟩

def Serviceable (m : Machine P) (s : Pairing P) : Prop :=
  ∀ e, NeverFails m s e → KeepsSession s e → Succeeds m s e

/-- Every call succeeds as long as the reaper leaves the client its session. -/
theorem client_survives (m : Machine P) (cfg : GrpcClientConfig) (pool : PoolConfig)
    (sessionIdleTtl : Nat) (events : List Happening)
    (h : Allowed (happen m) (fun s e => NeverFails m s e ∧ KeepsSession s e)
      (begin m cfg pool sessionIdleTtl) events) :
    Allowed (happen m) (Succeeds m) (begin m cfg pool sessionIdleTtl) events ∧
      Always (happen m) (Serviceable m) (begin m cfg pool sessionIdleTtl) events := by
  have hbegin := sound_begin m cfg pool sessionIdleTtl
  constructor
  · exact allowed_imp_of_invariant Sound (fun _ _ hs hok => sound_succeeds hs hok.1 hok.2)
      (fun _ _ hs hok => sound_happen hs hok.1 hok.2) hbegin h
  · exact always_of_invariant Sound (fun _ hs _ hfine hkeeps => sound_succeeds hs hfine hkeeps)
      (fun _ _ hs hok => sound_happen hs hok.1 hok.2) hbegin h

section

variable {m : Machine P} {now : Nat} {l : Link P} {sessionId : String}

theorem attempt_lost (h : Lost l) {call : ClientCall} (hmiss : fromCache l.client call = false) :
    (attempt m now sessionId call l).1 = false := by
  cases hstopped : l.client.stopped with
  | true =>
      rw [attempt, hstopped]
      rfl
  | false =>
      rw [attempt_running hstopped, (perform_lost h call).1, hmiss]
      rfl

theorem attempt_stuck (h : Lost l) (call : ClientCall) :
    Stuck l (attempt m now sessionId call l).2 := by
  rw [attempt]
  split
  · exact ⟨rfl, rfl⟩
  · exact (perform_lost h call).2

theorem lost_happen {s : Pairing P} (h : Lost s.link) (e : Happening) : Lost (happen m s e).link := by
  cases e with
  | call sessionId call => exact (attempt_stuck h call).lost h
  | tick elapsed => exact h
  | reap order => exact ⟨h.opened, fun hin => h.gone (reap_mem hin)⟩

theorem lost_for_good {s : Pairing P} (h : Lost s.link) (events : List Happening)
    {call : ClientCall} (hmiss : fromCache (run (happen m) s events).link.client call = false) :
    ¬Succeeds m (run (happen m) s events) (.call sessionId call) := by
  have hlost : Lost (run (happen m) s events).link :=
    run_invariant (fun s : Pairing P => Lost s.link) (fun _ e h => lost_happen h e) h events
  rw [Succeeds, attempt_lost hlost hmiss]
  exact Bool.false_ne_true

theorem removal_loses {s : Pairing P} {order : List String}
    (hopened : s.link.client.sessionId ≠ "") (hremoved : ¬KeepsSession s (.reap order)) :
    Lost (happen m s (.reap order)).link := by
  refine ⟨hopened, ?_⟩
  rw [KeepsSession] at hremoved
  rw [happen]
  cases hreaper : s.reaper with
  | sleeping | woken | removed =>
      rw [hreaper] at hremoved
      exact absurd trivial hremoved
  | listed now expired =>
      rw [hreaper] at hremoved
      exact fun hin => hremoved (mem_removeSessions hin).2

/-- Once the reaper has removed the client's session no call gets through any more. -/
theorem removed_for_good {s : Pairing P} {order : List String}
    (hopened : s.link.client.sessionId ≠ "") (hremoved : ¬KeepsSession s (.reap order))
    (events : List Happening) {call : ClientCall}
    (hmiss : fromCache (run (happen m) (happen m s (.reap order)) events).link.client call = false) :
    ¬Succeeds m (run (happen m) (happen m s (.reap order)) events) (.call sessionId call) :=
  lost_for_good (removal_loses hopened hremoved) events hmiss

end

instance (m : Machine P) (s : Pairing P) (e : Happening) : Decidable (NeverFails m s e) := by
  unfold NeverFails
  split <;> infer_instance

instance (s : Pairing P) (e : Happening) : Decidable (KeepsSession s e) := by
  unfold KeepsSession
  split
  · refine @instDecidableAnd _ _ _ ?_
    split <;> infer_instance
  · split <;> infer_instance
  · infer_instance

instance (m : Machine P) (s : Pairing P) (e : Happening) : Decidable (Succeeds m s e) := by
  unfold Succeeds
  split <;> infer_instance

def keyN : RimeKeyEvent := ⟨0x4E, 0, false, false, false, false⟩

def fresh : Pairing WorkerRuntime := begin stubMachine {} ⟨1, 4, true⟩ 300

/-- The session of the client is about to be removed. -/
def expired : Pairing WorkerRuntime :=
  run (happen stubMachine) fresh
    [.call "s" (.sendKeyEvent keyN 0), .tick 400, .reap [], .reap ["s"]]

theorem removed_client_fails :
    ¬Succeeds stubMachine
      (run (happen stubMachine) (happen stubMachine expired (.reap []))
        [.reap [], .call "t" (.queryCandidates "ni" 5), .tick 1])
      (.call "u" (.sendKeyEvent keyN 400000)) :=
  removed_for_good (by decide) (by decide) _ (by decide)

theorem used_in_time :
    Allowed (happen stubMachine) (Succeeds stubMachine) fresh
        [.call "s" (.sendKeyEvent keyN 0), .tick 200, .reap [], .reap ["s"],
          .call "t" (.queryCandidates "ni" 5), .call "t" (.commitSelection "你" 0 0)] ∧
      Always (happen stubMachine) (Serviceable stubMachine) fresh
        [.call "s" (.sendKeyEvent keyN 0), .tick 200, .reap [], .reap ["s"],
          .call "t" (.queryCandidates "ni" 5), .call "t" (.commitSelection "你" 0 0)] :=
  client_survives stubMachine {} ⟨1, 4, true⟩ 300 _ (by decide)

theorem expired_client_fails :
    Allowed (happen stubMachine) (NeverFails stubMachine) fresh
        [.call "s" (.sendKeyEvent keyN 0), .tick 400, .reap [], .reap ["s"], .reap [], .reap [],
          .call "t" (.sendKeyEvent keyN 400000)] ∧
      ¬Allowed (happen stubMachine) (Succeeds stubMachine) fresh
        [.call "s" (.sendKeyEvent keyN 0), .tick 400, .reap [], .reap ["s"], .reap [], .reap [],
          .call "t" (.sendKeyEvent keyN 400000)] := by
  decide

end RimeWinime.Survival
