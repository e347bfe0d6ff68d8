import RimeWinime.Gateway.Steps
import RimeWinime.Lib.Run

namespace RimeWinime.Reaping

open World Worker Table Pool Service Steps Run

variable {P : Type}

/-- The gateway and, for each session, when a handler last passed its lookup. -/
structure Watched (P : Type) where
  sys : System P
  lastUse : String → Nat

def lookingUp : Handler → Option String
  | .begun (.sendKeyEvent req) => if req.keyEvent.isSome then some req.sessionId else none
  | .assigned sessionId _ _ _ => some sessionId
  | handler => (updating handler).map (·.1)

def uses (sys : System P) : Event → Option String
  | .resume i =>
      match sys.handlers[i]? with
      | none => none
      | some handler =>
          match lookingUp handler with
          | none => none
          | some sessionId =>
              if opening handler = some sessionId ∨ sessionId ∈ sys.state.sessions then
                some sessionId
              else none
  | _ => none

def watch (m : Machine P) (w : Watched P) (e : Event) : Watched P where
  sys := step m w.sys e
  lastUse :=
    match uses w.sys e with
    | none => w.lastUse
    | some sessionId => Function.update w.lastUse sessionId w.sys.clock

/-- What the reaper takes out of the table has been idle for longer than the
ttl. -/
def RemovesIdle (w : Watched P) (e : Event) : Prop :=
  match e, w.sys.reaper with
  | .reap _, .listed _ expired =>
      ∀ sessionId ∈ expired, sessionId ∈ w.sys.state.sessions →
        w.sys.state.sessionIdleTtl < w.sys.clock - w.lastUse sessionId
  | _, _ => True

/-- The last use of the session has touched it, and was before `now`. -/
def UnusedSince (w : Watched P) (now : Nat) (sessionId : String) : Prop :=
  ∀ session ∈ w.sys.state.sessions.lookup sessionId,
    session.lastActive < now ∧ w.lastUse sessionId = session.lastActive

/-- At the removal no session of the list has been used since the reaper read
the clock for its scan. -/
def UnusedSinceScan (w : Watched P) (e : Event) : Prop :=
  match e, w.sys.reaper with
  | .reap _, .listed now expired => ∀ sessionId ∈ expired, UnusedSince w now sessionId
  | _, _ => True

/-- What the reaper holds: a clock reading of the past, and sessions that had
expired at it unless they were touched after it. -/
def HoldsFor (s : GatewayState P) (clock : Nat) : Reaper → Prop
  | .sleeping => True
  | .woken now => now ≤ clock
  | .listed now expired =>
      now ≤ clock ∧ ∀ sessionId ∈ expired, ∀ session,
        s.sessions.lookup sessionId = some session →
          session.lastActive + s.sessionIdleTtl < now ∨ now ≤ session.lastActive
  | .removed _ => True

def ReaperSound (sys : System P) : Prop := HoldsFor sys.state sys.clock sys.reaper

theorem HoldsFor.later {s s' : GatewayState P} {clock clock' : Nat} {reaper : Reaper}
    (h : HoldsFor s clock reaper) (hclock : clock ≤ clock')
    (httl : s'.sessionIdleTtl = s.sessionIdleTtl)
    (hsessions : ∀ sessionId session', s'.sessions.lookup sessionId = some session' →
      s.sessions.lookup sessionId = some session' ∨ clock ≤ session'.lastActive) :
    HoldsFor s' clock' reaper := by
  cases reaper with
  | sleeping | removed => trivial
  | woken now => exact Nat.le_trans h hclock
  | listed now expired =>
      refine ⟨Nat.le_trans h.1 hclock, fun sessionId hlisted session' hs => ?_⟩
      rw [httl]
      rcases hsessions sessionId session' hs with hold | hnew
      · exact h.2 sessionId hlisted session' hold
      · exact Or.inr (Nat.le_trans h.1 hnew)

theorem sound_resume (m : Machine P) {sys : System P} (h : ReaperSound sys) (i : Nat) :
    ReaperSound (sys.resume m i) := by
  rw [System.resume]
  split
  · exact h
  · next handler hi =>
      apply HoldsFor.later h (Nat.le_refl _) (advance_ttl m sys.clock sys.state)
      intro sessionId session' hs
      rcases sessions_after m sys.clock sys.state hs with hold | hnew | hnew
      · exact Or.inl hold
      · obtain ⟨change, session, -, -, rfl⟩ := hnew
        exact Or.inr (Nat.le_refl _)
      · obtain ⟨workerId, version, idle, -, rfl⟩ := hnew
        exact Or.inr (Nat.le_refl _)

theorem sound_reap (m : Machine P) {s : GatewayState P} {clock : Nat} {reaper : Reaper}
    (h : HoldsFor s clock reaper) (order : List String) :
    HoldsFor (reap m clock order reaper s).2 clock (reap m clock order reaper s).1 := by
  cases reaper with
  | sleeping => exact Nat.le_refl clock
  | woken now =>
      simp only [reap]
      split
      · trivial
      · refine ⟨h, fun sessionId hlisted session hs => Or.inl ?_⟩
        obtain ⟨session', hs', hidle⟩ := mem_expired hlisted
        cases hs.symm.trans hs'
        omega
  | listed | removed => trivial

theorem sound_step (m : Machine P) {sys : System P} (h : ReaperSound sys) (e : Event) :
    ReaperSound (step m sys e) := by
  cases e with
  | arrive call => exact h
  | resume i => exact sound_resume m h i
  | reap order => exact sound_reap m h order
  | tick elapsed =>
      exact HoldsFor.later h (Nat.le_add_right _ _) rfl fun _ _ hs => Or.inl hs

theorem removesIdle_of_unused {w : Watched P} (h : ReaperSound w.sys) {e : Event}
    (hok : UnusedSinceScan w e) : RemovesIdle w e := by
  cases e with
  | arrive | resume | tick => trivial
  | reap order =>
      rw [ReaperSound] at h
      cases hr : w.sys.reaper with
      | sleeping | woken | removed => simp only [RemovesIdle, hr]
      | listed now expired =>
          simp only [UnusedSinceScan, hr] at hok
          simp only [RemovesIdle, hr]
          rw [hr] at h
          intro sessionId hlisted hlive
          obtain ⟨session, hs⟩ := exists_lookup hlive
          obtain ⟨hbefore, huse⟩ := hok sessionId hlisted session hs
          have hnow : now ≤ w.sys.clock := h.1
          rcases h.2 sessionId hlisted session hs with hidle | hlate <;> omega

def begin (m : Machine P) (cfg : PoolConfig) (sessionIdleTtl : Nat) : Watched P :=
  ⟨start m cfg sessionIdleTtl, fun _ => 0⟩

/-- The reaper removes only idle sessions in a run in which nothing on its list
is used between its reading of the clock and the removal. -/
theorem reaper_removes_idle (m : Machine P) (cfg : PoolConfig) (sessionIdleTtl : Nat)
    (events : List Event)
    (hunused : Allowed (watch m) UnusedSinceScan (begin m cfg sessionIdleTtl) events) :
    Allowed (watch m) RemovesIdle (begin m cfg sessionIdleTtl) events :=
  have hstart : ReaperSound (begin m cfg sessionIdleTtl).sys := trivial
  allowed_imp_of_invariant (fun w => ReaperSound w.sys)
    (fun _ _ h hok => removesIdle_of_unused h hok) (fun _ e h _ => sound_step m h e) hstart hunused

instance (w : Watched P) (e : Event) : Decidable (RemovesIdle w e) := by
  unfold RemovesIdle
  split <;> infer_instance

instance (w : Watched P) (e : Event) : Decidable (UnusedSinceScan w e) := by
  unfold UnusedSinceScan UnusedSince
  split <;> infer_instance

def keyA : KeyEvent := ⟨1, true, 0x41, 0, false, false, false, false, false, 0, 0, 0⟩

def openedS : List Event := [.arrive (.openSession "s" ⟨true⟩), .resume 0, .resume 0]

theorem used_session_removed :
    ¬Allowed (watch stubMachine) RemovesIdle (begin stubMachine ⟨0, 4, false⟩ 30)
      (openedS ++ [.tick 35, .reap [], .reap ["s"], .arrive (.sendKeyEvent ⟨"s", some keyA⟩),
        .resume 1, .resume 1, .reap []]) := by
  decide

theorem idle_session_removed :
    Allowed (watch stubMachine) RemovesIdle (begin stubMachine ⟨0, 4, false⟩ 30)
      (openedS ++ [.tick 20, .arrive (.sendKeyEvent ⟨"s", some keyA⟩), .resume 1, .resume 1,
        .resume 1, .tick 35, .reap [], .reap ["s"], .tick 1, .reap []]) :=
  reaper_removes_idle stubMachine ⟨0, 4, false⟩ 30 _ (by decide)

end RimeWinime.Reaping
