import RimeWinime.Gateway.HostTyping
import RimeWinime.Gateway.Observation
import RimeWinime.Gateway.Versions

namespace RimeWinime.Resets

open World Worker Backends Pool Service Steps Run Trace WorkerIsolation Observation
open LegacyTcpRuntime LegacyTalk LegacyWire Versions WorkerBackendRuntime
open RimeWinime.HostTyping (Answering Idle hostBuffer reset_ready)
open RimeWinime.Partition (answersReset)

variable {N E : Type} (hostBlank : N → Prop) (imeBlank : E → Prop)

/-- Nothing of a session is left in the backend, nor in the host or the IME behind it. -/
def Empty : WorkerBackendRuntime N E → Prop
  | .stub runtime => Blank runtime
  | .legacyTcp s => s.1.clearLocalState = s.1 ∧ hostBlank s.2
  | .winImm s => s.1.clearLocalState = s.1 ∧ imeBlank s.2
  | .winImmStandIn => True

variable (host : LegacyHost N) (imm : Imm E)

def afterReset (runtime : WorkerBackendRuntime N E) : WorkerBackendRuntime N E :=
  (handleRequest host imm .resetSession runtime).2

theorem cleared_of_offline {r : LegacyTcpRuntime}
    (h : resetConnection r.clearLocalState = resetConnection r) : r.clearLocalState = r := by
  cases r
  simpa [resetConnection, clearLocalState] using h

theorem resetRemote_cleared {s : Legacy N} (h : s.1.clearLocalState = s.1) :
    (resetRemote host s).2.1.clearLocalState = (resetRemote host s).2.1 := by
  have hlocal : resetConnection (resetRemote host s).2.1 = resetConnection s.1 :=
    resetRemote_steady host s
  apply cleared_of_offline
  calc resetConnection (resetRemote host s).2.1.clearLocalState
      = clearLocalState (resetConnection (resetRemote host s).2.1) := rfl
    _ = clearLocalState (resetConnection s.1) := by rw [hlocal]
    _ = resetConnection s.1.clearLocalState := rfl
    _ = resetConnection s.1 := by rw [h]
    _ = resetConnection (resetRemote host s).2.1 := hlocal.symm

/-- A reset clears the fields of its backend. What it leaves of the host is what RESET leaves,
if that gets there, and what it leaves of the IME is what activating it leaves. -/
theorem empty_afterReset (runtime : WorkerBackendRuntime N E)
    (hhost : ∀ s : Legacy N, runtime = .legacyTcp s →
      hostBlank (resetRemote host (clearLocalState s.1.bump, s.2)).2.2)
    (hime : ∀ s, runtime = .winImm s → imeBlank (imm.activate s.2).2) :
    Empty hostBlank imeBlank (afterReset host imm runtime) := by
  cases runtime with
  | stub r => exact rfl
  | legacyTcp s =>
      have hcleared : (clearLocalState s.1.bump).clearLocalState = clearLocalState s.1.bump := rfl
      refine ⟨?_, hhost s rfl⟩
      exact @resetRemote_cleared _ host (clearLocalState s.1.bump, s.2) hcleared
  | winImm s => exact ⟨rfl, hime s rfl⟩
  | winImmStandIn => trivial

theorem refused_reset {s : Legacy N} (hoffline : s.1.connected = false) {e : String}
    (hrefused : host.connect s.2 = (.error e, s.2)) :
    (handleRequest host imm .resetSession (.legacyTcp s)).1.ok = true ∧
      (Empty hostBlank imeBlank (afterReset host imm (.legacyTcp s)) ↔ hostBlank s.2) := by
  have hconnect : (connectIfNeeded host (clearLocalState s.1.bump, s.2)) =
      (.error e, (clearLocalState s.1.bump, s.2)) := by
    have hstill : (clearLocalState s.1.bump).connected = false := hoffline
    have herror : (onHost host.connect (clearLocalState s.1.bump, s.2)).1 = .error e :=
      congrArg Prod.fst hrefused
    simp only [connectIfNeeded, bind_run, observe_run, hstill]
    rw [if_neg (by decide), andThen_error herror, onHost, hrefused]
  have hready : ensureReady host (clearLocalState s.1.bump, s.2) =
      (.error e, (clearLocalState s.1.bump, s.2)) := by
    rw [ensureReady, andThen_error (congrArg Prod.fst hconnect), hconnect]
  have hremote : (resetRemote host (clearLocalState s.1.bump, s.2)).2 =
      (clearLocalState s.1.bump, s.2) := by
    simp only [resetRemote, bind_run, hready, pure_run]
  have hafter : afterReset host imm (.legacyTcp s) =
      .legacyTcp (resetRemote host (clearLocalState s.1.bump, s.2)).2 := rfl
  refine ⟨rfl, ?_⟩
  rw [hafter, hremote]
  exact ⟨fun h => h.2, fun h => ⟨rfl, h⟩⟩

theorem answered_reset {server : LegacyServer} (h : Answering server) (imm : Imm E) {s : Legacy Wire}
    (hidle : Idle s) :
    Empty (fun w => hostBuffer w.received = "") imeBlank
      (afterReset (socket server undisturbed) imm (.legacyTcp s)) := by
  refine empty_afterReset _ imeBlank _ imm _ ?_ fun _ hime => by cases hime
  rintro _ ⟨⟩
  exact (reset_ready h hidle).2

variable (spawn : Nat → Option (Subprocess N E))

theorem runtime_of_answersReset {p : Subprocess N E}
    (h : answersReset (machine host imm spawn) p = true) :
    ((machine host imm spawn).request .resetSession p).2.runtime =
      afterReset host imm p.runtime := by
  simp only [answersReset, machine, requestSubprocess] at h ⊢
  cases hfate : p.fate with
  | delivered => rfl
  | requestLost e =>
      rw [hfate] at h
      cases h
  | replyLost e => rfl

theorem backends_clear (hhost : ∀ s : Legacy N, hostBlank (resetRemote host s).2.2)
    (hime : ∀ e, imeBlank (imm.activate e).2) (t : Traced (Subprocess N E)) (e : Event) :
    Clears (machine host imm spawn) (fun p => Empty hostBlank imeBlank p.runtime) t e := by
  intro i sessionId req workerId held worker _ _ _ _ hanswers
  rw [runtime_of_answersReset host imm spawn hanswers]
  exact empty_afterReset hostBlank imeBlank host imm _ (fun s _ => hhost _) fun s _ => hime _

theorem backends_observed (hhost : ∀ s : Legacy N, hostBlank (resetRemote host s).2.2)
    (hime : ∀ e, imeBlank (imm.activate e).2) (cfg : PoolConfig) (sessionIdleTtl : Nat)
    {events : List Event}
    (huuid : Allowed (trace (machine host imm spawn)) UuidFresh
      (begin (machine host imm spawn) cfg sessionIdleTtl) events)
    (hunheld : Allowed (trace (machine host imm spawn)) (ReleasesUnheld (machine host imm spawn))
      (begin (machine host imm spawn) cfg sessionIdleTtl) events) :
    Allowed (watch (machine host imm spawn))
      (ObservesOwn (machine host imm spawn) fun p => Empty hostBlank imeBlank p.runtime)
      (watched (machine host imm spawn) cfg sessionIdleTtl) events := by
  have hclears := backends_clear hostBlank imeBlank host imm spawn hhost hime
  refine watched_explained _ _ cfg sessionIdleTtl (allowed_and (allowed_and huuid hunheld) ?_)
  exact allowed_of_forall hclears _ events

/-- An IME that keeps its letters until it is activated. -/
def keepingIme : Imm String where
  activate := change fun _ => ""
  driveKey key := change fun letters => WorkerRuntime.typeKey letters key.virtualKey
  available := pure true
  read _ := observe fun letters => .ok ⟨letters, "", [], 0, 0⟩

def keepingMachine : Machine (Subprocess Unit String) :=
  machine unreachableHost keepingIme fun _ => some ⟨.winImm (⟨"", "", [], 1, false⟩, ""), []⟩

/-- After "s" has typed "a", "t" gets its worker and types "b". -/
theorem kept_letters_unseen :
    Allowed (watch keepingMachine)
        (ObservesOwn keepingMachine fun p => Empty (fun _ => True) (fun e => e = "") p.runtime)
        (watched keepingMachine ⟨1, 4, true⟩ 30) keyBeforeReaper ∧
      (run (trace keepingMachine) (begin keepingMachine ⟨1, 4, true⟩ 30)
        keyBeforeReaper).sys.handlers[3]? =
          some (.done (.sendKeyEvent ⟨"t", 1, 7, "b", "", ""⟩)) := by
  refine ⟨?_, rfl⟩
  exact backends_observed (fun _ => True) (fun e => e = "") unreachableHost keepingIme _
    (fun _ => trivial) (fun _ => rfl) ⟨1, 4, true⟩ 30 (by decide) (by decide)

end RimeWinime.Resets
