import Mathlib.Algebra.Order.Group.Multiset
import RimeWinime.Lib.Ledger
import RimeWinime.Win32Proxy.Client

namespace RimeWinime.Win32Proxy

open World Outside Ledger

def mark : Event Call.Answer → Mark Int
  | ⟨.socket, fd⟩ => if fd < 0 then .other else .gains fd
  | ⟨.close fd, _⟩ => .gives fd
  | _ => .other

def held (w : Program State Call.Answer) : Option (Multiset Int) := account (w.past.map mark)

/-- What the field names. -/
def owned (fd : Int) : Multiset Int := if fd < 0 then 0 else {fd}

/-- The client holds the socket that its field names, and no other. -/
def Sound (w : Program State Call.Answer) : Prop := held w = some (owned w.state.fd)

abbrev assets (w : Program State Call.Answer) : Int × Option (Multiset Int) := (w.state.fd, held w)

section

variable {α β : Type} {os : Os} {config : Config} {patience : Nat}

variable (os) in
theorem held_ask (q : Call) (w : Program State Call.Answer) :
    held (ask os q w).2 = enter (held w) (mark ⟨q, (ask os q w).1⟩) := by
  rw [held, ask, List.map_append, account, List.foldl_append]
  rfl

theorem Sound.step {x : Run α} (hx : Steady assets x) {w : Program State Call.Answer} (hw : Sound w) :
    Sound (x w).2 := by
  have hsame := hx w
  rw [Prod.mk.injEq] at hsame
  rw [Sound, hsame.1, hsame.2]
  exact hw

theorem keeps_of_steady {x : Run α} (hx : Steady assets x) : Keeps Sound (fun _ => True) x :=
  fun _ hw => ⟨trivial, hw.step hx⟩

theorem steady_sendAll (calls : Nat) (wire : List UInt8) : Steady assets (sendAll os calls wire) := by
  induction calls generalizing wire with
  | zero =>
      cases wire with
      | nil => exact Steady.pure _
      | cons byte wire => exact Steady.pure _
  | succ calls ih =>
      cases wire with
      | nil => exact Steady.pure _
      | cons byte wire =>
          refine Steady.bind (fun _ => rfl) fun s => ?_
          refine Steady.bind (fun w => Prod.ext rfl (held_ask os _ w)) fun n => ?_
          exact Steady.ite (Steady.pure _) (ih _)

theorem steady_readLineUnlocked (reads : Nat) : Steady assets (readLineUnlocked os reads) := by
  induction reads with
  | zero => exact Steady.pure _
  | succ reads ih =>
      refine Steady.bind (fun _ => rfl) fun s => ?_
      split
      · exact Steady.bind (fun _ => rfl) fun _ => Steady.pure _
      · refine Steady.bind (fun w => Prod.ext rfl (held_ask os _ w)) fun bytes => ?_
        exact Steady.ite (Steady.pure _) (Steady.bind (fun _ => rfl) fun _ => ih)

theorem steady_receive (expected : String) (turns : Nat) :
    Steady assets (receive os patience expected turns) := by
  induction turns with
  | zero => exact Steady.pure _
  | succ turns ih =>
      refine Steady.bind (steady_readLineUnlocked patience) fun line => ?_
      cases line with
      | some line => exact Steady.ite (Steady.pure _) ih
      | none => exact Steady.pure _

/-- A command leaves the socket as it is, whether or not it is answered. -/
theorem steady_sendCommandUnlocked (cmd : List UInt8) (expected : String) :
    Steady assets (sendCommandUnlocked os patience cmd expected) := by
  refine Steady.bind (steady_sendAll _ _) fun sent => ?_
  exact Steady.ite (steady_receive expected 8) (Steady.pure _)

variable (os) in
theorem sound_closeUnlocked {w : Program State Call.Answer} (hw : Sound w) :
    Sound (closeUnlocked os w).2 ∧ (closeUnlocked os w).2.state.fd < 0 := by
  have hrun : (closeUnlocked os w).2 = (modify (fun s : State => { s with rx := [] })
      (when (0 ≤ w.state.fd) (do
        ask os (.close w.state.fd)
        modify fun s => { s with fd := -1 }) w).2).2 := rfl
  rw [hrun]
  by_cases hopen : 0 ≤ w.state.fd
  · have hneg : ¬w.state.fd < 0 := Int.not_lt.mpr hopen
    have hclosed := held_ask os (.close w.state.fd) w
    rw [hw, owned, if_neg hneg, mark, enter_gives (Multiset.mem_singleton_self _),
      ← Multiset.cons_zero, Multiset.erase_cons_head] at hclosed
    rw [when_pos hopen]
    exact ⟨hclosed, (by decide : (-1 : Int) < 0)⟩
  · rw [when_neg hopen]
    exact ⟨hw, Int.not_le.mp hopen⟩

theorem keeps_closeUnlocked : Keeps Sound (fun _ => True) (closeUnlocked os) :=
  fun _ hw => ⟨trivial, (sound_closeUnlocked os hw).1⟩

theorem keeps_orClose {x : Run (Option Line)} (hx : Keeps Sound (fun _ => True) x) :
    Keeps Sound (fun _ => True) (orClose os x) := by
  refine Keeps.bind hx fun answer _ => Keeps.ite (fun _ => Keeps.pure trivial) fun _ => ?_
  exact Keeps.bind keeps_closeUnlocked fun _ _ => Keeps.pure trivial

theorem keeps_sendCommand (cmd : List UInt8) (expected : String) :
    Keeps Sound (fun _ => True) (sendCommandUnlocked os patience cmd expected) :=
  keeps_of_steady (steady_sendCommandUnlocked cmd expected)

variable (os) in
theorem sound_openSocket {w : Program State Call.Answer} (hw : Sound w) (hnone : w.state.fd < 0) :
    Sound (openSocket os w).2 := by
  let fd := (ask os .socket w).1
  let opened := (modify (fun s : State => { s with fd := fd }) (ask os .socket w).2).2
  have hheld : Sound opened := by
    have hask := held_ask os .socket w
    rw [hw, owned, if_pos hnone, mark] at hask
    have hopened : held opened = enter (some 0) (if fd < 0 then .other else .gains fd) := hask
    have hfd : opened.state.fd = fd := rfl
    rw [Sound, hopened, owned, hfd]
    by_cases hneg : fd < 0
    · rw [if_pos hneg, if_pos hneg]
      rfl
    · rw [if_neg hneg, if_neg hneg]
      rfl
  have hrun : openSocket os w = (if fd < 0 then pure false
      else do
        let connected ← ask os (.connect fd)
        if connected then pure true
        else do
          closeUnlocked os
          pure false : Run Bool) opened := rfl
  rw [hrun]
  have hrest : Keeps Sound (fun _ => True) (if fd < 0 then pure false
      else do
        let connected ← ask os (.connect fd)
        if connected then pure true
        else do
          closeUnlocked os
          pure false : Run Bool) := by
    refine Keeps.ite (fun _ => Keeps.pure trivial) fun _ => ?_
    have hconnect : Steady assets (ask os (.connect fd)) := fun w => Prod.ext rfl (held_ask os _ w)
    refine Keeps.bind (keeps_of_steady hconnect) fun connected _ => ?_
    refine Keeps.ite (fun _ => Keeps.pure trivial) fun _ => ?_
    exact Keeps.bind keeps_closeUnlocked fun _ _ => Keeps.pure trivial
  exact (hrest opened hheld).2

theorem keeps_ensureConnectedUnlocked :
    Keeps Sound (fun _ => True) (ensureConnectedUnlocked os config patience) := by
  intro w hw
  refine ⟨trivial, ?_⟩
  have hrun : ensureConnectedUnlocked os config patience w = (if 0 ≤ w.state.fd then pure true
      else andThenDo (openSocket os)
        (andThenDo (activateUnlocked os patience) (setCodepage os config patience)) : Run Bool) w := rfl
  rw [hrun]
  by_cases hopen : 0 ≤ w.state.fd
  · rw [if_pos hopen]
    exact hw
  · rw [if_neg hopen]
    have hsocket := sound_openSocket os hw (Int.not_le.mp hopen)
    have hsetup : Keeps Sound (fun _ => True)
        (andThenDo (activateUnlocked os patience) (setCodepage os config patience)) := by
      refine Keeps.bind (keeps_orClose (keeps_sendCommand _ _)) fun ok _ => ?_
      exact Keeps.ite (fun _ => keeps_orClose (keeps_sendCommand _ _)) fun _ => Keeps.pure trivial
    have hrest : Keeps Sound (fun _ => True) (if (openSocket os w).1 then
        andThenDo (activateUnlocked os patience) (setCodepage os config patience)
      else pure false) := Keeps.ite (fun _ => hsetup) fun _ => Keeps.pure trivial
    exact (hrest _ hsocket).2

theorem keeps_askCandidates (cmd : List UInt8) :
    Keeps Sound (fun _ => True) (askCandidates os patience cmd) :=
  Keeps.bind (keeps_sendCommand cmd _) fun _ _ => Keeps.pure trivial

theorem keeps_orElseAsk (wanted : Bool) (cmd : List UInt8) (parsed : ProxyResult) :
    Keeps Sound (fun _ => True) (orElseAsk os patience wanted cmd parsed) := by
  refine Keeps.ite (fun _ => ?_) fun _ => Keeps.pure trivial
  exact Keeps.bind (keeps_askCandidates cmd) fun fallback _ => Keeps.pure trivial

theorem keeps_conclude (parsed : ProxyResult) :
    Keeps Sound (fun _ => True) (conclude os config patience parsed) := by
  refine Keeps.ite (fun _ => ?_) fun _ => ?_
  · refine Keeps.bind (P := fun _ => True) ?_ fun _ _ => Keeps.pure trivial
    exact Keeps.ite (fun _ => keeps_closeUnlocked) fun _ => Keeps.pure trivial
  · refine Keeps.bind (keeps_sendCommand _ _) fun _ _ => ?_
    exact Keeps.bind keeps_closeUnlocked fun _ _ => Keeps.pure trivial

theorem keeps_askAll (input : List UInt8) :
    Keeps Sound (fun _ => True) (askAll os config patience input) := by
  refine Keeps.bind (keeps_askCandidates _) fun answer _ => ?_
  cases answer with
  | some parsed =>
      refine Keeps.bind (P := fun _ => True) ?_ fun parsed _ => keeps_conclude parsed
      refine Keeps.bind (keeps_orElseAsk _ _ _) fun parsed _ => ?_
      exact Keeps.bind (keeps_orElseAsk _ _ _) fun parsed _ => keeps_orElseAsk _ _ _
  | none => exact Keeps.bind keeps_closeUnlocked fun _ _ => Keeps.pure trivial

theorem keeps_attempt (input : List UInt8) :
    Keeps Sound (fun _ => True) (attempt os config patience input) := by
  refine Keeps.bind keeps_ensureConnectedUnlocked fun connected _ => Keeps.ite (fun _ => ?_) fun _ => ?_
  · refine Keeps.bind (keeps_orClose (keeps_sendCommand _ _)) fun active _ => ?_
    exact Keeps.ite (fun _ => keeps_askAll input) fun _ => Keeps.pure trivial
  · exact Keeps.bind keeps_closeUnlocked fun _ _ => Keeps.pure trivial

theorem keeps_query (utf8Input : List UInt8) :
    Keeps Sound (fun _ => True) (query os config patience utf8Input) := by
  refine Keeps.bind (keeps_attempt _) fun result _ => ?_
  cases result with
  | some result => exact Keeps.pure trivial
  | none => exact keeps_attempt _

theorem keeps_queries (inputs : List (List UInt8)) :
    Keeps Sound (fun _ => True) (queries os config patience inputs) := by
  induction inputs with
  | nil => exact Keeps.pure trivial
  | cons input inputs ih =>
      refine Keeps.bind (keeps_query input) fun result _ => ?_
      exact Keeps.bind ih fun results _ => Keeps.pure trivial

end

/-- However the host and the network behave: the client never closes a socket that it does not
hold, between two queries it holds the one that its field names, and when it is destroyed it has
closed each socket as often as it got it. -/
theorem queries_close_sockets (os : Os) (config : Config) (patience : Nat)
    (inputs : List (List UInt8)) :
    let w := (queries os config patience inputs started).2
    let past := (closeUnlocked os w).2.past
    held w = some (owned w.state.fd) ∧
      (∀ before, before <+: past → ∀ fd,
        (before.map mark).count (.gives fd) ≤ (before.map mark).count (.gains fd)) ∧
      ∀ fd, (past.map mark).count (.gives fd) = (past.map mark).count (.gains fd) := by
  intro w past
  have hw : Sound w := (keeps_queries inputs started rfl).2
  obtain ⟨hsound, hclosed⟩ := sound_closeUnlocked os hw
  refine ⟨hw, fun before hbefore fd => gives_le_gains fd (hbefore.map mark) hsound, fun fd => ?_⟩
  have hcount := count_account fd hsound
  rw [owned, if_pos hclosed, Multiset.count_zero, Nat.add_zero] at hcount
  exact hcount.symm

end RimeWinime.Win32Proxy
