import RimeWinime.Lib.Run

namespace RimeWinime.Mailbox

open Run

variable {C R β : Type}

/-- `awaited` says for which commands the sender waits. -/
structure Server (C R β : Type) where
  execute : C → β → R × β
  awaited : C → Bool

/-- The commands one after the other on the state itself. -/
def direct (srv : Server C R β) : List C → β → List R × β
  | [], s => ([], s)
  | c :: rest, s =>
      let r := srv.execute c s
      let later := direct srv rest r.2
      (r.1 :: later.1, later.2)

inductive Slot (R : Type)
  | unused
  | waiting
  | ready (reply : R)
  | received (reply : R)
  | dropped
deriving DecidableEq

/-- A call is named by its place among the commands sent. `pending` is a reply that
the worker has and has not passed on yet. -/
structure System (C R β : Type) where
  sent : List C
  slots : List (Slot R)
  queue : List (Nat × C)
  executed : List C
  pending : Option (Nat × R)
  state : β

def start (s : β) : System C R β := ⟨[], [], [], [], none, s⟩

inductive Event (C : Type)
  | send (c : C)
  | work
  | receive (call : Nat)
  | cancel (call : Nat)
deriving DecidableEq

def Slot.fill (reply : R) : Slot R → Slot R
  | .waiting => .ready reply
  | slot => slot

def Slot.read : Slot R → Slot R
  | .ready reply => .received reply
  | slot => slot

/-- The caller goes away. What it has received it keeps. -/
def Slot.drop : Slot R → Slot R
  | .waiting => .dropped
  | .ready _ => .dropped
  | slot => slot

def step (srv : Server C R β) (s : System C R β) : Event C → System C R β
  | .send c => { s with
      sent := s.sent ++ [c]
      slots := s.slots ++ [if srv.awaited c then .waiting else .unused]
      queue := s.queue ++ [(s.sent.length, c)] }
  | .work =>
      match s.pending with
      | some (call, reply) => { s with
          slots := s.slots.modify call (Slot.fill reply)
          pending := none }
      | none =>
          match s.queue with
          | [] => s
          | (call, c) :: queue =>
              let r := srv.execute c s.state
              { s with
                queue := queue
                executed := s.executed ++ [c]
                pending := if srv.awaited c then some (call, r.1) else none
                state := r.2 }
  | .receive call => { s with slots := s.slots.modify call Slot.read }
  | .cancel call => { s with slots := s.slots.modify call Slot.drop }

def commandOf : Event C → Option C
  | .send c => some c
  | _ => none

/-- The commands that a run sends, in the order in which it sends them. -/
def sentBy (events : List (Event C)) : List C := events.filterMap commandOf

def isWork : Event C → Bool
  | .work => true
  | _ => false

def turns (events : List (Event C)) : Nat := events.countP isWork

section

variable {srv : Server C R β} {initial : β} {s : System C R β}

theorem direct_append (a b : List C) (s : β) :
    direct srv (a ++ b) s =
      ((direct srv a s).1 ++ (direct srv b (direct srv a s).2).1,
        (direct srv b (direct srv a s).2).2) := by
  induction a generalizing s with
  | nil => rfl
  | cons c a ih => simp [direct, ih]

theorem direct_length (commands : List C) (s : β) :
    (direct srv commands s).1.length = commands.length := by
  induction commands generalizing s with
  | nil => rfl
  | cons c commands ih => simp [direct, ih]

theorem direct_prefix {a b : List C} (h : a <+: b) (s : β) {i : Nat} {reply : R}
    (hi : (direct srv a s).1[i]? = some reply) : (direct srv b s).1[i]? = some reply := by
  obtain ⟨rest, rfl⟩ := h
  obtain ⟨hlt, -⟩ := List.getElem?_eq_some_iff.mp hi
  rw [direct_append, List.getElem?_append_left hlt]
  exact hi

theorem direct_getElem? (commands : List C) (s : β) (i : Nat) :
    (direct srv commands s).1[i]? =
      commands[i]?.map fun c => (srv.execute c (direct srv (commands.take i) s).2).1 := by
  induction commands generalizing s i with
  | nil => rfl
  | cons c commands ih =>
      cases i with
      | zero => rfl
      | succ i => exact ih (srv.execute c s).2 i

/-- What the slot of a call with this command may hold. -/
def Rightful (srv : Server C R β) (initial : β) (executed : List C) (pending : Option (Nat × R))
    (call : Nat) (c : C) : Slot R → Prop
  | .unused => srv.awaited c = false
  | .dropped => srv.awaited c = true
  | .waiting => srv.awaited c = true ∧
      (executed.length ≤ call ∨ ∃ reply, pending = some (call, reply))
  | .ready reply => srv.awaited c = true ∧
      (direct srv executed initial).1[call]? = some reply
  | .received reply => srv.awaited c = true ∧
      (direct srv executed initial).1[call]? = some reply

structure Ordered (srv : Server C R β) (initial : β) (s : System C R β) : Prop where
  order : s.executed ++ s.queue.map (·.2) = s.sent
  calls : s.queue.map (·.1) = List.range' s.executed.length s.queue.length
  state : s.state = (direct srv s.executed initial).2
  pending : ∀ call reply, s.pending = some (call, reply) →
    call + 1 = s.executed.length ∧ (direct srv s.executed initial).1[call]? = some reply
  slots : s.slots.length = s.sent.length
  rightful : ∀ call c slot, s.sent[call]? = some c → s.slots[call]? = some slot →
    Rightful srv initial s.executed s.pending call c slot

theorem ordered_start (initial : β) : Ordered srv initial (start initial : System C R β) where
  order := rfl
  calls := rfl
  state := rfl
  pending := nofun
  slots := rfl
  rightful := nofun

theorem Ordered.prefix (h : Ordered srv initial s) : s.executed <+: s.sent := ⟨_, h.order⟩

theorem Ordered.length (h : Ordered srv initial s) :
    s.executed.length + s.queue.length = s.sent.length := by
  have hlength := congrArg List.length h.order
  rw [List.length_append, List.length_map] at hlength
  exact hlength

theorem ordered_send (h : Ordered srv initial s) (c : C) :
    Ordered srv initial (step srv s (.send c)) := by
  have hlength := h.length
  refine ⟨?_, ?_, h.state, h.pending, ?_, ?_⟩
  · change s.executed ++ (s.queue ++ [(s.sent.length, c)]).map (·.2) = s.sent ++ [c]
    rw [List.map_append, ← List.append_assoc, h.order]
    rfl
  · change (s.queue ++ [(s.sent.length, c)]).map (·.1) =
      List.range' s.executed.length (s.queue ++ [(s.sent.length, c)]).length
    rw [List.map_append, h.calls, List.length_append, List.length_singleton, List.range'_1_concat,
      hlength]
    rfl
  · simp [step, h.slots]
  · intro call c' slot hc hslot
    change (s.sent ++ [c])[call]? = some c' at hc
    change (s.slots ++ [if srv.awaited c then Slot.waiting else Slot.unused])[call]? = some slot
      at hslot
    by_cases hlt : call < s.sent.length
    · rw [List.getElem?_append_left hlt] at hc
      rw [List.getElem?_append_left (h.slots ▸ hlt)] at hslot
      exact h.rightful call c' slot hc hslot
    · have hcall : call = s.sent.length := by
        have hbound := (List.getElem?_eq_some_iff.mp hc).1
        rw [List.length_append, List.length_singleton] at hbound
        omega
      subst hcall
      rw [List.getElem?_append_right (Nat.le_refl _), Nat.sub_self] at hc
      rw [← h.slots, List.getElem?_append_right (Nat.le_refl _), Nat.sub_self] at hslot
      cases hc
      cases hslot
      cases hawaited : srv.awaited c with
      | false => exact hawaited
      | true =>
          refine ⟨hawaited, Or.inl ?_⟩
          change s.executed.length ≤ s.sent.length
          omega

theorem ordered_modify (h : Ordered srv initial s) (call : Nat) (f : Slot R → Slot R)
    (pending : Option (Nat × R))
    (hpending : pending = s.pending ∨ pending = none)
    (hrightful : ∀ i c slot, Rightful srv initial s.executed s.pending i c slot →
      Rightful srv initial s.executed pending i c (if call = i then f slot else slot)) :
    Ordered srv initial { s with slots := s.slots.modify call f, pending := pending } := by
  refine ⟨h.order, h.calls, h.state, fun i reply hi => ?_, ?_, fun i c slot hc hslot => ?_⟩
  · rcases hpending with rfl | rfl
    · exact h.pending i reply hi
    · cases hi
  · rw [List.length_modify]
    exact h.slots
  · rw [List.getElem?_modify] at hslot
    obtain ⟨old, hold, rfl⟩ := Option.map_eq_some_iff.mp hslot
    exact hrightful i c old (h.rightful i c old hc hold)

theorem ordered_receive (h : Ordered srv initial s) (call : Nat) :
    Ordered srv initial (step srv s (.receive call)) := by
  refine ordered_modify h call Slot.read s.pending (Or.inl rfl) ?_
  intro i c slot hslot
  split
  · cases slot <;> exact hslot
  · exact hslot

theorem ordered_cancel (h : Ordered srv initial s) (call : Nat) :
    Ordered srv initial (step srv s (.cancel call)) := by
  refine ordered_modify h call Slot.drop s.pending (Or.inl rfl) ?_
  intro i c slot hslot
  split
  · cases slot with
    | waiting | ready => exact hslot.1
    | unused | received | dropped => exact hslot
  · exact hslot

theorem ordered_deliver (h : Ordered srv initial s) {call : Nat} {reply : R}
    (hpending : s.pending = some (call, reply)) :
    Ordered srv initial
      { s with slots := s.slots.modify call (Slot.fill reply), pending := none } := by
  refine ordered_modify h call (Slot.fill reply) none (Or.inr rfl) ?_
  intro i c slot hslot
  split
  · next hi =>
    subst hi
    cases slot with
    | waiting => exact ⟨hslot.1, (h.pending call reply hpending).2⟩
    | unused | ready | received | dropped => exact hslot
  · next hi =>
    cases slot with
    | waiting =>
        refine ⟨hslot.1, hslot.2.imp_right ?_⟩
        rintro ⟨other, hother⟩
        rw [hpending] at hother
        cases hother
        exact absurd rfl hi
    | unused | ready | received | dropped => exact hslot

theorem ordered_execute (h : Ordered srv initial s) (hidle : s.pending = none) {call : Nat} {c : C}
    {queue : List (Nat × C)} (hqueue : s.queue = (call, c) :: queue) :
    Ordered srv initial
      { s with
        queue := queue
        executed := s.executed ++ [c]
        pending := if srv.awaited c then some (call, (srv.execute c s.state).1) else none
        state := (srv.execute c s.state).2 } := by
  have hcalls := h.calls
  rw [hqueue, List.map_cons, List.length_cons, List.range'_succ] at hcalls
  obtain ⟨hcall, hrest⟩ := List.cons_eq_cons.mp hcalls
  have hcall : call = s.executed.length := hcall
  have horder : s.executed ++ c :: queue.map (·.2) = s.sent := by
    rw [← h.order, hqueue]
    rfl
  have hdirect : direct srv (s.executed ++ [c]) initial =
      ((direct srv s.executed initial).1 ++ [(srv.execute c s.state).1],
        (srv.execute c s.state).2) := by
    rw [direct_append, ← h.state]
    rfl
  have hnow : (direct srv (s.executed ++ [c]) initial).1[call]? =
      some (srv.execute c s.state).1 := by
    rw [hdirect, hcall, ← direct_length s.executed initial]
    exact List.getElem?_concat_length
  have hlater : ∀ (i : Nat) (reply : R), (direct srv s.executed initial).1[i]? = some reply →
      (direct srv (s.executed ++ [c]) initial).1[i]? = some reply := by
    intro i reply hi
    exact direct_prefix (List.prefix_append s.executed [c]) initial hi
  refine ⟨?_, ?_, ?_, fun i reply hi => ?_, h.slots, fun i c' slot hc' hslot => ?_⟩
  · rw [← horder, List.append_assoc]
    rfl
  · rw [List.length_append, List.length_singleton]
    exact hrest
  · rw [hdirect]
  · split at hi
    · cases hi
      refine ⟨?_, hnow⟩
      rw [List.length_append, List.length_singleton, hcall]
    · cases hi
  · have hold := h.rightful i c' slot hc' hslot
    cases slot with
    | unused | dropped => exact hold
    | ready reply | received reply => exact ⟨hold.1, hlater i reply hold.2⟩
    | waiting =>
        refine ⟨hold.1, ?_⟩
        have hi : s.executed.length ≤ i := by
          rcases hold.2 with hle | ⟨reply, hreply⟩
          · exact hle
          · rw [hidle] at hreply
            cases hreply
        by_cases heq : i = call
        · subst heq
          have hc : c' = c := by
            rw [← horder, hcall, List.getElem?_append_right (Nat.le_refl _), Nat.sub_self] at hc'
            exact (Option.some.inj hc').symm
          right
          exact ⟨_, if_pos (hc ▸ hold.1)⟩
        · left
          rw [List.length_append, List.length_singleton]
          omega

theorem ordered_step (h : Ordered srv initial s) (e : Event C) : Ordered srv initial (step srv s e) := by
  cases e with
  | send c => exact ordered_send h c
  | receive call => exact ordered_receive h call
  | cancel call => exact ordered_cancel h call
  | work =>
      rw [step]
      split
      · next call reply hpending => exact ordered_deliver h hpending
      · next hidle =>
        split
        · exact h
        · next call c queue hqueue => exact ordered_execute h hidle hqueue

theorem ordered_run (h : Ordered srv initial s) (events : List (Event C)) :
    Ordered srv initial (run (step srv) s events) := by
  refine run_invariant (Ordered srv initial) ?_ h events
  intro s e hs
  exact ordered_step hs e

theorem sent_step (s : System C R β) (e : Event C) :
    (step srv s e).sent = s.sent ++ (commandOf e).toList := by
  cases e with
  | send c => rfl
  | receive call | cancel call => exact (List.append_nil _).symm
  | work =>
      rw [step]
      split
      · exact (List.append_nil _).symm
      · split <;> exact (List.append_nil _).symm

theorem sent_run (srv : Server C R β) (s : System C R β) (events : List (Event C)) :
    (run (step srv) s events).sent = s.sent ++ sentBy events := by
  induction events generalizing s with
  | nil => exact (List.append_nil _).symm
  | cons e events ih =>
      rw [run_cons, ih, sent_step, List.append_assoc]
      congr 1
      cases hc : commandOf e <;> simp [sentBy, hc]

theorem received_executed (h : Ordered srv initial s) {call : Nat} {reply : R}
    (hslot : s.slots[call]? = some (.received reply)) :
    (direct srv s.executed initial).1[call]? = some reply := by
  have hlt := (List.getElem?_eq_some_iff.mp hslot).1
  rw [h.slots] at hlt
  have hown := h.rightful call _ _ (List.getElem?_eq_getElem hlt) hslot
  exact hown.2

theorem received_direct (h : Ordered srv initial s) {call : Nat} {reply : R}
    (hslot : s.slots[call]? = some (.received reply)) :
    (direct srv s.sent initial).1[call]? = some reply :=
  direct_prefix h.prefix initial (received_executed h hslot)

theorem unused_of_unawaited (h : Ordered srv initial s) {call : Nat} {c : C}
    (hc : s.sent[call]? = some c) (hawaited : srv.awaited c = false) :
    s.slots[call]? = some .unused := by
  have hlt := (List.getElem?_eq_some_iff.mp hc).1
  rw [← h.slots] at hlt
  obtain ⟨slot, hslot⟩ : ∃ slot, s.slots[call]? = some slot := ⟨_, List.getElem?_eq_getElem hlt⟩
  have hown := h.rightful call c slot hc hslot
  cases slot with
  | unused => exact hslot
  | dropped =>
      rw [Rightful, hawaited] at hown
      cases hown
  | waiting | ready | received =>
      rw [Rightful, hawaited] at hown
      cases hown.1

/-- Nothing is left to do for the worker. -/
def Idle (s : System C R β) : Prop := s.queue = [] ∧ s.pending = none

theorem executed_of_idle (h : Ordered srv initial s) (hidle : Idle s) : s.executed = s.sent := by
  rw [← h.order, hidle.1, List.map_nil, List.append_nil]

/-- How far the worker is: an execution and a reply count one each. -/
def progress (s : System C R β) : Nat :=
  match s.pending with
  | some _ => 2 * s.executed.length - 1
  | none => 2 * s.executed.length

theorem progress_pending {x : Nat × R} (h : s.pending = some x) :
    progress s = 2 * s.executed.length - 1 := by
  rw [progress, h]

theorem progress_idle (h : s.pending = none) : progress s = 2 * s.executed.length := by
  rw [progress, h]

theorem progress_work (h : Ordered srv initial s) :
    progress s ≤ progress (step srv s .work) ∧
      min (2 * s.sent.length) (progress s + 1) ≤ progress (step srv s .work) := by
  have hlength := h.length
  rw [step]
  split
  · next call reply hpending =>
    have hcall := (h.pending call reply hpending).1
    rw [progress_pending hpending, progress_idle rfl]
    dsimp only
    omega
  · next hidle =>
    rw [progress_idle hidle]
    split
    · next hqueue =>
      rw [hqueue, List.length_nil] at hlength
      rw [progress_idle hidle]
      omega
    · next call c queue hqueue =>
      cases hawaited : srv.awaited c with
      | false =>
          rw [progress_idle (by simp), List.length_append, List.length_singleton]
          omega
      | true =>
          rw [progress_pending (x := (call, (srv.execute c s.state).1)) (by simp),
            List.length_append, List.length_singleton]
          omega

theorem progress_le (h : Ordered srv initial s) (e : Event C) :
    progress s ≤ progress (step srv s e) := by
  cases e with
  | work => exact (progress_work h).1
  | send | receive | cancel => exact Nat.le_refl _

theorem turns_cons (e : Event C) (events : List (Event C)) :
    turns (e :: events) = turns events + if isWork e then 1 else 0 := List.countP_cons

theorem progress_run (h : Ordered srv initial s) (events : List (Event C)) :
    min (2 * s.sent.length) (progress s + turns events) ≤ progress (run (step srv) s events) := by
  induction events generalizing s with
  | nil => exact Nat.min_le_right _ _
  | cons e events ih =>
      have hrest := ih (ordered_step h e)
      have hle := progress_le h e
      have hsent : s.sent.length ≤ (step srv s e).sent.length := by
        rw [sent_step, List.length_append]
        omega
      rw [run_cons, turns_cons]
      cases e with
      | work =>
          have hwork := (progress_work h).2
          simp only [isWork, if_true]
          omega
      | send | receive | cancel =>
          simp only [isWork, Bool.false_eq_true, if_false]
          omega

/-- With two turns for each command sent so far, they are all executed, and none of
their callers still waits for a reply to be passed on. -/
theorem done_of_turns (h : Ordered srv initial s) {later : List (Event C)}
    (hturns : 2 * s.sent.length ≤ turns later) :
    s.sent <+: (run (step srv) s later).executed ∧
      ∀ call, call < s.sent.length → (run (step srv) s later).slots[call]? ≠ some .waiting := by
  have hprogress := progress_run h later
  have hsent := sent_run srv s later
  have ht := ordered_run h later
  generalize run (step srv) s later = t at hprogress hsent ht
  have hfar : 2 * s.sent.length ≤ progress t := by omega
  have hexecuted : s.sent.length ≤ t.executed.length := by
    cases hp : t.pending with
    | none => rw [progress_idle hp] at hfar; omega
    | some x => rw [progress_pending hp] at hfar; omega
  refine ⟨?_, fun call hcall hwaiting => ?_⟩
  · apply List.prefix_of_prefix_length_le _ ht.prefix hexecuted
    rw [hsent]
    exact List.prefix_append _ _
  · have hlt := (List.getElem?_eq_some_iff.mp hwaiting).1
    rw [ht.slots] at hlt
    have hown := ht.rightful call _ _ (List.getElem?_eq_getElem hlt) hwaiting
    rcases hown.2 with hle | ⟨reply, hpending⟩
    · omega
    · have hlast := (ht.pending call reply hpending).1
      rw [progress_pending hpending] at hfar
      omega

theorem dropped_modify {slots : List (Slot R)} {k call : Nat} {f : Slot R → Slot R}
    (hf : ∀ slot, f slot = .dropped → slot = .dropped)
    (h : (slots.modify k f)[call]? = some .dropped) : slots[call]? = some .dropped := by
  rw [List.getElem?_modify] at h
  obtain ⟨slot, hslot, hdropped⟩ := Option.map_eq_some_iff.mp h
  rw [hslot]
  congr 1
  split at hdropped
  · exact hf slot hdropped
  · exact hdropped

theorem dropped_step {call : Nat} {e : Event C}
    (h : (step srv s e).slots[call]? = some .dropped) :
    s.slots[call]? = some .dropped ∨ e = .cancel call := by
  cases e with
  | send c =>
      left
      change (s.slots ++ [if srv.awaited c then Slot.waiting else Slot.unused])[call]? = _ at h
      rw [List.getElem?_append] at h
      split at h
      · exact h
      · cases hc : call - s.slots.length <;> cases hawaited : srv.awaited c <;>
          simp [hc, hawaited] at h
  | work =>
      left
      rw [step] at h
      split at h
      · apply dropped_modify _ h
        intro slot hslot
        cases slot <;> first | rfl | cases hslot
      · split at h <;> exact h
  | receive k =>
      left
      apply dropped_modify _ h
      intro slot hslot
      cases slot <;> first | rfl | cases hslot
  | cancel k =>
      by_cases hk : k = call
      · exact Or.inr (congrArg Event.cancel hk)
      · left
        change (s.slots.modify k Slot.drop)[call]? = _ at h
        rw [List.getElem?_modify] at h
        simpa [hk] using h

theorem dropped_run {call : Nat} {events : List (Event C)}
    (h : (run (step srv) s events).slots[call]? = some .dropped) :
    s.slots[call]? = some .dropped ∨ .cancel call ∈ events := by
  induction events generalizing s with
  | nil => exact Or.inl h
  | cons e events ih =>
      rcases ih h with hdropped | hmem
      · rcases dropped_step hdropped with hbefore | rfl
        · exact Or.inl hbefore
        · exact Or.inr List.mem_cons_self
      · exact Or.inr (List.mem_cons_of_mem e hmem)

theorem received_of_asked (h : Ordered srv initial s) {call : Nat} {c : C}
    (hc : s.sent[call]? = some c) (hawaited : srv.awaited c = true)
    (hwaiting : s.slots[call]? ≠ some .waiting) (hdropped : s.slots[call]? ≠ some .dropped) :
    ∃ reply, (step srv s (.receive call)).slots[call]? = some (.received reply) ∧
      (direct srv s.sent initial).1[call]? = some reply := by
  have hlt := (List.getElem?_eq_some_iff.mp hc).1
  rw [← h.slots] at hlt
  have hslot := List.getElem?_eq_getElem hlt
  have hown := h.rightful call c _ hc hslot
  have hread : (step srv s (.receive call)).slots[call]? = some (s.slots[call].read) := by
    change (s.slots.modify call Slot.read)[call]? = _
    rw [List.getElem?_modify, hslot]
    simp
  rw [hread]
  generalize s.slots[call] = slot at hslot hown
  cases slot with
  | unused =>
      rw [hown] at hawaited
      cases hawaited
  | waiting => exact absurd hslot hwaiting
  | dropped => exact absurd hslot hdropped
  | ready reply => exact ⟨reply, rfl, direct_prefix h.prefix initial hown.2⟩
  | received reply => exact ⟨reply, rfl, direct_prefix h.prefix initial hown.2⟩

end

end RimeWinime.Mailbox
