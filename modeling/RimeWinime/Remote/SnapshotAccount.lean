import Mathlib.Algebra.BigOperators.Group.List.Basic
import RimeWinime.Remote.Snapshots

namespace RimeWinime.Snapshots

open World Table Proto Blocks ContextMemory
open Client (GrpcImeClientV2)
open Proxy (SessionState Callers stateOf setState clients)
open SharedState (RegexSearch)

variable {α β : Type}

theorem snapshots_erase (t : Map Nat Context) (sessionId : Nat) :
    snapshots t = kept (t.lookup sessionId) + snapshots (t.erase sessionId) := by
  cases hlast : t.lookup sessionId with
  | none =>
      have habsent : t.erase sessionId = t := by
        apply AList.ext
        exact List.kerase_of_notMem_keys (AList.lookup_eq_none.mp hlast)
      rw [habsent, kept, Option.elim_none, Multiset.zero_add]
  | some c =>
      have hperm := (values_perm_erase hlast).map Context.blocks
      rw [snapshots, hperm.sum_eq, List.map_cons, List.sum_cons]
      rfl

/-- What is in hand, the snapshots, what the callers have and what is forgotten: no block else is
live, and a session has a snapshot where its flag says so. -/
structure Held (inHand : Multiset Nat) (s : Module) : Prop where
  holds : Holds s.heap (inHand + (snapshots s.contexts + s.handed + s.left))
  sized : ∀ sessionId, ∀ c ∈ s.contexts.lookup sessionId, c.Sized
  flagged : ∀ sessionId, (stateOf s.callers sessionId).hasLastContext =
    (s.contexts.lookup sessionId).isSome

def Step (given : Multiset Nat) (x : Act Module α) (left : α → Multiset Nat) : Prop :=
  ∀ s, Held given s → Held (left (x s).1) (x s).2

section

variable {given : Multiset Nat} {left : α → Multiset Nat}

variable (left) in
theorem Step.pure (a : α) : Step (left a) (pure a) left := fun _ h => h

theorem Step.bind {mid : α → Multiset Nat} {left : β → Multiset Nat} {x : Act Module α}
    {f : α → Act Module β} (hx : Step given x mid) (hf : ∀ a, Step (mid a) (f a) left) :
    Step given (x >>= f) left := fun s h => hf _ _ (hx s h)

theorem Step.ite {c : Prop} [Decidable c] {x y : Act Module α} (hx : Step given x left)
    (hy : Step given y left) : Step given (if c then x else y) left := by
  split
  · exact hx
  · exact hy

theorem Step.observe (f : Module → α) : Step given (observe f) fun _ => given := fun _ h => h

theorem onHeap_step {op : Act Heap α} (h : Owns given op left) : Step given (onHeap op) left :=
  fun s hs => ⟨h s.heap _ hs.holds, hs.sized, hs.flagged⟩

end

theorem give_step (r : Reply) : Step r.blocks (give r) fun _ => 0 := by
  intro s hs
  refine ⟨?_, hs.sized, hs.flagged⟩
  have hblocks : r.blocks + (snapshots s.contexts + s.handed + s.left) =
      0 + (snapshots s.contexts + (r.blocks + s.handed) + s.left) := by abel
  exact hblocks ▸ hs.holds

theorem stateOf_insert {s s' : Callers} {sessionId : Nat} {ss : SessionState}
    (h : s'.sessions = s.sessions.insert sessionId ss) (j : Nat) :
    stateOf s' j = if j = sessionId then ss else stateOf s j := by
  rw [stateOf, h, lookup_insert_eq]
  split
  · rfl
  · rfl

theorem setSession_step {given : Multiset Nat} (sessionId : Nat) {f : SessionState → SessionState}
    (hf : ∀ ss, (f ss).hasLastContext = ss.hasLastContext) :
    Step given (setSession sessionId f) fun _ => given := by
  intro s hs
  refine ⟨hs.holds, hs.sized, fun j => ?_⟩
  have hstate : stateOf (setSession sessionId f s).2.callers j =
      if j = sessionId then f (stateOf s.callers sessionId) else stateOf s.callers j :=
    stateOf_insert rfl j
  rw [hstate]
  split
  · next hj =>
      rw [hf, hj]
      exact hs.flagged sessionId
  · exact hs.flagged j

theorem flags_step (sessionId : Nat) (r : Reply) {f : SessionState → SessionState}
    (hf : ∀ ss, (f ss).hasLastContext = ss.hasLastContext) :
    Step 0 (setSession sessionId f >>= fun _ => pure r) fun _ => 0 :=
  Step.bind (setSession_step sessionId hf) fun _ => Step.pure (fun _ => 0) r

/-- Only the session's own state is written, and a change of the schema clears its flag. -/
theorem ensureSession_sessions (sessionId : Nat) (curSchema : String) (reply : Option String)
    (s : Callers) : ∃ ss : SessionState,
      (Proxy.ensureSession sessionId curSchema reply s).2.sessions = s.sessions.insert sessionId ss ∧
      ss.hasLastContext = ((stateOf s sessionId).hasLastContext &&
        decide (curSchema = (stateOf s sessionId).schemaId)) := by
  rw [Proxy.ensureSession, bind_run, observe_run, ite_run]
  split
  · next hsame =>
      refine ⟨stateOf s sessionId, rfl, ?_⟩
      rw [decide_eq_true hsame, Bool.and_true]
  · next hchanged =>
      rw [decide_eq_false hchanged, Bool.and_false]
      have hschemas : ∀ t : Callers,
          (Proxy.onClients (Proxy.tearDown sessionId (stateOf s sessionId)) t).2.grpcSchemas =
            t.grpcSchemas := fun _ => rfl
      rw [bind_run, bind_run, observe_run, hschemas]
      cases hinfo : s.grpcSchemas.lookup curSchema with
      | none => exact ⟨_, rfl, rfl⟩
      | some info =>
          simp only [bind_run, ite_run]
          split
          · exact ⟨_, rfl, rfl⟩
          · exact ⟨_, rfl, rfl⟩

/-- A snapshot goes where the schema changes, and nothing else does. -/
theorem ensureSession_step (sessionId : Nat) (curSchema : String) (reply : Option String) :
    Step 0 (ensureSession sessionId curSchema reply) fun _ => 0 := by
  intro s hs
  obtain ⟨ss, hsessions, hflag⟩ := ensureSession_sessions sessionId curSchema reply s.callers
  have hstate := stateOf_insert hsessions
  have hrun : (ensureSession sessionId curSchema reply s).2 =
      { (dropContext sessionId curSchema s).2 with
        callers :=
          (Proxy.ensureSession sessionId curSchema reply (dropContext sessionId curSchema s).2.callers).2 } :=
    rfl
  rw [hrun, dropContext]
  split
  · next hdrop =>
      have hdeleted := deleteSnapshot_owns (hs.sized sessionId) s.heap
        (snapshots (s.contexts.erase sessionId) + s.handed + s.left)
      refine ⟨?_, fun j => ?_, fun j => ?_⟩
      · apply hdeleted
        have hblocks := hs.holds
        rw [snapshots_erase s.contexts sessionId, Multiset.zero_add, Multiset.add_assoc,
          Multiset.add_assoc] at hblocks
        rwa [Multiset.add_assoc]
      · dsimp only
        rw [lookup_erase_eq]
        split
        · exact fun c hc => absurd hc (Option.not_mem_none c)
        · exact hs.sized j
      · dsimp only
        rw [hstate, lookup_erase_eq]
        split
        · rw [hflag, decide_eq_false hdrop.1, Bool.and_false]
          rfl
        · exact hs.flagged j
  · next hkeep =>
      refine ⟨hs.holds, hs.sized, fun j => ?_⟩
      dsimp only
      rw [hstate]
      split
      · next hj =>
          rw [hflag, hj, ← hs.flagged sessionId]
          by_cases hsame : curSchema = (stateOf s.callers sessionId).schemaId
          · rw [decide_eq_true hsame, Bool.and_true]
          · have hno : (stateOf s.callers sessionId).hasLastContext = false := by
              cases hhas : (stateOf s.callers sessionId).hasLastContext with
              | false => rfl
              | true => exact absurd ⟨hsame, hhas⟩ hkeep
            rw [hno, Bool.false_and]
      · exact hs.flagged j

/-- The snapshot is a copy: what is in hand stays in hand. -/
theorem saveContext_step (sessionId : Nat) (hasPreview : Bool) {c : Context} (hc : c.Sized) :
    Step c.blocks (saveContext sessionId hasPreview c) fun _ => c.blocks := by
  intro s hs
  have hlast := hs.sized sessionId
  have hsaved := saveContextSnapshot_owns hlast hasPreview hc s.heap
    (snapshots (s.contexts.erase sessionId) + s.handed + s.left)
  have hreads := saveContextSnapshot_returns (s.contexts.lookup sessionId) hasPreview hc s.heap
  have hstate (j : Nat) : stateOf (saveContext sessionId hasPreview c s).2.callers j =
      if j = sessionId then
        { stateOf s.callers sessionId with hasLastContext := true, lastIsComposing := 0 < c.length }
      else stateOf s.callers j := stateOf_insert rfl j
  have hcontexts : (saveContext sessionId hasPreview c s).2.contexts = s.contexts.insert sessionId
      (saveContextSnapshot (s.contexts.lookup sessionId) hasPreview c s.heap).1 := rfl
  refine ⟨?_, fun j => ?_, fun j => ?_⟩
  · have hbefore : Holds s.heap (c.blocks + kept (s.contexts.lookup sessionId) +
        (snapshots (s.contexts.erase sessionId) + s.handed + s.left)) := by
      have hblocks := hs.holds
      rw [snapshots_erase s.contexts sessionId] at hblocks
      have hsum : c.blocks + (kept (s.contexts.lookup sessionId) +
          snapshots (s.contexts.erase sessionId) + s.handed + s.left) =
        c.blocks + kept (s.contexts.lookup sessionId) +
          (snapshots (s.contexts.erase sessionId) + s.handed + s.left) := by abel
      exact hsum ▸ hblocks
    have hafter := hsaved hbefore
    have hsum : c.blocks + (saveContextSnapshot (s.contexts.lookup sessionId) hasPreview c
          s.heap).1.blocks + (snapshots (s.contexts.erase sessionId) + s.handed + s.left) =
        c.blocks + (snapshots (saveContext sessionId hasPreview c s).2.contexts + s.handed +
          s.left) := by
      have hinsert : snapshots (saveContext sessionId hasPreview c s).2.contexts =
          (saveContextSnapshot (s.contexts.lookup sessionId) hasPreview c s.heap).1.blocks +
            snapshots (s.contexts.erase sessionId) := rfl
      rw [hinsert]
      abel
    exact hsum ▸ hafter
  · rw [hcontexts, lookup_insert_eq]
    split
    · intro saved hmem
      rw [← Option.some.inj hmem]
      exact hreads.2
    · exact hs.sized j
  · rw [hstate, hcontexts, lookup_insert_eq]
    split
    · rfl
    · exact hs.flagged j

theorem answerContext_step (search : RegexSearch) (sessionId : Nat) (hasPreview : Bool)
    (client : GrpcImeClientV2) {proto : RimeContextProto} (h : Hooks.CountsWithin proto) :
    Step 0 (answerContext search sessionId hasPreview client proto) fun _ => 0 := by
  intro s hs
  obtain ⟨told, htold⟩ := (Hooks.readContext_ok search client proto).mpr h
  have hread := readContext_returns hasPreview htold s.heap
  have hc := onHeap_step (readContext_owns search client hasPreview h) s hs
  have hsaved := saveContext_step sessionId hasPreview hread.2 _ hc
  exact give_step (.context (readContext search client hasPreview proto s.heap).1) _ hsaved

theorem kept_getD (last : Option Context) : kept last = (last.getD {}).blocks := by
  cases last with
  | none => rfl
  | some c => rfl

theorem restoreContext_step (sessionId : Nat) (hasPreview : Bool) :
    Step 0 (restoreContext sessionId hasPreview) fun _ => 0 := by
  intro s hs
  have hlast : ((s.contexts.lookup sessionId).getD {}).Sized := by
    cases hlook : s.contexts.lookup sessionId with
    | none => rfl
    | some c => exact hs.sized sessionId c hlook
  let c := (restoreContextSnapshot hasPreview ((s.contexts.lookup sessionId).getD {}) s.heap).1
  have hbefore : Holds s.heap (((s.contexts.lookup sessionId).getD {}).blocks +
      (snapshots (s.contexts.erase sessionId) + s.handed + s.left)) := by
    have hblocks := hs.holds
    rw [snapshots_erase s.contexts sessionId, kept_getD, Multiset.zero_add, Multiset.add_assoc,
      Multiset.add_assoc] at hblocks
    rwa [Multiset.add_assoc]
  have hafter := copyContext_owns strDup_copies hasPreview hlast s.heap _ hbefore
  have hsum : ((s.contexts.lookup sessionId).getD {}).blocks + c.blocks +
      (snapshots (s.contexts.erase sessionId) + s.handed + s.left) =
      c.blocks + (snapshots s.contexts + s.handed + s.left) := by
    rw [snapshots_erase s.contexts sessionId, kept_getD]
    abel
  have hcopied : Held c.blocks
      (onHeap (restoreContextSnapshot hasPreview ((s.contexts.lookup sessionId).getD {})) s).2 :=
    ⟨hsum ▸ hafter, hs.sized, hs.flagged⟩
  exact give_step (.context c) _ hcopied

theorem fillStatus_step (composing asciiMode : Bool) (schemaId : String) :
    Step 0 (fillStatus composing asciiMode schemaId) fun _ => 0 := by
  apply Step.bind (onHeap_step (newChars_owns schemaId))
  intro id
  have hname := (newChars_owns "gRPC Proxy").frame (chars id)
  apply Step.bind (onHeap_step (hname.congr (Multiset.add_zero _).symm fun _ => rfl))
  intro name
  exact give_step (.status composing asciiMode id name)

theorem giveCommit_step (text : String) : Step 0 (giveCommit text) fun _ => 0 :=
  Step.bind (onHeap_step (newChars_owns text)) fun p => give_step (.commit p)

theorem answerCommit_step (commit : Option String) : Step 0 (answerCommit commit) fun _ => 0 := by
  cases commit with
  | none => exact Step.pure (fun _ => 0) _
  | some text => exact Step.ite (Step.pure (fun _ => 0) _) (giveCommit_step text)

theorem myGetContext_step (search : RegexSearch) (sessionId : Nat) (dst : Option Bool)
    (a : Answers) : Step 0 (myGetContext search sessionId dst a) fun _ => 0 := by
  have hpure (r : Reply) : Step 0 (pure r : Act Module Reply) fun _ => 0 :=
    Step.pure (fun _ => 0) r
  cases dst with
  | none => exact hpure .refused
  | some hasPreview =>
      apply Step.bind (ensureSession_step sessionId a.curSchema a.reply)
      intro ss
      apply Step.ite (hpure .original)
      apply Step.ite (give_step (.context {}))
      apply Step.ite (restoreContext_step sessionId hasPreview)
      apply Step.bind (Step.observe _)
      intro found
      cases found with
      | none => exact hpure .original
      | some client =>
          cases hcontext : a.context with
          | none => exact hpure .refused
          | some told => exact answerContext_step search sessionId hasPreview client told.within

theorem myGetStatus_step (sessionId : Nat) (dst : Bool) (a : Answers) :
    Step 0 (myGetStatus sessionId dst a) fun _ => 0 := by
  have hpure (r : Reply) : Step 0 (pure r : Act Module Reply) fun _ => 0 :=
    Step.pure (fun _ => 0) r
  apply Step.ite
  · apply Step.bind (ensureSession_step sessionId a.curSchema a.reply)
    intro ss
    apply Step.ite (hpure .original)
    apply Step.ite (fillStatus_step _ _ _)
    apply Step.bind (Step.observe _)
    intro found
    cases found with
    | none => exact hpure .original
    | some client =>
        cases hcontext : a.context with
        | none => exact hpure .refused
        | some told =>
            apply Step.bind (fillStatus_step _ _ _)
            intro r
            exact flags_step sessionId r fun _ => rfl
  · exact hpure .refused

theorem myGetCommit_step (sessionId : Nat) (dst : Bool) (a : Answers) :
    Step 0 (myGetCommit sessionId dst a) fun _ => 0 := by
  have hpure (r : Reply) : Step 0 (pure r : Act Module Reply) fun _ => 0 :=
    Step.pure (fun _ => 0) r
  apply Step.ite
  · apply Step.bind (ensureSession_step sessionId a.curSchema a.reply)
    intro ss
    apply Step.ite (hpure .original)
    apply Step.ite
    · apply Step.bind (giveCommit_step ss.pendingCommit)
      intro r
      exact flags_step sessionId r fun _ => rfl
    apply Step.ite (hpure .refused)
    apply Step.bind (Step.observe _)
    intro found
    cases found with
    | none => exact hpure .original
    | some client => exact answerCommit_step a.commit
  · exact hpure .refused

theorem clearSessions_step {op : Act Callers Unit} (hop : ∀ s, (op s).2.sessions = ∅) :
    Step 0 (clearSessions op) fun _ => 0 := by
  intro s hs
  refine ⟨?_, fun j c hc => ?_, fun j => ?_⟩
  · have hsum : 0 + (snapshots ∅ + s.handed + (snapshots s.contexts + s.left)) =
        0 + (snapshots s.contexts + s.handed + s.left) := by
      have hnone : snapshots ∅ = 0 := rfl
      rw [hnone]
      abel
    exact hsum ▸ hs.holds
  · exact absurd hc (Option.not_mem_none c)
  · have hnone : stateOf (op s.callers).2 j = {} := by rw [stateOf, hop]; rfl
    have hcallers : (clearSessions op s).2.callers = (op s.callers).2 := rfl
    rw [hcallers, hnone]
    rfl

theorem onCallers_step {op : Act Callers α} (hop : ∀ s, (op s).2.sessions = s.sessions) :
    Step 0 (onCallers op) fun _ => 0 := by
  intro s hs
  refine ⟨hs.holds, hs.sized, fun j => ?_⟩
  have hsame : stateOf (onCallers op s).2.callers j = stateOf s.callers j := by
    have hcallers : (onCallers op s).2.callers = (op s.callers).2 := rfl
    rw [hcallers, stateOf, hop]
    rfl
  rw [hsame]
  exact hs.flagged j

theorem react_step (search : RegexSearch) (e : Event) : Step 0 (react search e) fun _ => 0 := by
  have hpure (r : Reply) : Step 0 (pure r : Act Module Reply) fun _ => 0 :=
    Step.pure (fun _ => 0) r
  cases e with
  | getContext sessionId dst a => exact myGetContext_step search sessionId dst a
  | getStatus sessionId dst a => exact myGetStatus_step sessionId dst a
  | getCommit sessionId dst a => exact myGetCommit_step sessionId dst a
  | processKey sessionId a k =>
      apply Step.bind (ensureSession_step sessionId a.curSchema a.reply)
      intro _
      exact flags_step sessionId .original fun _ => rfl
  | selectCandidate sessionId a =>
      exact Step.bind (ensureSession_step sessionId a.curSchema a.reply) fun _ => hpure .original
  | rimeGrpcProxyV2Initialize schemas =>
      exact Step.bind (clearSessions_step fun _ => rfl) fun _ => hpure .original
  | rimeGrpcProxyV2Finalize =>
      exact Step.bind (clearSessions_step fun _ => rfl) fun _ => hpure .original
  | rimeRemoteFinalize => exact Step.bind (onCallers_step fun _ => rfl) fun _ => hpure .original
  | processor e => exact Step.bind (onCallers_step fun _ => rfl) fun _ => hpure .original

theorem held_begin : Held 0 begin :=
  ⟨holds_empty, fun _ c hc => absurd hc (Option.not_mem_none c), fun _ => rfl⟩

theorem held_run (search : RegexSearch) (events : List Event) :
    Held 0 (Run.run (step search) begin events) :=
  Run.run_invariant (Held 0) (fun s e hs => react_step search e s hs) held_begin events

end RimeWinime.Snapshots
