import RimeWinime.Remote.SnapshotAccount

namespace RimeWinime.Snapshots

open World Table Proto Blocks ContextMemory
open Client (GrpcImeClientV2)
open Proxy (SessionState Callers stateOf setState)
open SharedState (RegexSearch)

variable {α α' : Type}

/-- The context as it is read: that it can be read is known of it. -/
def Told.read (search : RegexSearch) (client : GrpcImeClientV2) (told : Told) : Hooks.RimeContext :=
  (Hooks.readContext search client told.proto).toOption.getD {}

theorem Told.read_eq (search : RegexSearch) (client : GrpcImeClientV2) (told : Told) :
    Hooks.readContext search client told.proto = .ok (told.read search client) := by
  obtain ⟨c, hc⟩ := (Hooks.readContext_ok search client told.proto).mpr told.within
  rw [Told.read, hc]
  rfl

namespace Texts

/-- The sessions with the contexts that they keep. -/
structure Sessions where
  callers : Callers
  contexts : Map Nat Hooks.RimeContext

def begin : Sessions := ⟨Proxy.start, ∅⟩

/-- What a caller reads. -/
inductive Reply
  | refused
  | original
  | context (c : Hooks.RimeContext)
  | status (composing asciiMode : Bool) (schemaId schemaName : Option String)
  | commit (text : Option String)
deriving DecidableEq

def onCallers (op : Act Callers α) : Act Sessions α := fun s =>
  let r := op s.callers
  (r.1, { s with callers := r.2 })

def setSession (sessionId : Nat) (f : SessionState → SessionState) : Act Sessions Unit :=
  onCallers fun s => setState sessionId (f (stateOf s sessionId)) s

def dropContext (sessionId : Nat) (curSchema : String) : Act Sessions Unit := fun s =>
  let ss := stateOf s.callers sessionId
  if curSchema ≠ ss.schemaId ∧ ss.hasLastContext then
    ((), { s with contexts := s.contexts.erase sessionId })
  else ((), s)

def ensureSession (sessionId : Nat) (curSchema : String) (reply : Option String) :
    Act Sessions SessionState := do
  dropContext sessionId curSchema
  onCallers (Proxy.ensureSession sessionId curSchema reply)
  observe fun s => stateOf s.callers sessionId

def saveContext (sessionId : Nat) (c : Hooks.RimeContext) : Act Sessions Unit := fun s =>
  setSession sessionId (fun ss => { ss with hasLastContext := true, lastIsComposing := 0 < c.length })
    { s with contexts := s.contexts.insert sessionId c }

def answerContext (sessionId : Nat) (hasPreview : Bool) (read : Hooks.RimeContext) :
    Act Sessions Reply := do
  let c ← pure (clip hasPreview read)
  saveContext sessionId c
  pure (.context c)

def restoreContext (sessionId : Nat) (hasPreview : Bool) : Act Sessions Reply := do
  let last ← observe fun s : Sessions => s.contexts.lookup sessionId
  pure (.context (clip hasPreview (last.getD {})))

def myGetContext (search : RegexSearch) (sessionId : Nat) (dst : Option Bool) (a : Answers) :
    Act Sessions Reply :=
  match dst with
  | none => pure .refused
  | some hasPreview => do
      let ss ← ensureSession sessionId a.curSchema a.reply
      if !ss.isGrpc then pure .original
      else if a.asciiMode then pure (.context {})
      else if ss.lastWasKeyupSkip && ss.hasLastContext then restoreContext sessionId hasPreview
      else
        match ← observe fun s : Sessions => sessionClient ss sessionId s.callers with
        | none => pure .original
        | some client =>
            match a.context with
            | none => pure .refused
            | some told => answerContext sessionId hasPreview (told.read search client)

def status (composing asciiMode : Bool) (schemaId : String) : Reply :=
  .status composing asciiMode (some schemaId) (some "gRPC Proxy")

def answerStatus (sessionId : Nat) (asciiMode : Bool) (schemaId : String)
    (proto : RimeContextProto) : Act Sessions Reply := do
  let composing := proto.composition.isSome && !asciiMode
  let r ← pure (status composing asciiMode schemaId)
  setSession sessionId fun ss => { ss with lastIsComposing := composing }
  pure r

def myGetStatus (sessionId : Nat) (dst : Bool) (a : Answers) : Act Sessions Reply :=
  if dst then do
    let ss ← ensureSession sessionId a.curSchema a.reply
    if !ss.isGrpc then pure .original
    else if ss.lastWasKeyupSkip then
      pure (status (ss.lastIsComposing && !a.asciiMode) a.asciiMode ss.schemaId)
    else
      match ← observe fun s : Sessions => sessionClient ss sessionId s.callers with
      | none => pure .original
      | some _ =>
          match a.context with
          | none => pure .refused
          | some told => answerStatus sessionId a.asciiMode ss.schemaId told.proto
  else pure .refused

def givePending (sessionId : Nat) (pendingCommit : String) : Act Sessions Reply := do
  let r ← pure (.commit (some pendingCommit))
  setSession sessionId fun ss => { ss with pendingCommit := "" }
  pure r

def answerCommit (commit : Option String) : Reply :=
  match commit with
  | none => .refused
  | some text => if text = "" then .refused else .commit (some text)

def myGetCommit (sessionId : Nat) (dst : Bool) (a : Answers) : Act Sessions Reply :=
  if dst then do
    let ss ← ensureSession sessionId a.curSchema a.reply
    if !ss.isGrpc then pure .original
    else if ss.pendingCommit ≠ "" then givePending sessionId ss.pendingCommit
    else if ss.lastWasKeyupSkip || !ss.lastProcessKeyAccepted then pure .refused
    else
      match ← observe fun s : Sessions => sessionClient ss sessionId s.callers with
      | none => pure .original
      | some _ => pure (answerCommit a.commit)
  else pure .refused

def clearSessions (op : Act Callers Unit) : Act Sessions Unit := fun s =>
  ((), ⟨(op s.callers).2, ∅⟩)

def react (search : RegexSearch) : Event → Act Sessions Reply
  | .getContext sessionId dst a => myGetContext search sessionId dst a
  | .getStatus sessionId dst a => myGetStatus sessionId dst a
  | .getCommit sessionId dst a => myGetCommit sessionId dst a
  | .processKey sessionId a k => do
      let _ ← ensureSession sessionId a.curSchema a.reply
      setSession sessionId k.apply
      pure .original
  | .selectCandidate sessionId a => do
      let _ ← ensureSession sessionId a.curSchema a.reply
      pure .original
  | .rimeGrpcProxyV2Initialize schemas => do
      clearSessions (Proxy.rimeGrpcProxyV2Initialize schemas)
      pure .original
  | .rimeGrpcProxyV2Finalize => do
      clearSessions Proxy.rimeGrpcProxyV2Finalize
      pure .original
  | .rimeRemoteFinalize => do
      onCallers Proxy.rimeRemoteFinalize
      pure .original
  | .processor e => do
      onCallers (change fun s => Proxy.step s (.processor e))
      pure .original

end Texts

/-- What a caller reads in what it gets. -/
def Reply.read : Reply → Texts.Reply
  | .refused => .refused
  | .original => .original
  | .context c => .context c.shown
  | .status composing asciiMode schemaId schemaName =>
      .status composing asciiMode (text schemaId) (text schemaName)
  | .commit p => .commit (text p)

/-- Each snapshot reads as the context that the session keeps. -/
structure Mirrors (s : Module) (t : Texts.Sessions) : Prop where
  callers : s.callers = t.callers
  contexts : ∀ sessionId, (s.contexts.lookup sessionId).map Context.shown =
    t.contexts.lookup sessionId
  sized : ∀ sessionId, ∀ c ∈ s.contexts.lookup sessionId, c.Sized

def ReadsAs (r : Reply) (t : Texts.Reply) : Prop := r.read = t

theorem onHeap_mirrors {P : α → Prop} {op : Act Heap α} (h : Returns P op) {Q : α → α' → Prop}
    {a : α'} (hq : ∀ r, P r → Q r a) :
    Respects Mirrors Q (onHeap op) (pure a : Act Texts.Sessions α') :=
  fun s _ hs => ⟨hq _ (h s.heap), hs.callers, hs.contexts, hs.sized⟩

theorem give_mirrors {r : Reply} {t : Texts.Reply} (h : ReadsAs r t) :
    Respects Mirrors ReadsAs (give r) (pure t) :=
  fun _ _ hs => ⟨h, hs.callers, hs.contexts, hs.sized⟩

theorem onCallers_mirrors (op : Act Callers α) :
    Respects Mirrors Eq (onCallers op) (Texts.onCallers op) := by
  rintro s t hs
  rw [onCallers, Texts.onCallers, hs.callers]
  exact ⟨rfl, rfl, hs.contexts, hs.sized⟩

theorem dropContext_mirrors (sessionId : Nat) (curSchema : String) :
    Respects Mirrors Eq (dropContext sessionId curSchema)
      (Texts.dropContext sessionId curSchema) := by
  intro s t hs
  rw [dropContext, Texts.dropContext, hs.callers]
  by_cases hdrop : curSchema ≠ (stateOf t.callers sessionId).schemaId ∧
      (stateOf t.callers sessionId).hasLastContext
  · rw [if_pos hdrop, if_pos hdrop]
    refine ⟨rfl, rfl, fun j => ?_, fun j => ?_⟩
    · dsimp only
      rw [lookup_erase_eq, lookup_erase_eq]
      split
      · rfl
      · exact hs.contexts j
    · dsimp only
      rw [lookup_erase_eq]
      split
      · exact fun c hc => absurd hc (Option.not_mem_none c)
      · exact hs.sized j
  · rw [if_neg hdrop, if_neg hdrop]
    exact ⟨rfl, hs⟩

theorem stateOf_mirrors (sessionId : Nat) :
    Respects Mirrors Eq (observe fun s : Module => stateOf s.callers sessionId)
      (observe fun s : Texts.Sessions => stateOf s.callers sessionId) :=
  Respects.observe fun _ _ hs => congrArg (fun callers => stateOf callers sessionId) hs.callers

theorem client_mirrors (ss : SessionState) (sessionId : Nat) :
    Respects Mirrors Eq (observe fun s : Module => sessionClient ss sessionId s.callers)
      (observe fun s : Texts.Sessions => sessionClient ss sessionId s.callers) :=
  Respects.observe fun _ _ hs => congrArg (sessionClient ss sessionId) hs.callers

theorem ensureSession_mirrors (sessionId : Nat) (curSchema : String) (reply : Option String) :
    Respects Mirrors Eq (ensureSession sessionId curSchema reply)
      (Texts.ensureSession sessionId curSchema reply) := by
  apply Respects.bind_eq (dropContext_mirrors sessionId curSchema)
  intro _
  apply Respects.bind_eq (onCallers_mirrors _)
  intro _
  exact stateOf_mirrors sessionId

theorem setSession_mirrors (sessionId : Nat) (f : SessionState → SessionState) :
    Respects Mirrors Eq (setSession sessionId f) (Texts.setSession sessionId f) :=
  onCallers_mirrors _

theorem clip_clip (hasPreview : Bool) (c : Hooks.RimeContext) :
    clip hasPreview (clip hasPreview c) = clip hasPreview c := by
  cases hasPreview with
  | false => rfl
  | true => rfl

/-- The snapshot reads as the context that has been given, where that is clipped. -/
theorem saveContext_mirrors (sessionId : Nat) (hasPreview : Bool) {c : Context}
    {told : Hooks.RimeContext} (hc : Reads (clip hasPreview told) c) :
    Respects Mirrors Eq (saveContext sessionId hasPreview c)
      (Texts.saveContext sessionId (clip hasPreview told)) := by
  intro s t hs
  obtain ⟨hshown, hsized⟩ := saveContextSnapshot_returns (s.contexts.lookup sessionId) hasPreview
    hc.2 s.heap
  rw [hc.1, clip_clip] at hshown
  have hlength : c.length = (clip hasPreview told).length := congrArg Hooks.RimeContext.length hc.1
  rw [saveContext, Texts.saveContext, hlength]
  apply setSession_mirrors
  refine ⟨hs.callers, fun j => ?_, fun j => ?_⟩
  · dsimp only
    rw [lookup_insert_eq, lookup_insert_eq]
    split
    · rw [Option.map_some, hshown]
    · exact hs.contexts j
  · dsimp only
    rw [lookup_insert_eq]
    split
    · intro saved hmem
      rw [← Option.some.inj hmem]
      exact hsized
    · exact hs.sized j

theorem answerContext_mirrors (search : RegexSearch) (sessionId : Nat) (hasPreview : Bool)
    (client : GrpcImeClientV2) (told : Told) :
    Respects Mirrors ReadsAs (answerContext search sessionId hasPreview client told.proto)
      (Texts.answerContext sessionId hasPreview (told.read search client)) := by
  apply Respects.bind (onHeap_mirrors (readContext_returns hasPreview (told.read_eq search client))
    (Q := fun c given => Reads given c ∧
      given = clip hasPreview (told.read search client)) fun c hc => ⟨hc, rfl⟩)
  rintro c _ ⟨hc, rfl⟩
  apply Respects.bind_eq (saveContext_mirrors sessionId hasPreview hc)
  intro _
  exact give_mirrors (congrArg Texts.Reply.context hc.1)

theorem restoreContext_mirrors (sessionId : Nat) (hasPreview : Bool) :
    Respects Mirrors ReadsAs (restoreContext sessionId hasPreview)
      (Texts.restoreContext sessionId hasPreview) := by
  intro s t hs
  have hlast : ((s.contexts.lookup sessionId).getD {}).Sized ∧
      ((s.contexts.lookup sessionId).getD {}).shown = (t.contexts.lookup sessionId).getD {} := by
    rw [← hs.contexts sessionId]
    cases hlook : s.contexts.lookup sessionId with
    | none => exact ⟨rfl, rfl⟩
    | some c => exact ⟨hs.sized sessionId c hlook, rfl⟩
  obtain ⟨hshown, -⟩ := copyContext_returns strDup_sameText hasPreview hlast.1 s.heap
  refine ⟨?_, hs.callers, hs.contexts, hs.sized⟩
  rw [hlast.2] at hshown
  exact congrArg Texts.Reply.context hshown

theorem fillStatus_mirrors (composing asciiMode : Bool) (schemaId : String) :
    Respects Mirrors ReadsAs (fillStatus composing asciiMode schemaId)
      (pure (Texts.status composing asciiMode schemaId)) := by
  intro s t hs
  exact ⟨rfl, hs.callers, hs.contexts, hs.sized⟩

theorem giveCommit_mirrors (commit : String) :
    Respects Mirrors ReadsAs (giveCommit commit) (pure (.commit (some commit))) := by
  intro s t hs
  exact ⟨rfl, hs.callers, hs.contexts, hs.sized⟩

theorem answerCommit_mirrors (commit : Option String) :
    Respects Mirrors ReadsAs (answerCommit commit) (pure (Texts.answerCommit commit)) := by
  cases commit with
  | none => exact Respects.pure rfl
  | some t =>
      rw [answerCommit, Texts.answerCommit]
      split
      · exact Respects.pure rfl
      · exact giveCommit_mirrors t

theorem refused_mirrors : Respects Mirrors ReadsAs (pure .refused) (pure .refused) :=
  Respects.pure rfl

theorem original_mirrors : Respects Mirrors ReadsAs (pure .original) (pure .original) :=
  Respects.pure rfl

theorem myGetContext_mirrors (search : RegexSearch) (sessionId : Nat) (dst : Option Bool)
    (a : Answers) : Respects Mirrors ReadsAs (myGetContext search sessionId dst a)
      (Texts.myGetContext search sessionId dst a) := by
  cases dst with
  | none => exact refused_mirrors
  | some hasPreview =>
      apply Respects.bind_eq (ensureSession_mirrors sessionId a.curSchema a.reply)
      intro ss
      apply Respects.ite (fun _ => original_mirrors)
      intro _
      apply Respects.ite (fun _ => give_mirrors rfl)
      intro _
      apply Respects.ite (fun _ => restoreContext_mirrors sessionId hasPreview)
      intro _
      apply Respects.bind_eq (client_mirrors ss sessionId)
      intro found
      cases found with
      | none => exact original_mirrors
      | some client =>
          cases hcontext : a.context with
          | none => exact refused_mirrors
          | some told => exact answerContext_mirrors search sessionId hasPreview client told

theorem myGetStatus_mirrors (sessionId : Nat) (dst : Bool) (a : Answers) :
    Respects Mirrors ReadsAs (myGetStatus sessionId dst a) (Texts.myGetStatus sessionId dst a) := by
  apply Respects.ite
  · intro _
    apply Respects.bind_eq (ensureSession_mirrors sessionId a.curSchema a.reply)
    intro ss
    apply Respects.ite (fun _ => original_mirrors)
    intro _
    apply Respects.ite (fun _ => fillStatus_mirrors _ _ _)
    intro _
    apply Respects.bind_eq (client_mirrors ss sessionId)
    intro found
    cases found with
    | none => exact original_mirrors
    | some client =>
        cases hcontext : a.context with
        | none => exact refused_mirrors
        | some told =>
            apply Respects.bind (fillStatus_mirrors _ _ _)
            intro r t hr
            exact Respects.bind_eq (setSession_mirrors sessionId _) fun _ => Respects.pure hr
  · intro _
    exact refused_mirrors

theorem myGetCommit_mirrors (sessionId : Nat) (dst : Bool) (a : Answers) :
    Respects Mirrors ReadsAs (myGetCommit sessionId dst a) (Texts.myGetCommit sessionId dst a) := by
  apply Respects.ite
  · intro _
    apply Respects.bind_eq (ensureSession_mirrors sessionId a.curSchema a.reply)
    intro ss
    apply Respects.ite (fun _ => original_mirrors)
    intro _
    apply Respects.ite
    · intro _
      apply Respects.bind (giveCommit_mirrors ss.pendingCommit)
      intro r t hr
      exact Respects.bind_eq (setSession_mirrors sessionId _) fun _ => Respects.pure hr
    intro _
    apply Respects.ite (fun _ => refused_mirrors)
    intro _
    apply Respects.bind_eq (client_mirrors ss sessionId)
    intro found
    cases found with
    | none => exact original_mirrors
    | some client => exact answerCommit_mirrors a.commit
  · intro _
    exact refused_mirrors

theorem clearSessions_mirrors (op : Act Callers Unit) :
    Respects Mirrors Eq (clearSessions op) (Texts.clearSessions op) := by
  intro s t hs
  rw [clearSessions, Texts.clearSessions, hs.callers]
  exact ⟨rfl, rfl, fun _ => rfl, fun _ c hc => absurd hc (Option.not_mem_none c)⟩

theorem react_mirrors (search : RegexSearch) (e : Event) :
    Respects Mirrors ReadsAs (react search e) (Texts.react search e) := by
  cases e with
  | getContext sessionId dst a => exact myGetContext_mirrors search sessionId dst a
  | getStatus sessionId dst a => exact myGetStatus_mirrors sessionId dst a
  | getCommit sessionId dst a => exact myGetCommit_mirrors sessionId dst a
  | processKey sessionId a k =>
      apply Respects.bind_eq (ensureSession_mirrors sessionId a.curSchema a.reply)
      intro _
      exact Respects.bind_eq (setSession_mirrors sessionId k.apply) fun _ => original_mirrors
  | selectCandidate sessionId a =>
      exact Respects.bind_eq (ensureSession_mirrors sessionId a.curSchema a.reply)
        fun _ => original_mirrors
  | rimeGrpcProxyV2Initialize schemas =>
      exact Respects.bind_eq (clearSessions_mirrors _) fun _ => original_mirrors
  | rimeGrpcProxyV2Finalize =>
      exact Respects.bind_eq (clearSessions_mirrors _) fun _ => original_mirrors
  | rimeRemoteFinalize => exact Respects.bind_eq (onCallers_mirrors _) fun _ => original_mirrors
  | processor e => exact Respects.bind_eq (onCallers_mirrors _) fun _ => original_mirrors

theorem mirrors_begin : Mirrors begin Texts.begin :=
  ⟨rfl, fun _ => rfl, fun _ c hc => absurd hc (Option.not_mem_none c)⟩

theorem mirrors_run (search : RegexSearch) (events : List Event) {s : Module} {t : Texts.Sessions}
    (hs : Mirrors s t) :
    Mirrors (Run.run (step search) s events)
      (Run.run (fun t e => (Texts.react search e t).2) t events) := by
  induction events generalizing s t with
  | nil => exact hs
  | cons e events ih => exact ih (react_mirrors search e s t hs).2

/-- A session that stays on its schema, as the hooks see it. -/
structure Stays {E β : Type} (p : Hooks.Plugin E β) (sessionId : Nat) (a : Answers)
    (s : Texts.Sessions) (h : Hooks.Hooked E β) : Prop where
  session : stateOf s.callers sessionId = h.session
  schema : a.curSchema = h.session.schemaId
  grpc : h.session.isGrpc = true
  client : sessionClient h.session sessionId s.callers = some p.client
  context : h.session.hasLastContext = true → s.contexts.lookup sessionId = some h.lastContext
  mode : a.asciiMode = p.engine.asciiMode h.engine
  answer : a.context.map (·.proto) = (Client.getContext p.backend p.client p.sessionId h.link).1

theorem ensureSession_same {sessionId : Nat} {curSchema : String} {s : Callers}
    (h : curSchema = (stateOf s sessionId).schemaId) (reply : Option String) :
    Proxy.ensureSession sessionId curSchema reply s =
      setState sessionId (stateOf s sessionId) s := by
  rw [Proxy.ensureSession, bind_run, observe_run, if_pos h]

theorem ensureSession_stays {E β : Type} {p : Hooks.Plugin E β} {sessionId : Nat} {a : Answers}
    {s : Texts.Sessions} {h : Hooks.Hooked E β} (hstays : Stays p sessionId a s h) :
    Texts.ensureSession sessionId a.curSchema a.reply s =
      (h.session, ⟨(setState sessionId h.session s.callers).2, s.contexts⟩) := by
  have hsame : a.curSchema = (stateOf s.callers sessionId).schemaId := by
    rw [hstays.session, hstays.schema]
  have hdrop : Texts.dropContext sessionId a.curSchema s = ((), s) := by
    rw [Texts.dropContext, if_neg (fun hchanged => hchanged.1 hsame)]
  have hrun : Texts.ensureSession sessionId a.curSchema a.reply s =
      let dropped := (Texts.dropContext sessionId a.curSchema s).2
      let callers := (Proxy.ensureSession sessionId a.curSchema a.reply dropped.callers).2
      (stateOf callers sessionId, { dropped with callers := callers }) := rfl
  have hstate : stateOf (setState sessionId h.session s.callers).2 sessionId = h.session := by
    rw [stateOf_insert rfl sessionId, if_pos rfl]
  rw [hrun, hdrop]
  dsimp only
  rw [ensureSession_same hsame, hstays.session, hstate]

/-- With a full context, it is the function that the hooks have for such a session. -/
theorem myGetContext_hooks {E β : Type} {p : Hooks.Plugin E β} {sessionId : Nat} {a : Answers}
    {s : Texts.Sessions} {h : Hooks.Hooked E β} (hstays : Stays p sessionId a s h) :
    (Hooks.myGetContext p h).1.map (fun c => c.elim .refused .context) =
      .ok (Texts.myGetContext p.search sessionId (some true) a s).1 := by
  have hclient : sessionClient h.session sessionId (setState sessionId h.session s.callers).2 =
      some p.client := hstays.client
  have hmode := hstays.mode.symm
  simp only [Texts.myGetContext, bind_run, observe_run, ite_run, ensureSession_stays hstays,
    hstays.grpc, Bool.not_true, Bool.false_eq_true, if_false]
  cases ha : a.asciiMode with
  | true =>
      rw [ha] at hmode
      have hhooks : (Hooks.myGetContext p h).1 = .ok (some {}) := by
        simp only [Hooks.myGetContext, bind_run, observe_run, id, hmode, reduceIte, pure_run]
      rw [hhooks]
      rfl
  | false =>
      rw [ha] at hmode
      cases hskip : h.session.lastWasKeyupSkip && h.session.hasLastContext with
      | true =>
          have hhooks : (Hooks.myGetContext p h).1 = .ok (some h.lastContext) := by
            simp only [Hooks.myGetContext, bind_run, observe_run, id, hmode, hskip,
              Bool.false_eq_true, reduceIte, pure_run]
          have hcontext := hstays.context (Bool.and_eq_true_iff.mp hskip).2
          rw [hhooks]
          simp [Texts.restoreContext, hcontext, clip, Except.map]
      | false =>
          have hhooks : (Hooks.myGetContext p h).1 =
              .ok (a.context.map (Told.read p.search p.client)) := by
            have hanswer := hstays.answer.symm
            cases hcontext : a.context with
            | none =>
                simp only [Hooks.myGetContext, bind_run, observe_run, id, hmode, hskip,
                  Bool.false_eq_true, reduceIte, Hooks.onLink, hanswer, hcontext, pure_run,
                  Option.map_none]
            | some told =>
                simp only [Hooks.myGetContext, bind_run, observe_run, id, hmode, hskip,
                  Bool.false_eq_true, reduceIte, Hooks.onLink, hanswer, hcontext, Option.map_some,
                  Hooks.giveContext, told.read_eq, pure_run]
          rw [hhooks]
          simp only [Bool.false_eq_true, if_false, hclient]
          cases a.context with
          | none => rfl
          | some told => rfl

end RimeWinime.Snapshots
