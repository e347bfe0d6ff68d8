import RimeWinime.Lib.Mailbox
import RimeWinime.Host.Backend

namespace RimeWinime.ChannelAdapter

open World Proto Backend Run Mailbox

variable {β : Type}

inductive BackendCommand
  | openSession
  | destroySession (sessionId : Nat)
  | processKey (sessionId : Nat) (key : KeyEvent)
  | getContext (sessionId : Nat)
  | getCommit (sessionId : Nat)
  | selectCandidate (sessionId index : Nat)
deriving DecidableEq

inductive Reply
  | openSession (id : Option Nat)
  | destroySession
  | processKey (ans : Bool)
  | getContext (context : RimeContextProto)
  | getCommit (text : Option String)
  | selectCandidate (ans : Bool)
deriving DecidableEq

def perform (inner : RimeBackend β) : BackendCommand → Act β Reply
  | .openSession => do
      let id ← inner.openSession
      pure (.openSession id)
  | .destroySession sessionId => do
      inner.destroySession sessionId
      pure .destroySession
  | .processKey sessionId key => do
      let ans ← inner.processKey sessionId key
      pure (.processKey ans)
  | .getContext sessionId => do
      let context ← inner.getContext sessionId
      pure (.getContext context)
  | .getCommit sessionId => do
      let text ← inner.getCommit sessionId
      pure (.getCommit text)
  | .selectCandidate sessionId index => do
      let ans ← inner.selectCandidate sessionId index
      pure (.selectCandidate ans)

def hasReply : BackendCommand → Bool
  | .destroySession _ => false
  | _ => true

def channelRimeBackend (inner : RimeBackend β) : Server BackendCommand Reply β where
  execute := perform inner
  awaited := hasReply

def reached (inner : RimeBackend β) (initial : β) (events : List (Event BackendCommand)) :
    System BackendCommand Reply β :=
  run (step (channelRimeBackend inner)) (start initial) events

/-- What a command stands for: a call of the inner backend, with its result. -/
inductive Does (inner : RimeBackend β) : BackendCommand → β → Reply → β → Prop
  | openSession {s t : β} {id : Option Nat} (h : inner.openSession s = (id, t)) :
      Does inner .openSession s (.openSession id) t
  | destroySession {s t : β} {sessionId : Nat} (h : inner.destroySession sessionId s = ((), t)) :
      Does inner (.destroySession sessionId) s .destroySession t
  | processKey {s t : β} {sessionId : Nat} {key : KeyEvent} {ans : Bool}
      (h : inner.processKey sessionId key s = (ans, t)) :
      Does inner (.processKey sessionId key) s (.processKey ans) t
  | getContext {s t : β} {sessionId : Nat} {context : RimeContextProto}
      (h : inner.getContext sessionId s = (context, t)) :
      Does inner (.getContext sessionId) s (.getContext context) t
  | getCommit {s t : β} {sessionId : Nat} {text : Option String}
      (h : inner.getCommit sessionId s = (text, t)) :
      Does inner (.getCommit sessionId) s (.getCommit text) t
  | selectCandidate {s t : β} {sessionId index : Nat} {ans : Bool}
      (h : inner.selectCandidate sessionId index s = (ans, t)) :
      Does inner (.selectCandidate sessionId index) s (.selectCandidate ans) t

inductive DoesAll (inner : RimeBackend β) : List BackendCommand → β → List Reply → β → Prop
  | nil (s : β) : DoesAll inner [] s [] s
  | cons {c : BackendCommand} {commands : List BackendCommand} {s u t : β} {reply : Reply}
      {replies : List Reply} (first : Does inner c s reply u)
      (rest : DoesAll inner commands u replies t) : DoesAll inner (c :: commands) s (reply :: replies) t

/-- What the adapter shares with the inner backend after these events.
`own`: a caller has the result of its own command.
`served`: with two turns for each command sent, all of them are executed whatever
else happens meanwhile, and a caller that is still there gets its result. -/
structure RefinesInner (inner : RimeBackend β) (initial : β) (events : List (Event BackendCommand)) :
    Prop where
  inOrder : (reached inner initial events).executed <+: sentBy events
  idle : Idle (reached inner initial events) → (reached inner initial events).executed = sentBy events
  sequential : ∃ replies,
    DoesAll inner (reached inner initial events).executed initial replies
      (reached inner initial events).state ∧
    ∀ (call : Nat) (reply : Reply),
      (reached inner initial events).slots[call]? = some (.received reply) →
        replies[call]? = some reply
  own : ∀ (call : Nat) (reply : Reply),
    (reached inner initial events).slots[call]? = some (.received reply) →
    ∃ c replies s t, (sentBy events)[call]? = some c ∧
      DoesAll inner ((sentBy events).take call) initial replies s ∧ Does inner c s reply t
  replyless : ∀ (call sessionId : Nat),
    (sentBy events)[call]? = some (.destroySession sessionId) →
      (reached inner initial events).slots[call]? = some .unused
  served : ∀ later, 2 * (sentBy events).length ≤ turns later →
    sentBy events <+: (reached inner initial (events ++ later)).executed ∧
      ∀ (call : Nat) (c : BackendCommand), (sentBy events)[call]? = some c →
        (∀ sessionId, c ≠ .destroySession sessionId) → .cancel call ∉ events ++ later →
        ∃ reply replies t,
          (reached inner initial (events ++ later ++ [.receive call])).slots[call]? =
            some (.received reply) ∧
          DoesAll inner (sentBy events) initial replies t ∧ replies[call]? = some reply

theorem does_iff {inner : RimeBackend β} {c : BackendCommand} {s t : β} {reply : Reply} :
    Does inner c s reply t ↔ perform inner c s = (reply, t) := by
  constructor
  · intro h
    cases h with
    | openSession h | destroySession h | processKey h | getContext h | getCommit h
    | selectCandidate h =>
        rw [perform, bind_run, h]
        rfl
  · intro h
    cases c with
    | openSession =>
        cases h
        exact .openSession rfl
    | destroySession sessionId =>
        cases h
        exact .destroySession rfl
    | processKey sessionId key =>
        cases h
        exact .processKey rfl
    | getContext sessionId =>
        cases h
        exact .getContext rfl
    | getCommit sessionId =>
        cases h
        exact .getCommit rfl
    | selectCandidate sessionId index =>
        cases h
        exact .selectCandidate rfl

theorem doesAll_iff {inner : RimeBackend β} {commands : List BackendCommand} {s t : β}
    {replies : List Reply} :
    DoesAll inner commands s replies t ↔
      direct (channelRimeBackend inner) commands s = (replies, t) := by
  constructor
  · intro h
    induction h with
    | nil s => rfl
    | cons first rest ih =>
        have hfirst : (channelRimeBackend inner).execute _ _ = _ := does_iff.mp first
        rw [direct, hfirst, ih]
  · intro h
    induction commands generalizing s replies with
    | nil =>
        cases h
        exact .nil _
    | cons c commands ih =>
        cases h
        exact .cons (does_iff.mpr rfl) (ih rfl)

theorem hasReply_iff (c : BackendCommand) :
    hasReply c = true ↔ ∀ sessionId, c ≠ .destroySession sessionId := by
  cases c with
  | destroySession sessionId => exact iff_of_false Bool.false_ne_true fun h => h sessionId rfl
  | openSession | processKey | getContext | getCommit | selectCandidate =>
      exact iff_of_true rfl fun _ h => by cases h

section

variable (inner : RimeBackend β) (initial : β) (events : List (Event BackendCommand))

theorem ordered_reached :
    Ordered (channelRimeBackend inner) initial (reached inner initial events) :=
  ordered_run (ordered_start initial) events

theorem sent_reached : (reached inner initial events).sent = sentBy events :=
  sent_run _ (start initial) events

theorem reached_append (later : List (Event BackendCommand)) :
    reached inner initial (events ++ later) =
      run (step (channelRimeBackend inner)) (reached inner initial events) later :=
  run_append (start initial) events later

/-- Every run of the adapter, with callers that go away at any moment, refines the
inner backend. -/
theorem channel_refines_inner : RefinesInner inner initial events := by
  have hordered := ordered_reached inner initial events
  have hsent := sent_reached inner initial events
  refine ⟨?_, fun hidle => ?_, ?_, fun call reply hslot => ?_, fun call sessionId hc => ?_,
    fun later hturns => ?_⟩
  · rw [← hsent]
    exact hordered.prefix
  · exact (executed_of_idle hordered hidle).trans hsent
  · refine ⟨_, doesAll_iff.mpr (Prod.ext rfl hordered.state.symm), fun call reply hslot => ?_⟩
    exact received_executed hordered hslot
  · have hreply := received_direct hordered hslot
    rw [hsent, direct_getElem?] at hreply
    obtain ⟨c, hc, hexecute⟩ := Option.map_eq_some_iff.mp hreply
    exact ⟨c, _, _, _, hc, doesAll_iff.mpr rfl, does_iff.mpr (Prod.ext hexecute rfl)⟩
  · rw [← hsent] at hc
    exact unused_of_unawaited hordered hc rfl
  · rw [← hsent] at hturns
    obtain ⟨hexecuted, hpassed⟩ := done_of_turns hordered hturns
    rw [← reached_append, hsent] at hexecuted
    refine ⟨hexecuted, fun call c hc hreplies hstays => ?_⟩
    have hcall : call < (reached inner initial events).sent.length := by
      rw [hsent]
      exact (List.getElem?_eq_some_iff.mp hc).1
    have hwaiting := hpassed call hcall
    have hdropped : (reached inner initial (events ++ later)).slots[call]? ≠ some .dropped := by
      intro hdropped
      rcases dropped_run hdropped with hbefore | hcancel
      · cases hbefore
      · exact hstays hcancel
    rw [← reached_append] at hwaiting
    have hsent' := sent_reached inner initial (events ++ later)
    have hprefix : sentBy events <+: sentBy (events ++ later) := by
      rw [sentBy, sentBy, List.filterMap_append]
      exact List.prefix_append _ _
    have hc' : (reached inner initial (events ++ later)).sent[call]? = some c := by
      obtain ⟨rest, hrest⟩ := hprefix
      rw [hsent', ← hrest, List.getElem?_append_left (hsent ▸ hcall)]
      exact hc
    obtain ⟨reply, hasked, hown⟩ :=
      received_of_asked (ordered_reached inner initial (events ++ later)) hc'
        ((hasReply_iff c).mpr hreplies) hwaiting hdropped
    refine ⟨reply, _, _, ?_, doesAll_iff.mpr rfl, ?_⟩
    · rw [reached_append]
      exact hasked
    · have hlt : call < (direct (channelRimeBackend inner) (sentBy events) initial).1.length := by
        rw [direct_length, ← hsent]
        exact hcall
      have hreply := List.getElem?_eq_getElem hlt
      have hlater := direct_prefix hprefix initial hreply
      rw [hsent', hlater] at hown
      rw [hreply, hown]

end

end RimeWinime.ChannelAdapter
