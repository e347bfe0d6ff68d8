import RimeWinime.Lib.Account
import RimeWinime.Remote.Desk

namespace RimeWinime.Delivery

open World Text Run Account Proto Backend Client SharedState Processor View Events Desk

variable {E β : Type}

def handedOver (r : Remote E β) (l : Link β) : String :=
  (r.backend.getCommit (idOf r) l.server).1.getD ""

/-- The text that a `GetCommit` takes from the server without the engine
getting it. -/
def untaken (r : Remote E β) (discards : Bool) (l : Link β) : String :=
  match l.next with
  | .delivered => if discards then handedOver r l else ""
  | .replyLost => handedOver r l
  | .notExecuted => ""

/-- The key that an event sends to the backend, and whether the text fetched after
it is thrown away. -/
def sentKey (r : Remote E β) (key : KeyEvent) (f : Front E β) : Option (KeyEvent × Bool) :=
  if Toggles r f then
    if r.engine.asciiMode f.engine && f.cached.isSome then
      match styleOf (switchKeyBindings r.config) key.keycode with
      | .commitCode => some (⟨ESCAPE, 0⟩, true)
      | .clear => some (⟨ESCAPE, 0⟩, true)
      | .commitText => some (⟨SPACE, 0⟩, false)
      | .inlineAscii => none
      | .noop => none
    else none
  else if passesThrough key (r.engine.asciiMode f.engine) then none
  else some (key, false)

def lostIn (r : Remote E β) (f : Front E β) (e : KeyStep E) : String :=
  if r.grpcSessionOpen = false ∨ ¬Known r then ""
  else
    match sentKey r e.key (arrive f e) with
    | none => ""
    | some (key, discards) => untaken r discards (keyCall r key (arrive f e)).link

section

variable {r : Remote E β} (v : SessionView r.backend (idOf r))

def appendedBy (x : Exchange β) : String :=
  if x.outcome = .notExecuted then ""
  else
    match x.request with
    | .processKey req => (req.keyEvent.map fun key => v.keyText key x.before).getD ""
    | .getContext _ => v.contextText x.before
    | .getCommit _ => v.commitText x.before

def appended (l : Link β) : String := concat (l.exchanges.map (appendedBy v))

theorem appended_record (l : Link β) (req : Request) (server : β) :
    appended v (l.record req server) = appended v l ++ appendedBy v ⟨req, l.server, l.next⟩ := by
  rw [appended, Link.record, List.map_append, concat_append, List.map_singleton, concat_singleton]
  rfl

def held (f : Front E β) : String := concat f.emitted ++ v.pending f.link.server

abbrev Conserves (lost : String) (f f' : Front E β) : Prop :=
  Settles (fun f => appended v f.link) (held v) lost f f'

theorem conserves_of_eq {f f' : Front E β} (hlink : f'.link = f.link)
    (hemitted : f'.emitted = f.emitted) : Conserves v "" f f' := by
  apply Settles.of_eq
  · rw [hlink]
  · rw [held, held, hlink, hemitted]

theorem keyCall_conserves (key : KeyEvent) (f : Front E β) :
    Conserves v "" f (keyCall r key f) := by
  refine Settles.of_append (s := f) (appended_record v f.link _ _) ?_
  by_cases ho : f.link.next = .notExecuted
  · simp [held, keyCall, executed, Link.record, appendedBy, ho]
  · simp [held, keyCall, executed, Link.record, appendedBy, ho, v.processKey_pending,
      String.append_assoc]

theorem contextSynced_conserves (f : Front E β) : Conserves v "" f (contextSynced r f) := by
  refine Settles.of_append (s := f) (appended_record v f.link _ _) ?_
  by_cases ho : f.link.next = .notExecuted
  · simp [held, contextSynced, contextCall, executed, Link.record, appendedBy, ho]
  · simp [held, contextSynced, contextCall, executed, Link.record, appendedBy, ho,
      v.getContext_pending, String.append_assoc]

theorem taken_conserves (text given : String) {lost : String} {f f' : Front E β}
    (howed : appended v f'.link = appended v f.link ++ text)
    (hempty : v.pending f'.link.server = "") (hemitted : concat f'.emitted = concat f.emitted ++ given)
    (htext : v.pending f.link.server ++ text = given ++ lost) (hone : given = "" ∨ lost = "") :
    Conserves v lost f f' := by
  have hheld : held v f' = concat f.emitted ++ given := by
    rw [held, hempty, hemitted, String.append_empty]
  refine ⟨text, howed, ?_, ?_⟩
  · rintro rfl
    rw [hheld, held, String.append_assoc, htext, String.append_empty]
  · have hlength := congrArg String.length htext
    rw [String.length_append, String.length_append] at hlength
    rw [hheld, held, String.length_append, String.length_append]
    omega

theorem commitCall_conserves (discards : Bool) {f f' : Front E β}
    (hlink : f'.link = (commitCall r f).link)
    (hemitted : concat f'.emitted =
      concat f.emitted ++ if discards then "" else fetchedText r f.link) :
    Conserves v (untaken r discards f.link) f f' := by
  have howed := appended_record v f.link (.getCommit ⟨findSession r.client r.sessionId⟩)
    (executed f.link (r.backend.getCommit (idOf r)))
  have htext : v.pending f.link.server ++ v.commitText f.link.server = handedOver r f.link :=
    (v.getCommit_text f.link.server).symm
  have hempty := v.getCommit_empties f.link.server
  -- the server is emptied unless the call never reaches it
  cases ho : f.link.next with
  | notExecuted =>
      rw [untaken, ho]
      apply Settles.of_eq
      · simpa [hlink, commitCall, appendedBy, ho] using howed
      · rw [held, held, hemitted, hlink]
        simp [fetchedText, answered, commitCall, Link.record, executed, ho]
  | replyLost =>
      rw [untaken, ho]
      apply taken_conserves v (v.commitText f.link.server) ""
      · simpa [hlink, commitCall, appendedBy, ho] using howed
      · simpa [hlink, commitCall, Link.record, executed, ho] using hempty
      · simpa [fetchedText, answered, ho] using hemitted
      · rw [htext, String.empty_append]
      · exact Or.inl rfl
  | delivered =>
      have howed' : appended v f'.link = appended v f.link ++ v.commitText f.link.server := by
        simpa [hlink, commitCall, appendedBy, ho] using howed
      have hempty' : v.pending f'.link.server = "" := by
        simpa [hlink, commitCall, Link.record, executed, ho] using hempty
      cases discards with
      | true =>
          rw [untaken, ho, if_pos rfl]
          apply taken_conserves v _ "" howed' hempty' hemitted
          · rw [htext, String.empty_append]
          · exact Or.inl rfl
      | false =>
          rw [untaken, ho, if_neg Bool.false_ne_true]
          apply taken_conserves v _ (handedOver r f.link) howed' hempty'
          · simpa [fetchedText, answered, ho, handedOver] using hemitted
          · rw [htext, String.append_empty]
          · exact Or.inr rfl

theorem forwarded_conserves (key : KeyEvent) (f : Front E β) :
    Conserves v (untaken r false (keyCall r key f).link) f (forwarded r key f) := by
  have hcommit : Conserves v (untaken r false (keyCall r key f).link) (keyCall r key f)
      (commitSynced r (keyCall r key f)) :=
    commitCall_conserves v false (deliver_link _ _) (deliver_emitted _ _)
  have hall := ((keyCall_conserves v key f).trans hcommit).trans (contextSynced_conserves v _)
  rwa [String.empty_append, String.append_empty] at hall

theorem toggled_conserves (key : KeyEvent) (discards : Bool) {f f' : Front E β}
    (hlink : f'.link = (commitCall r (keyCall r key f)).link)
    (hemitted : concat f'.emitted =
      concat f.emitted ++ if discards then "" else fetchedText r (keyCall r key f).link) :
    Conserves v (untaken r discards (keyCall r key f).link) f f' := by
  have hcommit : Conserves v (untaken r discards (keyCall r key f).link) (keyCall r key f) f' :=
    commitCall_conserves v discards hlink hemitted
  have hall := (keyCall_conserves v key f).trans hcommit
  rwa [String.empty_append] at hall

theorem toggleEvent_conserves (hopen : r.grpcSessionOpen = true) (hknown : Known r) (key : KeyEvent)
    {f : Front E β} (h : Toggles r f) :
    Conserves v
      (match sentKey r key f with
        | none => ""
        | some (sent, discards) => untaken r discards (keyCall r sent f).link)
      f (processKeyEvent r key f).2 := by
  rw [processKeyEvent_toggle hopen key h, sentKey, if_pos h]
  cases hctx : r.engine.asciiMode f.engine && f.cached.isSome with
  | false => exact conserves_of_eq v rfl rfl
  | true =>
      have hcached : f.cached.isSome := (Bool.and_eq_true_iff.mp hctx).2
      rw [if_pos rfl, if_pos rfl, handleAsciiModeToggle_known hknown key.keycode hcached, toggled]
      cases styleOf (switchKeyBindings r.config) key.keycode with
      | inlineAscii => exact conserves_of_eq v rfl rfl
      | noop => exact conserves_of_eq v rfl rfl
      | commitCode =>
          apply toggled_conserves v ⟨ESCAPE, 0⟩ true rfl
          exact (String.append_empty).symm
      | clear =>
          apply toggled_conserves v ⟨ESCAPE, 0⟩ true rfl
          exact (String.append_empty).symm
      | commitText =>
          apply toggled_conserves v ⟨SPACE, 0⟩ false
          · exact deliver_link _ _
          · exact deliver_emitted _ _

theorem forwardEvent_conserves (hopen : r.grpcSessionOpen = true) (hknown : Known r) {key : KeyEvent}
    {f : Front E β} (h : Forwards r key f) :
    Conserves v (untaken r false (keyCall r key f).link) f (processKeyEvent r key f).2 := by
  rw [processKeyEvent_forward hopen h]
  obtain hstate | hstate := forwardKey_state hknown key f
  · rw [hstate]
    exact forwarded_conserves v key f
  · rw [hstate]
    have happly : Conserves v "" (forwarded r key f) { forwarded r key f with
        engine := applyContext r.engine (forwarded r key f).cached (forwarded r key f).engine } :=
      conserves_of_eq v rfl rfl
    have hall := (forwarded_conserves v key f).trans happly
    rwa [String.append_empty] at hall

theorem event_conserves (key : KeyEvent) (f : Front E β) :
    Conserves v
      (if r.grpcSessionOpen = false ∨ ¬Known r then ""
        else
          match sentKey r key f with
          | none => ""
          | some (sent, discards) => untaken r discards (keyCall r sent f).link)
      f (processKeyEvent r key f).2 := by
  split
  · next h =>
      cases h with
      | inl hclosed =>
          rw [processKeyEvent_closed hclosed]
          exact conserves_of_eq v rfl rfl
      | inr hunknown =>
          obtain ⟨hlink, hemitted, -⟩ := processKeyEvent_unknown hunknown key f
          exact conserves_of_eq v hlink hemitted
  · next h =>
      obtain ⟨hnotclosed, hknown⟩ := not_or.mp h
      have hknown : Known r := not_not.mp hknown
      obtain hclosed | ⟨hopen, htoggle | ⟨hsame, hpass⟩ | hforward⟩ := event_cases r key f
      · exact absurd hclosed hnotclosed
      · exact toggleEvent_conserves v hopen hknown key htoggle
      · rw [processKeyEvent_pass hopen hsame hpass, sentKey, if_neg hsame, if_pos hpass]
        exact conserves_of_eq v rfl rfl
      · rw [sentKey, if_neg hforward.1, if_neg (by simp [hforward.2])]
        exact forwardEvent_conserves v hopen hknown hforward

theorem step_conserves (f : Front E β) (e : KeyStep E) :
    Conserves v (lostIn r f e) f (step r f e) := by
  have harrive : Conserves v "" f (arrive f e) := conserves_of_eq v rfl rfl
  have hall := harrive.trans (event_conserves v e.key (arrive f e))
  rwa [String.empty_append] at hall

/-- Whatever the outcomes of the calls, the texts given to the engine and the text
still pending are what was pending at the start and what the backend appended
since, exactly when no event loses a text that it fetches. -/
theorem text_conserved_iff (engine : E) (server : β) (outcome : Nat → RpcOutcome)
    (events : List (KeyStep E)) :
    concat (reached r engine server outcome events).emitted ++
          v.pending (reached r engine server outcome events).link.server =
        v.pending server ++ appended v (reached r engine server outcome events).link ↔
      Allowed (step r) (fun f e => lostIn r f e = "") (start r engine server outcome) events := by
  obtain ⟨total, hsettles, hiff⟩ :=
    settles_run (step_conserves v) (start r engine server outcome) events
  obtain ⟨text, howed, hheld⟩ := hsettles.held_iff
  have htext : appended v (reached r engine server outcome events).link = text := by
    rw [reached, howed]
    exact String.empty_append
  have hstart : held v (start r engine server outcome) = v.pending server := String.empty_append
  rw [htext, ← hiff, ← hheld, hstart, held, reached]

end

/-- The comma is appended and fetched, but the reply to `GetCommit` never arrives. -/
theorem comma_lost :
    ¬(concat (reached deskRemote pad emptyDesk (lostAt 1) [plainKey COMMA]).emitted ++
          deskView.pending (reached deskRemote pad emptyDesk (lostAt 1) [plainKey COMMA]).link.server =
        deskView.pending emptyDesk ++
          appended deskView (reached deskRemote pad emptyDesk (lostAt 1) [plainKey COMMA]).link) := by
  decide

end RimeWinime.Delivery
