import RimeWinime.Remote.Desk

namespace RimeWinime.AsciiMode

open World Run Proto Backend Client SharedState Processor Events Desk

variable {E β : Type}

def SendsKey (r : Remote E β) (f : Front E β) (e : KeyStep E) : Prop :=
  ∃ x rest, (step r f e).link.exchanges = f.link.exchanges ++ x :: rest ∧
    x.request = .processKey ⟨findSession r.client r.sessionId, some e.key⟩

def SwitchesMode (r : Remote E β) (f : Front E β) (e : KeyStep E) : Prop :=
  r.engine.asciiMode (arrive f e).engine ≠ r.engine.asciiMode (e.outside f.engine)

def KeyKept (r : Remote E β) (f : Front E β) (e : KeyStep E) : Prop :=
  (processKeyEvent r e.key (arrive f e)).1 = .ok .accepted → SendsKey r f e ∨ SwitchesMode r f e

/-- Nobody but `ascii_composer` on this event has switched the mode since the
processor last looked. -/
def ModeSeen (r : Remote E β) (f : Front E β) (e : KeyStep E) : Prop :=
  r.grpcSessionOpen = false ∨ SwitchesMode r f e ∨ ¬Toggles r (arrive f e)

def Reach (r : Remote E β) (f : Front E β) : Prop := Known r ∨ f.cached = none

section

variable {r : Remote E β}

theorem toggleKey_ne {key sent : KeyEvent} {f : Front E β} (h : toggleKey r key f = some sent) :
    sent ≠ key := by
  have hstyle : dismissal (styleOf (switchKeyBindings r.config) key.keycode) = some sent := by
    rw [toggleKey] at h
    split at h
    · exact h
    · cases h
  have hmem : key.keycode ∈ keyNames.map (·.2) := by
    apply styleOf_switchKeyBindings r.config
    intro hnoop
    rw [hnoop] at hstyle
    cases hstyle
  have hsent : sent.keycode = ESCAPE ∨ sent.keycode = SPACE := by
    cases hs : styleOf (switchKeyBindings r.config) key.keycode <;> rw [hs] at hstyle <;> cases hstyle
    · exact Or.inr rfl
    · exact Or.inl rfl
    · exact Or.inl rfl
  rintro rfl
  rcases hsent with hsent | hsent <;> rw [hsent] at hmem <;> revert hmem <;> decide

theorem toggle_exchanges (hopen : r.grpcSessionOpen = true) (hknown : Known r) (key : KeyEvent)
    {f : Front E β} (h : Toggles r f) :
    (processKeyEvent r key f).2.link.exchanges = f.link.exchanges ∨
      ∃ sent after, sent ≠ key ∧
        (processKeyEvent r key f).2.link.exchanges = (keyCall r sent f).link.exchanges ++ after := by
  rw [toggle_link hopen hknown key h]
  cases hsent : toggleKey r key f with
  | none => exact Or.inl rfl
  | some sent => exact Or.inr ⟨sent, _, toggleKey_ne hsent, rfl⟩

theorem forward_exchanges (hopen : r.grpcSessionOpen = true) (hknown : Known r) {key : KeyEvent}
    {f : Front E β} (h : Forwards r key f) :
    ∃ after, (processKeyEvent r key f).2.link.exchanges =
      (keyCall r key f).link.exchanges ++ after :=
  ⟨_, by rw [forward_link hopen hknown h]; exact List.append_assoc _ _ _⟩

theorem not_sendsKey_of_toggle (hopen : r.grpcSessionOpen = true) {f : Front E β} {e : KeyStep E}
    (h : Toggles r (arrive f e)) : ¬SendsKey r f e := by
  rintro ⟨x, rest, hsent, hrequest⟩
  rw [step] at hsent
  by_cases hknown : Known r
  · obtain hsame | ⟨sent, after, hne, hexchanges⟩ := toggle_exchanges hopen hknown e.key h
    · rw [hsame] at hsent
      exact absurd (List.self_eq_append_right.mp hsent) (List.cons_ne_nil _ _)
    · rw [hexchanges, keyCall] at hsent
      have hhead := List.head_eq_of_cons_eq (List.append_cancel_left
        ((List.append_assoc _ _ _).symm.trans hsent))
      rw [← hhead] at hrequest
      injection hrequest with hreq
      injection hreq with _ hkey
      exact hne (Option.some.inj hkey)
  · rw [(processKeyEvent_unknown hknown e.key (arrive f e)).1] at hsent
    exact absurd (List.self_eq_append_right.mp hsent) (List.cons_ne_nil _ _)

theorem keyKept_of_same {f : Front E β} {e : KeyStep E} (hsame : ¬Toggles r (arrive f e))
    (hreach : Reach r f) : KeyKept r f e := by
  intro haccepted
  obtain hclosed | ⟨hopen, htoggle | ⟨-, hpass⟩ | hforward⟩ := event_cases r e.key (arrive f e)
  · rw [processKeyEvent_closed hclosed] at haccepted
    cases haccepted
  · exact absurd htoggle hsame
  · rw [processKeyEvent_pass hopen hsame hpass] at haccepted
    cases haccepted
  · by_cases hknown : Known r
    · obtain ⟨after, hafter⟩ := forward_exchanges hopen hknown hforward
      refine Or.inl ⟨⟨.processKey ⟨findSession r.client r.sessionId, some e.key⟩, f.link.server,
        f.link.next⟩, after, ?_, rfl⟩
      rw [step, hafter]
      exact List.append_assoc _ _ _
    · have hnone : f.cached = none := hreach.resolve_left hknown
      rw [processKeyEvent_forward hopen hforward, forwardKey_unknown hknown,
        if_pos (by simp [cachedPreedit, arrive, hnone])] at haccepted
      cases haccepted

theorem keyKept_iff {f : Front E β} (hreach : Reach r f) (e : KeyStep E) :
    KeyKept r f e ↔ ModeSeen r f e := by
  constructor
  · intro hkept
    by_contra hunseen
    obtain ⟨hclosed, hswitch, hsame⟩ := by simpa only [ModeSeen, not_or] using hunseen
    have hopen : r.grpcSessionOpen = true := by simpa using hclosed
    have htoggle : Toggles r (arrive f e) := not_not.mp hsame
    have haccepted : (processKeyEvent r e.key (arrive f e)).1 = .ok .accepted := by
      rw [processKeyEvent_toggle hopen e.key htoggle]
    exact (hkept haccepted).elim (not_sendsKey_of_toggle hopen htoggle) hswitch
  · rintro (hclosed | hswitch | hsame)
    · intro haccepted
      rw [processKeyEvent_closed hclosed] at haccepted
      cases haccepted
    · exact fun _ => Or.inr hswitch
    · exact keyKept_of_same hsame hreach

theorem step_reach (f : Front E β) (e : KeyStep E) (hreach : Reach r f) :
    Reach r (step r f e) := by
  by_cases hknown : Known r
  · exact Or.inl hknown
  · have hnone : f.cached = none := hreach.resolve_left hknown
    obtain ⟨-, -, hsame | hdropped⟩ := processKeyEvent_unknown hknown e.key (arrive f e)
    · exact Or.inr (hsame.trans hnone)
    · exact Or.inr hdropped

/-- In every run, whoever else changes the option in between, every key that the
processor keeps is sent to the backend or is the switch, exactly when each event
finds the mode of the snapshot or switches it itself. -/
theorem no_lost_key_iff (engine : E) (server : β) (outcome : Nat → RpcOutcome)
    (events : List (KeyStep E)) :
    Allowed (step r) (KeyKept r) (start r engine server outcome) events ↔
      Allowed (step r) (ModeSeen r) (start r engine server outcome) events := by
  have hstart : Reach r (start r engine server outcome) := Or.inr rfl
  apply allowed_iff_of_invariant _ _ hstart
  · intro f e hreach
    exact keyKept_iff hreach e
  · intro f e hreach _
    exact step_reach f e hreach

end

def afterSwitch : KeyStep Pad := ⟨fun p => { p with ascii := true }, id, ⟨0x6E, 0⟩⟩

/-- The letter is neither sent on nor let through, and it switches nothing. -/
theorem letter_lost :
    ¬Allowed (step deskRemote) (KeyKept deskRemote)
      (start deskRemote pad emptyDesk fun _ => .delivered) [afterSwitch] := by
  rintro ⟨hkept, -⟩
  rcases hkept (by decide) with hsent | hswitch
  · exact not_sendsKey_of_toggle rfl (by decide) hsent
  · exact hswitch rfl

end RimeWinime.AsciiMode
