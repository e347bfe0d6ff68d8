import RimeWinime.Remote.Coupling

namespace RimeWinime.Toggle

open World Text Proto Backend Client SharedState Processor View Events Coupling Desk

variable {E β : Type}

/-- What `ascii_composer` has put out by the time the processor sees the toggle. -/
def composerText (style : AsciiSwitchStyle) (code : String) : String :=
  if style = .commitCode then code else ""

/-- What the whole toggle owes to the user: the text of the composition, and what was
pending before. -/
def owedText (style : AsciiSwitchStyle) (code pending text : String) : String :=
  match style with
  | .commitCode => code ++ pending
  | .commitText => pending ++ text
  | _ => pending

def newText (f f' : Front E β) : String := concat (f'.emitted.drop f.emitted.length)

section

variable {r : Remote E β} (v : SessionView r.backend (idOf r))

/-- The key ends the backend's composition with a text, which is there when the commit
is fetched after it. -/
structure Dismisses (key : KeyEvent) (text : String) (s : β) : Prop where
  yields : v.keyText key s ++ v.commitText (r.backend.processKey (idOf r) key s).2 = text
  drops : heldView (v.context (r.backend.processKey (idOf r) key s).2) = none
  keeps : heldView (v.context
      (r.backend.getCommit (idOf r) (r.backend.processKey (idOf r) key s).2).2) =
    heldView (v.context (r.backend.processKey (idOf r) key s).2)

/-- The toggle puts out the composition and the pending text once each, and leaves
nothing behind on either side. -/
structure EndsOnce (key : KeyEvent) (code text : String) (f f' : Front E β) : Prop where
  output :
    composerText (styleOf (switchKeyBindings r.config) key.keycode) code ++ newText f f' =
      owedText (styleOf (switchKeyBindings r.config) key.keycode) code (v.pending f.link.server) text
  pending : v.pending f'.link.server = ""
  composition : serverView v f'.link = none
  cached : f'.cached = none

theorem newText_deliver (text : String) (f : Front E β) : newText f (deliver r text f) = text := by
  rw [newText, deliver]
  split
  · next h => simp [h]
  · simp

theorem toggled_newText (keycode : UInt32) (f : Front E β) :
    newText f (toggled r keycode f) =
      match styleOf (switchKeyBindings r.config) keycode with
      | .commitText => fetchedText r (keyCall r ⟨SPACE, 0⟩ f).link
      | _ => "" := by
  have hkept {g : Front E β} (hg : g.emitted = f.emitted) : newText f g = "" := by
    rw [newText, hg, List.drop_length, concat_nil]
  rw [toggled]
  cases styleOf (switchKeyBindings r.config) keycode with
  | commitText =>
      let cleared : Front E β := { keyCall r ⟨SPACE, 0⟩ f with engine := r.engine.clear f.engine }
      exact newText_deliver (fetchedText r cleared.link) (commitCall r cleared)
  | inlineAscii | commitCode | clear | noop => exact hkept rfl

theorem toggled_cached {keycode : UInt32}
    (h : (dismissal (styleOf (switchKeyBindings r.config) keycode)).isSome = true) (f : Front E β) :
    (toggled r keycode f).cached = none := by
  rw [toggled]
  cases hstyle : styleOf (switchKeyBindings r.config) keycode with
  | inlineAscii =>
      rw [hstyle] at h
      cases h
  | commitText | commitCode | clear | noop => rfl

theorem keyCall_server {key : KeyEvent} {f : Front E β} (hdelivers : Delivers f) :
    (keyCall r key f).link.server = (r.backend.processKey (idOf r) key f.link.server).2 :=
  hdelivers.executed _

theorem commitCall_server {f : Front E β} (hdelivers : Delivers f) :
    (commitCall r f).link.server = (r.backend.getCommit (idOf r) f.link.server).2 :=
  hdelivers.executed _

theorem dismissed {key : KeyEvent} {text : String} {f : Front E β} (hdelivers : Delivers f)
    (h : Dismisses v key text f.link.server) :
    fetchedText r (keyCall r key f).link = v.pending f.link.server ++ text ∧
      v.pending (commitCall r (keyCall r key f)).link.server = "" ∧
      serverView v (commitCall r (keyCall r key f)).link = none := by
  have hkey : Delivers (keyCall r key f) := hdelivers
  refine ⟨?_, ?_, ?_⟩
  · rw [fetchedText, hkey.answered, if_pos rfl, v.getCommit_text, keyCall_server hdelivers,
      v.processKey_pending, String.append_assoc, h.yields]
  · rw [commitCall_server hkey]
    exact v.getCommit_empties _
  · rw [serverView, commitCall_server hkey, keyCall_server hdelivers, h.keeps, h.drops]

theorem endsOnce_iff_output {key sent : KeyEvent} {code text ended : String} {f : Front E β}
    (hdelivers : Delivers f)
    (hsent : dismissal (styleOf (switchKeyBindings r.config) key.keycode) = some sent)
    (h : Dismisses v sent ended f.link.server) :
    EndsOnce v key code text f (toggled r key.keycode f) ↔
      composerText (styleOf (switchKeyBindings r.config) key.keycode) code ++
          newText f (toggled r key.keycode f) =
        owedText (styleOf (switchKeyBindings r.config) key.keycode) code (v.pending f.link.server)
          text := by
  obtain ⟨-, hpending, hview⟩ := dismissed v hdelivers h
  have hlink := toggled_link (r := r) key.keycode f
  rw [hsent] at hlink
  constructor
  · exact fun hends => hends.output
  · intro houtput
    refine ⟨houtput, ?_, ?_, toggled_cached (by rw [hsent]; rfl) f⟩
    · rw [hlink]
      exact hpending
    · rw [hlink]
      exact hview

theorem toggled_endsOnce_iff {key : KeyEvent} {f : Front E β} (hdelivers : Delivers f)
    (hstyle : (dismissal (styleOf (switchKeyBindings r.config) key.keycode)).isSome = true)
    (code : String) {text : String} (hescape : Dismisses v ⟨ESCAPE, 0⟩ "" f.link.server)
    (hspace : Dismisses v ⟨SPACE, 0⟩ text f.link.server) :
    EndsOnce v key code text f (toggled r key.keycode f) ↔
      styleOf (switchKeyBindings r.config) key.keycode = .commitText ∨
        v.pending f.link.server = "" := by
  have hnew := toggled_newText (r := r) key.keycode f
  cases hs : styleOf (switchKeyBindings r.config) key.keycode with
  | inlineAscii | noop =>
      rw [hs] at hstyle
      cases hstyle
  | commitCode =>
      rw [endsOnce_iff_output v hdelivers (by rw [hs]; rfl) hescape, hnew, hs]
      change code ++ "" = code ++ v.pending f.link.server ↔ _
      rw [String.append_right_inj, or_iff_right (by decide), eq_comm]
  | clear =>
      rw [endsOnce_iff_output v hdelivers (by rw [hs]; rfl) hescape, hnew, hs]
      change "" = v.pending f.link.server ↔ _
      rw [or_iff_right (by decide), eq_comm]
  | commitText =>
      rw [endsOnce_iff_output v hdelivers (by rw [hs]; rfl) hspace, hnew, hs]
      simp [composerText, owedText, (dismissed v hdelivers hspace).1]

/-- A toggle to ascii with a cached context, when Escape drops the composition and
Space commits it: everything comes out once exactly when the style is `commit_text`
or nothing was pending. -/
theorem ends_once_iff (hopen : r.grpcSessionOpen = true) (hknown : Known r) (key : KeyEvent)
    (f : Front E β) (hdelivers : Delivers f) (htoggle : Toggles r f)
    (hascii : r.engine.asciiMode f.engine = true) (hcached : f.cached.isSome = true)
    (hstyle : (dismissal (styleOf (switchKeyBindings r.config) key.keycode)).isSome = true)
    (code : String) {text : String} (hescape : Dismisses v ⟨ESCAPE, 0⟩ "" f.link.server)
    (hspace : Dismisses v ⟨SPACE, 0⟩ text f.link.server) :
    EndsOnce v key code text f (processKeyEvent r key f).2 ↔
      styleOf (switchKeyBindings r.config) key.keycode = .commitText ∨
        v.pending f.link.server = "" := by
  rw [← toggled_endsOnce_iff v hdelivers hstyle code hescape hspace,
    processKeyEvent_toggle hopen key htoggle, if_pos (Bool.and_eq_true_iff.mpr ⟨hascii, hcached⟩),
    handleAsciiModeToggle_known hknown key.keycode hcached]
  constructor
  · rintro ⟨houtput, hpending, hview, hdropped⟩
    exact ⟨houtput, hpending, hview, hdropped⟩
  · rintro ⟨houtput, hpending, hview, hdropped⟩
    exact ⟨houtput, hpending, hview, hdropped⟩

end

def busyDesk : Table := { emptyDesk with late := "好" }

def shiftLeft : KeyStep Pad := ⟨id, fun _ => ⟨true, "", 0⟩, ⟨0xFFE1, 0x40000000⟩⟩

def shiftRight : KeyStep Pad := ⟨id, fun p => { p with ascii := true }, ⟨0xFFE2, 0x40000000⟩⟩

def busy : Front Pad Table := reached deskRemote pad busyDesk (fun _ => .delivered) [plainKey 0x6E]

theorem busy_escape : Dismisses deskView ⟨ESCAPE, 0⟩ "" busy.link.server :=
  ⟨by decide, by decide, by decide⟩

theorem busy_space : Dismisses deskView ⟨SPACE, 0⟩ "你" busy.link.server :=
  ⟨by decide, by decide, by decide⟩

theorem result_discarded :
    styleOf (switchKeyBindings deskConfig) shiftLeft.key.keycode = .commitCode ∧
      Toggles deskRemote (arrive busy shiftLeft) ∧ (arrive busy shiftLeft).cached.isSome = true ∧
      deskView.pending (arrive busy shiftLeft).link.server = "好" ∧
      Dismisses deskView ⟨ESCAPE, 0⟩ "" (arrive busy shiftLeft).link.server ∧
      ¬EndsOnce deskView shiftLeft.key "n" "你" (arrive busy shiftLeft)
        (processKeyEvent deskRemote shiftLeft.key (arrive busy shiftLeft)).2 := by
  refine ⟨by decide, by decide, by decide, by decide, busy_escape, ?_⟩
  intro hends
  have houtput := hends.output
  revert houtput
  decide

theorem result_and_candidate :
    EndsOnce deskView shiftRight.key "n" "你" (arrive busy shiftRight)
      (processKeyEvent deskRemote shiftRight.key (arrive busy shiftRight)).2 :=
  (ends_once_iff deskView rfl (by decide) shiftRight.key (arrive busy shiftRight) (fun _ => rfl)
    (by decide) (by decide) (by decide) (by decide) "n" busy_escape busy_space).mpr
    (Or.inl (by decide))

end RimeWinime.Toggle
