import RimeWinime.Remote.Processor

namespace RimeWinime.View

open World Text Proto Session Adapter Backend

variable {W β : Type}

/-- What a client can rely on for one session of a backend: the pending text only
grows, until `get_commit` hands all of it over, and `get_context` reports the
context. The text may grow in every call, by results that arrive late. -/
structure SessionView (b : RimeBackend β) (id : Nat) where
  pending : β → String
  context : β → RimeContextProto
  processKey_grows : ∀ key s, ∃ t, pending (b.processKey id key s).2 = pending s ++ t
  getContext_grows : ∀ s, ∃ t, pending (b.getContext id s).2 = pending s ++ t
  getContext_reports : ∀ s, (b.getContext id s).1 = context (b.getContext id s).2
  getCommit_takes : ∀ s, ∃ t, (b.getCommit id s).1.getD "" = pending s ++ t
  getCommit_empties : ∀ s, pending (b.getCommit id s).2 = ""

section

variable {b : RimeBackend β} {id : Nat} (v : SessionView b id)

def SessionView.keyText (key : KeyEvent) (s : β) : String :=
  addedText (v.pending s) (v.pending (b.processKey id key s).2)

def SessionView.contextText (s : β) : String :=
  addedText (v.pending s) (v.pending (b.getContext id s).2)

def SessionView.commitText (s : β) : String :=
  addedText (v.pending s) ((b.getCommit id s).1.getD "")

theorem SessionView.processKey_pending (key : KeyEvent) (s : β) :
    v.pending (b.processKey id key s).2 = v.pending s ++ v.keyText key s :=
  append_addedText (v.processKey_grows key s)

theorem SessionView.getContext_pending (s : β) :
    v.pending (b.getContext id s).2 = v.pending s ++ v.contextText s :=
  append_addedText (v.getContext_grows s)

theorem SessionView.getCommit_text (s : β) :
    (b.getCommit id s).1.getD "" = v.pending s ++ v.commitText s :=
  append_addedText (v.getCommit_takes s)

end

def Grown (s s' : WinImmSession) : Prop := ∃ t, pendingText s' = pendingText s ++ t

theorem Grown.refl (s : WinImmSession) : Grown s s := ⟨"", String.append_empty.symm⟩

theorem Grown.trans {a b c : WinImmSession} (hab : Grown a b) (hbc : Grown b c) : Grown a c := by
  obtain ⟨t, ht⟩ := hab
  obtain ⟨u, hu⟩ := hbc
  exact ⟨t ++ u, by rw [hu, ht, String.append_assoc]⟩

theorem grown_append (s : WinImmSession) (text : String) : Grown s (appendCommit s text) :=
  ⟨text, pendingText_appendCommit s text⟩

def Any (_ : W) : Prop := True

theorem keeps_any {α : Type} (x : Act W α) : Keeps Any (fun _ => True) x :=
  fun _ _ => ⟨trivial, trivial⟩

theorem harvest_grows (api : Win32.Api W) (s : WinImmSession) :
    Keeps Any (Grown s) (harvestThreadMessages api s) :=
  Keeps.bind (keeps_any _) (fun _ _ => Keeps.pure (grown_append s _))

theorem consumeDirect_grows (api : Win32.Api W) (ime : Win32.ImeFunctions W) (s : WinImmSession)
    (uvirt : UInt32) (ks : Win32.KeyState) :
    Keeps Any (Grown s) (consumeDirect api ime s uvirt ks) := by
  refine Keeps.bind (keeps_any _) (fun out _ => ?_)
  exact (harvest_grows api (commitPumped s out)).mono fun _ => (grown_append s _).trans

theorem offerKey_grows (api : Win32.Api W) (s : WinImmSession) (vk : UInt16) (isKeyup isAlt : Bool) :
    Keeps Any (fun r => Grown s r.2) (offerKey api s vk isKeyup isAlt) := by
  have hharvest (accepted : Bool) : Keeps Any (fun r : Bool × WinImmSession => Grown s r.2)
      (harvestThreadMessages api s >>= fun s => pure (accepted, s)) :=
    Keeps.bind (harvest_grows api s) (fun _ h => Keeps.pure h)
  refine Keeps.bind (keeps_any _) (fun _ _ => ?_)
  refine Keeps.bind (keeps_any _) (fun _ _ => ?_)
  refine Keeps.bind (keeps_any _) (fun _ _ => ?_)
  refine Keeps.ite (fun _ => ?_) (fun _ => hharvest _)
  exact Keeps.bind (keeps_any _) (fun _ _ => hharvest _)

theorem processVk_grows (api : Win32.Api W) (ime : Win32.ImeFunctions W) (s : WinImmSession)
    (vk : UInt16) (modifiers : UInt32) (isKeyup : Bool) :
    Keeps Any (fun r => Grown s r.2) (Adapter.processVk api ime s vk modifiers isKeyup) := by
  refine Keeps.bind (keeps_any _) (fun _ _ => ?_)
  refine Keeps.bind (keeps_any _) (fun unicode _ => ?_)
  refine Keeps.bind (offerKey_grows api s vk isKeyup _) ?_
  rintro ⟨accepted, s₁⟩ h₁
  refine Keeps.bind (keeps_any _) (fun direct _ => ?_)
  have hdirect (uvirt : UInt32) : Keeps Any (Grown s)
      (if direct = true then consumeDirect api ime s₁ uvirt (keyStateOf modifiers) else pure s₁) :=
    Keeps.ite (fun _ => (consumeDirect_grows api ime s₁ _ _).mono fun _ => h₁.trans)
      (fun _ => Keeps.pure h₁)
  refine Keeps.bind (hdirect _) (fun s₂ h₂ => ?_)
  have hkeyup : Keeps Any (Grown s)
      (if isKeyup = true then pure s₂ else releaseKey api s₂ vk ((modifiers &&& 4) != 0)) :=
    Keeps.ite (fun _ => Keeps.pure h₂)
      (fun _ => Keeps.bind (keeps_any _) fun _ _ => (harvest_grows api s₂).mono fun _ => h₂.trans)
  refine Keeps.bind hkeyup (fun s₃ h₃ => ?_)
  refine Keeps.bind (keeps_any _) (fun slot _ => Keeps.pure ?_)
  simp only [finalResultCheck]
  split
  · exact h₃.trans (grown_append s₃ _)
  · exact h₃

theorem processKey_grows (api : Win32.Api W) (ime : Win32.ImeFunctions W) (s : WinImmSession)
    (key : KeyEvent) : Keeps Any (fun r => Grown s r.2) (Adapter.processKey api ime s key) :=
  Keeps.ite (fun _ => Keeps.pure (Grown.refl s)) (fun _ => processVk_grows api ime s _ _ _)

def contextAt (api : Win32.Api W) (id : Nat) (h : Hosted W) : RimeContextProto :=
  ((h.1.sessions.lookup id).map fun s => contextOf api s.himc h.2).getD emptyContext

/-- The adapter keeps to `SessionView` for every id, live or not. -/
def immView (api : Win32.Api W) (id : Nat) : SessionView (immBackend api) id where
  pending h := pendingOf h id
  context := contextAt api id
  processKey_grows := by
    intro key h
    cases hs : h.1.sessions.lookup id with
    | none =>
        have hsame : ((immBackend api).processKey id key h).2 = h := by
          cases hi : h.1.imeFunctions <;> simp [immBackend, Backend.processKey, onImeSession, onSession, hi, hs]
        exact ⟨"", by rw [hsame, String.append_empty]⟩
    | some s =>
        cases hi : h.1.imeFunctions with
        | none =>
            have hsame : ((immBackend api).processKey id key h).2 = h := by
              simp [immBackend, Backend.processKey, onImeSession, hi]
            exact ⟨"", by rw [hsame, String.append_empty]⟩
        | some ime =>
            obtain ⟨t, ht⟩ := (processKey_grows api ime s key h.2 trivial).1
            refine ⟨t, ?_⟩
            simp only [immBackend, Backend.processKey, onImeSession_live hi hs, pendingOf,
              AList.lookup_insert, hs, Option.map_some, Option.getD_some]
            exact ht
  getContext_grows := by
    intro h
    cases hs : h.1.sessions.lookup id with
    | none =>
        have hsame : ((immBackend api).getContext id h).2 = h := by
          simp [immBackend, Backend.getContext, onSession, hs]
        exact ⟨"", by rw [hsame, String.append_empty]⟩
    | some s =>
        obtain ⟨t, ht⟩ := (harvest_grows api s h.2 trivial).1
        refine ⟨t, ?_⟩
        simp only [immBackend, Backend.getContext, onSession_live hs, pendingOf,
          AList.lookup_insert, hs, Option.map_some, Option.getD_some]
        exact ht
  getContext_reports := by
    intro h
    cases hs : h.1.sessions.lookup id with
    | none => simp [immBackend, Backend.getContext, onSession, contextAt, hs]
    | some s =>
        simp [immBackend, Backend.getContext, onSession_live hs, contextAt, Adapter.getContext]
  getCommit_takes := by
    intro h
    cases hs : h.1.sessions.lookup id with
    | none => exact ⟨"", by simp [immBackend, Backend.getCommit, onSession, pendingOf, hs]⟩
    | some s =>
        obtain ⟨t, ht⟩ := (harvest_grows api s h.2 trivial).1
        refine ⟨t, ?_⟩
        simp only [immBackend, Backend.getCommit, onSession_live hs, pendingOf, hs, Option.map_some,
          Option.getD_some]
        exact ht
  getCommit_empties := by
    intro h
    cases hs : h.1.sessions.lookup id with
    | none => simp [immBackend, Backend.getCommit, onSession, pendingOf, hs]
    | some s =>
        simp [immBackend, Backend.getCommit, onSession_live hs, pendingOf, Adapter.getCommit, pendingText]

end RimeWinime.View
