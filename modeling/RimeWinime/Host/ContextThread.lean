import RimeWinime.Host.SideBySide

namespace RimeWinime.ContextThread

open World Win32 Proto Session Adapter Backend SideBySide

/-- The calls that act on one input context. Calls that name a window act on
the context associated with it. -/
inductive Call
  | send (hwnd : Hwnd) (message : UInt32) (wParam lParam : UInt64)
  | dispatch (msg : Msg)
  | immProcess (hwnd : Hwnd) (hkl : UInt64) (vk lKeyData : UInt32)
  | translate (hwnd : Hwnd) (message : UInt32) (wParam : UInt64) (lKeyData : UInt32)
  | generate
  | notify (action idx value : UInt32)
  | process (vk lKeyData : UInt32) (keyState : KeyState)
  | toAsciiEx (uvirt : UInt32) (keyState : KeyState)

structure Reply where
  flag : Bool := false
  number : UInt32 := 0
  msgs : List TransMsg := []

structure Post where
  toTarget : Bool
  message : UInt32
  wParam : UInt64
  lParam : UInt64

def Post.msg (s : WinImmSession) (p : Post) : Msg :=
  ⟨if p.toTarget then s.targetHwnd else s.hwnd, p.message, p.wParam, p.lParam⟩

/-- Any behaviour of an IME and of the windows of one input context. -/
structure ContextMachine (σ : Type) where
  step : Call → σ → Reply × σ × List Post
  composition : Gcs → σ → CompRead
  candidates : σ → CandRead
  misread : σ → List String
  exportsNotify : Bool
  unicode : UInt32 → UInt32 → KeyState → Int × UInt16
  layout : UInt64
  scanCode : UInt32 → UInt32
  keyScan : UInt16 → UInt16

abbrev SessionMap := AList (fun _ : Nat => WinImmSession)

abbrev ContextWorld (σ : Type) := Thread (Himc → σ)

def ownWindow (s : WinImmSession) (hwnd : Hwnd) : Bool := hwnd == s.hwnd || hwnd == s.targetHwnd

def owned (s : WinImmSession) (msg : Msg) : Bool := ownWindow s msg.hwnd

def ownerOf (sessions : SessionMap) (hwnd : Hwnd) : Option WinImmSession :=
  (sessions.entries.map (·.2)).find? fun s => ownWindow s hwnd

def contextOwner (sessions : SessionMap) (himc : Himc) : Option WinImmSession :=
  (sessions.entries.map (·.2)).find? fun s => himc == s.himc

variable {σ : Type}

def actOn (m : ContextMachine σ) (s : WinImmSession) (call : Call) : Act (ContextWorld σ) Reply :=
  fun w =>
    let r := m.step call (w.rest s.himc)
    (r.1, ⟨w.queue ++ r.2.2.map (Post.msg s), Function.update w.rest s.himc r.2.1⟩)

def actOf (m : ContextMachine σ) (owner : Option WinImmSession) (call : Call) :
    Act (ContextWorld σ) Reply :=
  match owner with
  | some s => actOn m s call
  | none => pure {}

def threadApi (m : ContextMachine σ) (sessions : SessionMap) : Api (ContextWorld σ) :=
  { inertApi with
    peekMessage := peekQueue
    dispatchMessage := fun msg => do
      let _ ← actOf m (ownerOf sessions msg.hwnd) (.dispatch msg)
    sendMessage := fun hwnd message wParam lParam => do
      let _ ← actOf m (ownerOf sessions hwnd) (.send hwnd message wParam lParam)
    toUnicode := fun vk scan keyState => pure (m.unicode vk scan keyState)
    getKeyboardLayout := fun _ _ => m.layout
    mapVirtualKey := m.scanCode
    vkKeyScan := m.keyScan
    immProcessKey := fun hwnd hkl vk lKeyData => do
      let r ← actOf m (ownerOf sessions hwnd) (.immProcess hwnd hkl vk lKeyData)
      pure r.number
    immTranslateMessage := fun hwnd message wParam lKeyData => do
      let r ← actOf m (ownerOf sessions hwnd) (.translate hwnd message wParam lKeyData)
      pure r.flag
    immGenerateMessage := fun himc => do
      let r ← actOf m (contextOwner sessions himc) .generate
      pure r.flag
    immNotifyIME := fun himc action idx value => do
      let r ← actOf m (contextOwner sessions himc) (.notify action idx value)
      pure r.flag
    immGetCompositionString := fun himc gcs w => m.composition gcs (w.rest himc)
    immGetCandidateList := fun himc w => m.candidates (w.rest himc)
    misread := fun himc w => m.misread (w.rest himc) }

def threadIme (m : ContextMachine σ) (sessions : SessionMap) : ImeFunctions (ContextWorld σ) :=
  { inertIme with
    processKey := fun himc vk lKeyData keyState => do
      let r ← actOf m (contextOwner sessions himc) (.process vk lKeyData keyState)
      pure r.flag
    toAsciiEx := fun uvirt keyState himc => do
      let r ← actOf m (contextOwner sessions himc) (.toAsciiEx uvirt keyState)
      pure (r.number, r.msgs)
    notifyIme :=
      if m.exportsNotify then
        some fun himc action idx value => do
          let r ← actOf m (contextOwner sessions himc) (.notify action idx value)
          pure r.flag
      else none }

/-- Two sessions that share a window or an input context are one session. -/
def Distinct (sessions : SessionMap) : Prop :=
  ∀ i j a b, sessions.lookup i = some a → sessions.lookup j = some b →
    (a.himc = b.himc ∨ ∃ hwnd, ownWindow a hwnd = true ∧ ownWindow b hwnd = true) → a = b

theorem mem_sessions {sessions : SessionMap} {s : WinImmSession} :
    s ∈ sessions.entries.map (·.2) ↔ ∃ id, sessions.lookup id = some s := by
  constructor
  · intro h
    obtain ⟨⟨id, t⟩, ht, rfl⟩ := List.mem_map.mp h
    exact ⟨id, AList.mem_lookup_iff.mpr ht⟩
  · rintro ⟨id, h⟩
    exact List.mem_map.mpr ⟨⟨id, s⟩, AList.mem_lookup_iff.mp h, rfl⟩

theorem find_session {sessions : SessionMap} (p : WinImmSession → Bool) {id : Nat} {s : WinImmSession}
    (hs : sessions.lookup id = some s) (hp : p s = true)
    (hunique : ∀ j t, sessions.lookup j = some t → p t = true → t = s) :
    (sessions.entries.map (·.2)).find? p = some s := by
  cases h : (sessions.entries.map (·.2)).find? p with
  | none => exact absurd hp (List.find?_eq_none.mp h s (mem_sessions.mpr ⟨id, hs⟩))
  | some t =>
      obtain ⟨j, hj⟩ := mem_sessions.mp (List.mem_of_find?_eq_some h)
      rw [hunique j t hj (List.find?_some h)]

theorem ownerOf_own {sessions : SessionMap} (hd : Distinct sessions) {id : Nat} {s : WinImmSession}
    (hs : sessions.lookup id = some s) {hwnd : Hwnd} (hw : ownWindow s hwnd = true) :
    ownerOf sessions hwnd = some s :=
  find_session _ hs hw fun j t ht hp => hd j id t s ht hs (Or.inr ⟨hwnd, hp, hw⟩)

theorem owner_owns {sessions : SessionMap} {hwnd : Hwnd} {s : WinImmSession}
    (h : ownerOf sessions hwnd = some s) : ownWindow s hwnd = true :=
  List.find?_some (p := fun s => ownWindow s hwnd) h

theorem contextOwner_own {sessions : SessionMap} (hd : Distinct sessions) {id : Nat}
    {s : WinImmSession} (hs : sessions.lookup id = some s) :
    contextOwner sessions s.himc = some s := by
  refine find_session _ hs (beq_self_eq_true s.himc) fun j t ht hp => ?_
  exact hd j id t s ht hs (Or.inl (beq_iff_eq.mp hp).symm)

theorem ownWindow_target (s : WinImmSession) : ownWindow s s.targetHwnd = true := by
  rw [ownWindow, beq_self_eq_true, Bool.or_true]

theorem owned_post (s : WinImmSession) (p : Post) : owned s (p.msg s) = true := by
  rw [owned, Post.msg]
  split
  · exact ownWindow_target s
  · rw [ownWindow, beq_self_eq_true, Bool.true_or]

/-- Two worlds that a session cannot tell apart: the same queue, in which all
messages are its own, and the same state of its input context. -/
def Alike (s : WinImmSession) (w w' : ContextWorld σ) : Prop :=
  w.queue = w'.queue ∧ (∀ msg ∈ w.queue, owned s msg = true) ∧ w.rest s.himc = w'.rest s.himc

theorem actOn_alike (m : ContextMachine σ) (s : WinImmSession) (call : Call) :
    Respects (Alike s) Eq (actOn m s call) (actOn m s call) := by
  rintro ⟨q, ctx⟩ ⟨q', ctx'⟩ ⟨rfl, hown, hctx⟩
  simp only at hown hctx
  simp only [actOn, hctx, true_and]
  refine ⟨rfl, ?_, ?_⟩
  · intro msg hmsg
    rcases List.mem_append.mp hmsg with h | h
    · exact hown msg h
    · obtain ⟨p, -, rfl⟩ := List.mem_map.mp h
      exact owned_post s p
  · simp only [Function.update_self]

theorem peek_alike (s : WinImmSession) (filter : Option Hwnd) :
    Respects (Alike s) (fun a b => a = b ∧ ∀ msg ∈ a, owned s msg = true)
      (peekQueue (σ := Himc → σ) filter) (peekQueue filter) := by
  rintro ⟨q, ctx⟩ ⟨q', ctx'⟩ ⟨rfl, hown, hctx⟩
  simp only at hown hctx
  cases h : q.find? (wants filter) with
  | none => simpa [peekQueue, h] using ⟨rfl, hown, hctx⟩
  | some msg =>
      have hmsg := hown msg (List.mem_of_find?_eq_some h)
      have hrest : ∀ a ∈ q.eraseP (wants filter), owned s a = true :=
        fun a ha => hown a (List.mem_of_mem_eraseP ha)
      simpa [peekQueue, h] using ⟨hmsg, rfl, hrest, hctx⟩

theorem local_of_distinct (m : ContextMachine σ) {sessions : SessionMap} (hd : Distinct sessions)
    {id : Nat} {s : WinImmSession} (hs : sessions.lookup id = some s) :
    Local (threadApi m sessions) (threadIme m sessions) (Alike s) (fun msg => owned s msg = true)
      s.targetHwnd s.himc := by
  have htarget := ownerOf_own hd hs (ownWindow_target s)
  have hcontext := contextOwner_own hd hs
  have hact {β : Type} (call : Call) (f : Reply → β) :
      Respects (Alike s) Eq (actOn m s call >>= fun r => pure (f r))
        (actOn m s call >>= fun r => pure (f r)) :=
    Respects.bind_eq (actOn_alike m s call) (fun _ => Respects.pure rfl)
  constructor
  case peek => exact peek_alike s
  case dispatch =>
    intro msg hmsg
    simp only [threadApi, ownerOf_own hd hs hmsg, actOf]
    exact hact (.dispatch msg) fun _ => ()
  case send =>
    intro message wParam lParam
    simp only [threadApi, htarget, actOf]
    exact hact (.send s.targetHwnd message wParam lParam) fun _ => ()
  case immProcess =>
    intro hkl vk lKeyData
    simp only [threadApi, htarget, actOf]
    exact hact (.immProcess s.targetHwnd hkl vk lKeyData) Reply.number
  case translate =>
    intro message wParam lKeyData
    simp only [threadApi, htarget, actOf]
    exact hact (.translate s.targetHwnd message wParam lKeyData) Reply.flag
  case generate =>
    simp only [threadApi, hcontext, actOf]
    exact hact .generate Reply.flag
  case notify =>
    intro action idx value
    have hnotify := hact (.notify action idx value) Reply.flag
    rw [notifyIME]
    cases he : m.exportsNotify <;> simpa [threadApi, threadIme, he, hcontext, actOf] using hnotify
  case process =>
    intro vk lKeyData keyState
    simp only [threadIme, hcontext, actOf]
    exact hact (.process vk lKeyData keyState) Reply.flag
  case toAsciiEx =>
    intro uvirt keyState
    simp only [threadIme, hcontext, actOf]
    exact hact (.toAsciiEx uvirt keyState) fun r => (r.number, r.msgs)
  case composition =>
    rintro w w' ⟨-, -, hctx⟩ gcs
    simp only [threadApi, hctx]
  case candidates =>
    rintro w w' ⟨-, -, hctx⟩
    simp only [threadApi, hctx]
  case misread =>
    rintro w w' ⟨-, -, hctx⟩
    simp only [threadApi, hctx]
  case layout => exact fun _ _ _ => rfl
  case keyboard => exact fun _ => Respects.pure rfl
  case unicode => exact fun _ _ _ => Respects.pure rfl

end RimeWinime.ContextThread
