import RimeWinime.Host.Adapter

namespace RimeWinime.Backend

open World Win32 Proto Session

variable {W α β : Type}

/-- The trait `RimeBackend`: six operations on a backend's own state, four of
them on a session named by its id. -/
structure RimeBackend (β : Type) where
  openSession : Act β (Option Nat)
  destroySession : Nat → Act β Unit
  processKey : Nat → KeyEvent → Act β Bool
  getContext : Nat → Act β RimeContextProto
  getCommit : Nat → Act β (Option String)
  selectCandidate : Nat → Nat → Act β Bool

structure ImmRimeAdapter (W : Type) where
  imeFunctions : Option (ImeFunctions W)
  sessions : AList (fun _ : Nat => WinImmSession)
  showWindow : Bool

abbrev Hosted (W : Type) := ImmRimeAdapter W × W

def onSession (id : Nat) (missing : α) (op : WinImmSession → Act W (α × WinImmSession)) :
    Act (Hosted W) α := fun h =>
  match h.1.sessions.lookup id with
  | none => (missing, h)
  | some s =>
      let r := op s h.2
      (r.1.1, { h.1 with sessions := h.1.sessions.insert id r.1.2 }, r.2)

def onImeSession (id : Nat) (missing : α)
    (op : ImeFunctions W → WinImmSession → Act W (α × WinImmSession)) : Act (Hosted W) α := fun h =>
  match h.1.imeFunctions with
  | none => (missing, h)
  | some ime => onSession id missing (op ime) h

def openSession (api : Api W) : Act (Hosted W) (Option Nat) := fun h =>
  let id := h.1.sessions.entries.length + 1
  match h.1.imeFunctions with
  | none => (none, h)
  | some ime =>
      let created := Session.create api id ime.hModule h.1.showWindow h.2
      match created.1 with
      | none => (none, h.1, created.2)
      | some s =>
          let active := Adapter.activateImeContext api ime s created.2
          (some id, { h.1 with sessions := h.1.sessions.insert id s }, active.2)

/-- `ImeSelect(himc, FALSE)`, when the IME is loaded, and `destroy`. -/
def releaseSession (api : Api W) (imeFunctions : Option (ImeFunctions W)) (s : WinImmSession) :
    Act W Unit := do
  match imeFunctions with
  | some ime => do
      let _ ← ime.select s.himc false
      Session.destroy api s
  | none => Session.destroy api s

def destroySession (api : Api W) (id : Nat) : Act (Hosted W) Unit := fun h =>
  match h.1.sessions.lookup id with
  | none => ((), h)
  | some s =>
      ((), { h.1 with sessions := h.1.sessions.erase id },
        (releaseSession api h.1.imeFunctions s h.2).2)

def releaseAll (api : Api W) (imeFunctions : Option (ImeFunctions W)) :
    List WinImmSession → Act W Unit
  | [] => pure ()
  | s :: rest => do
      releaseSession api imeFunctions s
      releaseAll api imeFunctions rest

/-- `Drop for ImmRimeAdapter`: the map is drained. -/
def dropAdapter (api : Api W) : Act (Hosted W) Unit := fun h =>
  ((), { h.1 with sessions := ∅ },
    (releaseAll api h.1.imeFunctions (h.1.sessions.entries.map (·.2)) h.2).2)

def processVk (api : Api W) (id : Nat) (vk : UInt16) (modifiers : UInt32) (isKeyup : Bool) :
    Act (Hosted W) Bool :=
  onImeSession id false fun ime s => Adapter.processVk api ime s vk modifiers isKeyup

def processKey (api : Api W) (id : Nat) (key : KeyEvent) : Act (Hosted W) Bool :=
  onImeSession id false fun ime s => Adapter.processKey api ime s key

def getContext (api : Api W) (id : Nat) : Act (Hosted W) RimeContextProto :=
  onSession id emptyContext (Adapter.getContext api)

def getCommit (api : Api W) (id : Nat) : Act (Hosted W) (Option String) :=
  onSession id none (Adapter.getCommit api)

def selectCandidate (api : Api W) (id index : Nat) : Act (Hosted W) Bool :=
  onImeSession id false fun ime s => Adapter.selectCandidate api ime s index

def immBackend (api : Api W) : RimeBackend (Hosted W) where
  openSession := openSession api
  destroySession := destroySession api
  processKey := processKey api
  getContext := getContext api
  getCommit := getCommit api
  selectCandidate := selectCandidate api

def pendingOf (h : Hosted W) (id : Nat) : String :=
  ((h.1.sessions.lookup id).map pendingText).getD ""

theorem onSession_live {id : Nat} {missing : α} {op : WinImmSession → Act W (α × WinImmSession)}
    {h : Hosted W} {s : WinImmSession} (hs : h.1.sessions.lookup id = some s) :
    onSession id missing op h =
      ((op s h.2).1.1, { h.1 with sessions := h.1.sessions.insert id (op s h.2).1.2 },
        (op s h.2).2) := by
  simp [onSession, hs]

theorem onImeSession_live {id : Nat} {missing : α}
    {op : ImeFunctions W → WinImmSession → Act W (α × WinImmSession)} {h : Hosted W}
    {ime : ImeFunctions W} {s : WinImmSession} (hi : h.1.imeFunctions = some ime)
    (hs : h.1.sessions.lookup id = some s) :
    onImeSession id missing op h =
      ((op ime s h.2).1.1, { h.1 with sessions := h.1.sessions.insert id (op ime s h.2).1.2 },
        (op ime s h.2).2) := by
  simp [onImeSession, hi, onSession_live hs]

end RimeWinime.Backend
