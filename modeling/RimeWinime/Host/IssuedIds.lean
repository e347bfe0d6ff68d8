import RimeWinime.Host.Server

namespace RimeWinime.IssuedIds

open World Win32 Proto Session Adapter Backend Server

variable {W : Type}

inductive SessionCall
  | processKey (req : ProcessKeyRequest)
  | getContext (req : GetContextRequest)
  | getCommit (req : GetCommitRequest)
  | selectCandidateOnCurrentPage (req : SelectCandidateRequest)
  | destroySession (req : DestroySessionRequest)

def SessionCall.sessionId : SessionCall → String
  | .processKey req => req.sessionId
  | .getContext req => req.sessionId
  | .getCommit req => req.sessionId
  | .selectCandidateOnCurrentPage req => req.sessionId
  | .destroySession req => req.sessionId

/-- The handler of the request, and what its response says was done: `accepted`,
`has_commit` or `success`. A context and a status say nothing. -/
def answer {β : Type} (b : RimeBackend β) : SessionCall → Act β Bool
  | .processKey req => do
      match ← processKey b req with
      | .ok resp => pure resp.accepted
      | .error _ => pure false
  | .getContext req => do
      let _ ← getContext b req
      pure false
  | .getCommit req => do
      match ← getCommit b req with
      | .ok resp => pure resp.hasCommit
      | .error _ => pure false
  | .selectCandidateOnCurrentPage req => do
      match ← selectCandidateOnCurrentPage b req with
      | .ok resp => pure resp.success
      | .error _ => pure false
  | .destroySession req => do
      match ← destroySession b req with
      | .ok resp => pure resp.success
      | .error _ => pure false

def Issued (sessions : AList (fun _ : Nat => WinImmSession)) (sessionId : String) : Prop :=
  ∃ id ∈ sessions, sessionId = toString id

def Destroys : SessionCall → Prop
  | .destroySession _ => True
  | _ => False

/-- Every session is as it was, and so is the world with the IME in it. -/
structure Unchanged (h h' : Hosted W) : Prop where
  sessions : ∀ id, h'.1.sessions.lookup id = h.1.sessions.lookup id
  world : h'.2 = h.2

/-- A request with a string that was not issued does nothing and says so; a
session is said to be destroyed only when one is gone. -/
def OnlyIssued (api : Api W) (h : Hosted W) (call : SessionCall) : Prop :=
  (¬Issued h.1.sessions call.sessionId →
      (answer (immBackend api) call h).1 = false ∧
        Unchanged h (answer (immBackend api) call h).2) ∧
    (Destroys call → (answer (immBackend api) call h).1 = true →
      ∃ id ∈ h.1.sessions, id ∉ (answer (immBackend api) call h).2.1.sessions)

/-- Whether the request gets to a session. A destroy is said to be done
whatever it gets to. -/
def Reaches (sessions : AList (fun _ : Nat => WinImmSession)) : SessionCall → Prop
  | .processKey req =>
      sessionOf req.sessionId ∈ sessions ∧
        ∃ key, req.keyEvent = some key ∧ refusedUpFront key = false
  | .getContext req => sessionOf req.sessionId ∈ sessions
  | .getCommit req => sessionOf req.sessionId ∈ sessions
  | .selectCandidateOnCurrentPage req => sessionOf req.sessionId ∈ sessions
  | .destroySession _ => True

theorem parseUsize_digits {s : String} (hnonempty : s.toList ≠ [])
    (hdigits : ∀ c ∈ s.toList, c.isDigit = true) :
    parseUsize s =
      if Nat.ofDigitChars 10 s.toList 0 < 2 ^ 64 then some (Nat.ofDigitChars 10 s.toList 0)
      else none := by
  have hgood : ¬(s.toList = [] ∨ (s.toList.any fun c => !c.isDigit) = true) := by
    rintro (hnil | hany)
    · exact hnonempty hnil
    · obtain ⟨c, hc, hbad⟩ := List.any_eq_true.mp hany
      rw [hdigits c hc] at hbad
      cases hbad
  rw [parseUsize]
  split
  · next rest he =>
      have hplus : ('+' : Char).isDigit = true := hdigits '+' (by rw [he]; exact List.mem_cons_self)
      cases hplus
  · simp only [if_neg hgood]
    rfl

theorem parseUsize_toString {id : Nat} (h : id < 2 ^ 64) : parseUsize (toString id) = some id := by
  have hchars : (toString id).toList = Nat.toDigits 10 id := by
    rw [Nat.toString_eq_ofList_toDigits, String.toList_ofList]
  rw [parseUsize_digits, hchars, Nat.ofDigitChars_ten_toDigits, if_pos h]
  · rw [hchars]
    exact Nat.toDigits_ne_nil
  · intro c hc
    rw [hchars] at hc
    exact Nat.isDigit_of_mem_toDigits (by omega) (by omega) hc

theorem sessionOf_toString {id : Nat} (h : id < 2 ^ 64) : sessionOf (toString id) = id := by
  rw [sessionOf, parseUsize_toString h]
  rfl

theorem onSession_missing {α : Type} {id : Nat} {missing : α}
    {op : WinImmSession → Act W (α × WinImmSession)} {h : Hosted W}
    (hs : h.1.sessions.lookup id = none) : onSession id missing op h = (missing, h) := by
  simp [onSession, hs]

theorem onImeSession_missing {α : Type} {id : Nat} {missing : α}
    {op : ImeFunctions W → WinImmSession → Act W (α × WinImmSession)} {h : Hosted W}
    (hs : h.1.sessions.lookup id = none) : onImeSession id missing op h = (missing, h) := by
  rw [onImeSession]
  split
  · rfl
  · exact onSession_missing hs

theorem Unchanged.refl (h : Hosted W) : Unchanged h h := ⟨fun _ => rfl, rfl⟩

section

variable {api : Api W} {h : Hosted W}

theorem processKey_refused {id : Nat} {key : KeyEvent} (hrefused : refusedUpFront key = true) :
    (Backend.processKey api id key h).1 = false ∧ Unchanged h (Backend.processKey api id key h).2 := by
  cases hi : h.1.imeFunctions with
  | none =>
      have hrun : Backend.processKey api id key h = (false, h) := by
        simp [Backend.processKey, onImeSession, hi]
      rw [hrun]
      exact ⟨rfl, Unchanged.refl h⟩
  | some ime =>
      cases hs : h.1.sessions.lookup id with
      | none =>
          have hrun : Backend.processKey api id key h = (false, h) := onImeSession_missing hs
          rw [hrun]
          exact ⟨rfl, Unchanged.refl h⟩
      | some s =>
          have hrun : Backend.processKey api id key h =
              (false, { h.1 with sessions := h.1.sessions.insert id s }, h.2) := by
            simp [Backend.processKey, onImeSession_live hi hs, Adapter.processKey, hrefused]
          rw [hrun]
          refine ⟨rfl, fun j => ?_, rfl⟩
          by_cases hj : j = id
          · rw [hj, hs]
            exact AList.lookup_insert _
          · exact AList.lookup_insert_ne hj

theorem answer_unreached {call : SessionCall} (hno : ¬Reaches h.1.sessions call) :
    (answer (immBackend api) call h).1 = false ∧ Unchanged h (answer (immBackend api) call h).2 := by
  have hnothing (hrun : answer (immBackend api) call h = (false, h)) :
      (answer (immBackend api) call h).1 = false ∧
        Unchanged h (answer (immBackend api) call h).2 := by
    rw [hrun]
    exact ⟨rfl, Unchanged.refl h⟩
  have hmissing {id : Nat} (hout : id ∉ h.1.sessions) : h.1.sessions.lookup id = none :=
    AList.lookup_eq_none.mpr hout
  cases call with
  | processKey req =>
      obtain ⟨sessionId, keyEvent⟩ := req
      cases keyEvent with
      | none => exact ⟨rfl, Unchanged.refl h⟩
      | some key =>
          by_cases hin : sessionOf sessionId ∈ h.1.sessions
          · have hrefused : refusedUpFront key = true := by
              by_contra hfree
              exact hno ⟨hin, key, rfl, Bool.eq_false_iff.mpr hfree⟩
            exact processKey_refused hrefused
          · apply hnothing
            simp [answer, Server.processKey, immBackend, Backend.processKey,
              onImeSession_missing (hmissing hin)]
  | getContext req =>
      apply hnothing
      simp [answer, Server.getContext, immBackend, Backend.getContext,
        onSession_missing (hmissing hno)]
  | getCommit req =>
      apply hnothing
      simp [answer, Server.getCommit, immBackend, Backend.getCommit,
        onSession_missing (hmissing hno)]
  | selectCandidateOnCurrentPage req =>
      apply hnothing
      simp [answer, Server.selectCandidateOnCurrentPage, immBackend, Backend.selectCandidate,
        onImeSession_missing (hmissing hno)]
  | destroySession => exact absurd trivial hno

end

def restlessApi : Api (Thread Unit) := { inertApi with peekMessage := peekQueue }

def restlessIme : ImeFunctions (Thread Unit) :=
  { inertIme with processKey := fun _ _ _ _ => pure true }

def restless (sessions : AList (fun _ : Nat => WinImmSession)) : Hosted (Thread Unit) :=
  (⟨some restlessIme, sessions, false⟩, ⟨[⟨0, WM_CHAR, 0x61, 0⟩], ()⟩)

theorem harvest_restless (s : WinImmSession) :
    harvestThreadMessages restlessApi s ⟨[⟨0, WM_CHAR, 0x61, 0⟩], ()⟩ =
      (appendCommit s "a", ⟨[], ()⟩) := by
  have hpumped : pumpThreadMessages restlessApi s ⟨[⟨0, WM_CHAR, 0x61, 0⟩], ()⟩ =
      ({ charText := "a" }, ⟨[], ()⟩) := rfl
  rw [harvestThreadMessages, bind_run, hpumped]
  rfl

theorem processVk_eager (s : WinImmSession) (vk : UInt16) (modifiers : UInt32) (isKeyup : Bool)
    (w : Thread Unit) :
    (Adapter.processVk restlessApi restlessIme s vk modifiers isKeyup w).1.1 = true := by
  simp [Adapter.processVk, restlessIme]

def Succeeds (x : Act W (Bool × WinImmSession)) : Prop :=
  Keeps (fun _ => True) (fun r => r.1 = true) x

theorem succeeds_bind {α : Type} {x : Act W α} {f : α → Act W (Bool × WinImmSession)}
    (hf : ∀ a, Succeeds (f a)) : Succeeds (x >>= f) :=
  Keeps.bind (P := fun _ => True) (fun _ _ => ⟨trivial, trivial⟩) fun a _ => hf a

theorem notifySelection_succeeds (api : Api W) (ime : ImeFunctions W) (s : WinImmSession)
    (index : Nat) (before : String) (menu : List String) :
    Succeeds (notifySelection api ime s index before menu) := by
  refine succeeds_bind fun _ => succeeds_bind fun s => succeeds_bind fun _ => succeeds_bind fun _ => ?_
  refine Keeps.ite (fun _ => ?_) fun _ => Keeps.pure rfl
  exact succeeds_bind fun _ => succeeds_bind fun _ => succeeds_bind fun _ => Keeps.pure rfl

theorem selectCandidate_succeeds (api : Api W) (ime : ImeFunctions W) (s : WinImmSession)
    (index : Nat) (w : W) : (Adapter.selectCandidate api ime s index w).1.1 = true := by
  have hall : Succeeds (Adapter.selectCandidate api ime s index) := by
    refine succeeds_bind fun beforeComp => succeeds_bind fun beforeMenu => ?_
    cases selectionVk index with
    | none => exact notifySelection_succeeds api ime s index _ _
    | some vk =>
        refine succeeds_bind fun r => succeeds_bind fun _ => succeeds_bind fun _ =>
          succeeds_bind fun _ => ?_
        refine Keeps.ite (fun _ => ?_) fun _ => notifySelection_succeeds api ime r.2 index _ _
        exact succeeds_bind fun _ => Keeps.pure rfl
  exact (hall w trivial).1

theorem reached_disturbed {sessions : AList (fun _ : Nat => WinImmSession)} {call : SessionCall}
    (hreach : Reaches sessions call)
    (hquiet : (answer (immBackend restlessApi) call (restless sessions)).1 = false) :
    ¬Unchanged (restless sessions) (answer (immBackend restlessApi) call (restless sessions)).2 := by
  have hlive {id : Nat} (hin : id ∈ sessions) :
      ∃ s, (restless sessions).1.sessions.lookup id = some s :=
    Option.isSome_iff_exists.mp (AList.lookup_isSome.mpr hin)
  have hime : (restless sessions).1.imeFunctions = some restlessIme := rfl
  cases call with
  | processKey req =>
      obtain ⟨sessionId, keyEvent⟩ := req
      obtain ⟨hin, key, rfl, hfree⟩ := hreach
      obtain ⟨s, hs⟩ := hlive hin
      have haccepted : (answer (immBackend restlessApi)
          (.processKey ⟨sessionId, some key⟩) (restless sessions)).1 = true := by
        simp [answer, Server.processKey, immBackend, Backend.processKey, onImeSession_live hime hs,
          Adapter.processKey, hfree, processVk_eager]
      cases hquiet.symm.trans haccepted
  | getContext req =>
      obtain ⟨s, hs⟩ := hlive hreach
      intro hsame
      have hafter := hsame.sessions (sessionOf req.sessionId)
      have hcommitted : (answer (immBackend restlessApi) (.getContext req)
          (restless sessions)).2.1.sessions.lookup (sessionOf req.sessionId) =
            some (appendCommit s "a") := by
        simp only [answer, Server.getContext, immBackend, Backend.getContext, bind_run,
          onSession_live hs, Adapter.getContext]
        exact AList.lookup_insert _
      rw [hs, hcommitted] at hafter
      have htext := congrArg pendingText (Option.some.inj hafter)
      rw [pendingText_appendCommit] at htext
      have hlength := congrArg String.length htext
      rw [String.length_append] at hlength
      have hone : ("a" : String).length = 1 := rfl
      omega
  | getCommit req =>
      obtain ⟨s, hs⟩ := hlive hreach
      have hcommitted : (answer (immBackend restlessApi) (.getCommit req)
          (restless sessions)).1 = true := by
        have htaken : (Adapter.getCommit restlessApi s (restless sessions).2).1.1 =
            some (pendingText s ++ "a") := by
          have hharvest : harvestThreadMessages restlessApi s (restless sessions).2 =
              (appendCommit s "a", ⟨[], ()⟩) := harvest_restless s
          simp [Adapter.getCommit, hharvest, appendCommit, pendingText]
        simp [answer, Server.getCommit, immBackend, Backend.getCommit, onSession_live hs, htaken]
      cases hquiet.symm.trans hcommitted
  | selectCandidateOnCurrentPage req =>
      obtain ⟨s, hs⟩ := hlive hreach
      have hselected : (answer (immBackend restlessApi) (.selectCandidateOnCurrentPage req)
          (restless sessions)).1 = true := by
        simp [answer, Server.selectCandidateOnCurrentPage, immBackend, Backend.selectCandidate,
          onImeSession_live hime hs, selectCandidate_succeeds]
      cases hquiet.symm.trans hselected
  | destroySession req => cases hquiet

theorem destroys_issued {api : Api W} {h : Hosted W} (husize : ∀ id ∈ h.1.sessions, id < 2 ^ 64)
    {req : DestroySessionRequest} (hissued : Issued h.1.sessions req.sessionId) :
    ∃ id ∈ h.1.sessions,
      id ∉ (answer (immBackend api) (.destroySession req) h).2.1.sessions := by
  obtain ⟨id, hid, hstring⟩ := hissued
  obtain ⟨s, hs⟩ := Option.isSome_iff_exists.mp (AList.lookup_isSome.mpr hid)
  have hparsed : sessionOf req.sessionId = id := by
    rw [hstring]
    exact sessionOf_toString (husize id hid)
  refine ⟨id, hid, ?_⟩
  have hafter : (answer (immBackend api) (.destroySession req) h).2.1.sessions =
      h.1.sessions.erase id := by
    simp [answer, Server.destroySession, immBackend, Backend.destroySession, hparsed, hs]
  rw [hafter]
  exact fun hin => (AList.mem_erase.mp hin).1 rfl

/-- Whatever the IME does, a request keeps to the issued session ids exactly
when its string is one, or gets to no session. -/
theorem only_issued_iff (sessions : AList (fun _ : Nat => WinImmSession))
    (husize : ∀ id ∈ sessions, id < 2 ^ 64) (call : SessionCall) :
    (∀ (W : Type) (api : Api W) (h : Hosted W), h.1.sessions = sessions → OnlyIssued api h call) ↔
      Issued sessions call.sessionId ∨ ¬Reaches sessions call := by
  constructor
  · intro hall
    by_contra hno
    rw [not_or, not_not] at hno
    obtain ⟨hunissued, hreach⟩ := hno
    obtain ⟨hquiet, hsame⟩ := (hall _ restlessApi (restless sessions) rfl).1 hunissued
    exact reached_disturbed hreach hquiet hsame
  · rintro hcase W api h rfl
    refine ⟨fun hunissued => ?_, fun hdestroys _ => ?_⟩
    · exact answer_unreached (hcase.resolve_left hunissued)
    · cases call with
      | processKey | getContext | getCommit | selectCandidateOnCurrentPage => cases hdestroys
      | destroySession req =>
          have hissued := hcase.resolve_right fun hno => hno trivial
          exact destroys_issued husize hissued

def oneSession : AList (fun _ : Nat => WinImmSession) := AList.singleton 1 ⟨1, 10, 10, 20, 0, none⟩

theorem mem_oneSession {id : Nat} (h : id ∈ oneSession) : id = 1 := List.mem_singleton.mp h

theorem oneSession_keeps_to_issued :
    OnlyIssued restlessApi (restless oneSession) (.getCommit ⟨"2"⟩) := by
  have husize : ∀ id ∈ oneSession, id < 2 ^ 64 := by
    intro id hid
    rw [mem_oneSession hid]
    decide
  refine (only_issued_iff oneSession husize (.getCommit ⟨"2"⟩)).mpr (Or.inr ?_) _ _ _ rfl
  exact fun hreach => absurd (mem_oneSession hreach) (by decide)

/-- "+1" takes the commit text of the session 1, and a destroy that finds no
session answers success. -/
theorem unissued_reach_sessions :
    ¬OnlyIssued restlessApi (restless oneSession) (.getCommit ⟨"+1"⟩) ∧
      ¬OnlyIssued restlessApi (restless ∅) (.destroySession ⟨"7"⟩) := by
  constructor
  · intro h
    have hunissued : ¬Issued oneSession "+1" := by
      rintro ⟨id, hid, hstring⟩
      rw [mem_oneSession hid] at hstring
      exact absurd hstring (by decide)
    have hsilent := (h.1 hunissued).1
    exact absurd hsilent (by decide)
  · intro h
    have hunissued : ¬Issued ∅ "7" := fun ⟨id, hid, _⟩ => AList.notMem_empty id hid
    exact absurd (h.1 hunissued).1 (by decide)

end RimeWinime.IssuedIds
