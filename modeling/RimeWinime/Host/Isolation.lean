import RimeWinime.Host.ContextThread
import RimeWinime.Host.QuietKey
import RimeWinime.Lib.Run

namespace RimeWinime.Isolation

open World Win32 Proto Session Adapter Run SideBySide ContextThread
open Backend (Hosted ImmRimeAdapter pendingOf onSession_live onImeSession_live)

inductive Op
  | processKey (key : KeyEvent)
  | getContext
  | getCommit
  | selectCandidate (index : Nat)

variable {W σ : Type}

def perform (api : Api W) (id : Nat) (h : Hosted W) : Op → Hosted W
  | .processKey key => (Backend.processKey api id key h).2
  | .getContext => (Backend.getContext api id h).2
  | .getCommit => (Backend.getCommit api id h).2
  | .selectCandidate index => (Backend.selectCandidate api id index h).2

def sessionOp (api : Api W) (ime : ImeFunctions W) (s : WinImmSession) : Op → Act W WinImmSession
  | .processKey key => do
      let r ← Adapter.processKey api ime s key
      pure r.2
  | .getContext => do
      let r ← Adapter.getContext api s
      pure r.2
  | .getCommit => do
      let r ← Adapter.getCommit api s
      pure r.2
  | .selectCandidate index => do
      let r ← Adapter.selectCandidate api ime s index
      pure r.2

theorem perform_live (api : Api W) {id : Nat} {h : Hosted W} {ime : ImeFunctions W}
    {s : WinImmSession} (hi : h.1.imeFunctions = some ime) (hs : h.1.sessions.lookup id = some s)
    (op : Op) :
    perform api id h op =
      ({ h.1 with sessions := h.1.sessions.insert id (sessionOp api ime s op h.2).1 },
        (sessionOp api ime s op h.2).2) := by
  cases op with
  | processKey key => rw [perform, Backend.processKey, onImeSession_live hi hs]; rfl
  | getContext => rw [perform, Backend.getContext, onSession_live hs]; rfl
  | getCommit => rw [perform, Backend.getCommit, onSession_live hs]; rfl
  | selectCandidate index => rw [perform, Backend.selectCandidate, onImeSession_live hi hs]; rfl

theorem sessionOp_same {api : Api W} {ime : ImeFunctions W} {R : W → W → Prop} {own : Msg → Prop}
    {target : Hwnd} {himc : Himc} (hl : Local api ime R own target himc) (s : WinImmSession)
    (ht : s.targetHwnd = target) (hs : s.himc = himc) (op : Op) :
    Respects R (SameSession target himc) (sessionOp api ime s op) (sessionOp api ime s op) := by
  have hsnd {β : Type} {x : Act W (β × WinImmSession)} (h : Respects R (Same target himc) x x) :
      Respects R (SameSession target himc) (x >>= fun r => pure r.2) (x >>= fun r => pure r.2) := by
    refine Respects.bind h ?_
    rintro r _ ⟨rfl, hr⟩
    exact Respects.pure ⟨rfl, hr⟩
  cases op with
  | processKey key => exact hsnd (processKey_same hl s ht hs key)
  | getContext => exact hsnd (getContext_same hl s ht hs)
  | getCommit => exact hsnd (getCommit_same hl s ht hs)
  | selectCandidate index => exact hsnd (selectCandidate_same hl s ht hs index)

theorem sessionOp_handles (api : Api W) (ime : ImeFunctions W) (s : WinImmSession) (op : Op) (w : W) :
    (sessionOp api ime s op w).1.targetHwnd = s.targetHwnd ∧
      (sessionOp api ime s op w).1.himc = s.himc :=
  (sessionOp_same (local_refl api ime s.targetHwnd s.himc) s rfl rfl op w w rfl).1.2

def foreignText (s : WinImmSession) (msg : Msg) : Bool :=
  !owned s msg && (carriesChar msg.message || msg.message == WM_IME_COMPOSITION)

def adapterOf (m : ContextMachine σ) (sessions : SessionMap) (showWindow : Bool) :
    ImmRimeAdapter (ContextWorld σ) :=
  ⟨some (threadIme m sessions), sessions, showWindow⟩

def after (m : ContextMachine σ) (sessions : SessionMap) (showWindow : Bool) (id : Nat)
    (w : ContextWorld σ) (ops : List Op) : Hosted (ContextWorld σ) :=
  run (perform (threadApi m sessions) id) (adapterOf m sessions showWindow, w) ops

/-- Isolation of the session `s` when `q` is queued: for every behaviour of the
IME and the windows and for every sequence of operations on `s`, the text of `s`
is what it would be without the messages of other windows and with any other
state of the other input contexts, and no text for another window is lost. -/
def Isolated (sessions : SessionMap) (id : Nat) (s : WinImmSession) (q : List Msg) : Prop :=
  ∀ (σ : Type) (m : ContextMachine σ) (showWindow : Bool) (ctx ctx' : Himc → σ) (ops : List Op),
    ctx s.himc = ctx' s.himc →
      pendingOf (after m sessions showWindow id ⟨q, ctx⟩ ops) id =
          pendingOf (after m sessions showWindow id ⟨q.filter (owned s), ctx'⟩ ops) id ∧
        (q.filter (foreignText s)).Sublist (after m sessions showWindow id ⟨q, ctx⟩ ops).2.queue

/-- The two runs of a session that cannot tell its worlds apart. -/
def InStep (m : ContextMachine σ) (sessions : SessionMap) (id : Nat) (s : WinImmSession)
    (h h' : Hosted (ContextWorld σ)) : Prop :=
  h.1.imeFunctions = some (threadIme m sessions) ∧
    h'.1.imeFunctions = some (threadIme m sessions) ∧
    (∃ t, h.1.sessions.lookup id = some t ∧ h'.1.sessions.lookup id = some t ∧
      t.targetHwnd = s.targetHwnd ∧ t.himc = s.himc) ∧
    Alike s h.2 h'.2

theorem perform_inStep (m : ContextMachine σ) {sessions : SessionMap} (hd : Distinct sessions)
    {id : Nat} {s : WinImmSession} (hs : sessions.lookup id = some s) {h h' : Hosted (ContextWorld σ)}
    (hstep : InStep m sessions id s h h') (op : Op) :
    InStep m sessions id s (perform (threadApi m sessions) id h op)
      (perform (threadApi m sessions) id h' op) := by
  obtain ⟨hi, hi', ⟨t, hlookup, hlookup', htarget, hhimc⟩, halike⟩ := hstep
  obtain ⟨⟨heq, htarget', hhimc'⟩, halike'⟩ :=
    sessionOp_same (local_of_distinct m hd hs) t htarget hhimc op h.2 h'.2 halike
  rw [perform_live _ hi hlookup, perform_live _ hi' hlookup']
  refine ⟨hi, hi', ⟨_, AList.lookup_insert _, ?_, htarget', hhimc'⟩, halike'⟩
  rw [heq]
  exact AList.lookup_insert _

theorem run_inStep (m : ContextMachine σ) {sessions : SessionMap} (hd : Distinct sessions)
    {id : Nat} {s : WinImmSession} (hs : sessions.lookup id = some s) (ops : List Op)
    {h h' : Hosted (ContextWorld σ)} (hstep : InStep m sessions id s h h') :
    InStep m sessions id s (run (perform (threadApi m sessions) id) h ops)
      (run (perform (threadApi m sessions) id) h' ops) := by
  induction ops generalizing h h' with
  | nil => exact hstep
  | cons op ops ih => exact ih (perform_inStep m hd hs hstep op)

theorem isolated_of_owned {sessions : SessionMap} (hd : Distinct sessions) {id : Nat}
    {s : WinImmSession} (hs : sessions.lookup id = some s) {q : List Msg}
    (hq : ∀ msg ∈ q, owned s msg = true) : Isolated sessions id s q := by
  intro σ m showWindow ctx ctx' ops hctx
  have hfilter : q.filter (owned s) = q := List.filter_eq_self.mpr hq
  have hstart : InStep m sessions id s (adapterOf m sessions showWindow, ⟨q, ctx⟩)
      (adapterOf m sessions showWindow, ⟨q.filter (owned s), ctx'⟩) :=
    ⟨rfl, rfl, ⟨s, hs, hs, rfl, rfl⟩, hfilter.symm, hq, hctx⟩
  obtain ⟨-, -, ⟨t, hlookup, hlookup', -⟩, -⟩ := run_inStep m hd hs ops hstart
  constructor
  · rw [pendingOf, after, hlookup, pendingOf, after, hlookup']
  · have hnone : q.filter (foreignText s) = [] := by
      apply List.filter_eq_nil_iff.mpr
      intro msg hmsg
      rw [foreignText, hq msg hmsg]
      simp
    rw [hnone]
    exact List.nil_sublist _

structure Watch where
  count : Nat
  verdict : Option Bool
deriving DecidableEq

def padding : List Post := List.replicate MAX_PUMP_MESSAGES ⟨true, WM_IME_NOTIFY, 0, 0⟩

def watchStep : Call → Watch → Reply × Watch × List Post
  | .send _ _ _ _, x => ({}, { x with count := 0 }, padding)
  | .dispatch _, x => ({}, { x with count := x.count + 1 }, [])
  | .process _ _ _, x =>
      ({}, { x with verdict := some (x.verdict.getD (decide (MAX_PUMP_MESSAGES ≤ x.count))) }, [])
  | _, x => ({}, x, [])

def watchRead (gcs : Gcs) (x : Watch) : CompRead :=
  if gcs = .resultStr ∧ x.verdict = some true then ⟨2, 2, [0x78], []⟩ else ⟨0, 0, [], []⟩

def watcher : ContextMachine Watch where
  step := watchStep
  composition := watchRead
  candidates _ := ⟨0, 0, []⟩
  misread _ := []
  exportsNotify := false
  unicode _ _ _ := (0, 0)
  layout := 0
  scanCode _ := 0
  keyScan _ := 0

def verdictText (v : Option Bool) : String := if v = some true then "x" else ""

abbrev WatchWorld := ContextWorld Watch

theorem harvest_himc (api : Api W) (t : WinImmSession) (w : W) :
    (harvestThreadMessages api t w).1.himc = t.himc := appendCommit_himc t _

/-- No text waits, and the verdict of the context has been given. -/
def Judged (himc : Himc) (b : Bool) (w : WatchWorld) : Prop :=
  (∀ msg ∈ w.queue, QuietKey.silent msg.message msg.lParam) ∧ (w.rest himc).verdict = some b

theorem silent_padding (s : WinImmSession) {msg : Msg} (h : msg ∈ padding.map (Post.msg s)) :
    QuietKey.silent msg.message msg.lParam := by
  obtain ⟨p, hp, rfl⟩ := List.mem_map.mp h
  rw [List.eq_of_mem_replicate hp]
  have hnotify : QuietKey.silent WM_IME_NOTIFY 0 := by constructor <;> decide
  exact hnotify

theorem judged_of_act {himc : Himc} {b : Bool} (owner : Option WinImmSession) (call : Call)
    (hcall : ∀ x, (watchStep call x).2.1.verdict = x.verdict ∧ (watchStep call x).1 = {} ∧
      ((watchStep call x).2.2 = [] ∨ (watchStep call x).2.2 = padding)) :
    Keeps (Judged himc b) (fun r => r = {}) (actOf watcher owner call) := by
  rintro ⟨q, ctx⟩ ⟨hq, hv⟩
  cases owner with
  | none => exact ⟨rfl, hq, hv⟩
  | some t =>
      obtain ⟨hverdict, hreply, hposts⟩ := hcall (ctx t.himc)
      refine ⟨hreply, ?_, ?_⟩
      · intro msg hmsg
        simp only [actOf, actOn, watcher] at hmsg
        rcases List.mem_append.mp hmsg with h | h
        · exact hq msg h
        · rcases hposts with hnone | hpad
          · rw [hnone] at h
            cases h
          · rw [hpad] at h
            exact silent_padding t h
      · simp only [actOf, actOn, watcher]
        by_cases hh : himc = t.himc
        · subst hh
          rw [Function.update_self, hverdict]
          exact hv
        · rw [Function.update_of_ne hh]
          exact hv

theorem watcher_quiet (sessions : SessionMap) (himc : Himc) (b : Bool) :
    QuietKey.Quiet (threadApi watcher sessions) (threadIme watcher sessions) himc (Judged himc b)
      (verdictText (some b)) false := by
  constructor
  case peek =>
    rintro filter ⟨q, ctx⟩ ⟨hq, hv⟩
    cases h : q.find? (wants filter) with
    | none => simpa [threadApi, peekQueue, h] using ⟨hq, hv⟩
    | some m =>
        have hm := hq m (List.mem_of_find?_eq_some h)
        have hrest : ∀ a ∈ q.eraseP (wants filter), QuietKey.silent a.message a.lParam :=
          fun a ha => hq a (List.mem_of_mem_eraseP ha)
        simpa [threadApi, peekQueue, h, Judged] using ⟨hm, hrest, hv⟩
  case dispatch =>
    intro msg
    exact Keeps.bind (judged_of_act _ _ fun _ => ⟨rfl, rfl, Or.inl rfl⟩)
      (fun _ _ => Keeps.pure trivial)
  case send =>
    intro hwnd message wParam lParam
    exact Keeps.bind (judged_of_act _ _ fun _ => ⟨rfl, rfl, Or.inr rfl⟩)
      (fun _ _ => Keeps.pure trivial)
  case immProcess =>
    intro hwnd hkl vk lKeyData
    exact Keeps.bind (judged_of_act _ _ fun _ => ⟨rfl, rfl, Or.inl rfl⟩)
      (fun _ _ => Keeps.pure trivial)
  case translate =>
    intro hwnd message wParam lKeyData
    exact Keeps.bind (judged_of_act _ _ fun _ => ⟨rfl, rfl, Or.inl rfl⟩)
      (fun _ _ => Keeps.pure trivial)
  case process =>
    rintro vk lKeyData keyState ⟨q, ctx⟩ ⟨hq, hv⟩
    simp only at hv
    cases ho : contextOwner sessions himc with
    | none => simpa [threadIme, ho, actOf, Judged] using ⟨hq, hv⟩
    | some t =>
        have ht : himc = t.himc :=
          beq_iff_eq.mp (List.find?_some (p := fun t : WinImmSession => himc == t.himc) ho)
        subst ht
        simpa [threadIme, ho, actOf, actOn, watcher, watchStep, Judged, hv] using hq
  case toAsciiEx =>
    intro uvirt keyState
    refine Keeps.bind (judged_of_act _ _ fun _ => ⟨rfl, rfl, Or.inl rfl⟩) ?_
    rintro _ rfl
    apply Keeps.pure
    intro m hm
    have hnone : reportedTransmsgs (0, []) = [] := by decide
    have hm' : m ∈ reportedTransmsgs (0, []) := hm
    rw [hnone] at hm'
    cases hm'
  case reads =>
    rintro w ⟨-, hv⟩
    cases b with
    | true => simp [resultString, threadApi, watcher, watchRead, hv]; decide
    | false => simp [resultString, threadApi, watcher, watchRead, hv]; decide
  case keyboard => exact fun _ => Keeps.pure trivial
  case unicode => exact fun _ _ _ => Keeps.pure trivial

section

variable {sessions : SessionMap} (hd : Distinct sessions) {id : Nat} {s : WinImmSession}
  (hs : sessions.lookup id = some s)

include hd hs

theorem dispatch_watch (msg : Msg) (w : WatchWorld) :
    ((threadApi watcher sessions).dispatchMessage msg w).2.queue = w.queue ∧
      ((threadApi watcher sessions).dispatchMessage msg w).2.rest s.himc =
        ⟨(w.rest s.himc).count + if owned s msg = true then 1 else 0, (w.rest s.himc).verdict⟩ := by
  by_cases hown : owned s msg = true
  · simp [threadApi, ownerOf_own hd hs hown, actOf, actOn, watcher, watchStep, hown]
  · cases ho : ownerOf sessions msg.hwnd with
    | none => simp [threadApi, ho, actOf, hown]
    | some t =>
        obtain ⟨j, hj⟩ := mem_sessions.mp (List.mem_of_find?_eq_some ho)
        have hother : s.himc ≠ t.himc := by
          intro he
          have hsame := hd j id t s hj hs (Or.inl he.symm)
          rw [hsame] at ho
          exact hown (owner_owns ho)
        simp [threadApi, ho, actOf, actOn, watcher, watchStep, hown, Function.update_of_ne hother]

theorem pumpLoop_watch (n : Nat) (out : PumpResult) (w : WatchWorld) :
    (pumpLoop (threadApi watcher sessions) s.himc none n out w).2.queue = w.queue.drop n ∧
      (pumpLoop (threadApi watcher sessions) s.himc none n out w).2.rest s.himc =
        ⟨(w.rest s.himc).count + (w.queue.take n).countP (owned s), (w.rest s.himc).verdict⟩ := by
  induction n generalizing out w with
  | zero => simp [pumpLoop]
  | succ n ih =>
      obtain ⟨q, ctx⟩ := w
      cases q with
      | nil => simp [pumpLoop, threadApi, peekQueue]
      | cons msg q =>
          have hpeek : (threadApi watcher sessions).peekMessage none ⟨msg :: q, ctx⟩ =
              (some msg, ⟨q, ctx⟩) := rfl
          obtain ⟨hqueue, hcount⟩ := dispatch_watch hd hs msg ⟨q, ctx⟩
          obtain ⟨hq, hc⟩ := ih (pumpOne (threadApi watcher sessions) s.himc out msg ⟨q, ctx⟩)
            ((threadApi watcher sessions).dispatchMessage msg ⟨q, ctx⟩).2
          have hrun : pumpLoop (threadApi watcher sessions) s.himc none (n + 1) out ⟨msg :: q, ctx⟩ =
              pumpLoop (threadApi watcher sessions) s.himc none n
                (pumpOne (threadApi watcher sessions) s.himc out msg ⟨q, ctx⟩)
                ((threadApi watcher sessions).dispatchMessage msg ⟨q, ctx⟩).2 := by
            rw [pumpLoop]
            simp only [bind_run, hpeek, observe_run]
          rw [hrun, hq, hc, hqueue, hcount]
          refine ⟨rfl, ?_⟩
          rw [List.take_succ_cons, List.countP_cons]
          simp only [Watch.mk.injEq, and_true]
          omega

theorem harvest_watch (t : WinImmSession) (ht : t.himc = s.himc) (w : WatchWorld) :
    (harvestThreadMessages (threadApi watcher sessions) t w).2.queue = w.queue.drop MAX_PUMP_MESSAGES ∧
      (harvestThreadMessages (threadApi watcher sessions) t w).2.rest s.himc =
        ⟨(w.rest s.himc).count + (w.queue.take MAX_PUMP_MESSAGES).countP (owned s),
          (w.rest s.himc).verdict⟩ := by
  rw [harvestThreadMessages, pumpThreadMessages, pumpMessagesForHwnd, ht]
  exact pumpLoop_watch hd hs MAX_PUMP_MESSAGES {} w

def padded (s : WinImmSession) (q : List Msg) : List Msg := q ++ padding.map (Post.msg s)

theorem send_watch (message : UInt32) (wParam lParam : UInt64) (w : WatchWorld) :
    ((threadApi watcher sessions).sendMessage s.targetHwnd message wParam lParam w).2 =
      ⟨padded s w.queue, Function.update w.rest s.himc ⟨0, (w.rest s.himc).verdict⟩⟩ := by
  simp [threadApi, ownerOf_own hd hs (ownWindow_target s), actOf, actOn, watcher, watchStep, padded]

theorem immProcess_watch (hkl : UInt64) (vk lKeyData : UInt32) (w : WatchWorld) :
    (threadApi watcher sessions).immProcessKey s.targetHwnd hkl vk lKeyData w = (0, w) := by
  simp [threadApi, ownerOf_own hd hs (ownWindow_target s), actOf, actOn, watcher, watchStep]

theorem process_watch (vk lKeyData : UInt32) (ks : KeyState) (w : WatchWorld) :
    (threadIme watcher sessions).processKey s.himc vk lKeyData ks w =
      (false, ⟨w.queue, Function.update w.rest s.himc ⟨(w.rest s.himc).count,
        some ((w.rest s.himc).verdict.getD (decide (MAX_PUMP_MESSAGES ≤ (w.rest s.himc).count)))⟩⟩) := by
  simp [threadIme, contextOwner_own hd hs, actOf, actOn, watcher, watchStep]

def release : KeyEvent := ⟨0, RELEASE_MASK⟩

theorem release_watch (t : WinImmSession) (ht : t.targetHwnd = s.targetHwnd) (hh : t.himc = s.himc)
    (w : WatchWorld) :
    (Adapter.processKey (threadApi watcher sessions) (threadIme watcher sessions) t release w).2.queue =
        (padded s w.queue).drop MAX_PUMP_MESSAGES ∧
      ((Adapter.processKey (threadApi watcher sessions) (threadIme watcher sessions) t release
          w).2.rest s.himc).verdict =
        some ((w.rest s.himc).verdict.getD (decide (MAX_PUMP_MESSAGES ≤
          ((padded s w.queue).take MAX_PUMP_MESSAGES).countP (owned s)))) := by
  have hkeyboard (ks : KeyState) (w : WatchWorld) :
      (threadApi watcher sessions).setKeyboardState ks w = ((), w) := rfl
  have hunicode (vk scan : UInt32) (ks : KeyState) (w : WatchWorld) :
      (threadApi watcher sessions).toUnicode vk scan ks w = ((0, 0), w) := rfl
  have hrefused : refusedUpFront release = false := by decide
  have hkeyup : ((release.modifier &&& RELEASE_MASK) != 0) = true := by decide
  have hignored : (((0 : UInt32) &&& IPHK_PROCESSBYIME) != 0) = false := by decide
  obtain ⟨hqueue, hrest⟩ := harvest_watch hd hs t hh
    ⟨padded s w.queue, Function.update w.rest s.himc ⟨0, (w.rest s.himc).verdict⟩⟩
  rw [Adapter.processKey, hrefused, hkeyup]
  simp only [Bool.false_eq_true, if_false, if_true, Adapter.processVk, offerKey, bind_run,
    hkeyboard, hunicode, ht, observe_run, immProcess_watch hd hs, hignored, pure_run,
    send_watch hd hs, harvest_himc, hh, process_watch hd hs, hqueue, Function.update_self, hrest,
    Nat.zero_add, true_and]

structure Watched (sessions : SessionMap) (id : Nat) (s : WinImmSession) (h : Hosted WatchWorld)
    (q : List Msg) (v : Option Bool) : Prop where
  ime : h.1.imeFunctions = some (threadIme watcher sessions)
  live : ∃ t, h.1.sessions.lookup id = some t ∧ t.targetHwnd = s.targetHwnd ∧ t.himc = s.himc
  queue : h.2.queue = q
  verdict : (h.2.rest s.himc).verdict = v

def nothingPending (id : Nat) (h : Hosted WatchWorld) : Prop :=
  ∃ t, h.1.sessions.lookup id = some t ∧ t.pendingCommit = none

theorem getCommit_watched {h : Hosted WatchWorld} {q : List Msg} {v : Option Bool}
    (hw : Watched sessions id s h q v) :
    Watched sessions id s (perform (threadApi watcher sessions) id h .getCommit)
        (q.drop MAX_PUMP_MESSAGES) v ∧
      nothingPending id (perform (threadApi watcher sessions) id h .getCommit) := by
  obtain ⟨hi, ⟨t, hlookup, ht, hh⟩, hqueue, hv⟩ := hw
  obtain ⟨hdrop, hrest⟩ := harvest_watch hd hs t hh h.2
  rw [perform_live _ hi hlookup]
  obtain ⟨ht', hh'⟩ := sessionOp_handles (threadApi watcher sessions) (threadIme watcher sessions) t
    .getCommit h.2
  refine ⟨⟨hi, ⟨_, AList.lookup_insert _, ht'.trans ht, hh'.trans hh⟩, ?_, ?_⟩,
    ⟨_, AList.lookup_insert _, rfl⟩⟩
  · rw [← hqueue]
    exact hdrop
  · exact (congrArg Watch.verdict hrest).trans hv

theorem getCommits_watched (n : Nat) {h : Hosted WatchWorld} {q : List Msg} {v : Option Bool}
    (hw : Watched sessions id s h q v) :
    Watched sessions id s (run (perform (threadApi watcher sessions) id) h
      (List.replicate n .getCommit)) (q.drop (MAX_PUMP_MESSAGES * n)) v := by
  induction n generalizing h q with
  | zero => simpa using hw
  | succ n ih =>
      have hrest := ih (getCommit_watched hd hs hw).1
      rw [List.drop_drop] at hrest
      rw [List.replicate_succ, run_cons, Nat.mul_succ, Nat.add_comm]
      exact hrest

theorem release_watched {h : Hosted WatchWorld} {q : List Msg} {v : Option Bool}
    (hw : Watched sessions id s h q v) :
    Watched sessions id s (perform (threadApi watcher sessions) id h (.processKey release))
      ((padded s q).drop MAX_PUMP_MESSAGES)
      (some (v.getD (decide (MAX_PUMP_MESSAGES ≤
        ((padded s q).take MAX_PUMP_MESSAGES).countP (owned s))))) := by
  obtain ⟨hi, ⟨t, hlookup, ht, hh⟩, hqueue, hv⟩ := hw
  obtain ⟨hdrop, hrest⟩ := release_watch hd hs t ht hh h.2
  obtain ⟨ht', hh'⟩ := sessionOp_handles (threadApi watcher sessions) (threadIme watcher sessions) t
    (.processKey release) h.2
  rw [perform_live _ hi hlookup]
  rw [hqueue] at hdrop hrest
  rw [hv] at hrest
  exact ⟨hi, ⟨_, AList.lookup_insert _, ht'.trans ht, hh'.trans hh⟩, hdrop, hrest⟩

omit hd hs in
theorem report_watched {h : Hosted WatchWorld} {b : Bool} (hw : Watched sessions id s h [] (some b))
    (hn : nothingPending id h) :
    pendingOf (perform (threadApi watcher sessions) id h (.processKey release)) id =
      verdictText (some b) := by
  obtain ⟨hi, ⟨t, hlookup, ht, hh⟩, hqueue, hv⟩ := hw
  obtain ⟨u, hu, hnone⟩ := hn
  obtain rfl : t = u := Option.some.inj (hlookup.symm.trans hu)
  have hjudged : Judged t.himc b h.2 := by
    refine ⟨?_, ?_⟩
    · rw [hqueue]
      exact fun _ hm => absurd hm List.not_mem_nil
    · rw [hh]
      exact hv
  have hquiet := (QuietKey.processVk_quiet (watcher_quiet sessions t.himc b) t rfl
    (VkMap.rimeToVk (threadApi watcher sessions).vkKeyScan release.keycode) (winModifiers release) true
    h.2 hjudged).1
  have hrefused : refusedUpFront release = false := by decide
  have hkeyup : ((release.modifier &&& RELEASE_MASK) != 0) = true := by decide
  have hkey : sessionOp (threadApi watcher sessions) (threadIme watcher sessions) t
      (.processKey release) h.2 =
        ((Adapter.processVk (threadApi watcher sessions) (threadIme watcher sessions) t
          (VkMap.rimeToVk (threadApi watcher sessions).vkKeyScan release.keycode)
          (winModifiers release) true h.2).1.2,
        (Adapter.processVk (threadApi watcher sessions) (threadIme watcher sessions) t
          (VkMap.rimeToVk (threadApi watcher sessions).vkKeyScan release.keycode)
          (winModifiers release) true h.2).2) := by
    simp only [sessionOp, Adapter.processKey, hrefused, hkeyup, Bool.false_eq_true, if_false,
      bind_run, pure_run]
  rw [perform_live _ hi hlookup, pendingOf, hkey, hquiet]
  simp only [AList.lookup_insert, Option.map_some, Option.getD_some, QuietKey.replay, hnone, or_true,
    if_true, pendingText_appendCommit]
  rw [pendingText, hnone]
  exact String.empty_append

/-- Operations that find out whether the messages that the first key after `j`
calls of `get_commit` pumps are all the session's own. -/
def probe (j n : Nat) : List Op :=
  List.replicate j .getCommit ++ .processKey release :: List.replicate (n + 1) .getCommit ++
    [.processKey release]

theorem probe_watched (showWindow : Bool) (q : List Msg) (j n : Nat)
    (hlen : q.length ≤ MAX_PUMP_MESSAGES * (n + 1)) :
    pendingOf (after watcher sessions showWindow id ⟨q, fun _ => ⟨0, none⟩⟩ (probe j n)) id =
      verdictText (some (decide (MAX_PUMP_MESSAGES ≤
        ((padded s (q.drop (MAX_PUMP_MESSAGES * j))).take MAX_PUMP_MESSAGES).countP (owned s)))) := by
  have hstart : Watched sessions id s (adapterOf watcher sessions showWindow,
      (⟨q, fun _ => ⟨0, none⟩⟩ : WatchWorld)) q none := ⟨rfl, ⟨s, hs, rfl, rfl⟩, rfl, rfl⟩
  have hkeyed := release_watched hd hs (getCommits_watched hd hs j hstart)
  have hdrained := getCommit_watched hd hs (getCommits_watched hd hs n hkeyed)
  rw [List.drop_drop, ← Nat.mul_succ, List.drop_eq_nil_of_le] at hdrained
  · simp only [after, probe, List.replicate_succ', run_append, run_cons, run_nil]
    exact report_watched hdrained.1 hdrained.2
  · have hpadded : (padded s (q.drop (MAX_PUMP_MESSAGES * j))).length ≤ q.length + MAX_PUMP_MESSAGES := by
      simp only [padded, padding, List.length_append, List.length_drop, List.length_map,
        List.length_replicate]
      omega
    simp only [List.length_drop, Nat.succ_eq_add_one]
    omega

end

theorem pumped_all_owned (s : WinImmSession) (q : List Msg) :
    MAX_PUMP_MESSAGES ≤ ((padded s q).take MAX_PUMP_MESSAGES).countP (owned s) ↔
      ∀ msg ∈ q.take MAX_PUMP_MESSAGES, owned s msg = true := by
  have hlen : ((padded s q).take MAX_PUMP_MESSAGES).length = MAX_PUMP_MESSAGES := by
    simp [padded, padding]
  have hcount := List.countP_le_length (p := owned s) (l := (padded s q).take MAX_PUMP_MESSAGES)
  have hall : MAX_PUMP_MESSAGES ≤ ((padded s q).take MAX_PUMP_MESSAGES).countP (owned s) ↔
      ∀ msg ∈ (padded s q).take MAX_PUMP_MESSAGES, owned s msg = true := by
    rw [← List.countP_eq_length]
    omega
  rw [hall]
  constructor
  · intro h msg hmsg
    apply h
    rw [padded, List.take_append]
    exact List.mem_append_left _ hmsg
  · intro h msg hmsg
    rw [padded, List.take_append] at hmsg
    rcases List.mem_append.mp hmsg with hm | hm
    · exact h msg hm
    · obtain ⟨p, -, rfl⟩ := List.mem_map.mp (List.mem_of_mem_take hm)
      exact owned_post s p

/-- Some pump on the way to a foreign message tells it from the session's own
ones. -/
theorem owned_of_isolated {sessions : SessionMap} (hd : Distinct sessions) {id : Nat}
    {s : WinImmSession} (hs : sessions.lookup id = some s) {q : List Msg}
    (hiso : Isolated sessions id s q) : ∀ msg ∈ q, owned s msg = true := by
  have hpump (j : Nat) (h : ∀ msg ∈ (q.filter (owned s)).drop (MAX_PUMP_MESSAGES * j),
      owned s msg = true) :
      ∀ msg ∈ (q.drop (MAX_PUMP_MESSAGES * j)).take MAX_PUMP_MESSAGES, owned s msg = true := by
    have hlen : q.length ≤ MAX_PUMP_MESSAGES * (q.length + 1) := by
      rw [MAX_PUMP_MESSAGES]
      omega
    have hlen' : (q.filter (owned s)).length ≤ MAX_PUMP_MESSAGES * (q.length + 1) :=
      Nat.le_trans (List.length_filter_le _ _) hlen
    have heq := (hiso Watch watcher false (fun _ => ⟨0, none⟩) (fun _ => ⟨0, none⟩)
      (probe j q.length) rfl).1
    rw [probe_watched hd hs false q j _ hlen, probe_watched hd hs false _ j _ hlen'] at heq
    have hown := (pumped_all_owned s ((q.filter (owned s)).drop (MAX_PUMP_MESSAGES * j))).mpr
      (fun msg hmsg => h msg (List.mem_of_mem_take hmsg))
    apply (pumped_all_owned s (q.drop (MAX_PUMP_MESSAGES * j))).mp
    by_contra hno
    simp [verdictText, hown, hno] at heq
  intro msg hmsg
  obtain ⟨i, hi, rfl⟩ := List.mem_iff_getElem.mp hmsg
  apply hpump (i / MAX_PUMP_MESSAGES)
  · intro a ha
    exact (List.mem_filter.mp (List.mem_of_mem_drop ha)).2
  · have hmod := Nat.mod_add_div i MAX_PUMP_MESSAGES
    have hlt : i % MAX_PUMP_MESSAGES < MAX_PUMP_MESSAGES := Nat.mod_lt i (by decide)
    have hindex : i % MAX_PUMP_MESSAGES <
        ((q.drop (MAX_PUMP_MESSAGES * (i / MAX_PUMP_MESSAGES))).take MAX_PUMP_MESSAGES).length := by
      rw [List.length_take, List.length_drop]
      omega
    refine List.mem_iff_getElem.mpr ⟨i % MAX_PUMP_MESSAGES, hindex, ?_⟩
    rw [List.getElem_take, List.getElem_drop]
    congr 1
    omega

/-- A session is isolated exactly from a queue that holds its own messages only. -/
theorem isolated_iff_owned {sessions : SessionMap} (hd : Distinct sessions) (id : Nat)
    {s : WinImmSession} (hs : sessions.lookup id = some s) (q : List Msg) :
    Isolated sessions id s q ↔ ∀ msg ∈ q, msg.hwnd = s.hwnd ∨ msg.hwnd = s.targetHwnd := by
  have howned : (∀ msg ∈ q, owned s msg = true) ↔
      ∀ msg ∈ q, msg.hwnd = s.hwnd ∨ msg.hwnd = s.targetHwnd := by
    simp [owned, ownWindow]
  rw [← howned]
  exact ⟨owned_of_isolated hd hs, isolated_of_owned hd hs⟩

def firstSession : WinImmSession := ⟨1, 7, 7, 3, 0, none⟩

def secondSession : WinImmSession := ⟨2, 8, 9, 4, 0, none⟩

def twoSessions : SessionMap := ((∅ : SessionMap).insert 1 firstSession).insert 2 secondSession

def still : ContextMachine Unit where
  step _ x := ({}, x, [])
  composition _ _ := ⟨0, 0, [], []⟩
  candidates _ := ⟨0, 0, []⟩
  misread _ := []
  exportsNotify := false
  unicode _ _ _ := (0, 0)
  layout := 0
  scanCode _ := 0
  keyScan _ := 0

theorem distinct_two : Distinct twoSessions := by
  have hentries : twoSessions.entries.map (·.2) = [secondSession, firstSession] := by decide
  have hcases (i : Nat) (a : WinImmSession) (h : twoSessions.lookup i = some a) :
      a = secondSession ∨ a = firstSession := by
    have hmem := mem_sessions.mpr ⟨i, h⟩
    rw [hentries] at hmem
    simpa using hmem
  intro i j a b ha hb hshare
  rcases hcases i a ha with rfl | rfl <;> rcases hcases j b hb with rfl | rfl
  · rfl
  · rcases hshare with h | ⟨w, h, h'⟩
    · exact absurd h (by decide)
    · simp only [ownWindow, secondSession, firstSession, Bool.or_eq_true, beq_iff_eq] at h h'
      rcases h with rfl | rfl <;> exact absurd h' (by decide)
  · rcases hshare with h | ⟨w, h, h'⟩
    · exact absurd h (by decide)
    · simp only [ownWindow, secondSession, firstSession, Bool.or_eq_true, beq_iff_eq] at h h'
      rcases h with rfl | rfl <;> exact absurd h' (by decide)
  · rfl

theorem isolated_first : Isolated twoSessions 1 firstSession [⟨7, WM_CHAR, 0x78, 0⟩] :=
  (isolated_iff_owned distinct_two 1 rfl [⟨7, WM_CHAR, 0x78, 0⟩]).mpr (by decide)

/-- A character for the second session's window. The first session takes it and
the second never gets it. -/
def strayChar : Hosted (ContextWorld Unit) :=
  (adapterOf still twoSessions false, ⟨[⟨9, WM_CHAR, 0x78, 0⟩], fun _ => ()⟩)

theorem stray_char_taken :
    (Backend.getCommit (threadApi still twoSessions) 1 strayChar).1 = some "x" ∧
      (Backend.getCommit (threadApi still twoSessions) 2
        (Backend.getCommit (threadApi still twoSessions) 1 strayChar).2).1 = none := by
  decide

end RimeWinime.Isolation
