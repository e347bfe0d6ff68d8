import RimeWinime.Host.Backend

namespace RimeWinime.Resources

open World Win32 Session Backend

/-- The calls on handles that the host makes on behalf of a session. -/
inductive Effect
  | select (himc : Himc) (active : Bool)
  | destroyWindow (hwnd : Hwnd)
  | destroyContext (himc : Himc)
deriving DecidableEq

def Effect.handle : Effect → Nat
  | .select himc _ => himc
  | .destroyWindow hwnd => hwnd
  | .destroyContext himc => himc

/-- Windows and input contexts are numbered as they are made. -/
structure ResourceWorld where
  made : Nat
  log : List Effect
deriving DecidableEq

def note (effect : Effect) (w : ResourceWorld) : ResourceWorld := { w with log := w.log ++ [effect] }

def makeHandle : Act ResourceWorld Nat := fun w => (w.made, { w with made := w.made + 1 })

def resourceApi (hostMade childMade : Bool) : Api ResourceWorld :=
  { inertApi with
    createHostWindow := fun _ =>
      if hostMade then do
        let hwnd ← makeHandle
        pure (some hwnd)
      else pure none
    createEditChild := fun _ =>
      if childMade then do
        let hwnd ← makeHandle
        pure (some hwnd)
      else pure none
    immCreateContext := makeHandle
    destroyWindow := fun hwnd => change (note (.destroyWindow hwnd))
    immDestroyContext := fun himc => change (note (.destroyContext himc)) }

def resourceIme : ImeFunctions ResourceWorld :=
  { inertIme with
    select := fun himc active => do
      change (note (.select himc active))
      pure true }

def duties (s : WinImmSession) : List Effect :=
  [.select s.himc false, .destroyContext s.himc, .destroyWindow s.hwnd, .destroyWindow s.targetHwnd]

def Times (log : List Effect) (s : WinImmSession) (n : Nat) : Prop :=
  ∀ effect ∈ duties s, log.count effect = n

def Apart (s t : WinImmSession) : Prop :=
  s.himc ≠ t.himc ∧ ∀ hwnd, hwnd = s.hwnd ∨ hwnd = s.targetHwnd →
    hwnd ≠ t.hwnd ∧ hwnd ≠ t.targetHwnd

def releaseLog (s : WinImmSession) : List Effect :=
  .select s.himc false :: ((if s.targetHwnd ≠ s.hwnd then [.destroyWindow s.targetHwnd] else []) ++
    [.destroyContext s.himc, .destroyWindow s.hwnd])

theorem releaseSession_log (hostMade childMade : Bool) (s : WinImmSession) (w : ResourceWorld) :
    (releaseSession (resourceApi hostMade childMade) (some resourceIme) s w).2 =
      { w with log := w.log ++ releaseLog s } := by
  by_cases h : s.targetHwnd = s.hwnd
  · simp [releaseSession, Session.destroy, resourceApi, resourceIme, inertApi, note, releaseLog, h]
  · simp [releaseSession, Session.destroy, resourceApi, resourceIme, inertApi, note, releaseLog, h]

theorem releaseAll_log (hostMade childMade : Bool) (sessions : List WinImmSession)
    (w : ResourceWorld) :
    (releaseAll (resourceApi hostMade childMade) (some resourceIme) sessions w).2 =
      { w with log := w.log ++ sessions.flatMap releaseLog } := by
  induction sessions generalizing w with
  | nil => simp [releaseAll]
  | cons s sessions ih =>
      rw [releaseAll, bind_run, releaseSession_log, ih, List.flatMap_cons, List.append_assoc]

theorem mem_duties {s : WinImmSession} {effect : Effect} :
    effect ∈ duties s ↔ effect = .select s.himc false ∨ effect = .destroyContext s.himc ∨
      effect = .destroyWindow s.hwnd ∨ effect = .destroyWindow s.targetHwnd := by
  simp [duties]

theorem mem_releaseLog {s : WinImmSession} {effect : Effect} (he : effect ∈ releaseLog s) :
    effect ∈ duties s := by
  rw [mem_duties]
  by_cases h : s.targetHwnd = s.hwnd
  · simp only [releaseLog, h, ne_eq, not_true, if_false, List.nil_append, List.mem_cons,
      List.not_mem_nil, or_false] at he
    rcases he with he | he | he
    · exact Or.inl he
    · exact Or.inr (Or.inl he)
    · exact Or.inr (Or.inr (Or.inl he))
  · simp only [releaseLog, h, ne_eq, not_false_iff, if_true, List.cons_append, List.nil_append,
      List.mem_cons, List.not_mem_nil, or_false] at he
    rcases he with he | he | he | he
    · exact Or.inl he
    · exact Or.inr (Or.inr (Or.inr he))
    · exact Or.inr (Or.inl he)
    · exact Or.inr (Or.inr (Or.inl he))

/-- A session is released by its own release, and by no other. -/
theorem count_release_own (s : WinImmSession) : Times (releaseLog s) s 1 := by
  intro effect he
  by_cases h : s.targetHwnd = s.hwnd
  · rcases mem_duties.mp he with rfl | rfl | rfl | rfl <;> simp [releaseLog, h]
  · have h' : s.hwnd ≠ s.targetHwnd := fun he => h he.symm
    rcases mem_duties.mp he with rfl | rfl | rfl | rfl <;> simp [releaseLog, h, h']

theorem count_release_other {s t : WinImmSession} (h : Apart s t) : Times (releaseLog t) s 0 := by
  obtain ⟨hhimc, hwindows⟩ := h
  obtain ⟨hhost, hhost'⟩ := hwindows s.hwnd (Or.inl rfl)
  obtain ⟨htarget, htarget'⟩ := hwindows s.targetHwnd (Or.inr rfl)
  intro effect he
  rw [List.count_eq_zero]
  intro hmem
  have hrelease := mem_duties.mp (mem_releaseLog hmem)
  rcases mem_duties.mp he with rfl | rfl | rfl | rfl <;>
    simp [hhimc, hhost, hhost', htarget, htarget'] at hrelease

theorem Times.append {a b : List Effect} {s : WinImmSession} {m n : Nat} (ha : Times a s m)
    (hb : Times b s n) : Times (a ++ b) s (m + n) := by
  intro effect he
  rw [List.count_append, ha effect he, hb effect he]

theorem times_nil (s : WinImmSession) : Times [] s 0 := fun _ _ => List.count_nil

theorem times_releases_other {s : WinImmSession} {sessions : List WinImmSession}
    (h : ∀ t ∈ sessions, Apart s t) : Times (sessions.flatMap releaseLog) s 0 := by
  induction sessions with
  | nil => exact times_nil s
  | cons t sessions ih =>
      rw [List.flatMap_cons]
      exact (count_release_other (h t List.mem_cons_self)).append
        (ih fun u hu => h u (List.mem_cons_of_mem t hu))

theorem times_releases_own {s : WinImmSession} {sessions : List WinImmSession} (hs : s ∈ sessions)
    (h : sessions.Pairwise fun t u => Apart t u ∧ Apart u t) :
    Times (sessions.flatMap releaseLog) s 1 := by
  induction sessions with
  | nil => cases hs
  | cons t sessions ih =>
      obtain ⟨hfirst, hrest⟩ := List.pairwise_cons.mp h
      rw [List.flatMap_cons]
      rcases List.mem_cons.mp hs with rfl | hs
      · exact (count_release_own s).append (times_releases_other fun u hu => (hfirst u hu).1)
      · have hother := count_release_other (hfirst s hs).2
        exact (Nat.zero_add 1) ▸ hother.append (ih hs hrest)

/-- The handles of a session lie in a range of the numbering. -/
def MadeBetween (lo hi : Nat) (s : WinImmSession) : Prop :=
  (lo ≤ s.himc ∧ s.himc < hi) ∧ (lo ≤ s.hwnd ∧ s.hwnd < hi) ∧ (lo ≤ s.targetHwnd ∧ s.targetHwnd < hi)

theorem apart_of_between {lo mid hi : Nat} {s t : WinImmSession} (hs : MadeBetween lo mid s)
    (ht : MadeBetween mid hi t) : Apart s t ∧ Apart t s := by
  obtain ⟨⟨-, hs1⟩, ⟨-, hs2⟩, ⟨-, hs3⟩⟩ := hs
  obtain ⟨⟨ht1, -⟩, ⟨ht2, -⟩, ⟨ht3, -⟩⟩ := ht
  refine ⟨⟨?_, ?_⟩, ⟨?_, ?_⟩⟩
  · exact Nat.ne_of_lt (Nat.lt_of_lt_of_le hs1 ht1)
  · rintro hwnd (rfl | rfl)
    · exact ⟨Nat.ne_of_lt (Nat.lt_of_lt_of_le hs2 ht2), Nat.ne_of_lt (Nat.lt_of_lt_of_le hs2 ht3)⟩
    · exact ⟨Nat.ne_of_lt (Nat.lt_of_lt_of_le hs3 ht2), Nat.ne_of_lt (Nat.lt_of_lt_of_le hs3 ht3)⟩
  · exact Nat.ne_of_gt (Nat.lt_of_lt_of_le hs1 ht1)
  · rintro hwnd (rfl | rfl)
    · exact ⟨Nat.ne_of_gt (Nat.lt_of_lt_of_le hs2 ht2), Nat.ne_of_gt (Nat.lt_of_lt_of_le hs3 ht2)⟩
    · exact ⟨Nat.ne_of_gt (Nat.lt_of_lt_of_le hs2 ht3), Nat.ne_of_gt (Nat.lt_of_lt_of_le hs3 ht3)⟩

theorem duty_handle {lo hi : Nat} {s : WinImmSession} (hs : MadeBetween lo hi s) {effect : Effect}
    (he : effect ∈ duties s) : lo ≤ effect.handle ∧ effect.handle < hi := by
  obtain ⟨hhimc, hhwnd, htarget⟩ := hs
  rcases mem_duties.mp he with rfl | rfl | rfl | rfl
  · exact hhimc
  · exact hhimc
  · exact hhwnd
  · exact htarget

theorem times_of_earlier {lo hi : Nat} {s : WinImmSession} (hs : MadeBetween lo hi s)
    {log : List Effect} (hlog : ∀ effect ∈ log, effect.handle < lo) : Times log s 0 := by
  intro effect he
  rw [List.count_eq_zero]
  intro hmem
  have hle := (duty_handle hs he).1
  have hlt := hlog effect hmem
  omega

theorem times_activation (s : WinImmSession) (himc : Himc) : Times [.select himc true] s 0 := by
  intro effect he
  rcases mem_duties.mp he with rfl | rfl | rfl | rfl <;> simp

theorem create_fails (childMade : Bool) (id hModule : Nat) (showWindow : Bool) (w : ResourceWorld) :
    Session.create (resourceApi false childMade) id hModule showWindow w = (none, w) := rfl

theorem create_makes (childMade : Bool) (id hModule : Nat) (showWindow : Bool) (w : ResourceWorld) :
    ∃ s w', Session.create (resourceApi true childMade) id hModule showWindow w = (some s, w') ∧
      w'.log = w.log ∧ MadeBetween w.made w'.made s := by
  have hbetween (child : Nat) (h : child ≤ 1) :
      MadeBetween w.made (w.made + child + 2)
        ⟨id, w.made, w.made + child, w.made + child + 1, hModule, none⟩ := by
    have hlt : w.made + child < w.made + child + 2 := by omega
    have hfirst : w.made < w.made + child + 2 := by omega
    have hlast : w.made + child + 1 < w.made + child + 2 := by omega
    have hle : w.made ≤ w.made + child + 1 := by omega
    exact ⟨⟨hle, hlast⟩, ⟨Nat.le_refl _, hfirst⟩, ⟨Nat.le_add_right _ _, hlt⟩⟩
  cases showWindow with
  | false => exact ⟨_, ⟨w.made + 2, w.log⟩, rfl, rfl, hbetween 0 (by decide)⟩
  | true =>
      cases childMade with
      | false => exact ⟨_, ⟨w.made + 2, w.log⟩, rfl, rfl, hbetween 0 (by decide)⟩
      | true => exact ⟨_, ⟨w.made + 3, w.log⟩, rfl, rfl, hbetween 1 (by decide)⟩

theorem activate_log (hostMade childMade : Bool) (s : WinImmSession) (w : ResourceWorld) :
    (Adapter.activateImeContext (resourceApi hostMade childMade) resourceIme s w).2 =
      note (.select s.himc true) w := rfl

end RimeWinime.Resources
