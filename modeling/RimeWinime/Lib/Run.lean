import Mathlib.Data.List.Basic

namespace RimeWinime.Run

variable {σ ε : Type}

def run (step : σ → ε → σ) (s : σ) (events : List ε) : σ := events.foldl step s

/-- Every event of the run is allowed in the state in which it happens. -/
def Allowed (step : σ → ε → σ) (ok : σ → ε → Prop) : σ → List ε → Prop
  | _, [] => True
  | s, e :: events => ok s e ∧ Allowed step ok (step s e) events

/-- Every state that the run goes through, the first and the last included. -/
def Always (step : σ → ε → σ) (P : σ → Prop) (s : σ) (events : List ε) : Prop :=
  ∀ past, past <+: events → P (run step s past)

variable {step : σ → ε → σ} {ok : σ → ε → Prop}

@[simp] theorem run_nil (s : σ) : run step s [] = s := rfl

@[simp] theorem run_cons (s : σ) (e : ε) (events : List ε) :
    run step s (e :: events) = run step (step s e) events := rfl

theorem run_append (s : σ) (a b : List ε) : run step s (a ++ b) = run step (run step s a) b :=
  List.foldl_append

theorem run_invariant (Inv : σ → Prop) (hstep : ∀ s e, Inv s → Inv (step s e)) {s : σ} (hs : Inv s)
    (events : List ε) : Inv (run step s events) := by
  induction events generalizing s with
  | nil => exact hs
  | cons e events ih => exact ih (hstep s e hs)

theorem run_of_forall {kind : ε → Prop} (Inv : σ → Prop)
    (hstep : ∀ s e, Inv s → kind e → Inv (step s e)) {s : σ} (hs : Inv s) {events : List ε}
    (h : ∀ e ∈ events, kind e) : Inv (run step s events) := by
  induction events generalizing s with
  | nil => exact hs
  | cons e events ih =>
      have hrest : ∀ e ∈ events, kind e := fun e he => h e (List.mem_cons_of_mem _ he)
      exact ih (hstep s e hs (h e List.mem_cons_self)) hrest

theorem allowed_append {s : σ} {a b : List ε} :
    Allowed step ok s (a ++ b) ↔ Allowed step ok s a ∧ Allowed step ok (run step s a) b := by
  induction a generalizing s with
  | nil => simp [Allowed]
  | cons e a ih => simp [Allowed, ih, and_assoc]

instance decidableAllowed (step : σ → ε → σ) (ok : σ → ε → Prop) [∀ s e, Decidable (ok s e)] :
    (s : σ) → (events : List ε) → Decidable (Allowed step ok s events)
  | _, [] => inferInstanceAs (Decidable True)
  | s, e :: events => @instDecidableAnd _ _ _ (decidableAllowed step ok (step s e) events)

/-- What a condition gives in every state of an invariant it gives along a run,
if under the condition the steps keep the invariant. -/
theorem allowed_imp_of_invariant {ok' : σ → ε → Prop} (Inv : σ → Prop)
    (himp : ∀ s e, Inv s → ok s e → ok' s e) (hstep : ∀ s e, Inv s → ok s e → Inv (step s e))
    {s : σ} (hs : Inv s) {events : List ε} (h : Allowed step ok s events) :
    Allowed step ok' s events := by
  induction events generalizing s with
  | nil => trivial
  | cons e events ih => exact ⟨himp s e hs h.1, ih (hstep s e hs h.1) h.2⟩

theorem allowed_and {ok' : σ → ε → Prop} {s : σ} {events : List ε}
    (h : Allowed step ok s events) (h' : Allowed step ok' s events) :
    Allowed step (fun s e => ok s e ∧ ok' s e) s events := by
  induction events generalizing s with
  | nil => trivial
  | cons e events ih => exact ⟨⟨h.1, h'.1⟩, ih h.2 h'.2⟩

theorem allowed_of_forall (h : ∀ s e, ok s e) (s : σ) (events : List ε) :
    Allowed step ok s events := by
  induction events generalizing s with
  | nil => trivial
  | cons e events ih => exact ⟨h s e, ih (step s e)⟩

theorem allowed_map {τ : Type} (step' : τ → ε → τ) (view : τ → σ)
    (hview : ∀ t e, view (step' t e) = step (view t) e) (t : τ) {events : List ε}
    (h : Allowed step ok (view t) events) :
    Allowed step' (fun t e => ok (view t) e) t events := by
  induction events generalizing t with
  | nil => trivial
  | cons e events ih =>
      refine ⟨h.1, ih (step' t e) ?_⟩
      rw [hview]
      exact h.2

theorem always_start {P : σ → Prop} {s : σ} {events : List ε} (h : Always step P s events) : P s :=
  h [] List.nil_prefix

theorem always_nil {P : σ → Prop} {s : σ} : Always step P s [] ↔ P s := by
  refine ⟨always_start, fun hs past hpast => ?_⟩
  rw [List.prefix_nil.mp hpast]
  exact hs

theorem always_cons {P : σ → Prop} {s : σ} {e : ε} {events : List ε} :
    Always step P s (e :: events) ↔ P s ∧ Always step P (step s e) events := by
  constructor
  · intro h
    refine ⟨always_start h, fun past hpast => ?_⟩
    exact h (e :: past) (List.prefix_cons_inj e |>.mpr hpast)
  · rintro ⟨hs, hrest⟩ past hpast
    cases past with
    | nil => exact hs
    | cons e' past =>
        obtain ⟨rfl, htail⟩ := List.cons_prefix_cons.mp hpast
        exact hrest past htail

theorem always_of_invariant {P : σ → Prop} (Inv : σ → Prop) (himp : ∀ s, Inv s → P s)
    (hstep : ∀ s e, Inv s → ok s e → Inv (step s e)) {s : σ} (hs : Inv s) {events : List ε}
    (h : Allowed step ok s events) : Always step P s events := by
  induction events generalizing s with
  | nil => exact always_nil.mpr (himp s hs)
  | cons e events ih => exact always_cons.mpr ⟨himp s hs, ih (hstep s e hs h.1) h.2⟩

/-- A condition that keeps an invariant, and without which the property is lost
at once, is what the property needs along a run. -/
theorem always_iff_of_invariant {P : σ → Prop} {env : σ → ε → Prop} (Inv : σ → Prop)
    (himp : ∀ s, Inv s → P s)
    (hkeep : ∀ s e, Inv s → env s e → ok s e → Inv (step s e))
    (hbreak : ∀ s e, Inv s → env s e → ¬ok s e → ¬P (step s e)) {s : σ} (hs : Inv s)
    {events : List ε} (henv : Allowed step env s events) :
    Always step P s events ↔ Allowed step ok s events := by
  induction events generalizing s with
  | nil => exact ⟨fun _ => trivial, fun _ => always_nil.mpr (himp s hs)⟩
  | cons e events ih =>
      rw [always_cons, Allowed]
      constructor
      · rintro ⟨-, hrest⟩
        have hok : ok s e := by
          by_contra hno
          exact hbreak s e hs henv.1 hno (always_start hrest)
        exact ⟨hok, (ih (hkeep s e hs henv.1 hok) henv.2).mp hrest⟩
      · rintro ⟨hok, hrest⟩
        exact ⟨himp s hs, (ih (hkeep s e hs henv.1 hok) henv.2).mpr hrest⟩

theorem history_of_allowed {Inv : List ε → σ → Prop}
    (hstep : ∀ past s e, Inv past s → ok s e → Inv (past ++ [e]) (step s e)) {s : σ}
    {past events : List ε} (hs : Inv past s) (hok : Allowed step ok s events) :
    Inv (past ++ events) (run step s events) := by
  induction events generalizing s past with
  | nil => rwa [List.append_nil]
  | cons e events ih =>
      rw [List.append_cons, run_cons]
      exact ih (hstep past s e hs hok.1) hok.2

theorem allowed_iff_of_invariant {ok' : σ → ε → Prop} {Inv : σ → Prop}
    (hiff : ∀ s e, Inv s → (ok s e ↔ ok' s e)) (hstep : ∀ s e, Inv s → ok' s e → Inv (step s e))
    {s : σ} (hs : Inv s) (events : List ε) : Allowed step ok s events ↔ Allowed step ok' s events := by
  induction events generalizing s with
  | nil => exact Iff.rfl
  | cons e events ih =>
      rw [Allowed, Allowed, hiff s e hs]
      constructor
      · rintro ⟨he, hrest⟩
        exact ⟨he, (ih (hstep s e hs he)).mp hrest⟩
      · rintro ⟨he, hrest⟩
        exact ⟨he, (ih (hstep s e hs he)).mpr hrest⟩

end RimeWinime.Run
