import RimeWinime.Lib.World

namespace RimeWinime.Outside

open World

variable {Q : Type} {A : Q → Type} {σ μ ν α β : Type}

/-- A call, and what it returned. -/
structure Event (A : Q → Type) where
  call : Q
  answer : A call

abbrev Answers (A : Q → Type) : Type := List (Event A) → (q : Q) → A q

/-- The state of a program, and all its calls so far. -/
structure Program (σ : Type) (A : Q → Type) where
  state : σ
  past : List (Event A)

def get : Act (Program σ A) σ := observe Program.state

def modify (f : σ → σ) : Act (Program σ A) Unit := change (fun w => { w with state := f w.state })

def ask (outside : Answers A) (q : Q) : Act (Program σ A) (A q) := fun w =>
  (outside w.past q, { w with past := w.past ++ [⟨q, outside w.past q⟩] })

def when {W : Type} (c : Prop) [Decidable c] (x : Act W Unit) : Act W Unit :=
  if c then x else pure ()

/-- What the calls come to, one after the other. -/
def tally (step : ν → Event A → ν) (start : ν) (w : Program σ A) : ν := w.past.foldl step start

/-- What is to be seen of a program: something of its state, and what its calls come to. -/
def view (look : σ → μ) (step : ν → Event A → ν) (start : ν) (w : Program σ A) : μ × ν :=
  (look w.state, tally step start w)

variable {look : σ → μ} {step : ν → Event A → ν} {start : ν} {outside : Answers A}

variable (step start) in
theorem tally_ask (q : Q) (w : Program σ A) :
    tally step start (ask outside q w).2 = step (tally step start w) ⟨q, (ask outside q w).1⟩ := by
  rw [tally, ask, List.foldl_append, List.foldl_cons, List.foldl_nil]
  rfl

theorem get_run (w : Program σ A) : (get : Act (Program σ A) σ) w = (w.state, w) := rfl

theorem steady_get : Steady (view look step start) (get : Act (Program σ A) σ) := fun _ => rfl

theorem steady_modify {f : σ → σ} (h : ∀ s, look (f s) = look s) :
    Steady (view look step start) (modify f : Act (Program σ A) Unit) :=
  fun w => Prod.ext (h w.state) rfl

theorem steady_ask {q : Q} (h : ∀ n a, step n ⟨q, a⟩ = n) :
    Steady (view look step start) (ask outside q : Act (Program σ A) (A q)) :=
  fun w => Prod.ext rfl ((tally_ask step start q w).trans (h _ _))

theorem when_pos {W : Type} {c : Prop} [Decidable c] (h : c) (x : Act W Unit) : when c x = x := if_pos h

theorem when_neg {W : Type} {c : Prop} [Decidable c] (h : ¬c) (x : Act W Unit) :
    when c x = pure () := if_neg h

theorem when_congr {W : Type} {c c' : Prop} [Decidable c] [Decidable c'] (h : c ↔ c') (x : Act W Unit) :
    when c x = when c' x := if_congr h rfl rfl

theorem steady_when {W ν : Type} {v : W → ν} {c : Prop} [Decidable c] {x : Act W Unit}
    (hx : Steady v x) : Steady v (when c x) := Steady.ite hx (Steady.pure ())

theorem steady_look {x : Act (Program σ A) α} (h : Steady (view look step start) x)
    (w : Program σ A) : look (x w).2.state = look w.state := congrArg Prod.fst (h w)

theorem steady_tally {x : Act (Program σ A) α} (h : Steady (view look step start) x)
    (w : Program σ A) : tally step start (x w).2 = tally step start w := congrArg Prod.snd (h w)

/-- The action leaves the state as it is, and all that it asks is such a call. -/
def Asks (P : Q → Prop) (x : Act (Program σ A) α) : Prop :=
  ∀ w, ∃ events, (x w).2 = ⟨w.state, w.past ++ events⟩ ∧ ∀ e ∈ events, P e.call

section

variable {P P' : Q → Prop}

theorem Asks.pure (a : α) : Asks P (pure a : Act (Program σ A) α) :=
  fun w => ⟨[], by rw [List.append_nil]; rfl, List.forall_mem_nil _⟩

theorem Asks.get : Asks P (get : Act (Program σ A) σ) :=
  fun w => ⟨[], by rw [List.append_nil]; rfl, List.forall_mem_nil _⟩

theorem Asks.ask {q : Q} (h : P q) : Asks P (ask outside q : Act (Program σ A) (A q)) := by
  intro w
  refine ⟨[⟨q, outside w.past q⟩], rfl, ?_⟩
  intro e he
  rw [List.mem_singleton.mp he]
  exact h

theorem Asks.bind {x : Act (Program σ A) α} {f : α → Act (Program σ A) β} (hx : Asks P x)
    (hf : ∀ a, Asks P (f a)) : Asks P (x >>= f) := by
  intro w
  obtain ⟨first, hfirst, hpast⟩ := hx w
  obtain ⟨second, hsecond, hlater⟩ := hf (x w).1 (x w).2
  refine ⟨first ++ second, ?_, List.forall_mem_append.mpr ⟨hpast, hlater⟩⟩
  rw [bind_run, hsecond, hfirst, List.append_assoc]

theorem Asks.ite {c : Prop} [Decidable c] {x y : Act (Program σ A) α} (hx : Asks P x)
    (hy : Asks P y) : Asks P (if c then x else y) := by
  split
  · exact hx
  · exact hy

theorem Asks.when {c : Prop} [Decidable c] {x : Act (Program σ A) Unit} (hx : Asks P x) :
    Asks P (when c x) := Asks.ite hx (Asks.pure ())

theorem Asks.mono {x : Act (Program σ A) α} (hx : Asks P x) (h : ∀ q, P q → P' q) : Asks P' x := by
  intro w
  obtain ⟨events, hrun, hevents⟩ := hx w
  exact ⟨events, hrun, fun e he => h _ (hevents e he)⟩

theorem Asks.grows {x : Act (Program σ A) α} (hx : Asks P x) (w : Program σ A) :
    w.past <+: (x w).2.past := by
  obtain ⟨events, hrun, -⟩ := hx w
  rw [hrun]
  exact List.prefix_append _ _

end

/-- The action changes what is to be seen of the world in this way. -/
def Shifts {W ν : Type} (v : W → ν) (f : ν → ν) (x : Act W α) : Prop := ∀ w, v (x w).2 = f (v w)

section

variable {W ν : Type} {v : W → ν} {f g : ν → ν}

theorem Shifts.bind {x : Act W α} {y : α → Act W β} (hx : Shifts v f x) (hy : ∀ a, Shifts v g (y a)) :
    Shifts v (fun n => g (f n)) (x >>= y) := by
  intro w
  have hafter := hy (x w).1 (x w).2
  rw [hx w] at hafter
  exact hafter

theorem Shifts.of_steady {x : Act W α} (hx : Steady v x) : Shifts v id x := hx

theorem Shifts.steady {x : Act W α} (hx : Shifts v f x) (hf : ∀ n, f n = n) : Steady v x :=
  fun w => (hx w).trans (hf _)

theorem Shifts.when {c : Prop} [Decidable c] {x : Act W Unit} (hx : Shifts v f x) :
    Shifts v (fun n => if c then f n else n) (when c x) := by
  intro w
  by_cases hc : c
  · rw [when_pos hc]
    exact (hx w).trans (if_pos hc).symm
  · rw [when_neg hc]
    exact (if_neg hc).symm

end

/-- Whatever the world is like, the action returns a value with this property. -/
def Yields {W : Type} (P : α → Prop) (x : Act W α) : Prop := ∀ w, P (x w).1

section

variable {W : Type} {P : α → Prop} {R : β → Prop} {x : Act W α} {f : α → Act W β}

theorem Yields.pure {a : α} (h : P a) : Yields P (pure a : Act W α) := fun _ => h

theorem Yields.bind (hx : Yields P x) (hf : ∀ a, P a → Yields R (f a)) : Yields R (x >>= f) :=
  fun w => hf _ (hx w) (x w).2

theorem Yields.last (hf : ∀ a, Yields R (f a)) : Yields R (x >>= f) := fun w => hf _ (x w).2

theorem Yields.ite {c : Prop} [Decidable c] {y : Act W α} (hx : c → Yields P x)
    (hy : ¬c → Yields P y) : Yields P (if c then x else y) := by
  split
  · next h => exact hx h
  · next h => exact hy h

theorem Yields.keeps {v : W → ν} {J : ν → Prop} (hp : Yields P x) (hx : Steady v x) :
    Keeps (fun w => J (v w)) P x := by
  intro w hw
  have hsame : J (v (x w).2) := by
    rw [hx w]
    exact hw
  exact ⟨hp w, hsame⟩

theorem keeps_told {I : Program σ A → Prop} {f : σ → α} (h : ∀ w, I w → P (f w.state)) :
    Keeps I P (get >>= fun s => pure (f s) : Act (Program σ A) α) := fun w hw => ⟨h w hw, hw⟩

end

end RimeWinime.Outside
