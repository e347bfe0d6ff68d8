import Mathlib.Logic.Basic

namespace RimeWinime.World

variable {W W' α α' β β' : Type}

def Act (W α : Type) : Type := W → α × W

instance : Monad (Act W) where
  pure a := fun w => (a, w)
  bind x f := fun w => f (x w).1 (x w).2

def observe (f : W → α) : Act W α := fun w => (f w, w)

def change (f : W → W) : Act W Unit := fun w => ((), f w)

/-- Run the second action with the value of the first, unless that is an error. -/
def andThen {ε : Type} (x : Act W (Except ε α)) (f : α → Act W (Except ε β)) :
    Act W (Except ε β) := do
  match ← x with
  | .ok a => f a
  | .error e => pure (.error e)

@[simp] theorem pure_run (a : α) (w : W) : (pure a : Act W α) w = (a, w) := rfl

@[simp] theorem bind_run (x : Act W α) (f : α → Act W β) (w : W) :
    (x >>= f) w = f (x w).1 (x w).2 := rfl

@[simp] theorem observe_run (f : W → α) (w : W) : observe f w = (f w, w) := rfl

@[simp] theorem change_run (f : W → W) (w : W) : change f w = ((), f w) := rfl

theorem ite_run (c : Prop) [Decidable c] (x y : Act W α) (w : W) :
    (if c then x else y) w = if c then x w else y w := by
  split <;> rfl

theorem andThen_ok {ε : Type} {x : Act W (Except ε α)} {f : α → Act W (Except ε β)} {w : W} {a : α}
    (h : (x w).1 = .ok a) : andThen x f w = f a (x w).2 := by
  simp only [andThen, bind_run, h]

theorem andThen_error {ε : Type} {x : Act W (Except ε α)} {f : α → Act W (Except ε β)} {w : W}
    {e : ε} (h : (x w).1 = .error e) : andThen x f w = (.error e, (x w).2) := by
  simp only [andThen, bind_run, h, pure_run]

theorem error_or_ok {ε : Type} (x : Except ε α) : (∃ e, x = .error e) ∨ ∃ a, x = .ok a := by
  cases x with
  | error e => exact Or.inl ⟨e, rfl⟩
  | ok a => exact Or.inr ⟨a, rfl⟩

section

variable {ν : Type} {view : W → ν}

/-- The action leaves the view of the world as it is. -/
def Steady (view : W → ν) (x : Act W α) : Prop := ∀ w, view (x w).2 = view w

theorem Steady.pure (a : α) : Steady view (pure a : Act W α) := fun _ => rfl

theorem Steady.observe (f : W → α) : Steady view (observe f) := fun _ => rfl

theorem Steady.bind {x : Act W α} {f : α → Act W β} (hx : Steady view x)
    (hf : ∀ a, Steady view (f a)) : Steady view (x >>= f) := fun w => (hf _ _).trans (hx w)

theorem Steady.ite {c : Prop} [Decidable c] {x y : Act W α} (hx : Steady view x)
    (hy : Steady view y) : Steady view (if c then x else y) := by
  split
  · exact hx
  · exact hy

theorem Steady.andThen {ε : Type} {x : Act W (Except ε α)} {f : α → Act W (Except ε β)}
    (hx : Steady view x) (hf : ∀ a, Steady view (f a)) : Steady view (andThen x f) := by
  apply hx.bind
  intro r
  cases r with
  | ok a => exact hf a
  | error e => exact Steady.pure _

theorem Steady.comp {μ : Type} (f : ν → μ) {x : Act W α} (hx : Steady view x) :
    Steady (fun w => f (view w)) x := fun w => congrArg f (hx w)

/-- What the action returns, when it does not fail, says how the view is now. -/
def Reads {ε : Type} (view : W → ν) (told : α → ν) (x : Act W (Except ε α)) : Prop :=
  ∀ w a, (x w).1 = .ok a → told a = view (x w).2

theorem Reads.error {ε : Type} {told : α → ν} (e : ε) :
    Reads view told (pure (.error e) : Act W (Except ε α)) := fun _ _ h => by cases h

theorem Reads.bind {ε : Type} {told : β → ν} {x : Act W α} {f : α → Act W (Except ε β)}
    (hf : ∀ a, Reads view told (f a)) : Reads view told (x >>= f) := fun _ b h => hf _ _ b h

theorem Reads.andThen {ε : Type} {told : β → ν} {x : Act W (Except ε α)}
    {f : α → Act W (Except ε β)} (hf : ∀ a, Reads view told (f a)) :
    Reads view told (andThen x f) := by
  apply Reads.bind
  intro r
  cases r with
  | ok a => exact hf a
  | error e => exact Reads.error e

end

/-- Where the action fails from this world, its error and the world that it leaves
are as told. -/
def FailsWith {ε : Type} (Q : ε → W → Prop) (x : Act W (Except ε α)) (w : W) : Prop :=
  ∀ e, (x w).1 = .error e → Q e (x w).2

section

variable {ε : Type} {Q : ε → W → Prop}

theorem FailsWith.ok (a : α) (w : W) : FailsWith Q (pure (.ok a)) w := fun _ h => by cases h

theorem FailsWith.error {e : ε} {w : W} (h : Q e w) :
    FailsWith Q (pure (.error e) : Act W (Except ε α)) w := fun _ he => by
  cases he
  exact h

theorem FailsWith.result {r : Except ε α} {w : W} (h : ∀ e, r = .error e → Q e w) :
    FailsWith Q (pure r : Act W (Except ε α)) w := h

theorem FailsWith.mono {Q' : ε → W → Prop} {x : Act W (Except ε α)} {w : W} (h : FailsWith Q x w)
    (hmono : ∀ e left, Q e left → Q' e left) : FailsWith Q' x w := fun e he => hmono _ _ (h e he)

theorem FailsWith.bind {x : Act W β} {f : β → Act W (Except ε α)} {w : W}
    (h : FailsWith Q (f (x w).1) (x w).2) : FailsWith Q (x >>= f) w := h

theorem FailsWith.ite {c : Prop} [Decidable c] {x y : Act W (Except ε α)} {w : W}
    (ht : c → FailsWith Q x w) (he : ¬c → FailsWith Q y w) :
    FailsWith Q (if c then x else y) w := by
  split
  · next h => exact ht h
  · next h => exact he h

end

/-- From a world with the invariant the action returns a value with the
property and leaves a world with the invariant. -/
def Keeps (I : W → Prop) (P : α → Prop) (x : Act W α) : Prop :=
  ∀ w, I w → P (x w).1 ∧ I (x w).2

theorem Keeps.pure {I : W → Prop} {P : α → Prop} {a : α} (h : P a) :
    Keeps I P (pure a : Act W α) := fun _ hw => ⟨h, hw⟩

theorem Keeps.bind {I : W → Prop} {P : α → Prop} {Q : β → Prop} {x : Act W α} {f : α → Act W β}
    (hx : Keeps I P x) (hf : ∀ a, P a → Keeps I Q (f a)) : Keeps I Q (x >>= f) := by
  intro w hw
  obtain ⟨hp, hi⟩ := hx w hw
  exact hf _ hp _ hi

theorem Keeps.mono {I : W → Prop} {P Q : α → Prop} {x : Act W α} (hx : Keeps I P x)
    (h : ∀ a, P a → Q a) : Keeps I Q x := fun w hw => ⟨h _ (hx w hw).1, (hx w hw).2⟩

theorem Keeps.observe {I : W → Prop} {P : α → Prop} {f : W → α} (h : ∀ w, I w → P (f w)) :
    Keeps I P (observe f) := fun w hw => ⟨h w hw, hw⟩

theorem Keeps.ite {I : W → Prop} {P : α → Prop} {c : Prop} [Decidable c] {x y : Act W α}
    (ht : c → Keeps I P x) (he : ¬c → Keeps I P y) : Keeps I P (if c then x else y) := by
  split
  · next h => exact ht h
  · next h => exact he h

/-- An action that returns whatever it returns. -/
theorem Keeps.andThen {ε : Type} {I : W → Prop} {x : Act W (Except ε α)} {f : α → Act W (Except ε β)}
    (hx : Keeps I (fun _ => True) x) (hf : ∀ a, Keeps I (fun _ => True) (f a)) :
    Keeps I (fun _ => True) (andThen x f) := by
  refine hx.bind fun r _ => ?_
  cases r with
  | ok a => exact hf a
  | error e => exact Keeps.pure trivial

/-- Two actions from related worlds return related values and leave related
worlds. -/
def Respects (R : W → W' → Prop) (Q : α → α' → Prop) (x : Act W α) (y : Act W' α') : Prop :=
  ∀ w w', R w w' → Q (x w).1 (y w').1 ∧ R (x w).2 (y w').2

theorem Respects.pure {R : W → W' → Prop} {Q : α → α' → Prop} {a : α} {b : α'} (h : Q a b) :
    Respects R Q (pure a) (pure b) := fun _ _ hw => ⟨h, hw⟩

theorem Respects.bind {R : W → W' → Prop} {P : α → α' → Prop} {Q : β → β' → Prop}
    {x : Act W α} {y : Act W' α'} {f : α → Act W β} {g : α' → Act W' β'}
    (hx : Respects R P x y) (hf : ∀ a b, P a b → Respects R Q (f a) (g b)) :
    Respects R Q (x >>= f) (y >>= g) := by
  intro w w' hw
  obtain ⟨hp, hr⟩ := hx w w' hw
  exact hf _ _ hp _ _ hr

theorem Respects.bind_eq {R : W → W' → Prop} {Q : β → β' → Prop}
    {x : Act W α} {y : Act W' α} {f : α → Act W β} {g : α → Act W' β'}
    (hx : Respects R Eq x y) (hf : ∀ a, Respects R Q (f a) (g a)) :
    Respects R Q (x >>= f) (y >>= g) := by
  refine hx.bind ?_
  rintro a b rfl
  exact hf a

theorem Respects.observe {R : W → W' → Prop} {f : W → α} {g : W' → α}
    (h : ∀ w w', R w w' → f w = g w') : Respects R Eq (observe f) (observe g) :=
  fun w w' hw => ⟨h w w' hw, hw⟩

theorem Respects.ite {R : W → W' → Prop} {Q : α → α' → Prop} {c : Prop} [Decidable c]
    {x x' : Act W α} {y y' : Act W' α'} (ht : c → Respects R Q x y) (he : ¬c → Respects R Q x' y') :
    Respects R Q (if c then x else x') (if c then y else y') := by
  split
  · next h => exact ht h
  · next h => exact he h

end RimeWinime.World
