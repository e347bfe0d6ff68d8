import RimeWinime.Lib.Run
import Mathlib.Order.Basic

namespace RimeWinime.Reports

open Run

variable {σ ε ν : Type}

structure Report (ν : Type) where
  moved : Bool
  value : ν
deriving DecidableEq

def reports (step : σ → ε → σ) (report : σ → ε → Option (Report ν)) : σ → List ε → List (Report ν)
  | _, [] => []
  | s, e :: events => (report s e).toList ++ reports step report (step s e) events

section

variable [Preorder ν]

/-- No report is below an earlier one, and of two that mark a move the later is
above the earlier. -/
def InOrder (log : List (Report ν)) : Prop :=
  log.Pairwise fun a b => a.value ≤ b.value ∧ (a.moved → b.moved → a.value < b.value)

instance [DecidableLE ν] [DecidableLT ν] (log : List (Report ν)) : Decidable (InOrder log) :=
  inferInstanceAs (Decidable (List.Pairwise _ _))

/-- What a step does to the counter and what it reports: it never moves back, it
is reported as it stands after the step, and a move is one. -/
structure Faithful (counter : σ → ν) (s s' : σ) (report : Option (Report ν)) : Prop where
  grows : counter s ≤ counter s'
  exact : ∀ r ∈ report, r.value = counter s'
  moves : ∀ r ∈ report, r.moved → counter s < counter s'

variable {step : σ → ε → σ} {report : σ → ε → Option (Report ν)} {counter : σ → ν}
  {ok : σ → ε → Prop}

theorem reports_above (Inv : σ → Prop) (hkeep : ∀ s e, Inv s → ok s e → Inv (step s e))
    (hstep : ∀ s e, Inv s → ok s e → Faithful counter s (step s e) (report s e)) {s : σ} (hs : Inv s)
    {events : List ε} (h : Allowed step ok s events) :
    ∀ r ∈ reports step report s events, counter s ≤ r.value ∧ (r.moved → counter s < r.value) := by
  induction events generalizing s with
  | nil =>
      intro r hr
      cases hr
  | cons e events ih =>
      have hfaithful := hstep s e hs h.1
      intro r hr
      rcases List.mem_append.mp hr with hnow | hlater
      · have hmem : r ∈ report s e := Option.mem_toList.mp hnow
        have hvalue := hfaithful.exact r hmem
        rw [hvalue]
        exact ⟨hfaithful.grows, hfaithful.moves r hmem⟩
      · obtain ⟨hle, hlt⟩ := ih (hkeep s e hs h.1) h.2 r hlater
        exact ⟨hfaithful.grows.trans hle, fun hmoved => hfaithful.grows.trans_lt (hlt hmoved)⟩

theorem reports_inOrder (Inv : σ → Prop) (hkeep : ∀ s e, Inv s → ok s e → Inv (step s e))
    (hstep : ∀ s e, Inv s → ok s e → Faithful counter s (step s e) (report s e)) {s : σ} (hs : Inv s)
    {events : List ε} (h : Allowed step ok s events) : InOrder (reports step report s events) := by
  induction events generalizing s with
  | nil => exact List.Pairwise.nil
  | cons e events ih =>
      have hinv := hkeep s e hs h.1
      have hrest := ih hinv h.2
      cases hnow : report s e with
      | none =>
          rw [reports, hnow]
          exact hrest
      | some r =>
          rw [reports, hnow]
          refine List.pairwise_cons.mpr ⟨fun later hlater => ?_, hrest⟩
          have hvalue := (hstep s e hs h.1).exact r hnow
          obtain ⟨hle, hlt⟩ := reports_above Inv hkeep hstep hinv h.2 later hlater
          rw [hvalue]
          exact ⟨hle, fun _ hmoved => hlt hmoved⟩

end

end RimeWinime.Reports
