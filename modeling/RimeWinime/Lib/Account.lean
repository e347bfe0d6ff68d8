import RimeWinime.Lib.Run
import RimeWinime.Lib.Text

namespace RimeWinime.Account

open Run

variable {σ ε : Type} {owed held : σ → String}

/-- Between the two states more text becomes owed, and all of it but the lost text
is held at the end. -/
def Settles (owed held : σ → String) (lost : String) (s s' : σ) : Prop :=
  ∃ text, owed s' = owed s ++ text ∧ (lost = "" → held s' = held s ++ text) ∧
    (held s').length + lost.length = (held s).length + text.length

theorem Settles.of_append {s s' : σ} {text : String} (ho : owed s' = owed s ++ text)
    (hh : held s' = held s ++ text) : Settles owed held "" s s' := by
  refine ⟨text, ho, fun _ => hh, ?_⟩
  rw [hh, String.length_append]
  rfl

theorem Settles.of_eq {s s' : σ} (ho : owed s' = owed s) (hh : held s' = held s) :
    Settles owed held "" s s' := by
  apply Settles.of_append
  · rw [ho]
    exact String.append_empty.symm
  · rw [hh]
    exact String.append_empty.symm

theorem Settles.trans {lost lost' : String} {s s' s'' : σ} (h : Settles owed held lost s s')
    (h' : Settles owed held lost' s' s'') : Settles owed held (lost ++ lost') s s'' := by
  obtain ⟨text, ho, hh, hl⟩ := h
  obtain ⟨text', ho', hh', hl'⟩ := h'
  refine ⟨text ++ text', ?_, ?_, ?_⟩
  · rw [ho', ho, String.append_assoc]
  · intro hlost
    obtain ⟨hnone, hnone'⟩ := String.append_eq_empty_iff.mp hlost
    rw [hh' hnone', hh hnone, String.append_assoc]
  · rw [String.length_append, String.length_append]
    omega

theorem Settles.held_iff {lost : String} {s s' : σ} (h : Settles owed held lost s s') :
    ∃ text, owed s' = owed s ++ text ∧ (held s' = held s ++ text ↔ lost = "") := by
  obtain ⟨text, ho, hh, hl⟩ := h
  refine ⟨text, ho, ?_, hh⟩
  intro heq
  rw [heq, String.length_append] at hl
  apply String.length_eq_zero_iff.mp
  omega

theorem settles_run {step : σ → ε → σ} {lost : σ → ε → String}
    (hstep : ∀ s e, Settles owed held (lost s e) s (step s e)) (s : σ) (events : List ε) :
    ∃ total, Settles owed held total s (run step s events) ∧
      (total = "" ↔ Allowed step (fun s e => lost s e = "") s events) := by
  induction events generalizing s with
  | nil => exact ⟨"", Settles.of_eq rfl rfl, by simp [Allowed]⟩
  | cons e events ih =>
      obtain ⟨total, hrest, hiff⟩ := ih (step s e)
      refine ⟨lost s e ++ total, (hstep s e).trans hrest, ?_⟩
      rw [String.append_eq_empty_iff, hiff, Allowed]

end RimeWinime.Account
