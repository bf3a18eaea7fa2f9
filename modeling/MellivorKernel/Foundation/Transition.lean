import Mathlib.Data.List.Basic

/-!
# Runs of a partial step function

A system is a function that says which state an action leads to, if the action
is enabled. A run is a list of actions each enabled where it is taken.
-/

namespace Foundation

section
variable {σ α : Type*} (step : σ → α → Option σ)

/-- The state a run of enabled actions ends in. -/
def runSteps : σ → List α → Option σ
  | s, [] => some s
  | s, a :: rest => (step s a).bind fun s' => runSteps s' rest

variable {step}

theorem runSteps_cons {s t : σ} {a : α} {rest : List α} :
    runSteps step s (a :: rest) = some t ↔ ∃ s', step s a = some s' ∧ runSteps step s' rest = some t := by
  simp only [runSteps, Option.bind_eq_some_iff]

theorem runSteps_invariant {Inv : σ → Prop}
    (hstep : ∀ s a s', Inv s → step s a = some s' → Inv s') {s t : σ} {actions : List α}
    (hs : Inv s) (hr : runSteps step s actions = some t) : Inv t := by
  induction actions generalizing s with
  | nil => cases hr; exact hs
  | cons a rest ih =>
    obtain ⟨s', ha, hrest⟩ := runSteps_cons.mp hr
    exact ih (hstep s a s' hs ha) hrest

end

end Foundation
