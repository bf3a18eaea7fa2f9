import MellivorKernel.Foundation.Transition

/-!
# Systems that come to an end

A system whose every step lowers a rank, and that has a step exactly where it is
not final, ends: a run takes no more steps than the rank it starts from, can
always be carried on to a final state, and is at one where it cannot.
-/

namespace Foundation

section
variable {σ α : Type*} {step : σ → α → Option σ}

theorem runSteps_append {s t u : σ} {actions more : List α} (h : runSteps step s actions = some t)
    (hmore : runSteps step t more = some u) : runSteps step s (actions ++ more) = some u := by
  induction actions generalizing s with
  | nil =>
    cases h
    exact hmore
  | cons a rest ih =>
    obtain ⟨s', ha, hrest⟩ := runSteps_cons.mp h
    exact runSteps_cons.mpr ⟨s', ha, ih hrest⟩

variable (step) in
/-- Under an invariant, every step lowers the rank and the states without a step
are the final ones. -/
structure Ending (Inv Final : σ → Prop) (rank : σ → Nat) : Prop where
  keeps : ∀ s a s', Inv s → step s a = some s' → Inv s'
  falls : ∀ s a s', Inv s → step s a = some s' → rank s' < rank s
  moves : ∀ s, Inv s → ¬ Final s → ∃ a s', step s a = some s'
  rests : ∀ s, Inv s → Final s → ∀ a, step s a = none

namespace Ending

variable {Inv Final : σ → Prop} {rank : σ → Nat} {s t : σ} {actions : List α}

theorem length_le (h : Ending step Inv Final rank) (hs : Inv s)
    (hrun : runSteps step s actions = some t) : actions.length + rank t ≤ rank s := by
  induction actions generalizing s with
  | nil =>
    cases hrun
    simp
  | cons a rest ih =>
    obtain ⟨s', ha, hrest⟩ := runSteps_cons.mp hrun
    have hfalls := h.falls s a s' hs ha
    have hle := ih (h.keeps s a s' hs ha) hrest
    simp only [List.length_cons]
    omega

theorem final_iff (h : Ending step Inv Final rank) (hs : Inv s) :
    Final s ↔ ∀ a, step s a = none := by
  refine ⟨h.rests s hs, fun hstuck => ?_⟩
  by_contra hfinal
  obtain ⟨a, s', ha⟩ := h.moves s hs hfinal
  rw [hstuck a] at ha
  cases ha

theorem ends (h : Ending step Inv Final rank) (hs : Inv s) :
    ∃ actions t, runSteps step s actions = some t ∧ Final t := by
  induction hr : rank s using Nat.strongRecOn generalizing s with
  | ind r ih =>
    by_cases hfinal : Final s
    · exact ⟨[], s, rfl, hfinal⟩
    · obtain ⟨a, s', ha⟩ := h.moves s hs hfinal
      have hfalls : rank s' < r := hr ▸ h.falls s a s' hs ha
      obtain ⟨actions, t, hrun, ht⟩ := ih (rank s') hfalls (h.keeps s a s' hs ha) rfl
      exact ⟨a :: actions, t, runSteps_cons.mpr ⟨s', ha, hrun⟩, ht⟩

end Ending

end

end Foundation
