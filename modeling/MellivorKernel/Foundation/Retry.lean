import Mathlib.Data.ENat.Lattice
import MellivorKernel.Foundation.Program

/-!
# Bounded retries

A call that is made again while its answers are passed over, a bounded number
of times. `firstTime` is where a property of the attempts first holds, counted
from one.
-/

namespace Foundation

-- ---------------------------------------------------------------------------
-- First times
-- ---------------------------------------------------------------------------

section
variable {P : Nat → Prop}

/-- How many attempts there are up to the first with the property, if any. -/
noncomputable def firstTime (P : Nat → Prop) : ℕ∞ := ⨅ i, ⨅ (_ : P i), ((i + 1 : ℕ) : ℕ∞)

theorem le_firstTime_iff {n : ℕ∞} : n ≤ firstTime P ↔ ∀ i, P i → n ≤ ((i + 1 : ℕ) : ℕ∞) :=
  le_iInf₂_iff

theorem lt_firstTime_iff {n : Nat} : (n : ℕ∞) < firstTime P ↔ ∀ i < n, ¬ P i := by
  rw [← Order.add_one_le_iff_of_not_isMax (by simp), le_firstTime_iff]
  constructor
  · intro h i hi hP
    have hle := h i hP
    norm_cast at hle
    omega
  · intro h i hP
    have hle := not_lt.mp fun hi => h i hi hP
    norm_cast
    omega

theorem firstTime_eq {i : Nat} (h : P i) (hbefore : ∀ j < i, ¬ P j) :
    firstTime P = ((i + 1 : ℕ) : ℕ∞) := by
  refine le_antisymm (iInf₂_le i h) (le_firstTime_iff.mpr fun j hj => ?_)
  have hle := not_lt.mp fun hji => hbefore j hji hj
  exact_mod_cast Nat.succ_le_succ hle

end

-- ---------------------------------------------------------------------------
-- Retrying a call
-- ---------------------------------------------------------------------------

namespace Program

section
variable {ε κ α : Type} (entry : κ) (answers : Nat → Except ε α) (refuse : Nat → ε → Option ε)
  (exhausted : ε)

/-- Call, and call again while `refuse` says nothing to what an attempt
raises, `left` times at most. -/
def retry : (left attempt : Nat) → Program ε κ α
  | 0, _ => throw exhausted
  | left + 1, attempt => do
    match ← (call entry (answers attempt)).attempt with
    | .ok a => pure a
    | .error e =>
      match refuse attempt e with
      | some e' => throw e'
      | none => retry left (attempt + 1)

variable {entry answers refuse exhausted} {left attempt : Nat} {log : List κ}

theorem exec_retry_ok {a : α} (h : answers attempt = .ok a) :
    (retry entry answers refuse exhausted (left + 1) attempt).exec log =
      (.ok a, log ++ [entry]) := by
  simp [retry, exec_bind, h]

theorem exec_retry_refused {e e' : ε} (h : answers attempt = .error e)
    (hrefuse : refuse attempt e = some e') :
    (retry entry answers refuse exhausted (left + 1) attempt).exec log =
      (.error e', log ++ [entry]) := by
  simp [retry, exec_bind, h, hrefuse]

theorem exec_retry_passed {e : ε} (h : answers attempt = .error e)
    (hrefuse : refuse attempt e = none) :
    (retry entry answers refuse exhausted (left + 1) attempt).exec log =
      (retry entry answers refuse exhausted left (attempt + 1)).exec (log ++ [entry]) := by
  simp [retry, exec_bind, h, hrefuse]

theorem exec_retry_add {n : Nat}
    (h : ∀ i < n, ∃ e, answers (attempt + i) = .error e ∧ refuse (attempt + i) e = none) :
    (retry entry answers refuse exhausted (n + left) attempt).exec log =
      (retry entry answers refuse exhausted left (attempt + n)).exec
        (log ++ List.replicate n entry) := by
  induction n generalizing attempt log with
  | zero => simp
  | succ n ih =>
    obtain ⟨e, he, hrefuse⟩ := h 0 (Nat.zero_lt_succ n)
    rw [Nat.add_zero] at he hrefuse
    have hrest : ∀ i < n, ∃ e, answers (attempt + 1 + i) = .error e ∧
        refuse (attempt + 1 + i) e = none := by
      intro i hi
      have hnext := h (i + 1) (Nat.succ_lt_succ hi)
      rwa [show attempt + (i + 1) = attempt + 1 + i by omega] at hnext
    rw [Nat.add_right_comm, exec_retry_passed he hrefuse, ih hrest]
    simp [List.replicate_succ, Nat.add_assoc, Nat.add_comm 1]

end

end Program

end Foundation
