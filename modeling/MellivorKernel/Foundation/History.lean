import Mathlib.Data.List.Basic
import Mathlib.Data.List.Induction

/-!
# What came before

An event of a trace may depend on the events before it: how it is seen
(`seen`), and whether it may happen (`Follows`). Both are told of a trace by
what they say of its last event.
-/

namespace Foundation

variable {ε α : Type*}

-- ---------------------------------------------------------------------------
-- Seeing events
-- ---------------------------------------------------------------------------

/-- Each event as it is seen after those before it. -/
def seenAfter (view : List ε → ε → α) : List ε → List ε → List α
  | _, [] => []
  | before, event :: rest => view before event :: seenAfter view (before ++ [event]) rest

def seen (view : List ε → ε → α) (events : List ε) : List α := seenAfter view [] events

theorem seenAfter_append (view : List ε → ε → α) (before events more : List ε) :
    seenAfter view before (events ++ more) =
      seenAfter view before events ++ seenAfter view (before ++ events) more := by
  induction events generalizing before with
  | nil => simp [seenAfter]
  | cons event rest ih => simp [seenAfter, ih]

@[simp] theorem seen_nil (view : List ε → ε → α) : seen view [] = [] := rfl

@[simp] theorem seen_concat (view : List ε → ε → α) (events : List ε) (event : ε) :
    seen view (events ++ [event]) = seen view events ++ [view events event] := by
  simp [seen, seenAfter_append, seenAfter]

-- ---------------------------------------------------------------------------
-- What may follow
-- ---------------------------------------------------------------------------

def Follows (May : List ε → ε → Prop) (trace : List ε) : Prop :=
  ∀ before event after, trace = before ++ event :: after → May before event

section
variable {May : List ε → ε → Prop} {trace : List ε} {event : ε}

theorem follows_nil : Follows May [] := by
  intro before event after h
  simp at h

theorem follows_concat : Follows May (trace ++ [event]) ↔ Follows May trace ∧ May trace event := by
  constructor
  · intro h
    refine ⟨fun before other after heq => h before other (after ++ [event]) ?_, h trace event [] rfl⟩
    rw [heq, List.append_assoc, List.cons_append]
  · rintro ⟨htrace, hevent⟩ before other after heq
    rcases List.eq_nil_or_concat' after with rfl | ⟨rest, last, rfl⟩
    · obtain ⟨rfl, hlast⟩ := List.append_inj' heq rfl
      cases hlast
      exact hevent
    · rw [← List.cons_append, ← List.append_assoc] at heq
      obtain ⟨rfl, -⟩ := List.append_inj' heq rfl
      exact htrace before other rest rfl

theorem Follows.countP_le_one (h : Follows May trace) {p : ε → Bool}
    (hp : ∀ before event, May before event → p event = true → ∀ e ∈ before, p e = false) :
    trace.countP p ≤ 1 := by
  induction trace using List.reverseRecOn with
  | nil => simp
  | append_singleton trace event ih =>
    obtain ⟨htrace, hevent⟩ := follows_concat.mp h
    rw [List.countP_append, List.countP_singleton]
    cases hpe : p event with
    | false => simpa using ih htrace
    | true =>
      have hnone : trace.countP p = 0 := by
        simpa [List.countP_eq_zero] using hp trace event hevent hpe
      simp [hnone]

end

end Foundation
