import Mathlib.Data.List.Forall2

/-!
# Machines that answer

A machine takes operations one after the other, answers each and moves to a
new state. What one operation keeps, a run keeps; where one operation of two
machines is answered alike, so is a run.
-/

namespace Foundation

/-- The answer to an operation in a state, and the state after it. -/
abbrev Machine (σ ω ρ : Type*) := σ → ω → ρ × σ

namespace Machine

variable {σ τ ω ρ ρ' : Type*}

/-- The answers to the operations in turn, and the state after them all. -/
def run (m : Machine σ ω ρ) : σ → List ω → List ρ × σ
  | s, [] => ([], s)
  | s, op :: rest => ((m s op).1 :: (run m (m s op).2 rest).1, (run m (m s op).2 rest).2)

def after (m : Machine σ ω ρ) (s : σ) (ops : List ω) : σ := (m.run s ops).2

@[simp] theorem after_nil (m : Machine σ ω ρ) (s : σ) : m.after s [] = s := rfl

@[simp] theorem after_cons (m : Machine σ ω ρ) (s : σ) (op : ω) (rest : List ω) :
    m.after s (op :: rest) = m.after (m s op).2 rest := rfl

theorem after_append (m : Machine σ ω ρ) (s : σ) (ops rest : List ω) :
    m.after s (ops ++ rest) = m.after (m.after s ops) rest := by
  induction ops generalizing s with
  | nil => rfl
  | cons op ops ih => exact ih _

theorem after_invariant {m : Machine σ ω ρ} {Allowed : ω → Prop} {Inv : σ → Prop}
    (hstep : ∀ s op, Allowed op → Inv s → Inv (m s op).2) {s : σ} {ops : List ω}
    (hops : ∀ op ∈ ops, Allowed op) (hs : Inv s) : Inv (m.after s ops) := by
  induction ops generalizing s with
  | nil => exact hs
  | cons op ops ih =>
    obtain ⟨hop, hops⟩ := List.forall_mem_cons.mp hops
    exact ih hops (hstep s op hop hs)

/-- Every operation of a run is taken in a state in which `P` holds of it. -/
def Along (m : Machine σ ω ρ) (P : σ → ω → Prop) : σ → List ω → Prop
  | _, [] => True
  | s, op :: rest => P s op ∧ Along m P (m s op).2 rest

/-- Where every step meets `P`, what such a step keeps holds at the end, and
what it does holds along the run. -/
theorem along_invariant {m : Machine σ ω ρ} {P Q : σ → ω → Prop} {Inv : σ → Prop}
    (hstep : ∀ s op, P s op → Inv s → Q s op ∧ Inv (m s op).2) {s : σ} {ops : List ω}
    (hops : m.Along P s ops) (hs : Inv s) : m.Along Q s ops ∧ Inv (m.after s ops) := by
  induction ops generalizing s with
  | nil => exact ⟨trivial, hs⟩
  | cons op ops ih =>
    obtain ⟨hop, hops⟩ := hops
    obtain ⟨hdoes, hnext⟩ := hstep s op hop hs
    obtain ⟨halong, hlast⟩ := ih hops hnext
    exact ⟨⟨hdoes, halong⟩, hlast⟩

/-- What every step keeps holds at the end, and what it does along the run. -/
theorem along_of_invariant {m : Machine σ ω ρ} {Q : σ → ω → Prop} {Inv : σ → Prop}
    (hstep : ∀ s op, Inv s → Q s op ∧ Inv (m s op).2) {s : σ} (ops : List ω) (hs : Inv s) :
    m.Along Q s ops ∧ Inv (m.after s ops) := by
  induction ops generalizing s with
  | nil => exact ⟨trivial, hs⟩
  | cons op ops ih =>
    obtain ⟨hdoes, hnext⟩ := hstep s op hs
    obtain ⟨halong, hlast⟩ := ih hnext
    exact ⟨⟨hdoes, halong⟩, hlast⟩

/-- Two machines that answer every allowed operation alike in related states,
and go on to related ones, answer a run alike. -/
theorem run_simulates {m : Machine σ ω ρ} {n : Machine τ ω ρ'} {Allowed : ω → Prop}
    {R : σ → τ → Prop} {A : ρ → ρ' → Prop}
    (hstep : ∀ s t op, Allowed op → R s t → A (m s op).1 (n t op).1 ∧ R (m s op).2 (n t op).2)
    {s : σ} {t : τ} {ops : List ω} (hops : ∀ op ∈ ops, Allowed op) (h : R s t) :
    List.Forall₂ A (m.run s ops).1 (n.run t ops).1 ∧ R (m.after s ops) (n.after t ops) := by
  induction ops generalizing s t with
  | nil => exact ⟨.nil, h⟩
  | cons op ops ih =>
    obtain ⟨hop, hops⟩ := List.forall_mem_cons.mp hops
    obtain ⟨hanswer, hnext⟩ := hstep s t op hop h
    obtain ⟨hanswers, hlast⟩ := ih hops hnext
    exact ⟨.cons hanswer hanswers, hlast⟩

end Machine

end Foundation
