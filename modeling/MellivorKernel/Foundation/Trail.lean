import Mathlib.Data.List.Basic

/-!
# Trails

A trail is a list of steps each of which starts where the one before it ended.
A step that contains others also has the state in which it was opened: the steps
inside it lie between that state and its own start.
-/

namespace Foundation

section
variable {σ ε : Type*} (source target : ε → σ)

/-- The steps lead from the first state to the last one. -/
def Trail : σ → List ε → σ → Prop
  | s, [], last => s = last
  | s, step :: rest, last => source step = s ∧ Trail (target step) rest last

def Opened (opened : ε → σ) (s : σ) (steps : List ε) : Prop :=
  ∀ before step after, steps = before ++ step :: after → ∃ outer inner,
    before = outer ++ inner ∧ Trail source target s outer (opened step) ∧
      Trail source target (opened step) inner (source step)

end

namespace Trail

variable {σ ε : Type*} {source target : ε → σ} {s mid last : σ} {steps more : List ε}

theorem append (h : Trail source target s steps mid) (hmore : Trail source target mid more last) :
    Trail source target s (steps ++ more) last := by
  induction steps generalizing s with
  | nil =>
    cases h
    exact hmore
  | cons step rest ih => exact ⟨h.1, ih h.2⟩

theorem single (step : ε) : Trail source target (source step) [step] (target step) := ⟨rfl, rfl⟩

theorem split {step : ε} (h : Trail source target s (steps ++ step :: more) last) :
    Trail source target s steps (source step) ∧ Trail source target (target step) more last := by
  induction steps generalizing s with
  | nil => exact ⟨h.1.symm, h.2⟩
  | cons first rest ih => exact ⟨⟨h.1, (ih h.2).1⟩, (ih h.2).2⟩

theorem invariant (Inv : σ → Prop) (hstep : ∀ step ∈ steps, Inv (source step) → Inv (target step))
    (h : Trail source target s steps last) (hs : Inv s) : Inv last := by
  induction steps generalizing s with
  | nil =>
    cases h
    exact hs
  | cons step rest ih =>
    obtain ⟨rfl, h⟩ := h
    obtain ⟨hfirst, hrest⟩ := List.forall_mem_cons.mp hstep
    exact ih hrest h (hfirst hs)

section
variable {R : σ → σ → Prop} (hrefl : ∀ s, R s s) (htrans : ∀ {a b c}, R a b → R b c → R a c)
include hrefl htrans

theorem related (hstep : ∀ step ∈ steps, R (source step) (target step))
    (h : Trail source target s steps last) : R s last :=
  invariant _ (fun step hmem hs => htrans hs (hstep step hmem)) h (hrefl s)

theorem pairwise (hstep : ∀ step ∈ steps, R (source step) (target step))
    (h : Trail source target s steps last) :
    steps.Pairwise fun a b => R (target a) (source b) := by
  induction steps generalizing s with
  | nil => exact .nil
  | cons step rest ih =>
    obtain ⟨-, hrest⟩ := List.forall_mem_cons.mp hstep
    refine .cons (fun later hlater => ?_) (ih hrest h.2)
    obtain ⟨before, after, rfl⟩ := List.append_of_mem hlater
    exact related hrefl htrans (fun k hk => hrest k (List.mem_append_left _ hk)) (split h.2).1

end

end Trail

namespace Opened

variable {σ ε : Type*} {source target opened : ε → σ} {s mid : σ} {steps more : List ε}

theorem nil : Opened source target opened s [] := by
  intro before step after h
  simp at h

theorem step_append {before after : List ε} {step : ε}
    (h : steps ++ more = before ++ step :: after) :
    (∃ rest, steps = before ++ step :: rest) ∨
      ∃ rest, before = steps ++ rest ∧ more = rest ++ step :: after := by
  rcases List.append_eq_append_iff.mp h with ⟨rest, hbefore, hmore⟩ | ⟨rest, hsteps, hrest⟩
  · exact .inr ⟨rest, hbefore, hmore⟩
  · cases rest with
    | nil => exact .inr ⟨[], by simpa using hsteps.symm, by simpa using hrest.symm⟩
    | cons first rest =>
      obtain ⟨rfl, -⟩ := List.cons.inj hrest
      exact .inl ⟨rest, hsteps⟩

theorem append (h : Opened source target opened s steps) (htrail : Trail source target s steps mid)
    (hmore : Opened source target opened mid more) :
    Opened source target opened s (steps ++ more) := by
  intro before step after heq
  rcases step_append heq with ⟨rest, rfl⟩ | ⟨rest, rfl, rfl⟩
  · exact h before step rest rfl
  · obtain ⟨outer, inner, rfl, houter, hinner⟩ := hmore rest step after rfl
    exact ⟨steps ++ outer, inner, by simp, htrail.append houter, hinner⟩

theorem closed {step : ε} (h : Opened source target opened (opened step) steps)
    (htrail : Trail source target (opened step) steps (source step)) :
    Opened source target opened (opened step) (steps ++ [step]) := by
  intro before other after heq
  rcases step_append heq with ⟨rest, rfl⟩ | ⟨rest, rfl, hlast⟩
  · exact h before other rest rfl
  · obtain ⟨rfl, rfl, -⟩ : rest = [] ∧ other = step ∧ after = [] := by
      cases rest with
      | nil => simpa [eq_comm] using hlast
      | cons first rest => simp at hlast
    exact ⟨[], steps, by simp, rfl, by simpa using htrail⟩

end Opened

end Foundation
