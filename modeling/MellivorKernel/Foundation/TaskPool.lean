import Mathlib.Data.List.Range
import Mathlib.Logic.Function.Basic

/-!
# A pool of worker threads

Tasks are numbered in the order they are submitted. A submitted task waits in
the queue until a free worker takes it; until then it can be cancelled, and a
worker that takes a cancelled task only passes the notice on. Workers take the
oldest task first (`Discipline.fifo`), or any task when nothing is assumed of
the queue.
-/

namespace Foundation

inductive Phase
  | idle
  | pending
  | running
  | finished
  | cancelled
  | notified
  deriving DecidableEq

namespace Phase

def begun : Phase → Bool
  | running | finished => true
  | _ => false

/-- A worker has taken the task off the queue. -/
def taken : Phase → Bool
  | running | finished | notified => true
  | _ => false

def done : Phase → Bool
  | finished | notified => true
  | _ => false

def dropped : Phase → Bool
  | cancelled | notified => true
  | _ => false

def remaining : Phase → Nat
  | idle => 3
  | pending => 2
  | running | cancelled => 1
  | finished | notified => 0

theorem begun_of_taken {ph : Phase} (ht : ph.taken = true) (hd : ph.dropped = false) :
    ph.begun = true := by
  revert ht hd
  cases ph <;> decide

end Phase

inductive Discipline
  | fifo
  | any

/-- Whether a worker may take task `i` next. -/
def Discipline.allows : Discipline → List Nat → Nat → Bool
  | fifo, queue, i => queue.head? = some i
  | any, queue, i => i ∈ queue

structure Pool where
  phase : Nat → Phase
  queue : List Nat
  busy : Nat

namespace Pool

def start : Pool where
  phase _ := .idle
  queue := []
  busy := 0

def submit (p : Pool) (i : Nat) : Pool :=
  { p with phase := Function.update p.phase i .pending, queue := p.queue ++ [i] }

/-- Cancelling a task a worker has taken does nothing. -/
def cancel (p : Pool) (i : Nat) : Pool :=
  if p.phase i = .pending then { p with phase := Function.update p.phase i .cancelled } else p

/-- One of `workers` threads takes task `i` off the queue. -/
def take (discipline : Discipline) (workers : Nat) (p : Pool) (i : Nat) : Option Pool :=
  if discipline.allows p.queue i && p.busy < workers then
    match p.phase i with
    | .pending => some {
        phase := Function.update p.phase i .running
        queue := p.queue.erase i
        busy := p.busy + 1 }
    | .cancelled => some {
        phase := Function.update p.phase i .notified
        queue := p.queue.erase i
        busy := p.busy }
    | _ => none
  else none

def finish (p : Pool) (i : Nat) : Option Pool :=
  if p.phase i = .running then
    some { p with phase := Function.update p.phase i .finished, busy := p.busy - 1 }
  else none

theorem take_eq_some {discipline : Discipline} {workers : Nat} {p p' : Pool} {i : Nat}
    (h : p.take discipline workers i = some p') :
    discipline.allows p.queue i = true ∧ p.busy < workers ∧ p'.queue = p.queue.erase i ∧
      ((p.phase i = .pending ∧ p'.phase = Function.update p.phase i .running ∧
          p'.busy = p.busy + 1) ∨
        (p.phase i = .cancelled ∧ p'.phase = Function.update p.phase i .notified ∧
          p'.busy = p.busy)) := by
  unfold take at h
  split at h
  · rename_i hc
    rw [Bool.and_eq_true, decide_eq_true_eq] at hc
    split at h
    · rename_i hp
      cases h
      exact ⟨hc.1, hc.2, rfl, .inl ⟨hp, rfl, rfl⟩⟩
    · rename_i hp
      cases h
      exact ⟨hc.1, hc.2, rfl, .inr ⟨hp, rfl, rfl⟩⟩
    · cases h
  · cases h

theorem finish_eq_some {p p' : Pool} {i : Nat} (h : p.finish i = some p') :
    p.phase i = .running ∧ p'.phase = Function.update p.phase i .finished ∧
      p'.queue = p.queue ∧ p'.busy = p.busy - 1 := by
  unfold finish at h
  split at h
  · rename_i hp
    cases h
    exact ⟨hp, rfl, rfl, rfl⟩
  · cases h

theorem update_phase_eq {f : Phase → Bool} {phase : Nat → Phase} {i : Nat} {ph : Phase}
    (h : f ph = f (phase i)) (j : Nat) : f (Function.update phase i ph j) = f (phase j) := by
  by_cases hj : j = i
  · subst hj; rw [Function.update_self, h]
  · rw [Function.update_of_ne hj]

-- ---------------------------------------------------------------------------
-- First in, first out
-- ---------------------------------------------------------------------------

/-- Of the tasks `0, …, submitted - 1`, exactly an initial run was taken, and
the rest wait in order. -/
def Fifo (p : Pool) (submitted : Nat) : Prop :=
  ∃ next ≤ submitted, p.queue = List.range' next (submitted - next) ∧
    ∀ i, (p.phase i).taken = true ↔ i < next

theorem Fifo.start : Fifo start 0 := ⟨0, le_rfl, rfl, by simp [Pool.start, Phase.taken]⟩

theorem Fifo.submit {p : Pool} {n : Nat} (h : Fifo p n) (hidle : (p.phase n).taken = false) :
    Fifo (p.submit n) (n + 1) := by
  obtain ⟨next, hle, hq, ht⟩ := h
  refine ⟨next, by omega, ?_, fun i => ?_⟩
  · have hlen : n + 1 - next = n - next + 1 := by omega
    simp only [Pool.submit, hq, hlen, List.range'_concat]
    congr 2
    omega
  · rw [← ht i]
    simp only [Pool.submit]
    rw [update_phase_eq (f := Phase.taken) (by rw [hidle]; rfl)]

theorem Fifo.cancel {p : Pool} {n i : Nat} (h : Fifo p n) : Fifo (p.cancel i) n := by
  unfold Pool.cancel
  split
  · rename_i hp
    obtain ⟨next, hle, hq, ht⟩ := h
    refine ⟨next, hle, hq, fun j => ?_⟩
    rw [← ht j]
    simp only
    rw [update_phase_eq (f := Phase.taken) (by rw [hp]; rfl)]
  · exact h

theorem Fifo.finish {p p' : Pool} {n i : Nat} (h : Fifo p n) (hf : p.finish i = some p') :
    Fifo p' n := by
  obtain ⟨hrun, hphase, hqueue, -⟩ := finish_eq_some hf
  obtain ⟨next, hle, hq, ht⟩ := h
  refine ⟨next, hle, by rw [hqueue, hq], fun j => ?_⟩
  rw [← ht j, hphase, update_phase_eq (f := Phase.taken) (by rw [hrun]; rfl)]

theorem Fifo.take {p p' : Pool} {n i workers : Nat} (h : Fifo p n)
    (hf : p.take .fifo workers i = some p') : Fifo p' n := by
  obtain ⟨hallows, -, hqueue, hphase⟩ := take_eq_some hf
  obtain ⟨next, hle, hq, ht⟩ := h
  obtain ⟨m, hm⟩ : ∃ m, n - next = m + 1 := by
    refine Nat.exists_eq_succ_of_ne_zero fun h0 => ?_
    simp [Discipline.allows, hq, h0] at hallows
  have hi : i = next := by
    simpa [Discipline.allows, hq, hm, List.range'_succ, eq_comm] using hallows
  subst hi
  refine ⟨i + 1, by omega, ?_, fun j => ?_⟩
  · rw [hqueue, hq, hm, List.range'_succ, List.erase_cons_head]
    congr 1
    omega
  · have htaken : (p'.phase j).taken = true ↔ j = i ∨ (p.phase j).taken = true := by
      rcases hphase with ⟨-, hp, -⟩ | ⟨-, hp, -⟩ <;> rw [hp] <;> by_cases hj : j = i
      · subst hj; simp [Phase.taken]
      · simp [hj]
      · subst hj; simp [Phase.taken]
      · simp [hj]
    rw [htaken, ht j]
    omega

/-- Whatever was submitted before a taken task was taken too. -/
theorem Fifo.taken_below {p : Pool} {n i j : Nat} (h : Fifo p n) (hj : (p.phase j).taken = true)
    (hij : i ≤ j) : (p.phase i).taken = true := by
  obtain ⟨next, -, -, ht⟩ := h
  exact (ht i).mpr (lt_of_le_of_lt hij ((ht j).mp hj))

end Pool

end Foundation
