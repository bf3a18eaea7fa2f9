import Mathlib.Data.Finset.Card
import MellivorKernel.Foundation.TaskPool

/-!
# A pool that gets on

In a pool that is only driven by its operations, the queue holds the tasks that
are waiting and the busy workers are those of the running tasks. So a worker can
take the task at the head of the queue whenever no task is running.
-/

namespace Foundation

namespace Pool

/-- The queue and the count of busy workers agree with the phases. -/
structure Manned (p : Pool) : Prop where
  queued : ∀ i, i ∈ p.queue ↔ p.phase i = .pending ∨ p.phase i = .cancelled
  nodup : p.queue.Nodup
  busy : ∃ running : Finset Nat, (∀ i, i ∈ running ↔ p.phase i = .running) ∧ running.card = p.busy

namespace Manned

variable {p p' : Pool} {i workers : Nat} {discipline : Discipline}

theorem start : Manned start where
  queued i := by simp [Pool.start]
  nodup := List.nodup_nil
  busy := ⟨∅, by simp [Pool.start], rfl⟩

theorem submit (h : p.Manned) (hidle : p.phase i = .idle) : (p.submit i).Manned := by
  have hnew : i ∉ p.queue := fun hi => by simpa [hidle] using (h.queued i).mp hi
  obtain ⟨running, hrunning, hcard⟩ := h.busy
  refine ⟨fun j => ?_, ?_, running, fun j => ?_, hcard⟩
  · by_cases hj : j = i
    · subst hj; simp [Pool.submit]
    · simp [Pool.submit, hj, h.queued j]
  · exact h.nodup.append (List.nodup_singleton i) (by simpa using hnew)
  · rw [hrunning j]
    by_cases hj : j = i
    · subst hj; simp [Pool.submit, hidle]
    · simp [Pool.submit, hj]

theorem cancel (h : p.Manned) : (p.cancel i).Manned := by
  unfold Pool.cancel
  split
  · rename_i hp
    obtain ⟨running, hrunning, hcard⟩ := h.busy
    refine ⟨fun j => ?_, h.nodup, running, fun j => ?_, hcard⟩
    · rw [h.queued j]
      by_cases hj : j = i
      · subst hj; simp [hp]
      · simp [hj]
    · rw [hrunning j]
      by_cases hj : j = i
      · subst hj; simp [hp]
      · simp [hj]
  · exact h

theorem take (h : p.Manned) (ht : p.take discipline workers i = some p') : p'.Manned := by
  obtain ⟨-, -, hqueue, hphase⟩ := take_eq_some ht
  obtain ⟨running, hrunning, hcard⟩ := h.busy
  have hqueued (j : Nat) : j ∈ p'.queue ↔ j ≠ i ∧ (p.phase j = .pending ∨ p.phase j = .cancelled) := by
    rw [hqueue, h.nodup.mem_erase_iff, h.queued j]
  rcases hphase with ⟨hp, hphase, hbusy⟩ | ⟨hp, hphase, hbusy⟩
  · have hnew : i ∉ running := fun hi => by simpa [hp] using (hrunning i).mp hi
    refine ⟨fun j => ?_, hqueue ▸ h.nodup.erase i, insert i running, fun j => ?_, ?_⟩
    · rw [hqueued j, hphase]
      by_cases hj : j = i
      · subst hj; simp
      · simp [hj]
    · rw [Finset.mem_insert, hrunning j, hphase]
      by_cases hj : j = i
      · subst hj; simp
      · simp [hj]
    · rw [Finset.card_insert_of_notMem hnew, hcard, hbusy]
  · refine ⟨fun j => ?_, hqueue ▸ h.nodup.erase i, running, fun j => ?_, hcard.trans hbusy.symm⟩
    · rw [hqueued j, hphase]
      by_cases hj : j = i
      · subst hj; simp
      · simp [hj]
    · rw [hrunning j, hphase]
      by_cases hj : j = i
      · subst hj; simp [hp]
      · simp [hj]

theorem finish (h : p.Manned) (hf : p.finish i = some p') : p'.Manned := by
  obtain ⟨hp, hphase, hqueue, hbusy⟩ := finish_eq_some hf
  obtain ⟨running, hrunning, hcard⟩ := h.busy
  refine ⟨fun j => ?_, hqueue ▸ h.nodup, running.erase i, fun j => ?_, ?_⟩
  · rw [hqueue, h.queued j, hphase]
    by_cases hj : j = i
    · subst hj; simp [hp]
    · simp [hj]
  · rw [Finset.mem_erase, hrunning j, hphase]
    by_cases hj : j = i
    · subst hj; simp
    · simp [hj]
  · rw [Finset.card_erase_of_mem ((hrunning i).mpr hp), hcard, hbusy]

theorem takes (h : p.Manned) (hworkers : 0 < workers) (hidle : ∀ i, p.phase i ≠ .running)
    (hqueue : p.queue ≠ []) (discipline : Discipline) :
    ∃ i p', p.take discipline workers i = some p' := by
  obtain ⟨i, rest, hq⟩ := List.exists_cons_of_ne_nil hqueue
  have hallows : discipline.allows p.queue i = true := by
    cases discipline <;> simp [Discipline.allows, hq]
  have hbusy : p.busy = 0 := by
    obtain ⟨running, hrunning, hcard⟩ := h.busy
    rw [← hcard, Finset.card_eq_zero]
    exact Finset.eq_empty_of_forall_notMem fun j hj => hidle j ((hrunning j).mp hj)
  have hphase : p.phase i = .pending ∨ p.phase i = .cancelled :=
    (h.queued i).mp (by rw [hq]; exact List.mem_cons_self)
  refine ⟨i, ?_⟩
  unfold Pool.take
  rw [hallows, hbusy, if_pos (by simpa using hworkers)]
  rcases hphase with hp | hp
  · exact ⟨_, by rw [hp]⟩
  · exact ⟨_, by rw [hp]⟩

end Manned

end Pool

end Foundation
