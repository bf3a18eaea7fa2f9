import MellivorKernel.Foundation.Dict
import Mathlib.Data.List.Perm.Subperm
import Mathlib.Data.List.Range

/-!
# Values placed by index

Slots filled in any order, each value at the index it comes with. Where as many
distinct indices come as there are slots, they are a permutation of the slots
and no slot stays empty.
-/

namespace Foundation

variable {α : Type*} {n : Nat} {entries : List (Nat × α)}

/-- The `n` slots once the entries are placed. -/
def filledSlots (n : Nat) (entries : List (Nat × α)) : List (Option α) :=
  (List.range n).map (Dict.lookup entries)

@[simp] theorem length_filledSlots : (filledSlots n entries).length = n := by simp [filledSlots]

theorem getElem?_filledSlots {i : Nat} (hi : i < n) :
    (filledSlots n entries)[i]? = some (Dict.lookup entries i) := by simp [filledSlots, hi]

@[simp] theorem filledSlots_nil : filledSlots n ([] : List (Nat × α)) = List.replicate n none := by
  simp [filledSlots, Dict.lookup, List.map_const']

theorem filledSlots_concat {i : Nat} (a : α) (hi : i ∉ entries.map Prod.fst) :
    filledSlots n (entries ++ [(i, a)]) = (filledSlots n entries).set i (some a) := by
  have hnone : Dict.lookup entries i = none := Dict.lookup_eq_none.mpr hi
  refine List.ext_getElem (by simp) fun j hj _ => ?_
  simp only [filledSlots, List.getElem_map, List.getElem_range, List.getElem_set,
    Dict.lookup_append]
  by_cases h : i = j
  · simp [← h, hnone, Dict.lookup]
  · simp [h, Dict.lookup]

structure Places (n : Nat) (entries : List (Nat × α)) : Prop where
  bounded : ∀ entry ∈ entries, entry.1 < n
  distinct : (entries.map Prod.fst).Nodup

theorem places_nil : Places n ([] : List (Nat × α)) := ⟨by simp, by simp⟩

theorem Places.of_append {more : List (Nat × α)} (h : Places n (entries ++ more)) :
    Places n entries := by
  constructor
  · exact fun entry hentry => h.bounded entry (List.mem_append_left _ hentry)
  · exact ((List.sublist_append_left entries more).map _).nodup h.distinct

theorem places_concat {entry : Nat × α} : Places n (entries ++ [entry]) ↔
    Places n entries ∧ entry.1 < n ∧ entry.1 ∉ entries.map Prod.fst := by
  constructor
  · intro h
    have hdistinct := h.distinct
    rw [List.map_append, List.map_singleton, ← List.concat_eq_append, List.nodup_concat]
      at hdistinct
    exact ⟨h.of_append, h.bounded entry (by simp), hdistinct.1⟩
  · rintro ⟨h, hbound, hnew⟩
    constructor
    · intro e he
      rcases List.mem_append.mp he with he | he
      · exact h.bounded e he
      · rwa [List.mem_singleton.mp he]
    · rw [List.map_append, List.map_singleton, ← List.concat_eq_append, List.nodup_concat]
      exact ⟨hnew, h.distinct⟩

theorem Places.exists_of_mem (h : Places n entries) {a : α} (ha : some a ∈ filledSlots n entries) :
    ∃ i, (i, a) ∈ entries := by
  obtain ⟨i, -, hi⟩ := List.mem_map.mp ha
  exact ⟨i, (Dict.lookup_eq_some h.distinct).mp hi⟩

/-- As many as there are slots are a permutation of them. -/
theorem Places.perm (h : Places n entries) (hlength : entries.length = n) :
    (entries.map Prod.fst).Perm (List.range n) := by
  refine (List.subperm_of_subset h.distinct fun i hi => ?_).perm_of_length_le (by simp [hlength])
  obtain ⟨entry, hentry, rfl⟩ := List.mem_map.mp hi
  exact List.mem_range.mpr (h.bounded entry hentry)

theorem places_of_perm (h : (entries.map Prod.fst).Perm (List.range n)) : Places n entries := by
  constructor
  · intro entry hentry
    exact List.mem_range.mp (h.mem_iff.mp (List.mem_map_of_mem hentry))
  · exact h.nodup_iff.mpr List.nodup_range

theorem Places.full (h : Places n entries) (hlength : entries.length = n) :
    ∃ values : List α, filledSlots n entries = values.map some ∧ values.length = n ∧
      ∀ entry ∈ entries, values[entry.1]? = some entry.2 := by
  have hsome : ∀ slot ∈ filledSlots n entries, slot.isSome := by
    intro slot hslot
    obtain ⟨i, hi, rfl⟩ := List.mem_map.mp hslot
    rw [Option.isSome_iff_ne_none, ne_eq, Dict.lookup_eq_none, not_not]
    exact (h.perm hlength).mem_iff.mpr hi
  obtain ⟨values, hvalues⟩ : ∃ values : List α, values.map some = filledSlots n entries := by
    refine ⟨(filledSlots n entries).pmap Option.get hsome, ?_⟩
    simp [List.map_pmap]
  refine ⟨values, hvalues.symm, ?_, fun entry hentry => ?_⟩
  · simpa using congrArg List.length hvalues
  · have hslot : (filledSlots n entries)[entry.1]? = some (Dict.lookup entries entry.1) :=
      getElem?_filledSlots (h.bounded entry hentry)
    rw [(Dict.lookup_eq_some h.distinct).mpr hentry, ← hvalues, List.getElem?_map] at hslot
    simpa using hslot

end Foundation
