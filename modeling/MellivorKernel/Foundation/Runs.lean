import Mathlib.Data.List.MinMax
import Mathlib.Data.List.Perm.Subperm
import Mathlib.Data.List.Sort
import Mathlib.Data.List.SplitBy

/-!
# Runs of a list

Elements that have a key are gathered with their neighbours of the same key;
an element without one stands alone. Where the elements of one key are a
contiguous part of the list, that part is one run.
-/

namespace Foundation

variable {α κ : Type*} [DecidableEq κ] (key : α → Option κ)

def sameKey (a b : α) : Bool := (key b).isSome && key a = key b

/-- One more element behind the runs so far, compared with the first of the
last run. -/
def addToRuns (runs : List (List α)) (a : α) : List (List α) :=
  match runs.getLast? with
  | some (first :: more) =>
    if (key a).isSome ∧ key first = key a then runs.dropLast ++ [first :: more ++ [a]]
    else runs ++ [[a]]
  | _ => runs ++ [[a]]

variable {key}

theorem sameKey_iff {a b : α} : sameKey key a b = true ↔ (key b).isSome ∧ key a = key b := by
  simp [sameKey]

theorem key_eq_of_isChain {a : α} {run : List α} (h : (a :: run).IsChain fun x y => sameKey key x y) :
    ∀ b ∈ run, key b = key a := by
  induction run generalizing a with
  | nil => simp
  | cons b run ih =>
    obtain ⟨hab, hrest⟩ := List.isChain_cons_cons.mp h
    have hkey := (sameKey_iff.mp hab).2
    intro c hc
    rcases List.mem_cons.mp hc with rfl | hc
    · exact hkey.symm
    · exact (ih hrest c hc).trans hkey.symm

theorem addToRuns_splitBy (l : List α) (a : α) :
    addToRuns key (l.splitBy (sameKey key)) a = (l ++ [a]).splitBy (sameKey key) := by
  have hchains (run : List α) (hrun : run ∈ l.splitBy (sameKey key)) :
      run.IsChain fun x y => sameKey key x y := List.isChain_of_mem_splitBy hrun
  have hbetween := List.isChain_getLast_head_splitBy (sameKey key) l
  have hflatten := List.flatten_splitBy (sameKey key) l
  have hnil := List.nil_notMem_splitBy (sameKey key) l
  generalize hruns : l.splitBy (sameKey key) = runs at hchains hbetween hflatten hnil ⊢
  rcases List.eq_nil_or_concat' runs with rfl | ⟨init, last, rfl⟩
  · obtain rfl : l = [] := hflatten.symm
    rfl
  · cases last with
    | nil => simp at hnil
    | cons first more =>
      have hlast := hchains (first :: more) (by simp)
      have hkey : key ((first :: more).getLast (by simp)) = key first := by
        rcases List.mem_cons.mp (List.getLast_mem (by simp : first :: more ≠ [])) with h | h
        · rw [h]
        · exact key_eq_of_isChain hlast _ h
      unfold addToRuns
      simp only [List.getLast?_concat]
      split
      · rename_i h
        refine (List.splitBy_eq_iff.mpr ⟨?_, ?_, ?_, ?_⟩).symm
        · simp [← hflatten]
        · simpa using hnil
        · intro run hrun
          rcases List.mem_append.mp hrun with hrun | hrun
          · exact hchains run (List.mem_append_left _ (by simpa using hrun))
          · obtain rfl := List.mem_singleton.mp hrun
            refine List.isChain_append.mpr ⟨hlast, .singleton a, ?_⟩
            intro x hx y hy
            obtain rfl : a = y := by simpa using hy
            obtain ⟨_, rfl⟩ := List.mem_getLast?_eq_getLast hx
            exact sameKey_iff.mpr ⟨h.1, hkey.trans h.2⟩
        · rw [List.dropLast_concat]
          obtain ⟨hinit, -, hmeet⟩ := List.isChain_append.mp hbetween
          refine List.isChain_append.mpr ⟨hinit, .singleton _, fun x hx y hy => ?_⟩
          obtain rfl : first :: more ++ [a] = y := by simpa using hy
          obtain ⟨hne, hne', hr⟩ := hmeet x hx (first :: more) (by simp)
          exact ⟨hne, by simp, hr⟩
      · rename_i h
        rw [List.splitBy_append, hruns]
        · rfl
        · intro x hx y hy
          obtain rfl : a = y := by simpa using hy
          rw [← hflatten, List.flatten_append, List.getLast?_append] at hx
          obtain rfl : (first :: more).getLast (by simp) = x := by
            simpa [List.getLast?_eq_some_getLast] using hx
          rw [← Bool.not_eq_true, sameKey_iff, hkey]
          exact h

/-- Adding the elements one by one makes the runs. -/
theorem foldl_addToRuns (l : List α) : l.foldl (addToRuns key) [] = l.splitBy (sameKey key) := by
  have h (seen : List α) : l.foldl (addToRuns key) (seen.splitBy (sameKey key)) =
      (seen ++ l).splitBy (sameKey key) := by
    induction l generalizing seen with
    | nil => simp
    | cons a l ih => rw [List.foldl_cons, addToRuns_splitBy, ih, List.append_assoc]; rfl
  simpa using h []

theorem mem_splitBy_of_key {before run after : List α} {k : κ} (hrun : run ≠ [])
    (hkey : ∀ a ∈ run, key a = some k) (hbefore : ∀ a ∈ before, key a ≠ some k)
    (hafter : ∀ a ∈ after, key a ≠ some k) :
    run ∈ (before ++ (run ++ after)).splitBy (sameKey key) := by
  have hchain : run.IsChain fun x y => sameKey key x y := by
    refine List.Pairwise.isChain (List.pairwise_of_forall_mem_list fun x hx y hy => ?_)
    simp [sameKey, hkey x hx, hkey y hy]
  have hleft : ∀ x ∈ before.getLast?, ∀ y ∈ (run ++ after).head?, sameKey key x y = false := by
    intro x hx y hy
    obtain ⟨first, more, rfl⟩ := List.exists_cons_of_ne_nil hrun
    obtain rfl : first = y := by simpa using hy
    simp [sameKey, hkey first (by simp), hbefore x (List.mem_of_getLast? hx)]
  have hright : ∀ x ∈ run.getLast?, ∀ y ∈ after.head?, sameKey key x y = false := by
    intro x hx y hy
    have hne := hafter y (List.mem_of_head? hy)
    rw [← hkey x (List.mem_of_getLast? hx)] at hne
    simp [sameKey, hne.symm]
  rw [List.splitBy_append hleft, List.splitBy_append hright, List.splitBy_of_isChain hrun hchain]
  simp

theorem singleton_mem_splitBy {before after : List α} {a : α} (ha : key a = none) :
    [a] ∈ (before ++ ([a] ++ after)).splitBy (sameKey key) := by
  have hrun : [a].splitBy (sameKey key) = [[a]] := rfl
  rw [List.splitBy_append, List.splitBy_append, hrun]
  · simp
  · intro x hx y hy
    obtain rfl : a = x := by simpa using hx
    rw [← Bool.not_eq_true, sameKey_iff, ha]
    rintro ⟨hsome, hkey⟩
    rw [← hkey] at hsome
    cases hsome
  · intro x hx y hy
    obtain rfl : a = y := by simpa using hy
    simp [sameKey, ha]

theorem eq_of_mem_splitBy {r : α → α → Bool} {l run run' : List α} {a : α} (hn : l.Nodup)
    (hrun : run ∈ l.splitBy r) (hrun' : run' ∈ l.splitBy r) (ha : a ∈ run) (ha' : a ∈ run') :
    run = run' := by
  rw [← List.flatten_splitBy r l, List.nodup_flatten] at hn
  by_contra hne
  have hsymm : Std.Symm (List.Disjoint (α := α)) := ⟨fun _ _ h a ha ha' => h ha' ha⟩
  exact hn.2.forall hrun hrun' hne ha ha'

-- ---------------------------------------------------------------------------
-- Consecutive numbers
-- ---------------------------------------------------------------------------

/-- Distinct numbers in order that span no more than their number follow each
other. -/
theorem eq_range'_of_span {l : List Nat} {low high : Nat} (hsorted : l.Pairwise (· ≤ ·))
    (hn : l.Nodup) (hlow : l.min? = some low) (hhigh : l.max? = some high)
    (hspan : high - low + 1 = l.length) : l = List.range' low l.length := by
  obtain ⟨-, hlow⟩ := List.min?_eq_some_iff.mp hlow
  obtain ⟨-, hhigh⟩ := List.max?_eq_some_iff.mp hhigh
  have hsub : l ⊆ List.range' low l.length := by
    intro i hi
    have hge := hlow i hi
    have hle := hhigh i hi
    exact List.mem_range'_1.mpr ⟨hge, by omega⟩
  have hperm := (List.subperm_of_subset hn hsub).perm_of_length_le (by simp)
  exact hperm.eq_of_pairwise (fun a b _ _ => Nat.le_antisymm) hsorted
    (List.pairwise_le_range' _)

theorem filterMap_range' (l : List α) (start n : Nat) :
    (List.range' start n).filterMap (l[·]?) = (l.drop start).take n := by
  induction n generalizing start with
  | zero => simp
  | succ n ih =>
    rw [List.range'_succ, List.filterMap_cons, ih]
    by_cases h : start < l.length
    · rw [List.getElem?_eq_getElem h, List.drop_eq_getElem_cons h, List.take_succ_cons]
    · rw [List.getElem?_eq_none (not_lt.mp h), List.drop_eq_nil_of_le (not_lt.mp h),
        List.drop_eq_nil_of_le (by omega)]
      simp

end Foundation
