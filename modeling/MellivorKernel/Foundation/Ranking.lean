import Mathlib.Data.List.Sort

/-!
# The first of a ranking

Elements sorted by a key, and the first `n` of them. Where no two elements have
the same key, the order they come in does not matter, and every one that is
left out ranks after every one that is not.
-/

namespace Foundation

section
variable {α κ : Type*} [LinearOrder κ] (key : α → κ)

/-- The elements by their keys; those with equal keys stay as they come. -/
def ranked (xs : List α) : List α := xs.insertionSort fun a b => key a ≤ key b

def firstRanked (n : Nat) (xs : List α) : List α := (ranked key xs).take n

variable {key} {xs ys : List α} {n : Nat}

theorem ranked_perm : (ranked key xs).Perm xs := List.perm_insertionSort _ xs

@[simp] theorem mem_ranked {x : α} : x ∈ ranked key xs ↔ x ∈ xs := ranked_perm.mem_iff

@[simp] theorem length_firstRanked : (firstRanked key n xs).length = min n xs.length := by
  rw [firstRanked, List.length_take, ranked_perm.length_eq]

theorem mem_of_mem_firstRanked {x : α} (h : x ∈ firstRanked key n xs) : x ∈ xs :=
  mem_ranked.mp (List.mem_of_mem_take h)

theorem nodup_firstRanked {β : Type*} {f : α → β} (h : (xs.map f).Nodup) :
    ((firstRanked key n xs).map f).Nodup :=
  ((List.take_sublist _ _).map f).nodup ((ranked_perm.map f).nodup_iff.mpr h)

theorem pairwise_ranked (h : (xs.map key).Nodup) : (ranked key xs).Pairwise (key · < key ·) := by
  have hle : (ranked key xs).Pairwise (key · ≤ key ·) := by
    have : Std.Total fun a b : α => key a ≤ key b := ⟨fun a b => le_total (key a) (key b)⟩
    have : IsTrans α fun a b => key a ≤ key b := ⟨fun _ _ _ => le_trans⟩
    exact List.pairwise_insertionSort _ xs
  have hne : (ranked key xs).Pairwise (key · ≠ key ·) :=
    List.pairwise_map.mp ((ranked_perm.map key).nodup_iff.mpr h)
  exact hle.imp₂ (fun _ _ => lt_of_le_of_ne) hne

theorem pairwise_firstRanked (h : (xs.map key).Nodup) :
    (firstRanked key n xs).Pairwise (key · < key ·) :=
  (pairwise_ranked h).sublist (List.take_sublist _ _)

theorem lt_of_not_mem_firstRanked (h : (xs.map key).Nodup) {x y : α}
    (hx : x ∈ firstRanked key n xs) (hy : y ∈ xs) (hout : y ∉ firstRanked key n xs) :
    key x < key y := by
  have hall := pairwise_ranked h
  rw [← List.take_append_drop n (ranked key xs), List.pairwise_append] at hall
  refine hall.2.2 x hx y ?_
  have hmem : y ∈ ranked key xs := mem_ranked.mpr hy
  rw [← List.take_append_drop n (ranked key xs), List.mem_append] at hmem
  exact hmem.resolve_left hout

/-- The ranking forgets the order the elements come in. -/
theorem ranked_eq_of_perm (hperm : xs.Perm ys) (h : (xs.map key).Nodup) :
    ranked key xs = ranked key ys := by
  have hys : (ys.map key).Nodup := (hperm.map key).nodup_iff.mp h
  refine List.Perm.eq_of_pairwise (fun a b _ _ hab hba => absurd hab hba.asymm)
    (pairwise_ranked h) (pairwise_ranked hys) ?_
  exact ranked_perm.trans (hperm.trans ranked_perm.symm)

theorem firstRanked_eq_of_perm (hperm : xs.Perm ys) (h : (xs.map key).Nodup) :
    firstRanked key n xs = firstRanked key n ys := by
  rw [firstRanked, firstRanked, ranked_eq_of_perm hperm h]

end

end Foundation
