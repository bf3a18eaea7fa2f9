import MellivorKernel.Foundation.Dict
import Mathlib.Data.List.Sort

/-!
# Tables with a rowid

A table whose rows have a key and are numbered as they come: a new row gets the
number after the greatest one in use, an overwritten row keeps its number. The
rows lie in no particular order; `ordered` is the order of their numbers. Read
in that order, a table is an insertion-ordered map (`toDict`), and its
operations are the map's.
-/

namespace Foundation

structure Row (κ α : Type*) where
  rowid : Nat
  key : κ
  value : α
  deriving DecidableEq

structure RowTable (κ α : Type*) where
  rows : List (Row κ α)
  rowids : (rows.map Row.rowid).Nodup
  keys : (rows.map Row.key).Nodup

namespace RowTable

variable {κ α : Type*}

def empty : RowTable κ α := ⟨[], by simp, by simp⟩

/-- One more than the greatest rowid, 1 in an empty table. -/
def nextRowid (rows : List (Row κ α)) : Nat := (rows.map Row.rowid).foldr max 0 + 1

theorem rowid_lt_nextRowid {rows : List (Row κ α)} {r : Row κ α} (h : r ∈ rows) :
    r.rowid < nextRowid rows := by
  induction rows with
  | nil => cases h
  | cons q rows ih =>
    simp only [nextRowid, List.map_cons, List.foldr_cons] at ih ⊢
    rcases List.mem_cons.mp h with rfl | h
    · omega
    · have := ih h
      omega

/-- `ORDER BY rowid`. -/
def ordered (t : RowTable κ α) : List (Row κ α) := t.rows.insertionSort fun a b => a.rowid ≤ b.rowid

instance : Std.Total fun a b : Row κ α => a.rowid ≤ b.rowid := ⟨fun _ _ => Nat.le_total _ _⟩

instance : IsTrans (Row κ α) fun a b => a.rowid ≤ b.rowid := ⟨fun _ _ _ => Nat.le_trans⟩

instance : Std.Antisymm fun a b : Row κ α => a.rowid < b.rowid :=
  ⟨fun _ _ h h' => absurd h (Nat.lt_asymm h')⟩

theorem ordered_perm (t : RowTable κ α) : t.ordered.Perm t.rows := List.perm_insertionSort _ _

@[simp] theorem mem_ordered {t : RowTable κ α} {r : Row κ α} : r ∈ t.ordered ↔ r ∈ t.rows :=
  t.ordered_perm.mem_iff

theorem ordered_sorted (t : RowTable κ α) : t.ordered.Pairwise fun a b => a.rowid < b.rowid := by
  have hle : t.ordered.Pairwise fun a b => a.rowid ≤ b.rowid := List.pairwise_insertionSort _ _
  have hnodup : (t.ordered.map Row.rowid).Nodup := (t.ordered_perm.map _).nodup_iff.mpr t.rowids
  exact (hle.and (List.pairwise_map.mp hnodup)).imp fun h => lt_of_le_of_ne h.1 h.2

/-- The order is the only arrangement of the rows by growing rowid. -/
theorem ordered_eq {t : RowTable κ α} {l : List (Row κ α)} (hperm : l.Perm t.rows)
    (hsorted : l.Pairwise fun a b => a.rowid < b.rowid) : t.ordered = l :=
  (t.ordered_perm.trans hperm.symm).eq_of_pairwise' t.ordered_sorted hsorted

def toDict (t : RowTable κ α) : Dict κ α where
  entries := t.ordered.map fun r => (r.key, r.value)
  nodup := by
    rw [List.map_map]
    exact (t.ordered_perm.map Row.key).nodup_iff.mpr t.keys

theorem keys_toDict {t : RowTable κ α} {k : κ} : k ∈ t.toDict.keys ↔ k ∈ t.rows.map Row.key := by
  rw [Dict.keys, toDict, List.map_map]
  exact (t.ordered_perm.map Row.key).mem_iff

@[simp] theorem toDict_empty : (empty : RowTable κ α).toDict = Dict.empty := rfl

variable [DecidableEq κ]

-- ---------------------------------------------------------------------------
-- Statements
-- ---------------------------------------------------------------------------

/-- `INSERT ... ON CONFLICT(key) DO UPDATE`: the row of the key gets the value
and keeps its rowid, a new key gets a new row. -/
def upsert (t : RowTable κ α) (k : κ) (a : α) : RowTable κ α :=
  if h : k ∈ t.rows.map Row.key then
    { rows := t.rows.map fun r => if r.key = k then { r with value := a } else r
      rowids := by
        have hf : Row.rowid ∘ (fun r : Row κ α => if r.key = k then { r with value := a } else r) =
            Row.rowid := by
          funext r
          simp only [Function.comp_apply]
          split <;> rfl
        rw [List.map_map, hf]
        exact t.rowids
      keys := by
        have hf : Row.key ∘ (fun r : Row κ α => if r.key = k then { r with value := a } else r) =
            Row.key := by
          funext r
          simp only [Function.comp_apply]
          split <;> rfl
        rw [List.map_map, hf]
        exact t.keys }
  else
    { rows := ⟨nextRowid t.rows, k, a⟩ :: t.rows
      rowids := by
        rw [List.map_cons, List.nodup_cons]
        refine ⟨fun hmem => ?_, t.rowids⟩
        obtain ⟨r, hr, heq⟩ := List.mem_map.mp hmem
        exact absurd heq (rowid_lt_nextRowid hr).ne
      keys := by
        rw [List.map_cons, List.nodup_cons]
        exact ⟨h, t.keys⟩ }

/-- `DELETE ... WHERE key = k`. -/
def delete (t : RowTable κ α) (k : κ) : RowTable κ α where
  rows := t.rows.filter fun r => r.key ≠ k
  rowids := (List.filter_sublist.map Row.rowid).nodup t.rowids
  keys := (List.filter_sublist.map Row.key).nodup t.keys

def rowcount (t : RowTable κ α) (k : κ) : Nat := t.rows.countP fun r => r.key = k

/-- `SELECT ... WHERE key = k`. -/
def select (t : RowTable κ α) (k : κ) : Option (Row κ α) := t.rows.find? fun r => r.key = k

-- ---------------------------------------------------------------------------
-- The statements on the map
-- ---------------------------------------------------------------------------

theorem toDict_upsert (t : RowTable κ α) (k : κ) (a : α) :
    (t.upsert k a).toDict = t.toDict.set k a := by
  refine Dict.ext ?_
  by_cases h : k ∈ t.rows.map Row.key
  · have hordered : (t.upsert k a).ordered =
        t.ordered.map fun r => if r.key = k then { r with value := a } else r := by
      refine ordered_eq ?_ ?_
      · simp only [upsert, h, dif_pos]
        exact t.ordered_perm.map _
      · refine List.pairwise_map.mpr (t.ordered_sorted.imp fun {r q} hrq => ?_)
        split <;> split <;> exact hrq
    rw [Dict.entries_set_of_mem (keys_toDict.mpr h)]
    simp only [toDict, hordered, List.map_map]
    refine List.map_congr_left fun r _ => ?_
    simp only [Function.comp_apply]
    split <;> rfl
  · have hordered : (t.upsert k a).ordered = t.ordered ++ [⟨nextRowid t.rows, k, a⟩] := by
      refine ordered_eq ?_ ?_
      · simp only [upsert, h, dif_neg, not_false_eq_true]
        exact List.perm_append_comm.trans (t.ordered_perm.cons _)
      · refine List.pairwise_append.mpr ⟨t.ordered_sorted, List.pairwise_singleton _ _, ?_⟩
        rintro r hr q hq
        obtain rfl := List.mem_singleton.mp hq
        exact rowid_lt_nextRowid (mem_ordered.mp hr)
    rw [Dict.entries_set_of_not_mem (mt keys_toDict.mp h)]
    simp only [toDict, hordered, List.map_append, List.map_cons, List.map_nil]

theorem toDict_delete (t : RowTable κ α) (k : κ) : (t.delete k).toDict = t.toDict.erase k := by
  have hordered : (t.delete k).ordered = t.ordered.filter fun r => r.key ≠ k :=
    ordered_eq (t.ordered_perm.filter _) (t.ordered_sorted.filter _)
  refine Dict.ext ?_
  simp only [toDict, hordered, Dict.erase, List.filter_map]
  rfl

theorem get?_toDict (t : RowTable κ α) (k : κ) : t.toDict.get? k = (t.select k).map Row.value := by
  rw [select]
  cases hf : t.rows.find? fun r => r.key = k with
  | none =>
    rw [Option.map_none, Dict.get?_eq_none, keys_toDict]
    intro hk
    obtain ⟨r, hr, rfl⟩ := List.mem_map.mp hk
    simpa using List.find?_eq_none.mp hf r hr
  | some r =>
    have hkey : r.key = k := by simpa using List.find?_some hf
    rw [Option.map_some, Dict.get?_eq_some]
    exact List.mem_map.mpr ⟨r, mem_ordered.mpr (List.mem_of_find?_eq_some hf), by rw [hkey]⟩

theorem rowcount_pos {t : RowTable κ α} {k : κ} : 0 < t.rowcount k ↔ k ∈ t.toDict.keys := by
  rw [keys_toDict, rowcount, List.countP_pos_iff]
  simp

end RowTable

end Foundation
