import MellivorKernel.Memory.VectorQuery

/-!
# The error boundary of the vector store

A vector reaches the store in a record or in a query. Where an integer in it is
too large for `float`, that is not a `VectorStoreError`.
-/

namespace MellivorKernel

open Python Foundation

theorem isVectorStoreError_of_message (message : Str) :
    IsVectorStoreError (vectorStoreError message) := by
  rfl

theorem not_isVectorStoreError_overflow (message : Str) :
    ¬ IsVectorStoreError (.raised .overflowError message) := by
  simp [IsVectorStoreError, ExnClass.isA, ExnClass.bases]

theorem normalizeVector_raises_iff {vector : PyValue} (dimensions : Option Nat) (subject : Str) :
    RaisesOnly IsVectorStoreError (normalizeVector vector dimensions subject) ↔
      vector.overflows = false := by
  refine (raisesOnly_bind_of fun _ => ?_).trans
    (vectorComponents_raises_iff isVectorStoreError_of_message not_isVectorStoreError_overflow)
  split
  · simp [isVectorStoreError_of_message]
  · split <;> simp [isVectorStoreError_of_message]

-- ---------------------------------------------------------------------------
-- Records
-- ---------------------------------------------------------------------------

/-- `None`, a `str`, a `bool`, an `int` or a finite `float`. -/
def isMetadataValue : PyValue → Bool
  | .none | .str _ | .bool _ | .int _ | .float (.finite _) => true
  | _ => false

def metadataItem : PyKey × PyValue → Except Exn (PyKey × PyValue)
  | (.str key, value) =>
    if blank key then .error (vectorStoreFailure "Vector metadata keys must be non-blank strings.")
    else if isMetadataValue value then .ok (.str key, value)
    else .error (vectorStoreFailure "Vector metadata values must be finite JSON scalars.")
  | _ => .error (vectorStoreFailure "Vector metadata keys must be non-blank strings.")

def snapshotMetadata : PyValue → Except Exn Mapping
  | .dict items => items.mapM metadataItem
  | _ => .error (vectorStoreFailure "Vector metadata must be a mapping.")

theorem snapshotMetadata_raises (metadata : PyValue) :
    RaisesOnly IsVectorStoreError (snapshotMetadata metadata) := by
  have hitem (entry : PyKey × PyValue) : RaisesOnly IsVectorStoreError (metadataItem entry) := by
    unfold metadataItem
    split
    · split
      · simp [isVectorStoreError]
      · split <;> simp [isVectorStoreError]
    · simp [isVectorStoreError]
  cases metadata with
  | dict items => exact raisesOnly_mapM fun entry _ => hitem entry
  | _ => simp [snapshotMetadata, isVectorStoreError]

theorem normalizeVector_nonzero {vector : PyValue} {dimensions : Option Nat} {subject : Str}
    {components : List Rat} (h : normalizeVector vector dimensions subject = .ok components) :
    ∃ x ∈ components, x ≠ 0 := (normalizeVector_eq_ok.mp h).2.2

def VectorRecord.new (id vector metadata : PyValue) : Except Exn VectorRecord :=
  match id with
  | .str id =>
    if hid : blank id = false then
      match h : normalizeVector vector none (lit "Record vector") with
      | .ok normalized => do
        let metadata ← snapshotMetadata metadata
        .ok ⟨id, normalized, metadata, hid, normalizeVector_nonzero h⟩
      | .error exc => .error exc
    else .error (vectorStoreFailure "VectorRecord.id must be a non-blank string.")
  | _ => .error (vectorStoreFailure "VectorRecord.id must be a non-blank string.")

theorem vectorRecord_raises_iff {id vector metadata : PyValue} :
    RaisesOnly IsVectorStoreError (VectorRecord.new id vector metadata) ↔
      ((∃ s, id = .str s ∧ blank s = false) → vector.overflows = false) := by
  unfold VectorRecord.new
  split
  · rename_i id
    split
    · rename_i hid
      have hnormalized := @normalizeVector_raises_iff vector none (lit "Record vector")
      have hname : ∃ s, PyValue.str id = .str s ∧ blank s = false := ⟨id, rfl, hid⟩
      rw [imp_iff_right hname, ← hnormalized]
      split
      · rename_i h
        refine iff_of_true ((snapshotMetadata_raises metadata).bind fun _ => ?_) ?_
        · simp
        · rw [h]
          simp
      · rename_i h
        rw [h]
        simp
    · rename_i hid
      refine iff_of_true (by simp [isVectorStoreError]) ?_
      rintro ⟨_, ⟨⟩, hname⟩
      exact absurd hname hid
  · rename_i hid
    refine iff_of_true (by simp [isVectorStoreError]) ?_
    rintro ⟨s, rfl, -⟩
    exact absurd rfl (hid s)

-- ---------------------------------------------------------------------------
-- Queries
-- ---------------------------------------------------------------------------

theorem query_raises_iff {S : Type} [LinearOrder S] (score : List Rat → List Rat → S)
    {store : InMemoryVectorStore} {vector space limit : PyValue} :
    RaisesOnly IsVectorStoreError (store.query score vector space limit) ↔
      ((∃ s, space = .str s ∧ matchesNamespace s = true) → (∃ n, limit = .int n ∧ 0 < n) →
        vector.overflows = false) := by
  have hspace : (∃ s, space = .str s ∧ matchesNamespace s = true) ↔
      ∃ s, spaceOf space = some s := by
    simp [spaceOf, Option.filter_eq_some_iff]
  unfold InMemoryVectorStore.query
  rw [(validateNamespace_yields space).raisesOnly_bind, hspace, forall_exists_index]
  refine forall₂_congr fun s _ => ?_
  cases limit with
  | int n =>
    by_cases hn : n ≤ 0
    · refine iff_of_true ?_ ?_
      · simp only [if_pos hn]
        simp [isVectorStoreError]
      · rintro ⟨_, ⟨⟩, hpos⟩
        omega
    · have hlimit : ∃ m, PyValue.int n = .int m ∧ 0 < m := ⟨n, rfl, by omega⟩
      simp only [if_neg hn]
      rw [imp_iff_right hlimit, ← normalizeVector_raises_iff (some store.dimensions)]
      exact raisesOnly_bind_of fun _ => raisesOnly_ok _
  | _ => simp [isVectorStoreError]

end MellivorKernel
