import Mathlib.Data.List.Lex
import Mathlib.Data.Prod.Lex
import MellivorKernel.Foundation.Ranking
import MellivorKernel.Memory.VectorRefinement
import MellivorKernel.Python.RealNumbers

/-!
# Querying the vector store

`InMemoryVectorStore.query` with any score of two vectors in a linear order.
The matches are the best records of the namespace, by descending score and
ascending id. They depend on which records the namespace has and on nothing
else (`query_exact`).
-/

namespace MellivorKernel

open Python Foundation

def vectorStoreError (message : Str) : Exn := .raised .vectorStoreError message

/-- `normalize_vector`; `subject` is the capitalized name of the field. A
magnitude is zero if all components are. -/
def normalizeVector (vector : PyValue) (dimensions : Option Nat) (subject : Str) :
    Except Exn (List Rat) := do
  let normalized ← vectorComponents vectorStoreError subject vector
  if ∃ d ∈ dimensions, normalized.length ≠ d then
    .error (vectorStoreError (subject ++ lit " has the wrong dimensions."))
  else if normalized.all (· = 0) then
    .error (vectorStoreError (subject ++ lit " must have non-zero magnitude."))
  else .ok normalized

theorem normalizeVector_eq_ok {vector : PyValue} {dimensions : Option Nat} {subject : Str}
    {components : List Rat} : normalizeVector vector dimensions subject = .ok components ↔
      (∃ values, vector.sequence? = some values ∧
        values.map PyValue.real? = components.map some) ∧
      (∀ d ∈ dimensions, components.length = d) ∧ ∃ x ∈ components, x ≠ 0 := by
  simp only [normalizeVector, bind_eq_ok, vectorComponents_eq_ok]
  constructor
  · rintro ⟨normalized, ⟨hvalues, -⟩, hchecks⟩
    split at hchecks
    · cases hchecks
    · rename_i hdimensions
      split at hchecks
      · cases hchecks
      · rename_i hzero
        cases hchecks
        exact ⟨hvalues, by simpa using hdimensions, by simpa using hzero⟩
  · rintro ⟨hvalues, hdimensions, hnonzero⟩
    have hinhabited : components ≠ [] := by
      rintro rfl
      simp at hnonzero
    refine ⟨components, ⟨hvalues, hinhabited⟩, ?_⟩
    rw [if_neg (by simpa using hdimensions), if_neg (by simpa using hnonzero)]

structure VectorMatch (S : Type) where
  id : Str
  score : S
  metadata : Mapping
  id_ok : blank id = false

section
variable {S : Type} [LinearOrder S]

/-- `(-match.score, match.id)` -/
def VectorMatch.sortKey (m : VectorMatch S) : Lex (Sᵒᵈ × Str) :=
  toLex (OrderDual.toDual m.score, m.id)

variable (score : List Rat → List Rat → S)

def VectorRecord.matchOf (queryVector : List Rat) (record : VectorRecord) : VectorMatch S :=
  ⟨record.id, score queryVector record.vector, record.metadata, record.id_ok⟩

def InMemoryVectorStore.query (store : InMemoryVectorStore) (vector space limit : PyValue) :
    Except Exn (List (VectorMatch S)) := do
  let space ← validateNamespace space
  match limit with
  | .int limit =>
    if limit ≤ 0 then .error (vectorStoreFailure "Vector query limit must be a positive integer.")
    else do
      let queryVector ← normalizeVector vector (some store.dimensions) (lit "Query vector")
      let matched := (store.records space).values.map (VectorRecord.matchOf score queryVector)
      .ok ((matched.insertionSort fun m m' => m.sortKey ≤ m'.sortKey).take limit.toNat)
  | _ => .error (vectorStoreFailure "Vector query limit must be a positive integer.")

-- ---------------------------------------------------------------------------
-- The best records
-- ---------------------------------------------------------------------------

/-- A match ranks before another: with a higher score, or with the same score
and a smaller id. -/
def VectorMatch.Before (m m' : VectorMatch S) : Prop :=
  m'.score < m.score ∨ m.score = m'.score ∧ m.id < m'.id

theorem VectorMatch.before_iff {m m' : VectorMatch S} : m.Before m' ↔ m.sortKey < m'.sortKey := by
  simp [VectorMatch.Before, VectorMatch.sortKey, Prod.Lex.toLex_lt_toLex]

/-- The best `limit` of the records, each matched once and as itself. -/
structure Nearest (queryVector : List Rat) (records : List VectorRecord) (limit : Nat)
    (matched : List (VectorMatch S)) : Prop where
  length : matched.length = min limit records.length
  ordered : matched.Pairwise VectorMatch.Before
  distinct : (matched.map VectorMatch.id).Nodup
  own : ∀ m ∈ matched, ∃ record ∈ records, m.id = record.id ∧
    m.score = score queryVector record.vector ∧ m.metadata = record.metadata
  omitted : ∀ record ∈ records, record.id ∉ matched.map VectorMatch.id →
    ∀ m ∈ matched, m.Before (record.matchOf score queryVector)

variable (queryVector : List Rat) {records : List VectorRecord}

omit [LinearOrder S] in
theorem nodup_sortKey (h : (records.map VectorRecord.id).Nodup) :
    ((records.map (VectorRecord.matchOf score queryVector)).map VectorMatch.sortKey).Nodup := by
  rw [List.map_map]
  refine List.Nodup.of_map (fun key => (ofLex key).2) ?_
  rw [List.map_map]
  exact h

theorem firstRanked_nearest (limit : Nat) (h : (records.map VectorRecord.id).Nodup) :
    Nearest score queryVector records limit (firstRanked VectorMatch.sortKey limit
      (records.map (VectorRecord.matchOf score queryVector))) := by
  have hkeys := nodup_sortKey score queryVector h
  constructor
  · simp
  · exact (pairwise_firstRanked hkeys).imp VectorMatch.before_iff.mpr
  · refine nodup_firstRanked ?_
    rw [List.map_map]
    exact h
  · intro m hm
    obtain ⟨record, hrecord, rfl⟩ := List.mem_map.mp (mem_of_mem_firstRanked hm)
    exact ⟨record, hrecord, rfl, rfl, rfl⟩
  · intro record hrecord hout m hm
    rw [VectorMatch.before_iff]
    refine lt_of_not_mem_firstRanked hkeys hm (List.mem_map_of_mem hrecord) fun hin => hout ?_
    exact List.mem_map_of_mem hin

-- ---------------------------------------------------------------------------
-- After any calls
-- ---------------------------------------------------------------------------

theorem InMemoryVectorStore.Sound.ids_values {store : InMemoryVectorStore} (h : store.Sound)
    (space : Str) :
    (store.records space).values.map VectorRecord.id = (store.records space).keys := by
  rw [Dict.values, Dict.keys, List.map_map]
  refine List.map_congr_left fun entry hentry => ?_
  exact (h.records (Dict.get?_eq_some.mpr hentry)).1

theorem query_eq_firstRanked {store : InMemoryVectorStore} {vector : PyValue} {space : Str}
    {limit : Int} (hspace : matchesNamespace space = true) (hlimit : 0 < limit)
    (hvector : normalizeVector vector (some store.dimensions) (lit "Query vector") =
      .ok queryVector) :
    store.query score vector (.str space) (.int limit) =
      .ok (firstRanked VectorMatch.sortKey limit.toNat
        ((store.records space).values.map (VectorRecord.matchOf score queryVector))) := by
  unfold InMemoryVectorStore.query
  rw [validateNamespace, if_pos hspace]
  simp only [bind, Except.bind]
  rw [if_neg (by omega), hvector]
  rfl

/-- After any calls of a new store, a query with a vector of its dimension
returns the best records of the namespace. After any others that leave the
namespace with the same records, in whatever order, it returns the same. -/
theorem query_exact {dimensions vector : PyValue} {store : InMemoryVectorStore} {space : Str}
    {values : List PyValue} {limit : Int} (hstore : InMemoryVectorStore.new dimensions = .ok store)
    (calls : List VectorCall) (hspace : matchesNamespace space = true)
    (hvector : vector.sequence? = some values)
    (hvalues : values.map PyValue.real? = queryVector.map some)
    (hdimensions : queryVector.length = store.dimensions) (hnonzero : ∃ x ∈ queryVector, x ≠ 0)
    (hlimit : 0 < limit) :
    ∃ matched, (vectorMachine.after store calls).query score vector (.str space) (.int limit) =
        .ok matched ∧
      Nearest score queryVector ((vectorMachine.after store calls).records space).values
        limit.toNat matched ∧
      ∀ others, (∀ record, record ∈ ((vectorMachine.after store others).records space).values ↔
          record ∈ ((vectorMachine.after store calls).records space).values) →
        (vectorMachine.after store others).query score vector (.str space) (.int limit) =
          .ok matched := by
  have hdistinct (calls : List VectorCall) :
      (((vectorMachine.after store calls).records space).values.map VectorRecord.id).Nodup := by
    rw [(vectorStore_refines hstore calls).2.2.2.1.ids_values]
    exact Dict.nodup _
  have hnormalized (calls : List VectorCall) : normalizeVector vector
      (some (vectorMachine.after store calls).dimensions) (lit "Query vector") =
        .ok queryVector := by
    rw [(vectorStore_refines hstore calls).2.2.1]
    exact normalizeVector_eq_ok.mpr ⟨⟨values, hvector, hvalues⟩, by simpa, hnonzero⟩
  have hquery (calls : List VectorCall) :=
    query_eq_firstRanked score queryVector hspace hlimit (hnormalized calls)
  refine ⟨_, hquery calls, firstRanked_nearest score queryVector limit.toNat (hdistinct calls), ?_⟩
  intro others h
  have hperm : ((vectorMachine.after store others).records space).values.Perm
      ((vectorMachine.after store calls).records space).values :=
    (List.perm_ext_iff_of_nodup ((hdistinct others).of_map _) ((hdistinct calls).of_map _)).mpr h
  rw [hquery others,
    firstRanked_eq_of_perm (hperm.map _) (nodup_sortKey score queryVector (hdistinct others))]

end

def dotProduct (v w : List Rat) : Rat := (List.zipWith (· * ·) v w).sum

def diagonalRecord (id : String) (h : blank (lit id) = false) : VectorRecord :=
  ⟨lit id, [1, 1], [], h, 1, by simp⟩

/-- Two records at the same angle, added against the order of their ids. -/
def diagonalCalls : List VectorCall :=
  [.upsert (.tuple [.record (diagonalRecord "z" (by decide))]) (.str (lit "tenant")),
    .upsert (.tuple [.record (diagonalRecord "a" (by decide))]) (.str (lit "tenant"))]

theorem diagonalQuery_exact : ∃ store, InMemoryVectorStore.new (.int 2) = .ok store ∧
    ∃ matched, (vectorMachine.after store diagonalCalls).query dotProduct
        (.tuple [.float (.finite 1), .float (.finite 0)]) (.str (lit "tenant")) (.int 2) =
          .ok matched ∧
      Nearest dotProduct [1, 0]
        ((vectorMachine.after store diagonalCalls).records (lit "tenant")).values 2 matched := by
  have hnew : InMemoryVectorStore.new (.int 2) = .ok ⟨2, Dict.empty⟩ := rfl
  have hvector : (PyValue.tuple [.float (.finite 1), .float (.finite 0)]).sequence? =
      some [.float (.finite 1), .float (.finite 0)] := rfl
  obtain ⟨matched, hmatched, hnearest, -⟩ := query_exact dotProduct [1, 0] hnew diagonalCalls
    (by decide : matchesNamespace (lit "tenant") = true) hvector rfl rfl ⟨1, by simp, by decide⟩
    (by decide : (0 : Int) < 2)
  exact ⟨_, hnew, matched, hmatched, hnearest⟩

end MellivorKernel
