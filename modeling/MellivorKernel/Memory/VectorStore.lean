import MellivorKernel.Foundation.Machine
import MellivorKernel.Foundation.Dict
import MellivorKernel.Python.Value

/-!
# The in-memory vector store

`InMemoryVectorStore` of `memory/_vector/in_memory.py`, up to `query`, which
does not change it. Arguments are what a caller can pass: a namespace and ids
are any values, a batch need not be a tuple nor its members records.
-/

namespace MellivorKernel

open Python Foundation

/-- The components of a normalized vector are finite, and not all are zero. -/
structure VectorRecord where
  id : Str
  vector : List Rat
  metadata : Mapping
  id_ok : blank id = false
  vector_ok : ∃ x ∈ vector, x ≠ 0

/-- A member of a batch; `other` is no `VectorRecord`. -/
inductive BatchItem
  | record (record : VectorRecord)
  | other

/-- The `records` argument; `other` is no tuple. -/
inductive Batch
  | tuple (items : List BatchItem)
  | other

structure InMemoryVectorStore where
  dimensions : Nat
  namespaces : Dict Str (Dict Str VectorRecord)

def vectorStoreFailure (message : String) : Exn := .raised .vectorStoreError (lit message)

def InMemoryVectorStore.new (dimensions : PyValue) : Except Exn InMemoryVectorStore :=
  match dimensions with
  | .int n =>
    if n ≤ 0 then .error (vectorStoreFailure "Vector store dimensions must be a positive integer.")
    else .ok ⟨n.toNat, Dict.empty⟩
  | _ => .error (vectorStoreFailure "Vector store dimensions must be a positive integer.")

-- ---------------------------------------------------------------------------
-- Validation
-- ---------------------------------------------------------------------------

def isAlphanumeric (c : CodePoint) : Bool :=
  (65 ≤ c.val && c.val ≤ 90) || (97 ≤ c.val && c.val ≤ 122) || (48 ≤ c.val && c.val ≤ 57)

/-- `_NAMESPACE_PATTERN.fullmatch`: `[A-Za-z0-9][A-Za-z0-9._-]{0,127}`, with
the braces of the pattern. -/
def matchesNamespace : Str → Bool
  | [] => false
  | c :: rest => isAlphanumeric c && rest.length ≤ 127 &&
    rest.all fun c => isAlphanumeric c || c = cp '.' || c = cp '_' || c = cp '-'

/-- `_validate_namespace`, returning the text it checked. -/
def validateNamespace : PyValue → Except Exn Str
  | .str s =>
    if matchesNamespace s then .ok s
    else .error (vectorStoreFailure "Vector namespace has an invalid format.")
  | _ => .error (vectorStoreFailure "Vector namespace has an invalid format.")

def checkRecordIds (seen : List Str) : List PyValue → Except Exn (List Str)
  | [] => .ok []
  | .str recordId :: rest =>
    if blank recordId then
      .error (vectorStoreFailure "Vector record IDs must be non-blank strings.")
    else if recordId ∈ seen then
      .error (vectorStoreFailure "Vector record IDs must not contain duplicates.")
    else (checkRecordIds (recordId :: seen) rest).map (recordId :: ·)
  | _ :: _ => .error (vectorStoreFailure "Vector record IDs must be non-blank strings.")

def validateRecordIds : PyValue → Except Exn (List Str)
  | .tuple recordIds => checkRecordIds [] recordIds
  | _ => .error (vectorStoreFailure "Vector record IDs must be a tuple.")

def checkBatch (dimensions : Nat) (identifiers : List Str) :
    List BatchItem → Except Exn (List VectorRecord)
  | [] => .ok []
  | .other :: _ => .error (vectorStoreFailure "Vector upsert accepts only VectorRecord values.")
  | .record record :: rest =>
    if record.id ∈ identifiers then
      .error (vectorStoreFailure "Vector upsert batch contains a duplicate record ID.")
    else if record.vector.length ≠ dimensions then
      .error (vectorStoreFailure "Vector record has the wrong dimensions for this store.")
    else (checkBatch dimensions (record.id :: identifiers) rest).map (record :: ·)

def validateBatch (dimensions : Nat) : Batch → Except Exn (List VectorRecord)
  | .tuple [] | .other =>
    .error (vectorStoreFailure "Vector upsert requires a non-empty record tuple.")
  | .tuple items => checkBatch dimensions [] items

-- ---------------------------------------------------------------------------
-- Operations
-- ---------------------------------------------------------------------------

namespace InMemoryVectorStore

def records (store : InMemoryVectorStore) (space : Str) : Dict Str VectorRecord :=
  (store.namespaces.get? space).getD Dict.empty

def upsert (store : InMemoryVectorStore) (batch : Batch) (space : PyValue) :
    Except Exn InMemoryVectorStore := do
  let space ← validateNamespace space
  let validated ← validateBatch store.dimensions batch
  let target := validated.foldl (fun target record => target.set record.id record)
    (store.records space)
  return { store with namespaces := store.namespaces.set space target }

def fetch (store : InMemoryVectorStore) (recordIds : PyValue) (space : PyValue) :
    Except Exn (List VectorRecord) := do
  let space ← validateNamespace space
  let identifiers ← validateRecordIds recordIds
  return identifiers.filterMap (store.records space).get?

def delete (store : InMemoryVectorStore) (recordIds : PyValue) (space : PyValue) :
    Except Exn InMemoryVectorStore := do
  let space ← validateNamespace space
  let identifiers ← validateRecordIds recordIds
  match store.namespaces.get? space with
  | none => return store
  | some records =>
    let records := identifiers.foldl Dict.erase records
    if records.keys = [] then return { store with namespaces := store.namespaces.erase space }
    else return { store with namespaces := store.namespaces.set space records }

end InMemoryVectorStore

inductive VectorCall
  | upsert (records : Batch) (space : PyValue)
  | fetch (recordIds : PyValue) (space : PyValue)
  | delete (recordIds : PyValue) (space : PyValue)

/-- What a call returns: records for `fetch`, and nothing otherwise. -/
abbrev Fetched := Option (List VectorRecord)

def InMemoryVectorStore.changed (store : InMemoryVectorStore) :
    Except Exn InMemoryVectorStore → Except Exn Fetched × InMemoryVectorStore
  | .ok store => (.ok none, store)
  | .error exc => (.error exc, store)

def vectorMachine : Machine InMemoryVectorStore VectorCall (Except Exn Fetched)
  | store, .upsert records space => store.changed (store.upsert records space)
  | store, .fetch recordIds space => ((store.fetch recordIds space).map some, store)
  | store, .delete recordIds space => store.changed (store.delete recordIds space)

end MellivorKernel
