import MellivorKernel.Foundation.Machine
import MellivorKernel.Foundation.Dict
import MellivorKernel.Memory.Entry

/-!
# The in-memory store

`MemoryQuery`, `MemoryResult` and `InMemoryStore` of `memory/`, and the
operations of a memory store as one type, so that two stores can be compared.
-/

namespace MellivorKernel

open Python Foundation

structure MemoryQuery where
  id : Option Str
  tag : Option Str
  metadata : Mapping
  text : Option Str

def MemoryQuery.everything : MemoryQuery := ⟨none, none, [], none⟩

def MemoryQuery.accepts (query : MemoryQuery) (entry : MemoryEntry) : Bool :=
  query.id.all (fun id => entry.id = id) &&
    query.tag.all (fun tag => tag ∈ entry.tags) &&
    query.text.all (fun text => decide (text <:+: entry.content)) &&
    query.metadata.all fun (key, value) => ((entry.metadata.find? key).getD .none).eq value

@[ext] structure MemoryResult where
  entries : List MemoryEntry

-- ---------------------------------------------------------------------------
-- Operations
-- ---------------------------------------------------------------------------

/-- The calls of the `MemoryStore` protocol, and closing the store and opening
it again at the same path. -/
inductive MemoryOp
  | add (entry : MemoryEntry)
  | get (id : Str)
  | search (query : MemoryQuery)
  | delete (id : Str)
  | clear
  | reopen

inductive MemoryReply
  | none
  | entry (found : Option MemoryEntry)
  | result (matching : MemoryResult)
  | removed (b : Bool)

-- ---------------------------------------------------------------------------
-- The store
-- ---------------------------------------------------------------------------

/-- `_matches` of `memory/in_memory.py`. -/
def InMemoryStore.matches (entry : MemoryEntry) (query : MemoryQuery) : Bool := query.accepts entry

structure InMemoryStore where
  entries : Dict Str MemoryEntry

def InMemoryStore.new : InMemoryStore := ⟨Dict.empty⟩

def InMemoryStore.add (store : InMemoryStore) (entry : MemoryEntry) : InMemoryStore :=
  ⟨store.entries.set entry.id entry⟩

def InMemoryStore.get (store : InMemoryStore) (id : Str) : Option MemoryEntry :=
  store.entries.get? id

def InMemoryStore.search (store : InMemoryStore) (query : MemoryQuery) : MemoryResult :=
  ⟨store.entries.values.filter fun entry => InMemoryStore.matches entry query⟩

/-- `self._entries.pop(id, None) is not None` -/
def InMemoryStore.delete (store : InMemoryStore) (id : Str) : Bool × InMemoryStore :=
  ((store.entries.get? id).isSome, ⟨store.entries.erase id⟩)

def InMemoryStore.clear (_store : InMemoryStore) : InMemoryStore := ⟨Dict.empty⟩

/-- There is no file to close, so reopening does nothing here. -/
def InMemoryStore.perform : Machine InMemoryStore MemoryOp (Except Exn MemoryReply)
  | store, .add entry => (.ok .none, store.add entry)
  | store, .get id => (.ok (.entry (store.get id)), store)
  | store, .search query => (.ok (.result (store.search query)), store)
  | store, .delete id => (.ok (.removed (store.delete id).1), (store.delete id).2)
  | store, .clear => (.ok .none, store.clear)
  | store, .reopen => (.ok .none, store)

end MellivorKernel
