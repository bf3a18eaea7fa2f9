import MellivorKernel.Foundation.RowTable
import MellivorKernel.Memory.InMemory
import MellivorKernel.Python.JsonScan

/-!
# The SQLite store

`SQLiteMemoryStore` of `memory/sqlite_store.py` over a table with a rowid. A
connection sees the table as its transaction has it; the file holds what was
committed. Every statement may be answered with an `sqlite3.Error`, given here
by its text, and then leaves nothing behind.
-/

namespace MellivorKernel

open Python Foundation

/-- The columns of `memory_entries` besides the key, all of them text. -/
structure Columns where
  content : Str
  tags : Str
  metadata : Str
  createdAt : Str
  deriving DecidableEq

abbrev MemoryTable := RowTable Str Columns

structure SQLiteMemoryStore where
  committed : MemoryTable
  working : MemoryTable

section
variable [Printing]

-- ---------------------------------------------------------------------------
-- Statements
-- ---------------------------------------------------------------------------

def isSurrogate (c : CodePoint) : Bool := isHighSurrogate c || isLowSurrogate c

def encodable (s : Str) : Bool := s.all fun c => !isSurrogate c

/-- Binding a parameter encodes it. -/
def encodingError (s : Str) : Exn :=
  let start := (s.takeWhile fun c => !isSurrogate c).length
  let stop := start + ((s.drop start).takeWhile isSurrogate).length
  .raised .unicodeEncodeError (lit "'utf-8' codec can't encode " ++
    (if stop = start + 1 then
      lit "character '" ++ (s.drop start).head?.elim [] (escape (cp '\'')) ++ lit "' in position " ++
        decimal start
    else lit "characters in position " ++ decimal start ++ lit "-" ++ decimal (stop - 1)) ++
    lit ": surrogates not allowed")

def executeError (fault : Option Str) (params : List Str) : Option Exn :=
  match params.find? fun s => !encodable s with
  | some s => some (encodingError s)
  | none => fault.map (.raised .sqliteError)

/-- `with self._conn: self._conn.execute(...)`: commit what the statement did,
or roll back. -/
def SQLiteMemoryStore.transact (store : SQLiteMemoryStore) (fault : Option Str) (params : List Str)
    (change : MemoryTable → MemoryTable) : Except Exn Unit × SQLiteMemoryStore :=
  match executeError fault params with
  | some exc => (.error exc, { store with working := store.committed })
  | none => (.ok (), ⟨change store.working, change store.working⟩)

/-- `self._conn.execute(...)` of a query. -/
def SQLiteMemoryStore.query (store : SQLiteMemoryStore) (fault : Option Str) (params : List Str)
    (f : MemoryTable → α) : Except Exn α :=
  match executeError fault params with
  | some exc => .error exc
  | none => .ok (f store.working)

/-- `except sqlite3.Error as exc: raise MemoryError(f"...: {exc}")` -/
def translated (message : Str) (r : Except Exn α) : Except Exn α :=
  r.mapError fun exc =>
    if exc.isA .sqliteError then .raised .memoryError (message ++ lit ": " ++ exc.text) else exc

-- ---------------------------------------------------------------------------
-- Rows
-- ---------------------------------------------------------------------------

/-- The parameters of the upsert. -/
def columnsOf (entry : MemoryEntry) : Except Exn Columns := do
  let tags ← (PyValue.list (entry.tags.sort.map .str)).dumps .strict
  let metadata ← (entry.metadata.dumps .strict).mapError fun exc =>
    if exc.isA .typeError then
      .raised .memoryError (lit "MemoryEntry.metadata for id=" ++ pyRepr entry.id ++
        lit " is not JSON-serializable: " ++ exc.text)
    else exc
  .ok { content := entry.content, tags, metadata, createdAt := entry.createdAt.isoformat }

def elementText : PyValue → Except Exn Str
  | .str s => .ok s
  | _ => .error (.raised .typeError (lit "expected a text"))

/-- `frozenset(v)` of a list of texts, which is what the store writes. -/
def frozenset : PyValue → Except Exn (Finset Str)
  | .list items => do
    let texts ← items.mapM elementText
    .ok texts.toFinset
  | _ => .error (.raised .typeError (lit "expected a list"))

def rowToEntry (id : Str) (row : Columns) : Except Exn MemoryEntry := do
  let tags ← loads row.tags
  let tags ← frozenset tags
  let metadata ← loads row.metadata
  match metadata, fromisoformat row.createdAt with
  | .dict metadata, some createdAt => MemoryEntry.new id row.content tags metadata createdAt
  | _, none => .error (.raised .valueError
      (lit "Invalid isoformat string: " ++ pyRepr row.createdAt))
  | _, _ => .error (.raised .typeError (lit "expected a mapping"))

-- ---------------------------------------------------------------------------
-- The store
-- ---------------------------------------------------------------------------

/-- `_matches` of `memory/sqlite_store.py`. -/
def SQLiteMemoryStore.matches (entry : MemoryEntry) (query : MemoryQuery) : Bool :=
  query.accepts entry

/-- `SQLiteMemoryStore(path)` on what is at the path: nothing, or a file with
its table. -/
def SQLiteMemoryStore.opened (path : Str) (file : Option MemoryTable) (fault : Option Str) :
    Except Exn SQLiteMemoryStore :=
  translated (lit "Failed to open SQLite memory store at " ++ path)
    (match fault with
    | some text => .error (.raised .sqliteError text)
    | none => .ok ⟨file.getD RowTable.empty, file.getD RowTable.empty⟩)

def SQLiteMemoryStore.add (store : SQLiteMemoryStore) (entry : MemoryEntry) (fault : Option Str) :
    Except Exn Unit × SQLiteMemoryStore :=
  match columnsOf entry with
  | .error exc => (.error exc, store)
  | .ok row =>
    let (r, store) := store.transact fault
      [entry.id, row.content, row.tags, row.metadata, row.createdAt] (·.upsert entry.id row)
    (translated (lit "Failed to store entry id=" ++ pyRepr entry.id) r, store)

def SQLiteMemoryStore.get (store : SQLiteMemoryStore) (id : Str) (fault : Option Str) :
    Except Exn (Option MemoryEntry) := do
  let row ← translated (lit "Failed to read entry id=" ++ pyRepr id)
    (store.query fault [id] (·.select id))
  match row with
  | none => .ok none
  | some row => do
    let entry ← rowToEntry row.key row.value
    .ok (some entry)

def SQLiteMemoryStore.search (store : SQLiteMemoryStore) (query : MemoryQuery)
    (fault : Option Str) : Except Exn MemoryResult := do
  let rows ← translated (lit "Failed to search memory store") (store.query fault [] (·.ordered))
  let entries ← rows.mapM fun row => rowToEntry row.key row.value
  .ok ⟨entries.filter fun entry => SQLiteMemoryStore.matches entry query⟩

def SQLiteMemoryStore.delete (store : SQLiteMemoryStore) (id : Str) (fault : Option Str) :
    Except Exn Bool × SQLiteMemoryStore :=
  let removed := store.working.rowcount id
  let (r, store) := store.transact fault [id] (·.delete id)
  ((translated (lit "Failed to delete entry id=" ++ pyRepr id) r).map fun _ => 0 < removed, store)

def SQLiteMemoryStore.clear (store : SQLiteMemoryStore) (fault : Option Str) :
    Except Exn Unit × SQLiteMemoryStore :=
  let (r, store) := store.transact fault [] fun _ => RowTable.empty
  (translated (lit "Failed to clear memory store") r, store)

/-- What is left at the path once the connection is closed. -/
def SQLiteMemoryStore.close (store : SQLiteMemoryStore) : Option MemoryTable := some store.committed

/-- The operations of a store at `path`, while SQLite raises nothing. -/
def SQLiteMemoryStore.perform (path : Str) :
    Machine SQLiteMemoryStore MemoryOp (Except Exn MemoryReply)
  | store, .add entry => ((store.add entry none).1.map fun _ => .none, (store.add entry none).2)
  | store, .get id => ((store.get id none).map .entry, store)
  | store, .search query => ((store.search query none).map .result, store)
  | store, .delete id => ((store.delete id none).1.map .removed, (store.delete id none).2)
  | store, .clear => ((store.clear none).1.map fun _ => .none, (store.clear none).2)
  | store, .reopen => match SQLiteMemoryStore.opened path store.close none with
    | .ok reopened => (.ok .none, reopened)
    | .error exc => (.error exc, store)

end

end MellivorKernel
