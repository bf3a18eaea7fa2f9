import MellivorKernel.Memory.SearchMeaning

/-!
# A store used from several threads

`check_same_thread=True`: the connection serves the thread that opened it. In
any other one `add` fails before it reaches the table, and so does the rollback
behind it; such calls leave the store as it was, and their order does not show.
What the thread of the connection adds is kept as in memory
(`file_represents`).
-/

namespace MellivorKernel

open Python Foundation

/-- What `sqlite3` answers a thread that did not open the connection. -/
def foreignThread (opener thread : Nat) : Exn :=
  .raised .sqliteError
    (lit "SQLite objects created in a thread can only be used in that same thread. " ++
      lit "The object was created in thread id " ++ decimal opener ++
      lit " and this is thread id " ++ decimal thread ++ lit ".")

structure Filing where
  thread : Nat
  entry : MemoryEntry

section
variable [Printing]

/-- The texts that are bound as they are have an encoding, and JSON takes the
metadata. -/
def MemoryEntry.writable (entry : MemoryEntry) : Bool :=
  encodable entry.id && encodable entry.content &&
    (PyValue.dict entry.metadata).jsonable .strict

def SQLiteMemoryStore.addFrom (store : SQLiteMemoryStore) (opener thread : Nat)
    (entry : MemoryEntry) : Except Exn Unit × SQLiteMemoryStore :=
  if thread = opener then store.add entry none
  else match columnsOf entry with
  | .error exc => (.error exc, store)
  | .ok _ => (translated (lit "Failed to store entry id=" ++ pyRepr entry.id)
      (.error (foreignThread opener thread)), store)

def SQLiteMemoryStore.file (opener : Nat) (store : SQLiteMemoryStore) (filings : List Filing) :
    SQLiteMemoryStore :=
  filings.foldl (fun store filing => (store.addFrom opener filing.thread filing.entry).2) store

omit [Printing] in
def entriesOf (thread : Nat) (filings : List Filing) : List MemoryEntry :=
  (filings.filter (·.thread = thread)).map Filing.entry

/-- The store in memory with those of the entries that can be written, as JSON
gives them back. -/
def InMemoryStore.keep (memory : InMemoryStore) (entries : List MemoryEntry) : InMemoryStore :=
  (entries.filter MemoryEntry.writable).foldl (fun memory entry => memory.add entry.reread) memory

omit [Printing] in
theorem entriesOf_append (thread : Nat) (filings more : List Filing) :
    entriesOf thread (filings ++ more) = entriesOf thread filings ++ entriesOf thread more := by
  simp [entriesOf]

variable {store : SQLiteMemoryStore} {memory : InMemoryStore} {entry : MemoryEntry} {opener : Nat}

theorem addFrom_own : store.addFrom opener opener entry = store.add entry none := if_pos rfl

theorem addFrom_foreign {thread : Nat} (h : thread ≠ opener) :
    (store.addFrom opener thread entry).2 = store := by
  unfold SQLiteMemoryStore.addFrom
  rw [if_neg h]
  split <;> rfl

theorem writable_of_add (h : (store.add entry none).1 = .ok ()) : entry.writable = true := by
  unfold SQLiteMemoryStore.add SQLiteMemoryStore.transact at h
  cases hrow : columnsOf entry with
  | error exc =>
    rw [hrow] at h
    cases h
  | ok row =>
    obtain ⟨tags, metadata, -, hmetadata, rfl⟩ := columnsOf_ok hrow
    rw [hrow] at h
    simp only at h
    split at h
    · cases h
    · rename_i hexec
      have hall := encodable_of_executeError hexec
      simp [MemoryEntry.writable, hall entry.id (by simp), hall entry.content (by simp),
        (PyValue.dumps_returns _).mp ⟨metadata, hmetadata⟩]

theorem add_keeps (h : Represents store memory) :
    Represents (store.add entry none).2 (memory.keep [entry]) := by
  by_cases hwritable : entry.writable = true
  · have hkeep : memory.keep [entry] = memory.add entry.reread := by
      simp [InMemoryStore.keep, hwritable]
    unfold MemoryEntry.writable at hwritable
    simp only [Bool.and_eq_true] at hwritable
    have hadd : (store.add entry none).1 = .ok () :=
      add_returns hwritable.1.1 hwritable.1.2 hwritable.2
    have hnext := performUnder_represents (lit "") h (.add entry, none)
    simp only [SQLiteMemoryStore.performUnder, hadd] at hnext
    rw [hkeep]
    exact hnext
  · cases hadd : (store.add entry none).1 with
    | ok u => exact absurd (writable_of_add hadd) hwritable
    | error exc =>
      rw [add_error h.committed hadd]
      simpa [InMemoryStore.keep, hwritable] using h

theorem file_represents (h : Represents store memory) (filings : List Filing) :
    Represents (store.file opener filings) (memory.keep (entriesOf opener filings)) := by
  induction filings generalizing store memory with
  | nil => exact h
  | cons filing filings ih =>
    have hkeep (more : List MemoryEntry) :
        memory.keep (filing.entry :: more) = (memory.keep [filing.entry]).keep more := by
      by_cases hwritable : filing.entry.writable = true <;> simp [InMemoryStore.keep, hwritable]
    have hstep : store.file opener (filing :: filings) =
        (store.addFrom opener filing.thread filing.entry).2.file opener filings := rfl
    rw [hstep]
    by_cases hown : filing.thread = opener
    · have hentries : entriesOf opener (filing :: filings) =
          filing.entry :: entriesOf opener filings := by simp [entriesOf, hown]
      rw [hentries, hkeep, hown, addFrom_own]
      exact ih (add_keeps h)
    · have hentries : entriesOf opener (filing :: filings) = entriesOf opener filings := by
        simp [entriesOf, hown]
      rw [hentries, addFrom_foreign hown]
      exact ih h

end

end MellivorKernel
