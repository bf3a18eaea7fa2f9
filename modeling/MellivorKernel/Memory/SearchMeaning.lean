import MellivorKernel.Memory.AddBoundary

/-!
# What a search means

The entries a run of operations leaves in a store, as a list in the order in
which their ids were first added, and which of them a query selects. Both
stores return these, except that asking for a key with the value `None` also
lets entries through that do not have the key.
-/

namespace MellivorKernel

open Python Foundation

-- ---------------------------------------------------------------------------
-- Queries
-- ---------------------------------------------------------------------------

/-- The entry meets the filters on its id, its tags and its content. -/
structure MemoryQuery.Admits (query : MemoryQuery) (entry : MemoryEntry) : Prop where
  id : ∀ id, query.id = some id → entry.id = id
  tag : ∀ tag, query.tag = some tag → tag ∈ entry.tags
  text : ∀ text, query.text = some text → text <:+: entry.content

/-- The key is present in the metadata, with an equal value. -/
def MemoryEntry.Carries (entry : MemoryEntry) (pair : PyKey × PyValue) : Prop :=
  ∃ v, entry.metadata.find? pair.1 = some v ∧ v.eq pair.2 = true

def MemoryEntry.Omits (entry : MemoryEntry) (key : PyKey) : Prop :=
  entry.metadata.find? key = none

/-- The entry satisfies every filter that is set. -/
def MemoryQuery.Selects (query : MemoryQuery) (entry : MemoryEntry) : Prop :=
  query.Admits entry ∧ ∀ pair ∈ query.metadata, entry.Carries pair

/-- The entry would be selected if it did not lack keys that the query asks
for with the value `None`. -/
def MemoryQuery.LetsThrough (query : MemoryQuery) (entry : MemoryEntry) : Prop :=
  query.Admits entry ∧
    (∀ pair ∈ query.metadata, entry.Carries pair ∨ entry.Omits pair.1 ∧ pair.2 = .none) ∧
    ∃ pair ∈ query.metadata, entry.Omits pair.1

theorem none_eq {v : PyValue} : PyValue.none.eq v = true ↔ v = .none := by
  cases v <;> simp [PyValue.eq, PyValue.number?]

theorem accepts_iff {query : MemoryQuery} {entry : MemoryEntry} :
    query.accepts entry = true ↔ query.Admits entry ∧
      ∀ pair ∈ query.metadata, entry.Carries pair ∨ entry.Omits pair.1 ∧ pair.2 = .none := by
  have hpair (pair : PyKey × PyValue) :
      ((entry.metadata.find? pair.1).getD .none).eq pair.2 = true ↔
        entry.Carries pair ∨ entry.Omits pair.1 ∧ pair.2 = .none := by
    unfold MemoryEntry.Carries MemoryEntry.Omits
    cases entry.metadata.find? pair.1 <;> simp [none_eq]
  have hadmits : query.Admits entry ↔ query.id.all (fun id => entry.id = id) = true ∧
      query.tag.all (fun tag => tag ∈ entry.tags) = true ∧
      query.text.all (fun text => decide (text <:+: entry.content)) = true := by
    simp only [Option.all_eq_true, decide_eq_true_eq]
    exact ⟨fun h => ⟨h.id, h.tag, h.text⟩, fun h => ⟨h.1, h.2.1, h.2.2⟩⟩
  simp only [MemoryQuery.accepts, Bool.and_eq_true, List.all_eq_true, hpair, hadmits, and_assoc]

theorem MemoryEntry.Carries.not_omits {entry : MemoryEntry} {pair : PyKey × PyValue}
    (h : entry.Carries pair) : ¬ entry.Omits pair.1 := by
  obtain ⟨v, hv, -⟩ := h
  intro homits
  cases hv.symm.trans homits

theorem accepts_iff_selects {query : MemoryQuery} {entry : MemoryEntry} :
    (query.accepts entry = true ↔ query.Selects entry) ↔ ¬ query.LetsThrough entry := by
  rw [accepts_iff]
  constructor
  · rintro h ⟨hadmits, hpairs, pair, hmem, homits⟩
    exact ((h.mp ⟨hadmits, hpairs⟩).2 pair hmem).not_omits homits
  · intro h
    refine and_congr_right fun hadmits => ⟨fun hpairs pair hmem => ?_, fun hpairs pair hmem => ?_⟩
    · rcases hpairs pair hmem with hcarries | ⟨homits, -⟩
      · exact hcarries
      · exact absurd ⟨hadmits, hpairs, pair, hmem, homits⟩ h
    · exact .inl (hpairs pair hmem)

-- ---------------------------------------------------------------------------
-- What is remembered
-- ---------------------------------------------------------------------------

/-- The entries held after an operation: an overwrite keeps the position. -/
def remembered : List MemoryEntry → MemoryOp → List MemoryEntry
  | held, .add entry =>
    if entry.id ∈ held.map MemoryEntry.id then held.map fun e => if e.id = entry.id then entry else e
    else held ++ [entry]
  | held, .delete id => held.filter fun e => e.id ≠ id
  | _, .clear => []
  | held, _ => held

def heldAfter (ops : List MemoryOp) : List MemoryEntry := ops.foldl remembered []

def InMemoryStore.Holds (memory : InMemoryStore) (held : List MemoryEntry) : Prop :=
  memory.entries.entries = held.map fun entry => (entry.id, entry)

section
variable {memory : InMemoryStore} {held : List MemoryEntry}

theorem InMemoryStore.Holds.keys (h : memory.Holds held) :
    memory.entries.keys = held.map MemoryEntry.id := by
  rw [Dict.keys, h, List.map_map]
  rfl

theorem InMemoryStore.Holds.nodup (h : memory.Holds held) : (held.map MemoryEntry.id).Nodup :=
  h.keys ▸ memory.entries.nodup

theorem InMemoryStore.Holds.values (h : memory.Holds held) : memory.entries.values = held := by
  rw [Dict.values, h, List.map_map]
  exact List.map_id _

theorem perform_holds (h : memory.Holds held) (op : MemoryOp) :
    (memory.perform op).2.Holds (remembered held op) := by
  cases op with
  | add entry =>
    change (memory.entries.set entry.id entry).entries = _
    by_cases hmem : entry.id ∈ held.map MemoryEntry.id
    · rw [Dict.entries_set_of_mem (h.keys ▸ hmem), h, remembered, if_pos hmem, List.map_map,
        List.map_map]
      refine List.map_congr_left fun e _ => ?_
      by_cases he : e.id = entry.id <;> simp [he]
    · rw [Dict.entries_set_of_not_mem (h.keys ▸ hmem), h, remembered, if_neg hmem, List.map_append]
      rfl
  | delete id =>
    change (memory.entries.erase id).entries = _
    rw [Dict.entries_erase, h, List.filter_map]
    rfl
  | clear => rfl
  | get | search | reopen => exact h

theorem after_holds (h : memory.Holds held) (ops : List MemoryOp) :
    (Machine.after InMemoryStore.perform memory ops).Holds (ops.foldl remembered held) := by
  induction ops generalizing memory held with
  | nil => exact h
  | cons op ops ih => exact ih (perform_holds h op)

end

-- ---------------------------------------------------------------------------
-- What is found
-- ---------------------------------------------------------------------------

/-- Of the entries held, each once and in their order, those the query
selects. -/
structure SearchLaw (held : List MemoryEntry) (query : MemoryQuery) (result : MemoryResult) :
    Prop where
  order : result.entries.Sublist held
  once : (result.entries.map MemoryEntry.id).Nodup
  selected : ∀ entry, entry ∈ result.entries ↔ entry ∈ held ∧ query.Selects entry

theorem searchLaw_iff {held : List MemoryEntry} (hn : (held.map MemoryEntry.id).Nodup)
    (query : MemoryQuery) : SearchLaw held query ⟨held.filter query.accepts⟩ ↔
      ∀ entry ∈ held, ¬ query.LetsThrough entry := by
  simp only [← accepts_iff_selects]
  constructor
  · intro law entry hmem
    have hentry := law.selected entry
    rwa [List.mem_filter, and_congr_right_iff, imp_iff_right hmem] at hentry
  · intro h
    refine ⟨List.filter_sublist, (List.filter_sublist.map _).nodup hn, fun entry => ?_⟩
    rw [List.mem_filter]
    exact and_congr_right (h entry)

section
variable [Printing]

def MemoryOp.reread : MemoryOp → MemoryOp
  | .add entry => .add entry.reread
  | op => op

/-- The operations of a run that returned, each added entry with the tags and
the metadata that JSON gives back. -/
def SQLiteMemoryStore.history (path : Str) :
    SQLiteMemoryStore → List (MemoryOp × Option Str) → List MemoryOp
  | _, [] => []
  | store, op :: rest =>
    (if (performUnder path store op).1.isOk then [op.1.reread] else []) ++
      history path (performUnder path store op).2 rest

variable {store : SQLiteMemoryStore} {memory : InMemoryStore}

theorem transact_cases (h : store.Settled) (fault : Option Str) (params : List Str)
    (change : MemoryTable → MemoryTable) :
    (∃ exc, store.transact fault params change = (.error exc, store)) ∨
      store.transact fault params change =
        (.ok (), ⟨change store.working, change store.working⟩) := by
  cases hexec : executeError fault params with
  | some exc => exact .inl ⟨exc, transact_error h hexec⟩
  | none => exact .inr (by simp only [SQLiteMemoryStore.transact, hexec])

theorem add_error (h : store.Settled) {entry : MemoryEntry} {fault : Option Str} {exc : Exn}
    (hadd : (store.add entry fault).1 = .error exc) : (store.add entry fault).2 = store := by
  unfold SQLiteMemoryStore.add at hadd ⊢
  cases hrow : columnsOf entry with
  | error exc => rfl
  | ok row =>
    simp only [hrow] at hadd ⊢
    rcases transact_cases h fault
        [entry.id, row.content, row.tags, row.metadata, row.createdAt] (·.upsert entry.id row) with
      ⟨exc, hraised⟩ | hok
    · rw [hraised]
    · rw [hok] at hadd
      cases hadd

/-- One operation, whatever it is answered with: in memory it happens if it
returned. -/
theorem performUnder_represents (path : Str) (h : Represents store memory)
    (op : MemoryOp × Option Str) :
    Represents (SQLiteMemoryStore.performUnder path store op).2
      (Machine.after InMemoryStore.perform memory
        (if (SQLiteMemoryStore.performUnder path store op).1.isOk then [op.1.reread] else [])) := by
  obtain ⟨op, fault⟩ := op
  cases op with
  | add entry =>
    cases hadd : (store.add entry fault).1 with
    | error exc =>
      simp only [SQLiteMemoryStore.performUnder, hadd, add_error h.committed hadd]
      exact h
    | ok u =>
      obtain ⟨row, hrow, -, hstore⟩ := add_ok hadd
      simp only [SQLiteMemoryStore.performUnder, hadd, hstore]
      refine ⟨rfl, ?_⟩
      rw [RowTable.toDict_upsert]
      exact h.related.set (rowToEntry_columnsOf hrow)
  | get id =>
    by_cases hok : (SQLiteMemoryStore.performUnder path store (.get id, fault)).1.isOk = true
    · rw [if_pos hok]
      exact h
    · rw [if_neg hok]
      exact h
  | search query =>
    by_cases hok : (SQLiteMemoryStore.performUnder path store (.search query, fault)).1.isOk = true
    · rw [if_pos hok]
      exact h
    · rw [if_neg hok]
      exact h
  | delete id =>
    rcases transact_cases h.committed fault [id] (·.delete id) with ⟨exc, hraised⟩ | hok
    · simp only [SQLiteMemoryStore.performUnder, SQLiteMemoryStore.delete, hraised]
      exact h
    · simp only [SQLiteMemoryStore.performUnder, SQLiteMemoryStore.delete, hok]
      refine ⟨rfl, ?_⟩
      rw [RowTable.toDict_delete]
      exact h.related.erase id
  | clear =>
    rcases transact_cases h.committed fault [] fun _ => RowTable.empty with ⟨exc, hraised⟩ | hok
    · simp only [SQLiteMemoryStore.performUnder, SQLiteMemoryStore.clear, hraised]
      exact h
    · simp only [SQLiteMemoryStore.performUnder, SQLiteMemoryStore.clear, hok]
      exact .empty
  | reopen =>
    cases fault with
    | some text => exact h
    | none =>
      simp only [SQLiteMemoryStore.performUnder, opened_represents, SQLiteMemoryStore.close,
        Option.getD_some, h.committed]
      exact ⟨rfl, h.related⟩

theorem after_represents (path : Str) (h : Represents store memory)
    (ops : List (MemoryOp × Option Str)) :
    Represents (Machine.after (SQLiteMemoryStore.performUnder path) store ops)
      (Machine.after InMemoryStore.perform memory (store.history path ops)) := by
  induction ops generalizing store memory with
  | nil => exact h
  | cons op ops ih =>
    rw [SQLiteMemoryStore.history, Machine.after_append]
    exact ih (performUnder_represents path h op)

-- ---------------------------------------------------------------------------
-- The law of searching
-- ---------------------------------------------------------------------------

/-- In every state a run leads to, `search` of the store in memory, and of the
SQLite store over the operations that returned, follows the law exactly where
no entry held lacks a key that is asked for with `None` and is otherwise
selected. -/
theorem search_lawful_iff (path : Str) (ops : List MemoryOp) (calls : List (MemoryOp × Option Str))
    (query : MemoryQuery) :
    let history := SQLiteMemoryStore.history path ⟨RowTable.empty, RowTable.empty⟩ calls
    (SearchLaw (heldAfter ops) query
        ((Machine.after InMemoryStore.perform InMemoryStore.new ops).search query) ↔
      ∀ entry ∈ heldAfter ops, ¬ query.LetsThrough entry) ∧
    ((∃ result, (Machine.after (SQLiteMemoryStore.performUnder path)
          ⟨RowTable.empty, RowTable.empty⟩ calls).search query none = .ok result ∧
        SearchLaw (heldAfter history) query result) ↔
      ∀ entry ∈ heldAfter history, ¬ query.LetsThrough entry) := by
  have hnew : InMemoryStore.new.Holds [] := rfl
  have hmemory (ops : List MemoryOp) : SearchLaw (heldAfter ops) query
        ((Machine.after InMemoryStore.perform InMemoryStore.new ops).search query) ↔
      ∀ entry ∈ heldAfter ops, ¬ query.LetsThrough entry := by
    have hholds := after_holds hnew ops
    rw [InMemoryStore.search, hholds.values]
    exact searchLaw_iff hholds.nodup query
  refine ⟨hmemory ops, ?_⟩
  rw [search_represents (after_represents path .empty calls), ← hmemory]
  simp

end

/-- Asking for entries whose topic is `None`. -/
def noTopic : MemoryQuery := { MemoryQuery.everything with metadata := [item "topic" .none] }

/-- An entry without a topic is found. -/
theorem noTopic_found :
    let ops := [MemoryOp.add (note "untitled" "has no topic" rfl rfl)]
    ¬ SearchLaw (heldAfter ops) noTopic
      ((Machine.after InMemoryStore.perform InMemoryStore.new ops).search noTopic) := by
  intro ops law
  have hfound := (law.selected (note "untitled" "has no topic" rfl rfl)).mp List.mem_cons_self
  refine (hfound.2.2 (item "topic" .none) List.mem_cons_self).not_omits ?_
  rw [MemoryEntry.Omits]
  decide

end MellivorKernel
