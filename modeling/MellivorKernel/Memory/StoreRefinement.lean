import MellivorKernel.Memory.Sqlite
import MellivorKernel.Python.Ascii
import MellivorKernel.Python.JsonEq

/-!
# The two memory stores are one

A table represents a dictionary of entries when its rows, by rowid, decode to
the entries in their order. Every operation keeps that and answers alike on
both sides, so a store that is closed and reopened at will cannot be told from
one that is kept in memory.
-/

namespace MellivorKernel

open Python Foundation

variable [Printing]

-- ---------------------------------------------------------------------------
-- What is stored can be read back
-- ---------------------------------------------------------------------------

def JsonStable (m : Mapping) : Prop :=
  ∃ text v, m.dumps .strict = .ok text ∧ loads text = .ok v ∧ (PyValue.dict m).eq v = true

structure Storable (entry : MemoryEntry) : Prop where
  id : encodable entry.id = true
  content : encodable entry.content = true
  tags : ∀ tag ∈ entry.tags, encodable tag = true
  metadata : JsonStable entry.metadata
  utc : entry.createdAt.utcoffset = some 0

/-- The operations whose texts can be bound and whose entries can be stored. -/
def MemoryOp.Storable : MemoryOp → Prop
  | .add entry => MellivorKernel.Storable entry
  | .get id | .delete id => encodable id = true
  | .search _ | .clear | .reopen => True

theorem jsonStable_loads {m : Mapping} {text : Str} (h : JsonStable m)
    (ht : m.dumps .strict = .ok text) : loads text = .ok (.dict m) := by
  obtain ⟨text', v, hd, hl, heq⟩ := h
  cases ht.symm.trans hd
  have hread := loads_dumps ht
  rw [hread] at hl ⊢
  cases hl
  exact congrArg Except.ok (PyValue.reread_of_eq (.dict m) heq)

omit [Printing] in
theorem encodable_of_ascii {s : Str} (h : Ascii s) : encodable s = true := by
  refine List.all_eq_true.mpr fun c hc => ?_
  have hlt := h c hc
  simp only [isSurrogate, isHighSurrogate, isLowSurrogate, Bool.not_eq_true', Bool.or_eq_false_iff,
    Bool.and_eq_false_iff, decide_eq_false_iff_not]
  omega

omit [Printing] in
theorem pairSurrogates_encodable {s : Str} (h : encodable s = true) : pairSurrogates s = s := by
  induction s with
  | nil => rfl
  | cons c s ih =>
    simp only [encodable, List.all_cons, Bool.and_eq_true, isSurrogate, Bool.not_eq_true',
      Bool.or_eq_false_iff] at h
    rw [pairSurrogates_cons (by simp [h.1.1]), ih h.2]

omit [Printing] in
theorem frozenset_texts (texts : List Str) :
    frozenset (.list (texts.map .str)) = .ok texts.toFinset := by
  have hmap : (texts.map PyValue.str).mapM elementText = .ok texts := by
    induction texts with
    | nil => rfl
    | cons t texts ih =>
      rw [List.map_cons, List.mapM_cons, ih]
      rfl
  rw [frozenset, hmap]
  rfl

theorem dumps_texts (texts : List Str) :
    ∃ text, (PyValue.list (texts.map .str)).dumps .strict = .ok text := by
  refine (PyValue.dumps_returns _).mpr ?_
  rw [PyValue.jsonable]
  induction texts with
  | nil => rfl
  | cons t texts ih => simpa [jsonableItems, PyValue.jsonable] using ih

theorem reread_texts {texts : List Str} (h : ∀ t ∈ texts, encodable t = true) :
    (PyValue.list (texts.map .str)).reread .strict = .list (texts.map .str) := by
  rw [PyValue.reread]
  induction texts with
  | nil => rfl
  | cons t texts ih =>
    obtain ⟨ht, htexts⟩ := List.forall_mem_cons.mp h
    have htext : JsonOptions.strict.rereadText t = t := pairSurrogates_encodable ht
    simpa [rereadItems, PyValue.reread, htext] using ih htexts

/-- A storable entry has a row that binds and that is read back as the entry. -/
theorem columnsOf_storable {entry : MemoryEntry} (h : Storable entry) :
    ∃ row, columnsOf entry = .ok row ∧ rowToEntry entry.id row = .ok entry ∧
      ∀ s ∈ [entry.id, row.content, row.tags, row.metadata, row.createdAt],
        encodable s = true := by
  obtain ⟨tags, htags⟩ := dumps_texts entry.tags.sort
  obtain ⟨metadata, v, hmetadata, -, -⟩ := h.metadata
  have hsorted : ∀ t ∈ entry.tags.sort, encodable t = true := fun t ht =>
    h.tags t ((Finset.mem_sort _).mp ht)
  refine ⟨⟨entry.content, tags, metadata, entry.createdAt.isoformat⟩, ?_, ?_, ?_⟩
  · simp only [columnsOf, htags, hmetadata]
    rfl
  · have hload : loads tags = .ok (.list (entry.tags.sort.map .str)) := by
      rw [loads_dumps htags, reread_texts hsorted]
    have hset : frozenset (.list (entry.tags.sort.map .str)) = .ok entry.tags := by
      rw [frozenset_texts, Finset.sort_toFinset]
    have hnew : MemoryEntry.new entry.id entry.content entry.tags entry.metadata
        entry.createdAt = .ok entry := MemoryEntry.new_ok entry.id_ok entry.content_ok
    simp only [rowToEntry, hload, jsonStable_loads h.metadata hmetadata,
      fromisoformat_isoformat entry.createdAt]
    change (frozenset _ >>= _) = _
    rw [hset]
    exact hnew
  · simp only [List.forall_mem_cons, List.not_mem_nil, false_imp_iff, implies_true, and_true]
    exact ⟨h.id, h.content, encodable_of_ascii (ascii_dumps rfl _ htags),
      encodable_of_ascii (ascii_dumps rfl _ hmetadata),
      encodable_of_ascii (ascii_isoformat entry.createdAt)⟩

-- ---------------------------------------------------------------------------
-- The simulation
-- ---------------------------------------------------------------------------

def Decodes (id : Str) (row : Columns) (entry : MemoryEntry) : Prop :=
  rowToEntry id row = .ok entry

/-- The connection sees what the file holds, and that decodes to the entries
in their order. -/
structure Represents (store : SQLiteMemoryStore) (memory : InMemoryStore) : Prop where
  committed : store.committed = store.working
  related : Dict.Related Decodes store.working.toDict memory.entries

theorem Represents.empty : Represents ⟨RowTable.empty, RowTable.empty⟩ InMemoryStore.new :=
  ⟨rfl, Dict.related_empty⟩

def SQLiteMemoryStore.contents (store : SQLiteMemoryStore) : Except Exn (List MemoryEntry) :=
  store.working.ordered.mapM fun row => rowToEntry row.key row.value

def InMemoryStore.contents (memory : InMemoryStore) : List MemoryEntry := memory.entries.values

section
variable {store : SQLiteMemoryStore} {memory : InMemoryStore}

theorem Represents.contents (h : Represents store memory) : store.contents = .ok memory.contents := by
  have hrel := h.related
  simp only [Dict.Related, RowTable.toDict, List.forall₂_map_left_iff] at hrel
  rw [SQLiteMemoryStore.contents, InMemoryStore.contents, Dict.values]
  generalize store.working.ordered = rows at hrel ⊢
  generalize memory.entries.entries = entries at hrel ⊢
  induction hrel with
  | nil => rfl
  | @cons row p rows entries hp _ ih =>
    have hrow : rowToEntry row.key row.value = .ok p.2 := hp.2
    rw [List.mapM_cons, hrow, ih]
    rfl

theorem executeError_none {params : List Str} (h : ∀ s ∈ params, encodable s = true) :
    executeError none params = none := by
  have hfind : params.find? (fun s => !encodable s) = none :=
    List.find?_eq_none.mpr fun s hs => by simp [h s hs]
  simp [executeError, hfind]

theorem transact_ok {params : List Str} (h : ∀ s ∈ params, encodable s = true)
    (change : MemoryTable → MemoryTable) :
    store.transact none params change = (.ok (), ⟨change store.working, change store.working⟩) := by
  simp only [SQLiteMemoryStore.transact, executeError_none h]

theorem query_ok {params : List Str} (h : ∀ s ∈ params, encodable s = true)
    (f : MemoryTable → α) : store.query none params f = .ok (f store.working) := by
  simp only [SQLiteMemoryStore.query, executeError_none h]

theorem add_represents (h : Represents store memory) {entry : MemoryEntry} (he : Storable entry) :
    (store.add entry none).1 = .ok () ∧
      Represents (store.add entry none).2 (memory.add entry) := by
  obtain ⟨row, hrow, hdecodes, hparams⟩ := columnsOf_storable he
  simp only [SQLiteMemoryStore.add, hrow, transact_ok hparams]
  refine ⟨rfl, rfl, ?_⟩
  simp only [RowTable.toDict_upsert]
  exact h.related.set hdecodes

theorem get_represents (h : Represents store memory) {id : Str} (hid : encodable id = true) :
    store.get id none = .ok (memory.get id) := by
  have hrel := h.related.get? id
  rw [RowTable.get?_toDict] at hrel
  have hquery : store.query none [id] (·.select id) = .ok (store.working.select id) :=
    query_ok (by simpa using hid) _
  rw [SQLiteMemoryStore.get, hquery, InMemoryStore.get]
  cases hrow : store.working.select id with
  | none =>
    rw [hrow, Option.map_none] at hrel
    cases hm : memory.entries.get? id with
    | none => rfl
    | some entry => rw [hm] at hrel; cases hrel
  | some row =>
    have hkey : row.key = id := by simpa using List.find?_some hrow
    rw [hrow, Option.map_some] at hrel
    cases hm : memory.entries.get? id with
    | none => rw [hm] at hrel; cases hrel
    | some entry =>
      rw [hm] at hrel
      cases hrel with
      | some hdecodes =>
        have hrow : rowToEntry row.key row.value = .ok entry := hkey ▸ hdecodes
        change (rowToEntry row.key row.value >>= _) = _
        rw [hrow]
        rfl

theorem search_represents (h : Represents store memory) (query : MemoryQuery) :
    store.search query none = .ok (memory.search query) := by
  have hquery : store.query none [] (·.ordered) = .ok store.working.ordered := query_ok (by simp) _
  have hcontents := h.contents
  rw [SQLiteMemoryStore.contents] at hcontents
  rw [SQLiteMemoryStore.search, hquery]
  change (store.working.ordered.mapM (fun row => rowToEntry row.key row.value) >>= _) = _
  rw [hcontents]
  rfl

theorem delete_represents (h : Represents store memory) {id : Str} (hid : encodable id = true) :
    (store.delete id none).1 = .ok (memory.delete id).1 ∧
      Represents (store.delete id none).2 (memory.delete id).2 := by
  have hparams : ∀ s ∈ [id], encodable s = true := by simpa using hid
  have hremoved : decide (0 < store.working.rowcount id) = (memory.entries.get? id).isSome := by
    rw [Bool.eq_iff_iff, decide_eq_true_eq, RowTable.rowcount_pos, h.related.mem_keys,
      Dict.mem_keys, Option.isSome_iff_exists]
  simp only [SQLiteMemoryStore.delete, transact_ok hparams, InMemoryStore.delete]
  refine ⟨by rw [← hremoved]; rfl, rfl, ?_⟩
  simp only [RowTable.toDict_delete]
  exact h.related.erase id

theorem clear_represents :
    (store.clear none).1 = .ok () ∧ Represents (store.clear none).2 memory.clear := by
  have hparams : ∀ s ∈ ([] : List Str), encodable s = true := by simp
  simp only [SQLiteMemoryStore.clear, transact_ok hparams]
  exact ⟨rfl, rfl, Dict.related_empty⟩

omit [Printing] in
theorem opened_represents (path : Str) (file : Option MemoryTable) :
    SQLiteMemoryStore.opened path file none =
      .ok ⟨file.getD RowTable.empty, file.getD RowTable.empty⟩ := rfl

theorem perform_represents (path : Str) (h : Represents store memory) {op : MemoryOp}
    (hop : op.Storable) :
    (SQLiteMemoryStore.perform path store op).1 = (memory.perform op).1 ∧
      Represents (SQLiteMemoryStore.perform path store op).2 (memory.perform op).2 := by
  cases op with
  | add entry =>
    obtain ⟨hr, hs⟩ := add_represents h hop
    exact ⟨by simp only [SQLiteMemoryStore.perform, hr]; rfl, hs⟩
  | get id => exact ⟨by simp only [SQLiteMemoryStore.perform, get_represents h hop]; rfl, h⟩
  | search query =>
    exact ⟨by simp only [SQLiteMemoryStore.perform, search_represents h query]; rfl, h⟩
  | delete id =>
    obtain ⟨hr, hs⟩ := delete_represents h hop
    exact ⟨by simp only [SQLiteMemoryStore.perform, hr]; rfl, hs⟩
  | clear =>
    obtain ⟨hr, hs⟩ : (store.clear none).1 = .ok () ∧
        Represents (store.clear none).2 memory.clear := clear_represents
    exact ⟨by simp only [SQLiteMemoryStore.perform, hr]; rfl, hs⟩
  | reopen =>
    -- what was committed is what the connection saw
    have hopened : (SQLiteMemoryStore.perform path store .reopen) =
        (.ok .none, ⟨store.working, store.working⟩) := by
      simp only [SQLiteMemoryStore.perform, opened_represents, SQLiteMemoryStore.close,
        Option.getD_some, h.committed]
    rw [hopened]
    exact ⟨rfl, rfl, h.related⟩

end

/-- A store in a new file and one in memory answer every sequence of storable
operations alike, reopening included, and hold the same in the end. -/
theorem stores_equal (path : Str) {store : SQLiteMemoryStore}
    (hopen : SQLiteMemoryStore.opened path none none = .ok store) {ops : List MemoryOp}
    (hops : ∀ op ∈ ops, op.Storable) :
    (Machine.run (SQLiteMemoryStore.perform path) store ops).1 =
        (Machine.run InMemoryStore.perform InMemoryStore.new ops).1 ∧
      (Machine.after (SQLiteMemoryStore.perform path) store ops).contents =
        .ok (Machine.after InMemoryStore.perform InMemoryStore.new ops).contents := by
  have hstart : Represents store InMemoryStore.new := by
    rw [opened_represents] at hopen
    cases hopen
    exact .empty
  have hstep : ∀ s t op, op.Storable → Represents s t →
      (SQLiteMemoryStore.perform path s op).1 = (InMemoryStore.perform t op).1 ∧
        Represents (SQLiteMemoryStore.perform path s op).2 (InMemoryStore.perform t op).2 :=
    fun _ _ _ hop h => perform_represents path h hop
  obtain ⟨hanswers, hlast⟩ := Machine.run_simulates hstep hops hstart
  exact ⟨List.forall₂_eq_eq_eq ▸ hanswers, hlast.contents⟩

def note (id content : String) (hi : blank (lit id) = false) (hc : blank (lit content) = false) :
    MemoryEntry where
  id := lit id
  content := lit content
  tags := {lit "note"}
  metadata := [item "pages" (.int 2)]
  createdAt := .epoch
  id_ok := hi
  content_ok := hc

omit [Printing] in
theorem note_storable {id content : String} (hi : blank (lit id) = false)
    (hc : blank (lit content) = false) (he : encodable (lit id) = true)
    (hce : encodable (lit content) = true) : @Storable plainPrinting (note id content hi hc) :=
  @Storable.mk plainPrinting _ he hce
    (fun t ht => by rw [show t = lit "note" from Finset.mem_singleton.mp ht]; rfl)
    ⟨lit "\x7b\"pages\": 2\x7d",
      @PyValue.reread plainPrinting .strict (.dict [item "pages" (.int 2)]), rfl,
      @loads_dumps plainPrinting _ _ _ rfl, rfl⟩ rfl

/-- Overwriting, deleting the last entry, adding it again and reopening. -/
def noteOps : List MemoryOp :=
  [.add (note "a" "first" rfl rfl), .add (note "b" "second" rfl rfl),
    .add (note "a" "third" rfl rfl), .delete (lit "b"), .reopen, .add (note "b" "fourth" rfl rfl),
    .search .everything]

omit [Printing] in
theorem notes_equal :
    let store : SQLiteMemoryStore := ⟨RowTable.empty, RowTable.empty⟩
    (Machine.run (@SQLiteMemoryStore.perform plainPrinting (lit "notes.db")) store noteOps).1 =
        (Machine.run InMemoryStore.perform InMemoryStore.new noteOps).1 ∧
      @SQLiteMemoryStore.contents plainPrinting
          (Machine.after (@SQLiteMemoryStore.perform plainPrinting (lit "notes.db")) store noteOps) =
        .ok (Machine.after InMemoryStore.perform InMemoryStore.new noteOps).contents := by
  refine @stores_equal plainPrinting (lit "notes.db") _ rfl noteOps fun op hop => ?_
  simp only [noteOps, List.mem_cons, List.not_mem_nil, or_false] at hop
  rcases hop with rfl | rfl | rfl | rfl | rfl | rfl | rfl
  · exact note_storable _ _ rfl rfl
  · exact note_storable _ _ rfl rfl
  · exact note_storable _ _ rfl rfl
  · exact (rfl : encodable (lit "b") = true)
  · trivial
  · exact note_storable _ _ rfl rfl
  · trivial

end MellivorKernel
