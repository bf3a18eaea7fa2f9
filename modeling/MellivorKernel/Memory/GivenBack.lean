import MellivorKernel.Memory.StoreRefinement
import MellivorKernel.Python.JsonExact

/-!
# What the SQLite store gives back

`add` takes every entry whose metadata `json.dumps` takes, and `get` builds the
entry again from what `json.loads` makes of the row. The two are equal exactly
where JSON gives the tags and the metadata back as they were.
-/

namespace MellivorKernel

open Python Foundation

/-- The fields of the second entry equal those of the first. -/
structure MemoryEntry.Equals (entry back : MemoryEntry) : Prop where
  id : back.id = entry.id
  content : back.content = entry.content
  tags : back.tags = entry.tags
  metadata : (PyValue.dict entry.metadata).eq (.dict back.metadata) = true
  createdAt : back.createdAt = entry.createdAt

variable [Printing]

structure MemoryEntry.Exact (entry : MemoryEntry) : Prop where
  tags : ∀ tag ∈ entry.tags, unpaired tag = true
  metadata : (PyValue.dict entry.metadata).exact = true

def SQLiteMemoryStore.GivesBack (store : SQLiteMemoryStore) (entry : MemoryEntry) : Prop :=
  ∃ back, store.get entry.id none = .ok (some back) ∧ entry.Equals back

def MemoryEntry.reread (entry : MemoryEntry) : MemoryEntry :=
  { entry with
    tags := entry.tags.image pairSurrogates
    metadata := ofPairs (rereadPairs .strict entry.metadata) }

theorem reread_tags (texts : List Str) :
    (PyValue.list (texts.map .str)).reread .strict = .list ((texts.map pairSurrogates).map .str) := by
  rw [PyValue.reread]
  induction texts with
  | nil => rfl
  | cons t texts ih => simpa [rereadItems, PyValue.reread, rereadText_strict] using ih

theorem columnsOf_ok {entry : MemoryEntry} {row : Columns} (h : columnsOf entry = .ok row) :
    ∃ tags metadata, (PyValue.list (entry.tags.sort.map .str)).dumps .strict = .ok tags ∧
      (PyValue.dict entry.metadata).dumps .strict = .ok metadata ∧
      row = ⟨entry.content, tags, metadata, entry.createdAt.isoformat⟩ := by
  obtain ⟨tags, htags, h⟩ := bind_eq_ok.mp h
  obtain ⟨metadata, hmetadata, h⟩ := bind_eq_ok.mp h
  refine ⟨tags, metadata, htags, ?_, (Except.ok.inj h).symm⟩
  rw [Mapping.dumps] at hmetadata
  cases hd : (PyValue.dict entry.metadata).dumps .strict with
  | error exc => rw [hd] at hmetadata; cases hmetadata
  | ok text => rw [hd] at hmetadata; exact hmetadata

theorem rowToEntry_columnsOf {entry : MemoryEntry} {row : Columns}
    (h : columnsOf entry = .ok row) : rowToEntry entry.id row = .ok entry.reread := by
  obtain ⟨tags, metadata, htags, hmetadata, rfl⟩ := columnsOf_ok h
  have hload : loads tags = .ok (.list ((entry.tags.sort.map pairSurrogates).map .str)) := by
    rw [loads_dumps htags, reread_tags]
  have hset : frozenset (.list ((entry.tags.sort.map pairSurrogates).map .str)) =
      .ok (entry.tags.image pairSurrogates) := by
    rw [frozenset_texts]
    congr 1
    ext t
    simp
  simp only [rowToEntry, hload, loads_dumps hmetadata, PyValue.reread,
    fromisoformat_isoformat entry.createdAt]
  change (frozenset _ >>= _) = _
  rw [hset]
  exact MemoryEntry.new_ok entry.id_ok entry.content_ok

omit [Printing] in
/-- A set is its image under an idempotent function only if that moves nothing
in it. -/
theorem image_eq_iff {α : Type} [DecidableEq α] {f : α → α} (hf : ∀ a, f (f a) = f a)
    {s : Finset α} : s.image f = s ↔ ∀ a ∈ s, f a = a := by
  constructor
  · intro h a ha
    have hinj : Set.InjOn f s := Finset.card_image_iff.mp (by rw [h])
    have hfa : f a ∈ s := h ▸ Finset.mem_image_of_mem f ha
    exact hinj hfa ha (hf a)
  · intro h
    ext a
    rw [Finset.mem_image]
    constructor
    · rintro ⟨b, hb, rfl⟩
      rwa [h b hb]
    · exact fun ha => ⟨a, ha, h a ha⟩

theorem reread_equals_iff {entry : MemoryEntry} {row : Columns} (h : columnsOf entry = .ok row) :
    entry.Equals entry.reread ↔ entry.Exact := by
  obtain ⟨tags, metadata, htags, hmetadata, -⟩ := columnsOf_ok h
  have hjsonable := (PyValue.dumps_returns _).mp ⟨metadata, hmetadata⟩
  have hm := (PyValue.dict entry.metadata).exact_iff hjsonable
  have ht : entry.reread.tags = entry.tags ↔ ∀ tag ∈ entry.tags, unpaired tag = true := by
    rw [MemoryEntry.reread, image_eq_iff pairSurrogates_idem]
    simp only [pairSurrogates_eq_iff]
  rw [PyValue.reread] at hm
  constructor
  · exact fun he => ⟨ht.mp he.tags, hm.mp he.metadata⟩
  · exact fun he => ⟨rfl, rfl, ht.mpr he.tags, hm.mpr he.metadata, rfl⟩

-- ---------------------------------------------------------------------------
-- Adding and getting
-- ---------------------------------------------------------------------------

section
variable {store : SQLiteMemoryStore} {entry : MemoryEntry} {fault : Option Str}

theorem encodable_of_executeError {params : List Str} (h : executeError fault params = none) :
    ∀ s ∈ params, encodable s = true := by
  unfold executeError at h
  split at h
  · cases h
  · rename_i hfind
    simpa using hfind

theorem add_ok (h : (store.add entry fault).1 = .ok ()) :
    ∃ row, columnsOf entry = .ok row ∧ encodable entry.id = true ∧
      (store.add entry fault).2 =
        ⟨store.working.upsert entry.id row, store.working.upsert entry.id row⟩ := by
  unfold SQLiteMemoryStore.add SQLiteMemoryStore.transact at h ⊢
  cases hrow : columnsOf entry with
  | error exc => rw [hrow] at h; cases h
  | ok row =>
    rw [hrow] at h
    simp only at h ⊢
    cases hexec : executeError fault
        [entry.id, row.content, row.tags, row.metadata, row.createdAt] with
    | some exc => rw [hexec] at h; cases h
    | none =>
      exact ⟨row, rfl, encodable_of_executeError hexec entry.id List.mem_cons_self, rfl⟩

theorem add_returns (hid : encodable entry.id = true) (hcontent : encodable entry.content = true)
    (hm : (PyValue.dict entry.metadata).jsonable .strict = true) :
    (store.add entry none).1 = .ok () := by
  obtain ⟨tags, htags⟩ := dumps_texts entry.tags.sort
  obtain ⟨metadata, hmetadata⟩ := (PyValue.dumps_returns _).mpr hm
  have hrow : columnsOf entry =
      .ok ⟨entry.content, tags, metadata, entry.createdAt.isoformat⟩ := by
    simp only [columnsOf, htags, Mapping.dumps, hmetadata]
    rfl
  have hparams : ∀ s ∈ [entry.id, entry.content, tags, metadata, entry.createdAt.isoformat],
      encodable s = true := by
    simp only [List.forall_mem_cons, List.not_mem_nil, false_imp_iff, implies_true, and_true]
    exact ⟨hid, hcontent, encodable_of_ascii (ascii_dumps rfl _ htags),
      encodable_of_ascii (ascii_dumps rfl _ hmetadata),
      encodable_of_ascii (ascii_isoformat entry.createdAt)⟩
  simp only [SQLiteMemoryStore.add, hrow, transact_ok hparams]
  rfl

omit [Printing] in
theorem select_upsert (t : MemoryTable) (id : Str) (row : Columns) :
    ∃ found, (t.upsert id row).select id = some found ∧ found.key = id ∧ found.value = row := by
  have h := (t.upsert id row).get?_toDict id
  rw [RowTable.toDict_upsert, Dict.get?_set_self] at h
  cases hf : (t.upsert id row).select id with
  | none => rw [hf] at h; cases h
  | some found =>
    rw [hf] at h
    exact ⟨found, rfl, by simpa using List.find?_some hf, (Option.some.inj h).symm⟩

theorem get_of_add (h : (store.add entry fault).1 = .ok ()) :
    (store.add entry fault).2.get entry.id none = .ok (some entry.reread) ∧
      (store.add entry fault).2.committed = (store.add entry fault).2.working := by
  obtain ⟨row, hrow, hid, hstore⟩ := add_ok h
  obtain ⟨found, hfound, hkey, hvalue⟩ := select_upsert store.working entry.id row
  refine ⟨?_, by rw [hstore]⟩
  rw [SQLiteMemoryStore.get, query_ok (by simpa using hid), hstore, hfound]
  change (rowToEntry found.key found.value >>= _) = _
  rw [hkey, hvalue, rowToEntry_columnsOf hrow]
  rfl

end

/-- After an `add` that returns, `get` gives the entry back, and so it does
when the file has been closed and opened again, exactly if JSON gives its tags
and its metadata back. -/
theorem add_givesBack_iff (path : Str) {store : SQLiteMemoryStore} {entry : MemoryEntry}
    {fault : Option Str} (h : (store.add entry fault).1 = .ok ()) :
    ((store.add entry fault).2.GivesBack entry ∧
      ∃ reopened, SQLiteMemoryStore.opened path (store.add entry fault).2.close none = .ok reopened ∧
        reopened.GivesBack entry) ↔ entry.Exact := by
  obtain ⟨row, hrow, -, -⟩ := add_ok h
  obtain ⟨hget, hcommitted⟩ := get_of_add h
  generalize (store.add entry fault).2 = after at hget hcommitted ⊢
  obtain ⟨committed, working⟩ := after
  obtain rfl : committed = working := hcommitted
  have hback : SQLiteMemoryStore.GivesBack ⟨committed, committed⟩ entry ↔ entry.Exact := by
    rw [← reread_equals_iff hrow, SQLiteMemoryStore.GivesBack, hget]
    simp
  constructor
  · exact fun h => hback.mp h.1
  · exact fun hexact => ⟨hback.mpr hexact, _, rfl, hback.mpr hexact⟩

omit [Printing]

-- ---------------------------------------------------------------------------
-- A tuple in the metadata
-- ---------------------------------------------------------------------------

def tupleNote : MemoryEntry :=
  { note "spread" "on two pages" rfl rfl with metadata := [item "pages" (.tuple [.int 1, .int 2])] }

/-- `add` takes the tuple and `get` gives a list back. -/
theorem tupleNote_changed :
    (@SQLiteMemoryStore.add plainPrinting ⟨RowTable.empty, RowTable.empty⟩ tupleNote none).1 =
        .ok () ∧
      ¬ @SQLiteMemoryStore.GivesBack plainPrinting
        (@SQLiteMemoryStore.add plainPrinting ⟨RowTable.empty, RowTable.empty⟩ tupleNote none).2
        tupleNote := by
  have hadd : (@SQLiteMemoryStore.add plainPrinting ⟨RowTable.empty, RowTable.empty⟩ tupleNote
      none).1 = .ok () := @add_returns plainPrinting _ _ rfl rfl rfl
  refine ⟨hadd, fun hback => ?_⟩
  obtain ⟨row, hrow, -, -⟩ := @add_ok plainPrinting _ _ _ hadd
  obtain ⟨back, hget, hequals⟩ := hback
  rw [(@get_of_add plainPrinting _ _ _ hadd).1] at hget
  cases hget
  have hexact := (@reread_equals_iff plainPrinting _ _ hrow).mp hequals
  exact Bool.false_ne_true (@MemoryEntry.Exact.metadata plainPrinting _ hexact)

theorem note_givenBack :
    let store := (@SQLiteMemoryStore.add plainPrinting ⟨RowTable.empty, RowTable.empty⟩
      (note "a" "first" rfl rfl) none).2
    @SQLiteMemoryStore.GivesBack plainPrinting store (note "a" "first" rfl rfl) ∧
      ∃ reopened, SQLiteMemoryStore.opened (lit "notes.db") store.close none = .ok reopened ∧
        @SQLiteMemoryStore.GivesBack plainPrinting reopened (note "a" "first" rfl rfl) := by
  have hadd := @add_returns plainPrinting ⟨RowTable.empty, RowTable.empty⟩
    (note "a" "first" rfl rfl) rfl rfl rfl
  refine (@add_givesBack_iff plainPrinting (lit "notes.db") _ _ none hadd).mpr
    (@MemoryEntry.Exact.mk plainPrinting _ ?_ rfl)
  intro tag htag
  rw [show tag = lit "note" from Finset.mem_singleton.mp htag]
  rfl

end MellivorKernel
