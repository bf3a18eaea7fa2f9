import MellivorKernel.Memory.GivenBack

/-!
# The error boundary of adding

In every state a run leads to, whatever SQLite answered on the way, `add`
stores the entry or raises `MemoryError` and leaves the store as it was. It
does so exactly where no `ValueError` comes first: one that `json.dumps`
raises, or one that binding the id or the content raises.
-/

namespace MellivorKernel

open Python Foundation

section
variable [Printing]

-- ---------------------------------------------------------------------------
-- Runs
-- ---------------------------------------------------------------------------

/-- The operations of a store at `path`, each with the `sqlite3.Error` its
statement is answered with, if any. -/
def SQLiteMemoryStore.performUnder (path : Str) :
    Machine SQLiteMemoryStore (MemoryOp × Option Str) (Except Exn MemoryReply)
  | store, (.add entry, fault) =>
    ((store.add entry fault).1.map fun _ => .none, (store.add entry fault).2)
  | store, (.get id, fault) => ((store.get id fault).map .entry, store)
  | store, (.search query, fault) => ((store.search query fault).map .result, store)
  | store, (.delete id, fault) =>
    ((store.delete id fault).1.map .removed, (store.delete id fault).2)
  | store, (.clear, fault) => ((store.clear fault).1.map fun _ => .none, (store.clear fault).2)
  | store, (.reopen, fault) => match SQLiteMemoryStore.opened path store.close fault with
    | .ok reopened => (.ok .none, reopened)
    | .error exc => (.error exc, store)

/-- Between two operations no transaction is open. -/
def SQLiteMemoryStore.Settled (store : SQLiteMemoryStore) : Prop :=
  store.committed = store.working

section
variable {store : SQLiteMemoryStore} {entry : MemoryEntry} {fault : Option Str}

theorem transact_settled (fault : Option Str) (params : List Str)
    (change : MemoryTable → MemoryTable) : (store.transact fault params change).2.Settled := by
  unfold SQLiteMemoryStore.transact
  split
  · rfl
  · rfl

theorem add_settled (h : store.Settled) : (store.add entry fault).2.Settled := by
  unfold SQLiteMemoryStore.add
  split
  · exact h
  · exact transact_settled fault _ _

theorem performUnder_settled (path : Str) (op : MemoryOp × Option Str) (h : store.Settled) :
    (SQLiteMemoryStore.performUnder path store op).2.Settled := by
  obtain ⟨op, fault⟩ := op
  cases op with
  | add entry => exact add_settled h
  | get | search => exact h
  | delete id => exact transact_settled fault [id] (·.delete id)
  | clear => exact transact_settled fault [] fun _ => RowTable.empty
  | reopen =>
    unfold SQLiteMemoryStore.performUnder
    cases fault with
    | none => rfl
    | some text => exact h

-- ---------------------------------------------------------------------------
-- What is raised
-- ---------------------------------------------------------------------------

/-- Nothing stands in the way, or the first thing that does is of a class JSON
does not know. -/
def MemoryEntry.contained (entry : MemoryEntry) : Bool :=
  match obstaclePairs entry.metadata with
  | some fault => fault = .typeError
  | none => encodable entry.id && encodable entry.content

theorem columnsOf_eq (entry : MemoryEntry) :
    ∃ tags, Ascii tags ∧ columnsOf entry = (do
      let metadata ← (entry.metadata.dumps .strict).mapError fun exc =>
        if exc.isA .typeError then
          .raised .memoryError (lit "MemoryEntry.metadata for id=" ++ pyRepr entry.id ++
            lit " is not JSON-serializable: " ++ exc.text)
        else exc
      .ok ⟨entry.content, tags, metadata, entry.createdAt.isoformat⟩) := by
  obtain ⟨tags, htags⟩ := dumps_texts entry.tags.sort
  refine ⟨tags, ascii_dumps rfl _ htags, ?_⟩
  simp only [columnsOf, htags]
  rfl

theorem columnsOf_obstacle {fault : JsonFault} (h : obstaclePairs entry.metadata = some fault) :
    ∃ exc, columnsOf entry = .error exc ∧
      exc.isA .memoryError = decide (fault = .typeError) := by
  obtain ⟨tags, -, heq⟩ := columnsOf_eq entry
  have hmeets := (PyValue.dict entry.metadata).dumps_meets
  rw [PyValue.obstacle, h] at hmeets
  obtain ⟨message, hdumps⟩ := hmeets
  rw [heq, Mapping.dumps, hdumps]
  cases fault <;> exact ⟨_, rfl, rfl⟩

theorem columnsOf_clear (h : obstaclePairs entry.metadata = none) :
    ∃ row, columnsOf entry = .ok row ∧ row.content = entry.content ∧
      ∀ s ∈ [row.tags, row.metadata, row.createdAt], encodable s = true := by
  obtain ⟨tags, htags, heq⟩ := columnsOf_eq entry
  have hmeets := (PyValue.dict entry.metadata).dumps_meets
  rw [PyValue.obstacle, h] at hmeets
  obtain ⟨metadata, hdumps⟩ : Returns _ := hmeets
  rw [heq, Mapping.dumps, hdumps]
  refine ⟨_, rfl, rfl, ?_⟩
  simp only [List.forall_mem_cons, List.not_mem_nil, false_imp_iff, implies_true, and_true]
  exact ⟨encodable_of_ascii htags, encodable_of_ascii (ascii_dumps rfl _ hdumps),
    encodable_of_ascii (ascii_isoformat entry.createdAt)⟩

theorem executeError_eq (fault : Option Str) (params : List Str) :
    executeError fault params =
      if ∀ s ∈ params, encodable s = true then fault.map (.raised .sqliteError)
      else (params.find? fun s => !encodable s).map encodingError := by
  unfold executeError
  cases hfind : params.find? fun s => !encodable s with
  | none =>
    rw [if_pos]
    simpa using hfind
  | some s =>
    rw [if_neg]
    · rfl
    · intro hall
      simpa [hall s (List.mem_of_find?_eq_some hfind)] using List.find?_some hfind

-- ---------------------------------------------------------------------------
-- Adding
-- ---------------------------------------------------------------------------

/-- The entry is in the store, the other entries and the order of those that
were there are as before. -/
structure SQLiteMemoryStore.Added (before after : SQLiteMemoryStore) (entry : MemoryEntry) :
    Prop where
  row : ∃ row, columnsOf entry = .ok row ∧ after.working.toDict.get? entry.id = some row
  others : ∀ id, id ≠ entry.id → after.working.toDict.get? id = before.working.toDict.get? id
  kept : entry.id ∈ before.working.toDict.keys →
    after.working.toDict.keys = before.working.toDict.keys
  appended : entry.id ∉ before.working.toDict.keys →
    after.working.toDict.keys = before.working.toDict.keys ++ [entry.id]
  committed : after.Settled

/-- The entry is stored, or `MemoryError` is raised and nothing has changed. -/
def SQLiteMemoryStore.Atomic (store : SQLiteMemoryStore) (entry : MemoryEntry)
    (fault : Option Str) : Prop :=
  (store.add entry fault).1 = .ok () ∧ store.Added (store.add entry fault).2 entry ∨
    ∃ exc, (store.add entry fault).1 = .error exc ∧ exc.isA .memoryError = true ∧
      (store.add entry fault).2 = store

theorem add_added (h : (store.add entry fault).1 = .ok ()) :
    store.Added (store.add entry fault).2 entry := by
  obtain ⟨row, hrow, -, hstore⟩ := add_ok h
  rw [hstore]
  refine ⟨⟨row, hrow, ?_⟩, fun id hid => ?_, fun hmem => ?_, fun hmem => ?_, rfl⟩
  · rw [RowTable.toDict_upsert, Dict.get?_set_self]
  · rw [RowTable.toDict_upsert, Dict.get?_set_ne _ hid]
  · rw [RowTable.toDict_upsert, Dict.keys_set, if_pos hmem]
  · rw [RowTable.toDict_upsert, Dict.keys_set, if_neg hmem]

theorem atomic_error_iff {exc : Exn}
    (h : store.add entry fault = (.error exc, store)) :
    store.Atomic entry fault ↔ exc.isA .memoryError = true := by
  rw [SQLiteMemoryStore.Atomic, h]
  constructor
  · rintro (⟨hok, -⟩ | ⟨exc', herror, hisA, -⟩)
    · cases hok
    · cases herror
      exact hisA
  · exact fun hisA => .inr ⟨exc, rfl, hisA, rfl⟩

theorem transact_error (h : store.Settled) {params : List Str} {change : MemoryTable → MemoryTable}
    {exc : Exn} (hexec : executeError fault params = some exc) :
    store.transact fault params change = (.error exc, store) := by
  obtain ⟨committed, working⟩ := store
  obtain rfl : committed = working := h
  simp only [SQLiteMemoryStore.transact, hexec]

theorem add_atomic_of_settled (h : store.Settled) (entry : MemoryEntry) (fault : Option Str) :
    store.Atomic entry fault ↔ entry.contained = true := by
  unfold MemoryEntry.contained
  cases hobstacle : obstaclePairs entry.metadata with
  | some obstacle =>
    obtain ⟨exc, hcolumns, hisA⟩ := columnsOf_obstacle hobstacle
    have hadd : store.add entry fault = (.error exc, store) := by
      simp only [SQLiteMemoryStore.add, hcolumns]
    rw [atomic_error_iff hadd, hisA]
  | none =>
    obtain ⟨row, hcolumns, hcontent, htexts⟩ := columnsOf_clear hobstacle
    have hparams : (∀ s ∈ [entry.id, row.content, row.tags, row.metadata, row.createdAt],
        encodable s = true) ↔ (encodable entry.id && encodable entry.content) = true := by
      rw [List.forall_mem_cons, List.forall_mem_cons, hcontent, and_iff_left htexts,
        Bool.and_eq_true]
    cases hexec : executeError fault
        [entry.id, row.content, row.tags, row.metadata, row.createdAt] with
    | none =>
      have hadd : (store.add entry fault).1 = .ok () := by
        simp only [SQLiteMemoryStore.add, hcolumns, SQLiteMemoryStore.transact, hexec]
        rfl
      refine iff_of_true (.inl ⟨hadd, add_added hadd⟩) ?_
      exact hparams.mp (encodable_of_executeError hexec)
    | some exc =>
      have hadd : store.add entry fault =
          (translated (lit "Failed to store entry id=" ++ pyRepr entry.id) (.error exc), store) := by
        simp only [SQLiteMemoryStore.add, hcolumns, transact_error h hexec]
      refine (atomic_error_iff hadd).trans ?_
      rw [← hparams]
      rw [executeError_eq] at hexec
      split at hexec
      · rename_i hall
        -- the statement's own error, translated
        obtain ⟨text, -, rfl⟩ := Option.map_eq_some_iff.mp hexec
        exact iff_of_true rfl hall
      · rename_i hsome
        -- the text that cannot be bound, not translated
        obtain ⟨s, -, rfl⟩ := Option.map_eq_some_iff.mp hexec
        exact iff_of_false Bool.false_ne_true hsome

/-- In every state a run leads to. -/
theorem add_atomic_iff (path : Str) (file : MemoryTable) (ops : List (MemoryOp × Option Str))
    (entry : MemoryEntry) (fault : Option Str) :
    (Machine.after (SQLiteMemoryStore.performUnder path) ⟨file, file⟩ ops).Atomic entry fault ↔
      entry.contained = true := by
  have hstep (store : SQLiteMemoryStore) (op : MemoryOp × Option Str) (_ : True)
      (h : store.Settled) : (SQLiteMemoryStore.performUnder path store op).2.Settled :=
    performUnder_settled path op h
  have hstart : SQLiteMemoryStore.Settled ⟨file, file⟩ := rfl
  exact add_atomic_of_settled (Machine.after_invariant hstep (fun _ _ => trivial) hstart) entry fault

end

end

def selfReferring : MemoryEntry :=
  { note "loop" "holds itself" rfl rfl with
    metadata := [item "self" (.dict [item "self" .cycle])] }

/-- `add` raises the `ValueError` of `json.dumps`. -/
theorem selfReferring_escapes : ¬ @SQLiteMemoryStore.Atomic plainPrinting
    ⟨RowTable.empty, RowTable.empty⟩ selfReferring none := by
  intro h
  have hsettled : SQLiteMemoryStore.Settled ⟨RowTable.empty, RowTable.empty⟩ := rfl
  exact Bool.false_ne_true ((@add_atomic_of_settled plainPrinting _ hsettled _ _).mp h)

end MellivorKernel
