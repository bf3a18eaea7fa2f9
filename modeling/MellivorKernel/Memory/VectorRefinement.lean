import MellivorKernel.Memory.VectorStore

/-!
# The vector store is a map

The map from namespaces and ids to records that `InMemoryVectorStore` stands
for, with the calls as operations on it: an accepted batch is written to its
namespace, accepted ids are removed from theirs, and a call that is not
accepted changes nothing. The store answers as the map does, and keeps every
record under its own id (`vectorStore_refines`).
-/

namespace MellivorKernel

open Python Foundation

-- ---------------------------------------------------------------------------
-- The map
-- ---------------------------------------------------------------------------

abbrev VectorMap := Str → Str → Option VectorRecord

def BatchItem.record? : BatchItem → Option VectorRecord
  | .record r => some r
  | .other => none

def spaceOf (space : PyValue) : Option Str := space.str?.filter matchesNamespace

/-- The ids a value lists: distinct texts, none of them blank. -/
def idsOf : PyValue → Option (List Str)
  | .tuple items => (items.mapM PyValue.str?).filter fun ids =>
    (∀ id ∈ ids, blank id = false) ∧ ids.Nodup
  | _ => none

def recordsOf (dimensions : Nat) : Batch → Option (List VectorRecord)
  | .tuple items => (items.mapM BatchItem.record?).filter fun records =>
    records ≠ [] ∧ (∀ record ∈ records, record.vector.length = dimensions) ∧
      (records.map VectorRecord.id).Nodup
  | .other => none

def VectorMap.write (map : VectorMap) (space : Str) (records : List VectorRecord) : VectorMap :=
  fun space' id =>
    if space' = space then (records.find? (·.id = id)).or (map space id) else map space' id

def VectorMap.remove (map : VectorMap) (space : Str) (ids : List Str) : VectorMap :=
  fun space' id => if space' = space ∧ id ∈ ids then none else map space' id

/-- The calls on the map; `none` stands for a call that is not accepted. -/
def vectorSpec (dimensions : Nat) : Machine VectorMap VectorCall (Option Fetched)
  | map, .upsert batch space =>
    match spaceOf space, recordsOf dimensions batch with
    | some space, some records => (some none, map.write space records)
    | _, _ => (none, map)
  | map, .fetch recordIds space =>
    match spaceOf space, idsOf recordIds with
    | some space, some ids => (some (some (ids.filterMap (map space))), map)
    | _, _ => (none, map)
  | map, .delete recordIds space =>
    match spaceOf space, idsOf recordIds with
    | some space, some ids => (some none, map.remove space ids)
    | _, _ => (none, map)

-- ---------------------------------------------------------------------------
-- What is accepted
-- ---------------------------------------------------------------------------

def IsVectorStoreError (exc : Exn) : Prop := exc.isA .vectorStoreError = true

theorem isVectorStoreError (message : String) : IsVectorStoreError (vectorStoreFailure message) := by
  rfl

theorem validateNamespace_yields (space : PyValue) :
    Yields IsVectorStoreError (validateNamespace space) (spaceOf space) := by
  cases space with
  | str s =>
    simp only [validateNamespace, spaceOf, PyValue.str?, Option.filter_some]
    split
    · exact .returned s
    · exact .raised (isVectorStoreError _)
  | _ => exact .raised (isVectorStoreError _)

theorem validateRecordIds_yields (recordIds : PyValue) :
    Yields IsVectorStoreError (validateRecordIds recordIds) (idsOf recordIds) := by
  cases recordIds with
  | tuple items =>
    have hloop : Yields IsVectorStoreError (checkRecordIds [] items) _ :=
      .distinct PyValue.str? (fun s => blank s = false) id (fun _ => rfl) ?_ ?_ [] items
    · simpa [idsOf, validateRecordIds] using hloop
    · rintro seen item rest s hs hgood hnew
      obtain rfl := PyValue.str?_eq_some.mp hs
      have hnew' : s ∉ seen := hnew
      simp [checkRecordIds, hgood, hnew']
    · intro seen item rest h
      cases item with
      | str s =>
        unfold checkRecordIds
        split
        · exact ⟨_, rfl, isVectorStoreError _⟩
        · rename_i hblank
          have hseen : s ∈ seen := h s rfl (by simpa using hblank)
          rw [if_pos hseen]
          exact ⟨_, rfl, isVectorStoreError _⟩
      | _ => exact ⟨_, rfl, isVectorStoreError _⟩
  | _ => exact .raised (isVectorStoreError _)

theorem validateBatch_yields (dimensions : Nat) (batch : Batch) :
    Yields IsVectorStoreError (validateBatch dimensions batch) (recordsOf dimensions batch) := by
  cases batch with
  | other => exact .raised (isVectorStoreError _)
  | tuple items =>
    have hloop : Yields IsVectorStoreError (checkBatch dimensions [] items) _ :=
      .distinct BatchItem.record? (fun record => record.vector.length = dimensions) VectorRecord.id
        (fun _ => rfl) ?_ ?_ [] items
    · cases items with
      | nil => exact .raised (isVectorStoreError _)
      | cons item rest =>
        have hnonempty : (((item :: rest).mapM BatchItem.record?).filter fun records =>
              (∀ b ∈ records, b.vector.length = dimensions ∧ b.id ∉ ([] : List Str)) ∧
                (records.map VectorRecord.id).Nodup) =
            recordsOf dimensions (.tuple (item :: rest)) := by
          simp only [recordsOf, List.mapM_cons]
          cases item.record? with
          | none => rfl
          | some r =>
            cases rest.mapM BatchItem.record? with
            | none => rfl
            | some records => simp [bind, Option.bind, Option.filter_some]
        rw [← hnonempty]
        exact hloop
    · rintro seen item rest record hrecord hgood hnew
      cases item with
      | other => cases hrecord
      | record r =>
        cases hrecord
        simp [checkBatch, hgood, hnew]
    · intro seen item rest h
      cases item with
      | other => exact ⟨_, rfl, isVectorStoreError _⟩
      | record r =>
        unfold checkBatch
        split
        · exact ⟨_, rfl, isVectorStoreError _⟩
        · rename_i hnew
          split
          · exact ⟨_, rfl, isVectorStoreError _⟩
          · rename_i hgood
            exact absurd (h r rfl (not_not.mp hgood)) hnew

theorem recordsOf_eq_some {dimensions : Nat} {batch : Batch} {records : List VectorRecord}
    (h : recordsOf dimensions batch = some records) :
    records ≠ [] ∧ (∀ record ∈ records, record.vector.length = dimensions) ∧
      (records.map VectorRecord.id).Nodup := by
  cases batch with
  | other => cases h
  | tuple items => simpa using (Option.filter_eq_some_iff.mp h).2

-- ---------------------------------------------------------------------------
-- One call
-- ---------------------------------------------------------------------------

def InMemoryVectorStore.contents (store : InMemoryVectorStore) : VectorMap :=
  fun space id => (store.records space).get? id

/-- A kept namespace has records, each under its own id and of the store's
dimension. -/
structure InMemoryVectorStore.Sound (store : InMemoryVectorStore) : Prop where
  inhabited : ∀ space records, store.namespaces.get? space = some records → records.keys ≠ []
  keyed : ∀ space records id record, store.namespaces.get? space = some records →
    records.get? id = some record → record.id = id ∧ record.vector.length = store.dimensions

theorem records_set (store : InMemoryVectorStore) (space space' : Str)
    (records : Dict Str VectorRecord) :
    ({ store with namespaces := store.namespaces.set space records } :
      InMemoryVectorStore).records space' =
        if space' = space then records else store.records space' := by
  unfold InMemoryVectorStore.records
  rw [Dict.get?_set]
  split <;> rfl

theorem InMemoryVectorStore.Sound.records {store : InMemoryVectorStore} (h : store.Sound)
    {space id : Str} {record : VectorRecord} (hget : (store.records space).get? id = some record) :
    record.id = id ∧ record.vector.length = store.dimensions := by
  unfold InMemoryVectorStore.records at hget
  cases hspace : store.namespaces.get? space with
  | none =>
    rw [hspace] at hget
    cases hget
  | some records =>
    rw [hspace] at hget
    exact h.keyed space records id record hspace hget

theorem InMemoryVectorStore.Sound.set {store : InMemoryVectorStore} (h : store.Sound) {space : Str}
    {records : Dict Str VectorRecord} (hsome : records.keys ≠ [])
    (hkeyed : ∀ id record, records.get? id = some record →
      record.id = id ∧ record.vector.length = store.dimensions) :
    ({ store with namespaces := store.namespaces.set space records } :
      InMemoryVectorStore).Sound := by
  constructor
  · intro space' records' hget
    rw [Dict.get?_set] at hget
    split at hget
    · cases hget
      exact hsome
    · exact h.inhabited space' records' hget
  · intro space' records' id record hget hrecord
    rw [Dict.get?_set] at hget
    split at hget
    · cases hget
      exact hkeyed id record hrecord
    · exact h.keyed space' records' id record hget hrecord

theorem upsert_refines {store : InMemoryVectorStore} (h : store.Sound) (space : Str)
    {batch : Batch} {records : List VectorRecord}
    (hrecords : recordsOf store.dimensions batch = some records) :
    let target := records.foldl (fun target record => target.set record.id record)
      (store.records space)
    let upserted : InMemoryVectorStore :=
      { store with namespaces := store.namespaces.set space target }
    upserted.contents = VectorMap.write store.contents space records ∧ upserted.Sound := by
  intro target upserted
  obtain ⟨hsome, hdimensions, hn⟩ := recordsOf_eq_some hrecords
  have htarget (id : Str) : target.get? id =
      (records.find? (·.id = id)).or ((store.records space).get? id) := by
    have hget := Dict.get?_foldl_set VectorRecord.id (fun record => record) hn
      (store.records space) id
    rwa [Option.map_id'] at hget
  refine ⟨?_, h.set ?_ ?_⟩
  · funext space' id
    unfold InMemoryVectorStore.contents VectorMap.write
    rw [records_set]
    split
    · exact htarget id
    · rfl
  · obtain ⟨record, hrecord⟩ := List.exists_mem_of_ne_nil records hsome
    intro hkeys
    have hnone : target.get? record.id = none := Dict.get?_eq_none.mpr (by simp [hkeys])
    rw [htarget, Option.or_eq_none_iff, List.find?_eq_none] at hnone
    exact hnone.1 record hrecord (by simp)
  · intro id record hget
    rw [htarget, Option.or_eq_some_iff] at hget
    rcases hget with hfound | ⟨-, hkept⟩
    · have hmem := List.mem_of_find?_eq_some hfound
      exact ⟨by simpa using List.find?_some hfound, hdimensions record hmem⟩
    · exact h.records hkept

theorem delete_refines {store : InMemoryVectorStore} (h : store.Sound) (space : Str)
    (ids : List Str) {records : Dict Str VectorRecord}
    (hspace : store.namespaces.get? space = some records) :
    let kept := ids.foldl Dict.erase records
    let deleted : InMemoryVectorStore :=
      if kept.keys = [] then { store with namespaces := store.namespaces.erase space }
      else { store with namespaces := store.namespaces.set space kept }
    deleted.contents = VectorMap.remove store.contents space ids ∧ deleted.Sound := by
  intro kept deleted
  have hrecords : store.records space = records := by
    rw [InMemoryVectorStore.records, hspace]
    rfl
  have hkept (id : Str) : kept.get? id = if id ∈ ids then none else records.get? id := by
    convert Dict.get?_foldl_erase ids records id
  -- what is kept of the namespace, whether it stays or goes
  have hcontents (changed : InMemoryVectorStore)
      (hspaces : ∀ space', changed.records space' =
        if space' = space then kept else store.records space') :
      changed.contents = VectorMap.remove store.contents space ids := by
    funext space' id
    unfold InMemoryVectorStore.contents VectorMap.remove
    rw [hspaces]
    by_cases hs : space' = space
    · simp [hs, hkept, hrecords]
    · simp [hs]
  unfold deleted
  split
  · rename_i hempty
    constructor
    · refine hcontents _ fun space' => ?_
      unfold InMemoryVectorStore.records
      rw [Dict.get?_erase]
      split
      · exact Dict.ext (by simpa [Dict.keys] using hempty.symm)
      · rfl
    · constructor
      · intro space' records' hget
        rw [Dict.get?_erase] at hget
        split at hget
        · cases hget
        · exact h.inhabited space' records' hget
      · intro space' records' id record hget
        rw [Dict.get?_erase] at hget
        split at hget
        · cases hget
        · exact h.keyed space' records' id record hget
  · rename_i hsome
    refine ⟨hcontents _ (records_set store space · kept), h.set hsome fun id record hget => ?_⟩
    rw [hkept] at hget
    split at hget
    · cases hget
    · exact h.keyed space records id record hspace hget

theorem remove_absent {store : InMemoryVectorStore} {space : Str} (ids : List Str)
    (hspace : store.namespaces.get? space = none) :
    VectorMap.remove store.contents space ids = store.contents := by
  funext space' id
  unfold VectorMap.remove
  split
  · rename_i hs
    rw [hs.1, InMemoryVectorStore.contents, InMemoryVectorStore.records, hspace]
    rfl
  · rfl

structure StandsFor (dimensions : Nat) (store : InMemoryVectorStore) (map : VectorMap) : Prop where
  dimensions : store.dimensions = dimensions
  contents : store.contents = map
  sound : store.Sound

theorem vectorCall_refines (dimensions : Nat) {store : InMemoryVectorStore} {map : VectorMap}
    (c : VectorCall) (h : StandsFor dimensions store map) :
    Yields IsVectorStoreError (vectorMachine store c).1 (vectorSpec dimensions map c).1 ∧
      StandsFor dimensions (vectorMachine store c).2 (vectorSpec dimensions map c).2 := by
  obtain ⟨rfl, rfl, hsound⟩ := h
  cases c with
  | upsert batch space =>
    have hspace := validateNamespace_yields space
    have hbatch := validateBatch_yields store.dimensions batch
    simp only [vectorMachine, vectorSpec, InMemoryVectorStore.upsert]
    generalize validateNamespace space = checked, spaceOf space = named at hspace ⊢
    generalize hrecords : recordsOf store.dimensions batch = records at hbatch ⊢
    generalize validateBatch store.dimensions batch = validated at hbatch ⊢
    cases hspace with
    | raised hexc => exact ⟨.raised hexc, rfl, rfl, hsound⟩
    | returned space =>
      cases hbatch with
      | raised hexc => exact ⟨.raised hexc, rfl, rfl, hsound⟩
      | returned records =>
        obtain ⟨hcontents, hsound⟩ := upsert_refines hsound space hrecords
        exact ⟨.returned none, rfl, hcontents, hsound⟩
  | fetch recordIds space =>
    have hspace := validateNamespace_yields space
    have hids := validateRecordIds_yields recordIds
    simp only [vectorMachine, vectorSpec, InMemoryVectorStore.fetch]
    generalize validateNamespace space = checked, spaceOf space = named at hspace ⊢
    generalize validateRecordIds recordIds = validated, idsOf recordIds = ids at hids ⊢
    cases hspace with
    | raised hexc => exact ⟨.raised hexc, rfl, rfl, hsound⟩
    | returned space =>
      cases hids with
      | raised hexc => exact ⟨.raised hexc, rfl, rfl, hsound⟩
      | returned ids => exact ⟨.returned _, rfl, rfl, hsound⟩
  | delete recordIds space =>
    have hspace := validateNamespace_yields space
    have hids := validateRecordIds_yields recordIds
    simp only [vectorMachine, vectorSpec, InMemoryVectorStore.delete]
    generalize validateNamespace space = checked, spaceOf space = named at hspace ⊢
    generalize validateRecordIds recordIds = validated, idsOf recordIds = ids at hids ⊢
    cases hspace with
    | raised hexc => exact ⟨.raised hexc, rfl, rfl, hsound⟩
    | returned space =>
      cases hids with
      | raised hexc => exact ⟨.raised hexc, rfl, rfl, hsound⟩
      | returned ids =>
        simp only [bind, Except.bind]
        cases hget : store.namespaces.get? space with
        | none => exact ⟨.returned none, rfl, (remove_absent ids hget).symm, hsound⟩
        | some records =>
          obtain ⟨hcontents, hsound⟩ := delete_refines hsound space ids hget
          simp only
          by_cases hempty : (ids.foldl Dict.erase records).keys = []
          · rw [if_pos hempty] at hcontents hsound ⊢
            exact ⟨.returned none, rfl, hcontents, hsound⟩
          · rw [if_neg hempty] at hcontents hsound ⊢
            exact ⟨.returned none, rfl, hcontents, hsound⟩

-- ---------------------------------------------------------------------------
-- Runs
-- ---------------------------------------------------------------------------

def VectorCall.space : VectorCall → PyValue
  | .upsert _ space | .fetch _ space | .delete _ space => space

theorem vectorSpec_frame (dimensions : Nat) (map : VectorMap) (c : VectorCall) {space : Str}
    (h : c.space ≠ .str space) : (vectorSpec dimensions map c).2 space = map space := by
  have hother {named : PyValue} {text : Str} (hnamed : spaceOf named = some text)
      (hne : named ≠ .str space) : space ≠ text := by
    rintro rfl
    have hstr := (Option.filter_eq_some_iff.mp hnamed).1
    exact hne (PyValue.str?_eq_some.mp hstr)
  cases c with
  | fetch recordIds named =>
    simp only [vectorSpec]
    split <;> rfl
  | upsert batch named =>
    simp only [vectorSpec]
    split
    · rename_i hnamed _
      funext id
      simp [VectorMap.write, hother hnamed h]
    · rfl
  | delete recordIds named =>
    simp only [vectorSpec]
    split
    · rename_i hnamed _
      funext id
      simp [VectorMap.remove, hother hnamed h]
    · rfl

/-- A new store of any dimension answers any calls as the map does, raising
`VectorStoreError` where a call is not accepted, and stands for the map after
them. It keeps every record under its own id and of its dimension, and no empty
namespace; a further call changes no other namespace. -/
theorem vectorStore_refines {dimensions : PyValue} {store : InMemoryVectorStore}
    (h : InMemoryVectorStore.new dimensions = .ok store) (calls : List VectorCall) :
    List.Forall₂ (Yields IsVectorStoreError) (vectorMachine.run store calls).1
        ((vectorSpec store.dimensions).run (fun _ _ => none) calls).1 ∧
      (vectorMachine.after store calls).contents =
        (vectorSpec store.dimensions).after (fun _ _ => none) calls ∧
      (vectorMachine.after store calls).dimensions = store.dimensions ∧
      (vectorMachine.after store calls).Sound ∧
      ∀ c space, c.space ≠ .str space →
        (vectorMachine (vectorMachine.after store calls) c).2.contents space =
          (vectorMachine.after store calls).contents space := by
  have hnew : StandsFor store.dimensions store fun _ _ => none := by
    unfold InMemoryVectorStore.new at h
    split at h
    · split at h
      · cases h
      · cases h
        exact ⟨rfl, rfl, nofun, nofun⟩
    · cases h
  obtain ⟨hanswers, hstands⟩ := Machine.run_simulates
    (fun _ _ c (_ : True) hs => vectorCall_refines store.dimensions c hs)
    (fun c (_ : c ∈ calls) => trivial) hnew
  refine ⟨hanswers, hstands.contents, hstands.dimensions, hstands.sound, fun c space hc => ?_⟩
  rw [(vectorCall_refines store.dimensions c hstands).2.contents,
    vectorSpec_frame store.dimensions _ c hc, hstands.contents]

-- ---------------------------------------------------------------------------
-- A namespace that loses its last record
-- ---------------------------------------------------------------------------

def planarRecord : VectorRecord :=
  ⟨lit "v1", [1, 0], [], by decide, 1, by simp, by decide⟩

def planarCalls : List VectorCall :=
  [.upsert (.tuple [.record planarRecord]) (.str (lit "plane")),
    .fetch (.tuple [.str (lit "v1")]) (.str (lit "plane")),
    .fetch (.tuple [.str (lit "v1")]) (.int 7),
    .delete (.tuple [.str (lit "v1")]) (.str (lit "plane"))]

theorem planarStore_refines : ∃ store, InMemoryVectorStore.new (.int 2) = .ok store ∧
    List.Forall₂ (Yields IsVectorStoreError) (vectorMachine.run store planarCalls).1
      ((vectorSpec 2).run (fun _ _ => none) planarCalls).1 ∧
    (vectorMachine.after store planarCalls).contents =
      (vectorSpec 2).after (fun _ _ => none) planarCalls ∧
    (vectorMachine.after store planarCalls).dimensions = 2 ∧
    (vectorMachine.after store planarCalls).Sound ∧
    ∀ c space, c.space ≠ .str space →
      (vectorMachine (vectorMachine.after store planarCalls) c).2.contents space =
        (vectorMachine.after store planarCalls).contents space := by
  have hnew : InMemoryVectorStore.new (.int 2) = .ok ⟨2, Dict.empty⟩ := rfl
  exact ⟨_, hnew, vectorStore_refines hnew planarCalls⟩

end MellivorKernel
