import MellivorKernel.Memory.SearchMeaning

/-!
# What a file keeps

The SQLite store under any `sqlite3.Error`s and any closing and reopening on
the way. The calls that return are answered as a store in memory answers them
that is handed each entry as JSON gives it back, and whoever opens the file
next finds exactly the entries those calls left.
-/

namespace MellivorKernel

open Python Foundation

section
variable [Printing] {store : SQLiteMemoryStore} {memory : InMemoryStore} {path : Str}

theorem executeError_eq_none {fault : Option Str} {params : List Str}
    (h : executeError fault params = none) : fault = none ∧ ∀ s ∈ params, encodable s = true := by
  have hall := encodable_of_executeError h
  rw [executeError_eq, if_pos hall] at h
  exact ⟨Option.map_eq_none_iff.mp h, hall⟩

theorem query_returned {fault : Option Str} {params : List Str} {message : Str}
    {f : MemoryTable → α} (h : Returns (translated message (store.query fault params f))) :
    fault = none ∧ ∀ s ∈ params, encodable s = true := by
  unfold SQLiteMemoryStore.query at h
  split at h
  · exact absurd h (not_returns_error _)
  · rename_i hexec
    exact executeError_eq_none hexec

theorem transact_returned {fault : Option Str} {params : List Str} {message : Str}
    {change : MemoryTable → MemoryTable}
    (h : Returns (translated message (store.transact fault params change).1)) :
    fault = none ∧ ∀ s ∈ params, encodable s = true := by
  unfold SQLiteMemoryStore.transact at h
  split at h
  · exact absurd h (not_returns_error _)
  · rename_i hexec
    exact executeError_eq_none hexec

omit [Printing] in
theorem returns_map {f : α → β} {r : Except Exn α} (h : (r.map f).isOk = true) : Returns r := by
  cases r with
  | ok a => exact ⟨a, rfl⟩
  | error exc => cases h

theorem performUnder_answer (h : Represents store memory) {op : MemoryOp × Option Str}
    (hok : (SQLiteMemoryStore.performUnder path store op).1.isOk = true) :
    (SQLiteMemoryStore.performUnder path store op).1 = (memory.perform op.1.reread).1 := by
  obtain ⟨op, fault⟩ := op
  cases op with
  | add entry =>
    obtain ⟨u, hadd⟩ := returns_map hok
    exact congrArg (Except.map fun _ => MemoryReply.none) hadd
  | get id =>
    obtain ⟨row, hrow, -⟩ := returns_bind.mp (returns_map hok)
    obtain ⟨rfl, hid⟩ := query_returned ⟨row, hrow⟩
    exact congrArg (Except.map MemoryReply.entry) (get_represents h (hid id List.mem_cons_self))
  | search query =>
    obtain ⟨rows, hrows, -⟩ := returns_bind.mp (returns_map hok)
    obtain ⟨rfl, -⟩ := query_returned ⟨rows, hrows⟩
    exact congrArg (Except.map MemoryReply.result) (search_represents h query)
  | delete id =>
    have hdelete : Returns (translated (lit "Failed to delete entry id=" ++ pyRepr id)
        (store.transact fault [id] (·.delete id)).1) :=
      returns_map (returns_iff_isOk.mp (returns_map hok))
    obtain ⟨rfl, hid⟩ := transact_returned hdelete
    exact congrArg (Except.map MemoryReply.removed)
      (delete_represents h (hid id List.mem_cons_self)).1
  | clear =>
    obtain ⟨u, hclear⟩ := returns_map hok
    exact congrArg (Except.map fun _ => MemoryReply.none) hclear
  | reopen =>
    cases fault with
    | none => rfl
    | some text => cases hok

/-- The answers that are not exceptions are those of the store in memory. -/
theorem run_answers (h : Represents store memory) (calls : List (MemoryOp × Option Str)) :
    (Machine.run (SQLiteMemoryStore.performUnder path) store calls).1.filter Except.isOk =
      (Machine.run InMemoryStore.perform memory (store.history path calls)).1 := by
  induction calls generalizing store memory with
  | nil => rfl
  | cons op calls ih =>
    have hnext := performUnder_represents path h op
    rw [SQLiteMemoryStore.history, Machine.run]
    by_cases hok : (SQLiteMemoryStore.performUnder path store op).1.isOk = true
    · rw [if_pos hok] at hnext ⊢
      rw [List.filter_cons_of_pos hok, ih hnext, performUnder_answer h hok]
      rfl
    · rw [if_neg hok] at hnext ⊢
      rw [List.filter_cons_of_neg hok, ih hnext]
      rfl

omit [Printing] in
theorem InMemoryStore.Holds.get {held : List MemoryEntry} (h : memory.Holds held) (id : Str) :
    memory.get id = held.find? fun entry => entry.id = id := by
  rw [InMemoryStore.get, Dict.get?, h]
  clear h
  induction held with
  | nil => rfl
  | cons entry held ih =>
    rw [List.map_cons, Dict.lookup, ih, List.find?_cons]
    by_cases hid : entry.id = id <;> simp [hid]

/-- From a new file: the calls that return are answered as a store in memory
answers them and no others, with each added entry as JSON gives it back, and
the file, opened again, holds its entries, each found under its id. -/
theorem sqlite_durable (path : Str) (calls : List (MemoryOp × Option Str)) :
    let start : SQLiteMemoryStore := ⟨RowTable.empty, RowTable.empty⟩
    let run := Machine.run (SQLiteMemoryStore.performUnder path) start calls
    let history := start.history path calls
    run.1.filter Except.isOk = (Machine.run InMemoryStore.perform InMemoryStore.new history).1 ∧
    ∃ reopened, SQLiteMemoryStore.opened path run.2.close none = .ok reopened ∧
      reopened.contents = .ok (heldAfter history) ∧
      ∀ id, encodable id = true →
        reopened.get id none = .ok ((heldAfter history).find? fun entry => entry.id = id) := by
  intro start run history
  have hend : Represents run.2 (Machine.after InMemoryStore.perform InMemoryStore.new history) :=
    after_represents path .empty calls
  have hreopened : Represents ⟨run.2.committed, run.2.committed⟩
      (Machine.after InMemoryStore.perform InMemoryStore.new history) :=
    ⟨rfl, hend.committed ▸ hend.related⟩
  have hholds : (Machine.after InMemoryStore.perform InMemoryStore.new history).Holds
      (heldAfter history) := by
    have hnew : InMemoryStore.new.Holds [] := rfl
    exact after_holds hnew history
  refine ⟨run_answers .empty calls, ⟨run.2.committed, run.2.committed⟩, rfl, ?_, fun id hid => ?_⟩
  · rw [hreopened.contents, InMemoryStore.contents, hholds.values]
  · rw [get_represents hreopened hid, hholds.get]

end

end MellivorKernel
