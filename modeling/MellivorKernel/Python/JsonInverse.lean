import MellivorKernel.Python.JsonExact

/-!
# Where decoding inverts encoding

JSON values and the values `json.dumps` takes are not the same: tuples, keys
that are no texts and what is written as its text come back as something else.
On JSON values `json.loads` inverts `json.dumps`, with `ensure_ascii=False`.
-/

namespace Python

open Foundation

section
variable [Printing]

mutual
/-- What a JSON document holds. An integer has at most the digits the
interpreter converts, a float is what `float` makes of its `repr`. -/
def PyValue.isJson : PyValue → Bool
  | .none | .bool _ | .str _ => true
  | .int n => convertible n
  | .float f => f.exact
  | .list items => isJsonItems items
  | .dict items => decide (items.map Prod.fst).Nodup && isJsonPairs items
  | .tuple _ | .bytes _ | .toolCall .. | .toolSpec .. | .cycle | .object .. => false
def isJsonItems : List PyValue → Bool
  | [] => true
  | v :: rest => v.isJson && isJsonItems rest
def isJsonPairs : Mapping → Bool
  | [] => true
  | (.str _, v) :: rest => v.isJson && isJsonPairs rest
  | _ :: _ => false
end

theorem PyFloat.reread_of_exact {f : PyFloat} (h : f.exact = true) : f.reread = f := by
  cases f with
  | nan => cases h
  | inf negative => rfl
  | finite q => simpa [PyFloat.exact, PyFloat.reread] using h

mutual
theorem PyValue.jsonable_of_isJson (options : JsonOptions) : (v : PyValue) → v.isJson = true →
    v.jsonable options = true
  | .none, _ | .bool _, _ | .str _, _ | .float _, _ => rfl
  | .int _, h => h
  | .list items, h => jsonableItems_of_isJson options items h
  | .dict items, h =>
    jsonablePairs_of_isJson options items (Bool.and_eq_true_iff.mp h).2
theorem jsonableItems_of_isJson (options : JsonOptions) : (items : List PyValue) →
    isJsonItems items = true → jsonableItems options items = true
  | [], _ => rfl
  | v :: rest, h => by
    obtain ⟨hv, hrest⟩ := Bool.and_eq_true_iff.mp h
    rw [jsonableItems, v.jsonable_of_isJson options hv, jsonableItems_of_isJson options rest hrest]
    rfl
theorem jsonablePairs_of_isJson (options : JsonOptions) : (items : Mapping) →
    isJsonPairs items = true → jsonablePairs options items = true
  | [], _ => rfl
  | (.str k, v) :: rest, h => by
    obtain ⟨hv, hrest⟩ := Bool.and_eq_true_iff.mp h
    rw [jsonablePairs, v.jsonable_of_isJson options hv, jsonablePairs_of_isJson options rest hrest]
    rfl
end

mutual
theorem PyValue.reread_of_isJson : (v : PyValue) → v.isJson = true → v.reread .lenient = v
  | .none, _ | .bool _, _ | .str _, _ | .int _, _ => rfl
  | .float f, h => by rw [PyValue.reread, PyFloat.reread_of_exact h]
  | .list items, h => by rw [PyValue.reread, rereadItems_of_isJson items h]
  | .dict items, h => by
    obtain ⟨hn, hitems⟩ := Bool.and_eq_true_iff.mp h
    have hpairs := rereadPairs_of_isJson items hitems
    rw [PyValue.reread, reread_dict (of_decide_eq_true hn) (fun p hp => (hpairs p hp).1)
      fun p hp => (hpairs p hp).2]
theorem rereadItems_of_isJson : (items : List PyValue) → isJsonItems items = true →
    rereadItems .lenient items = items
  | [], _ => rfl
  | v :: rest, h => by
    obtain ⟨hv, hrest⟩ := Bool.and_eq_true_iff.mp h
    rw [rereadItems, v.reread_of_isJson hv, rereadItems_of_isJson rest hrest]
theorem rereadPairs_of_isJson : (items : Mapping) → isJsonPairs items = true →
    ∀ p ∈ items, p.1 = .str (JsonOptions.lenient.rereadText p.1.jsonText) ∧
      p.2.reread .lenient = p.2
  | [], _ => nofun
  | (.str k, v) :: rest, h => by
    obtain ⟨hv, hrest⟩ := Bool.and_eq_true_iff.mp h
    exact List.forall_mem_cons.mpr ⟨⟨rfl, v.reread_of_isJson hv⟩, rereadPairs_of_isJson rest hrest⟩
end

theorem loads_dumps_isJson {v : PyValue} (h : v.isJson = true) :
    ∃ text, v.dumps .lenient = .ok text ∧ loads text = .ok v := by
  obtain ⟨text, htext⟩ := v.dumps_returns.mpr (v.jsonable_of_isJson .lenient h)
  exact ⟨text, htext, (loads_dumps htext).trans (by rw [v.reread_of_isJson h])⟩

end

end Python
