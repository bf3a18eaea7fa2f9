import MellivorKernel.Python.JsonRoundTrip

/-!
# Values equal to their own reading

`==` forgets more than JSON keeps, so a value that equals what it is read back
as could still be another one. It is not: such a value has no tuple, no key
but texts and no NaN, and is read back as itself.
-/

namespace Python

-- ---------------------------------------------------------------------------
-- Building a dictionary
-- ---------------------------------------------------------------------------

def textItems (pairs : List (Str × PyValue)) : Mapping := pairs.map fun p => (.str p.1, p.2)

theorem put_cases (m : Mapping) (k : Str) (v : PyValue) :
    (m.put (.str k) v).length = m.length ∨
      m.put (.str k) v = m ++ [(.str k, v)] ∧ m.find? (.str k) = Option.none := by
  induction m with
  | nil => exact .inr ⟨rfl, rfl⟩
  | cons p m ih =>
    obtain ⟨key, value⟩ := p
    by_cases hk : key.norm = (PyKey.str k).norm
    · simp [Mapping.put, hk]
    · simpa [Mapping.put, Mapping.find?, hk] using ih

theorem length_foldl_put (pairs : List (Str × PyValue)) (m : Mapping) :
    (pairs.foldl (fun m p => m.put (.str p.1) p.2) m).length ≤ m.length + pairs.length := by
  induction pairs generalizing m with
  | nil => simp
  | cons p pairs ih =>
    have h := ih (m.put (.str p.1) p.2)
    rw [List.foldl_cons, List.length_cons]
    rcases put_cases m p.1 p.2 with hp | ⟨hp, -⟩
    · omega
    · rw [hp, List.length_append, List.length_singleton] at h
      rw [hp]
      omega

theorem find?_append (m n : Mapping) (k : PyKey) :
    Mapping.find? (m ++ n) k = (m.find? k).or (n.find? k) := by
  induction m with
  | nil => rfl
  | cons p m ih =>
    obtain ⟨key, value⟩ := p
    by_cases hk : key.norm = k.norm
    · simp [Mapping.find?, hk]
    · simpa [Mapping.find?, hk] using ih

/-- No item is lost only where no key is repeated, and then every key finds
its own item. -/
theorem foldl_put_of_length {pairs : List (Str × PyValue)} {m : Mapping}
    (h : (pairs.foldl (fun m p => m.put (.str p.1) p.2) m).length = m.length + pairs.length) :
    pairs.foldl (fun m p => m.put (.str p.1) p.2) m = m ++ textItems pairs ∧
      ∀ p ∈ pairs, Mapping.find? (m ++ textItems pairs) (.str p.1) = some p.2 := by
  induction pairs generalizing m with
  | nil => simp [textItems]
  | cons p pairs ih =>
    rw [List.foldl_cons] at h ⊢
    have hle := length_foldl_put pairs (m.put (.str p.1) p.2)
    rw [List.length_cons] at h
    rcases put_cases m p.1 p.2 with hp | ⟨hp, hnone⟩
    · omega
    · have hlen : (m.put (.str p.1) p.2).length = m.length + 1 := by rw [hp]; simp
      obtain ⟨heq, hfind⟩ := ih (m := m.put (.str p.1) p.2) (by omega)
      have happ : m.put (.str p.1) p.2 ++ textItems pairs = m ++ textItems (p :: pairs) := by
        rw [hp]
        simp [textItems]
      rw [happ] at heq hfind
      refine ⟨heq, List.forall_mem_cons.mpr ⟨?_, hfind⟩⟩
      rw [find?_append, hnone]
      simp [textItems, Mapping.find?]

theorem norm_eq_str {k : PyKey} {s : Str} : k.norm = (PyKey.str s).norm ↔ k = .str s := by
  refine ⟨fun h => ?_, fun h => h ▸ rfl⟩
  cases k with
  | str t => exact h
  | float f =>
    cases f with
    | finite q =>
      simp only [PyKey.norm] at h
      split at h <;> cases h
    | _ => cases h
  | _ => cases h

theorem key_of_find? {pairs : List (Str × PyValue)} {k : PyKey} {v : PyValue}
    (h : (textItems pairs).find? k = some v) : ∃ p ∈ pairs, k = .str p.1 := by
  induction pairs with
  | nil => cases h
  | cons p pairs ih =>
    simp only [textItems, List.map_cons, Mapping.find?] at h
    split at h
    · rename_i hk
      exact ⟨p, by simp, norm_eq_str.mp hk.symm⟩
    · obtain ⟨q, hq, hk⟩ := ih h
      exact ⟨q, List.mem_cons_of_mem _ hq, hk⟩

-- ---------------------------------------------------------------------------
-- Equal to the own reading
-- ---------------------------------------------------------------------------

theorem rereadText_idem (options : JsonOptions) (s : Str) :
    options.rereadText (options.rereadText s) = options.rereadText s := by
  unfold JsonOptions.rereadText
  split
  · exact pairSurrogates_idem s
  · rfl

theorem eqPairs_iff {xs ys : Mapping} :
    eqPairs xs ys = true ↔ ∀ p ∈ xs, ∃ w, ys.find? p.1 = some w ∧ p.2.eq w = true := by
  induction xs with
  | nil => simp [eqPairs]
  | cons p xs ih =>
    obtain ⟨k, v⟩ := p
    rw [eqPairs, Bool.and_eq_true, List.forall_mem_cons, ih]
    refine and_congr_left fun _ => ?_
    cases hf : ys.find? k with
    | none => simp
    | some w => simp

section
variable [Printing] {options : JsonOptions}

theorem rereadPairs_eq_map (m : Mapping) :
    rereadPairs options m =
      m.map fun p => (options.rereadText p.1.jsonText, p.2.reread options) := by
  induction m with
  | nil => rfl
  | cons p m ih => rw [rereadPairs, ih, List.map_cons]

theorem dict_eq_reread {xs : Mapping}
    (h : (PyValue.dict xs).eq ((PyValue.dict xs).reread options) = true) :
    (∀ p ∈ xs, p.1 = .str (options.rereadText p.1.jsonText) ∧
      p.2.eq (p.2.reread options) = true) ∧
      ofPairs (rereadPairs options xs) = textItems (rereadPairs options xs) := by
  simp only [PyValue.reread, PyValue.eq, Bool.and_eq_true, decide_eq_true_eq] at h
  obtain ⟨hlen, hpairs⟩ := h
  have hcount : (rereadPairs options xs).length = xs.length := by
    rw [rereadPairs_eq_map, List.length_map]
  obtain ⟨hitems, hfind⟩ := @foldl_put_of_length (rereadPairs options xs) []
    (by rw [hcount, List.length_nil, Nat.zero_add]; exact hlen.symm)
  rw [List.nil_append] at hitems hfind
  refine ⟨fun p hp => ?_, hitems⟩
  have hmem : (options.rereadText p.1.jsonText, p.2.reread options) ∈ rereadPairs options xs := by
    rw [rereadPairs_eq_map]
    exact List.mem_map.mpr ⟨p, hp, rfl⟩
  obtain ⟨w, hw, heq⟩ := eqPairs_iff.mp hpairs p hp
  rw [show ofPairs (rereadPairs options xs) = textItems (rereadPairs options xs) from hitems] at hw
  obtain ⟨q, hq, hk⟩ := key_of_find? hw
  have hkey : p.1 = .str (options.rereadText p.1.jsonText) := by
    rw [rereadPairs_eq_map] at hq
    obtain ⟨r, -, rfl⟩ := List.mem_map.mp hq
    rw [hk]
    simp only [PyKey.jsonText, rereadText_idem]
  refine ⟨hkey, ?_⟩
  rw [hkey, hfind _ hmem] at hw
  cases hw
  exact heq

mutual
theorem PyValue.reread_of_eq : (v : PyValue) → v.eq (v.reread options) = true →
    v.reread options = v
  | .none, _ | .bool _, _ | .int _, _ | .cycle, _ => rfl
  | .float f, h => by
    cases f with
    | nan => simp [PyValue.reread, PyFloat.reread, PyValue.eq, PyValue.number?, PyFloat.eq] at h
    | inf negative => rfl
    | finite q =>
      simp only [PyValue.reread, PyValue.eq, PyValue.number?] at h
      cases hr : (PyFloat.finite q).reread with
      | nan => simp [hr, PyFloat.eq] at h
      | inf negative => simp [hr, PyFloat.eq] at h
      | finite r =>
        simp only [hr, PyFloat.eq, decide_eq_true_eq] at h
        rw [PyValue.reread, hr, h]
  | .str s, h => by
    simp only [PyValue.reread, PyValue.eq, decide_eq_true_eq] at h
    rw [PyValue.reread, ← h]
  | .list items, h => by
    simp only [PyValue.reread, PyValue.eq] at h
    rw [PyValue.reread, rereadItems_of_eq items h]
  | .dict items, h => by
    obtain ⟨hpairs, hitems⟩ := dict_eq_reread h
    rw [PyValue.reread, hitems, textItems, rereadPairs_eq_map, List.map_map]
    refine congrArg PyValue.dict ((List.map_congr_left fun p hp => ?_).trans (List.map_id _))
    exact Prod.ext (hpairs p hp).1.symm (reread_values_of_eq items (fun q hq => (hpairs q hq).2) p hp)
  | .tuple _, h | .bytes _, h | .toolCall .., h | .toolSpec .., h | .object .., h => by
    simp [PyValue.reread, JsonOptions.rereadOther, PyValue.eq, PyValue.number?] at h
theorem rereadItems_of_eq : (items : List PyValue) →
    eqItems items (rereadItems options items) = true → rereadItems options items = items
  | [], _ => rfl
  | v :: rest, h => by
    simp only [rereadItems, eqItems, Bool.and_eq_true] at h
    rw [rereadItems, v.reread_of_eq h.1, rereadItems_of_eq rest h.2]
theorem reread_values_of_eq : (items : Mapping) →
    (∀ p ∈ items, p.2.eq (p.2.reread options) = true) → ∀ p ∈ items, p.2.reread options = p.2
  | [], _ => nofun
  | (k, v) :: rest, h => List.forall_mem_cons.mpr
      ⟨v.reread_of_eq (h (k, v) (by simp)),
        reread_values_of_eq rest fun q hq => h q (List.mem_cons_of_mem _ hq)⟩
end

end

end Python
