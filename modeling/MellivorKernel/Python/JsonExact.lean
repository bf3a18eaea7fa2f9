import MellivorKernel.Python.JsonEq

/-!
# What JSON gives back

JSON takes more values than it can tell apart. The values it gives back equal
are those without a tuple, a key other than a text or a NaN, whose texts hold
no high surrogate right before a low one: read back, those two are one code
point.
-/

namespace Python

-- ---------------------------------------------------------------------------
-- Texts
-- ---------------------------------------------------------------------------

/-- No high surrogate stands right before a low one. -/
def unpaired : Str → Bool
  | [] | [_] => true
  | c :: d :: rest => !(isHighSurrogate c && isLowSurrogate d) && unpaired (d :: rest)

theorem pairSurrogates_eq_iff (s : Str) : pairSurrogates s = s ↔ unpaired s = true := by
  fun_induction pairSurrogates s with
  | case1 => simp [unpaired]
  | case2 c => simp [unpaired]
  | case3 c d rest hcd ih =>
    obtain ⟨hc, hd⟩ := Bool.and_eq_true_iff.mp hcd
    have hv := joinPair_val hc hd
    simp only [isHighSurrogate, Bool.and_eq_true, decide_eq_true_eq] at hc
    have hne : joinPair c d ≠ c := by
      intro heq
      rw [heq] at hv
      omega
    simp [unpaired, hcd, hne]
  | case4 c d rest hcd ih => simpa [unpaired, hcd] using ih

theorem rereadText_strict (s : Str) : JsonOptions.strict.rereadText s = pairSurrogates s := rfl

-- ---------------------------------------------------------------------------
-- Dictionaries of texts
-- ---------------------------------------------------------------------------

theorem Mapping.keys_put (m : Mapping) (k : Str) (v : PyValue) :
    (m.put (.str k) v).map Prod.fst =
      if .str k ∈ m.map Prod.fst then m.map Prod.fst else m.map Prod.fst ++ [.str k] := by
  induction m with
  | nil => simp [Mapping.put]
  | cons p m ih =>
    obtain ⟨key, value⟩ := p
    by_cases hk : key = .str k
    · simp [Mapping.put, hk]
    · have hnorm : key.norm ≠ (PyKey.str k).norm := fun h => hk (norm_eq_str.mp h)
      simp only [Mapping.put, hnorm, if_false, List.map_cons, ih, List.mem_cons, Ne.symm hk,
        false_or]
      split <;> simp

theorem Mapping.put_of_not_mem {m : Mapping} {k : Str} (h : .str k ∉ m.map Prod.fst)
    (v : PyValue) : m.put (.str k) v = m ++ [(.str k, v)] := by
  induction m with
  | nil => rfl
  | cons p m ih =>
    obtain ⟨key, value⟩ := p
    obtain ⟨hne, hrest⟩ : PyKey.str k ≠ key ∧ .str k ∉ m.map Prod.fst := by simpa using h
    have hnorm : key.norm ≠ (PyKey.str k).norm := fun hk => hne (norm_eq_str.mp hk).symm
    simp [Mapping.put, hnorm, ih hrest]

theorem Mapping.find?_of_mem {m : Mapping} (hn : (m.map Prod.fst).Nodup) {k : Str} {v : PyValue}
    (h : (.str k, v) ∈ m) : m.find? (.str k) = some v := by
  induction m with
  | nil => simp at h
  | cons p m ih =>
    obtain ⟨key, value⟩ := p
    obtain ⟨hnew, hn⟩ := List.nodup_cons.mp hn
    rcases List.mem_cons.mp h with heq | hmem
    · cases heq
      simp [Mapping.find?]
    · have hne : key ≠ .str k := by
        rintro rfl
        exact hnew (List.mem_map.mpr ⟨_, hmem, rfl⟩)
      simpa [Mapping.find?, mt norm_eq_str.mp hne] using ih hn hmem

theorem nodup_foldl_put (pairs : List (Str × PyValue)) {m : Mapping}
    (h : (m.map Prod.fst).Nodup) :
    ((pairs.foldl (fun m p => m.put (.str p.1) p.2) m).map Prod.fst).Nodup := by
  induction pairs generalizing m with
  | nil => exact h
  | cons p pairs ih =>
    refine ih ?_
    rw [Mapping.keys_put]
    split
    · exact h
    · rename_i hnew
      exact List.nodup_append.mpr ⟨h, by simp, by
        rintro a ha b hb rfl
        exact hnew (List.mem_singleton.mp hb ▸ ha)⟩

theorem foldl_put_nodup {pairs : List (Str × PyValue)} {m : Mapping}
    (h : ((m ++ textItems pairs).map Prod.fst).Nodup) :
    pairs.foldl (fun m p => m.put (.str p.1) p.2) m = m ++ textItems pairs := by
  induction pairs generalizing m with
  | nil => simp [textItems]
  | cons p pairs ih =>
    have happ : m ++ textItems (p :: pairs) = m ++ [(.str p.1, p.2)] ++ textItems pairs := by
      simp [textItems]
    have hnew : .str p.1 ∉ m.map Prod.fst := by
      intro hmem
      rw [List.map_append, List.nodup_append] at h
      exact h.2.2 _ hmem (.str p.1) (by simp [textItems]) rfl
    rw [List.foldl_cons, Mapping.put_of_not_mem hnew, happ]
    exact ih (happ ▸ h)

theorem ofPairs_nodup {pairs : List (Str × PyValue)}
    (h : ((textItems pairs).map Prod.fst).Nodup) : ofPairs pairs = textItems pairs :=
  foldl_put_nodup (m := []) h

-- ---------------------------------------------------------------------------
-- Values
-- ---------------------------------------------------------------------------

def PyKey.exact : PyKey → Bool
  | .str s => unpaired s
  | _ => false

section
variable [Printing]

/-- A float is what `float` makes of its `repr`, NaN excepted. -/
def PyFloat.exact : PyFloat → Bool
  | .nan => false
  | .inf _ => true
  | .finite q => (Printing.floatText q).toFloat = .finite q

mutual
/-- What JSON gives back equal. -/
def PyValue.exact : PyValue → Bool
  | .none | .bool _ | .int _ => true
  | .float f => f.exact
  | .str s => unpaired s
  | .list items => exactItems items
  | .dict items => decide (items.map Prod.fst).Nodup && exactPairs items
  | .tuple _ | .bytes _ | .toolCall .. | .toolSpec .. | .cycle | .object .. => false
def exactItems : List PyValue → Bool
  | [] => true
  | v :: rest => v.exact && exactItems rest
def exactPairs : Mapping → Bool
  | [] => true
  | (k, v) :: rest => k.exact && v.exact && exactPairs rest
end

theorem exactPairs_iff {items : Mapping} :
    exactPairs items = true ↔ ∀ p ∈ items, p.1.exact = true ∧ p.2.exact = true := by
  induction items with
  | nil => simp [exactPairs]
  | cons p items ih =>
    obtain ⟨k, v⟩ := p
    rw [exactPairs, Bool.and_eq_true, Bool.and_eq_true, ih, List.forall_mem_cons]

theorem PyFloat.exact_iff (f : PyFloat) : f.eq f.reread = true ↔ f.exact = true := by
  cases f with
  | nan => simp [PyFloat.eq, PyFloat.exact]
  | inf negative => simp [PyFloat.eq, PyFloat.exact, PyFloat.reread]
  | finite q =>
    simp only [PyFloat.exact, PyFloat.reread, decide_eq_true_eq]
    cases (Printing.floatText q).toFloat with
    | nan => simp [PyFloat.eq]
    | inf negative => simp [PyFloat.eq]
    | finite r => simp [PyFloat.eq, eq_comm]

theorem reread_dict {options : JsonOptions} {items : Mapping} (hn : (items.map Prod.fst).Nodup)
    (hkeys : ∀ p ∈ items, p.1 = .str (options.rereadText p.1.jsonText))
    (hvalues : ∀ p ∈ items, p.2.reread options = p.2) :
    ofPairs (rereadPairs options items) = items := by
  have htexts : textItems (rereadPairs options items) = items := by
    rw [rereadPairs_eq_map, textItems, List.map_map]
    refine (List.map_congr_left fun p hp => ?_).trans (List.map_id _)
    exact Prod.ext (hkeys p hp).symm (hvalues p hp)
  rw [ofPairs_nodup (by rwa [htexts]), htexts]

theorem PyKey.eq_reread_of_exact {k : PyKey} (h : k.exact = true) :
    k = .str (JsonOptions.strict.rereadText k.jsonText) := by
  cases k with
  | str s => rw [PyKey.jsonText, rereadText_strict, (pairSurrogates_eq_iff s).mpr h]
  | _ => cases h

theorem exact_of_reread_dict {items : Mapping}
    (h : (PyValue.dict items).eq ((PyValue.dict items).reread .strict) = true) :
    (items.map Prod.fst).Nodup ∧ (∀ p ∈ items, p.1.exact = true) ∧
      ∀ p ∈ items, p.2.eq (p.2.reread .strict) = true := by
  obtain ⟨hpairs, -⟩ := dict_eq_reread h
  have hsame : ofPairs (rereadPairs .strict items) = items := by
    simpa [PyValue.reread] using PyValue.reread_of_eq (.dict items) h
  refine ⟨?_, fun p hp => ?_, fun p hp => (hpairs p hp).2⟩
  · rw [← hsame]
    exact nodup_foldl_put _ (by simp)
  · rw [(hpairs p hp).1, PyKey.exact, ← pairSurrogates_eq_iff, rereadText_strict]
    exact pairSurrogates_idem _

theorem dict_exact_iff {items : Mapping}
    (h : ∀ p ∈ items, (p.2.eq (p.2.reread .strict) = true ↔ p.2.exact = true)) :
    (PyValue.dict items).eq ((PyValue.dict items).reread .strict) = true ↔
      (PyValue.dict items).exact = true := by
  rw [PyValue.exact, Bool.and_eq_true, decide_eq_true_eq, exactPairs_iff]
  constructor
  · intro heq
    obtain ⟨hn, hkeys, hvalues⟩ := exact_of_reread_dict heq
    exact ⟨hn, fun p hp => ⟨hkeys p hp, (h p hp).mp (hvalues p hp)⟩⟩
  · rintro ⟨hn, hexact⟩
    have hvalues : ∀ p ∈ items, p.2.eq (p.2.reread .strict) = true := fun p hp =>
      (h p hp).mpr (hexact p hp).2
    have hreread := reread_values_of_eq items hvalues
    rw [PyValue.reread, reread_dict hn (fun p hp => PyKey.eq_reread_of_exact (hexact p hp).1) hreread,
      PyValue.eq, Bool.and_eq_true, decide_eq_true_eq, eqPairs_iff]
    refine ⟨rfl, fun p hp => ?_⟩
    obtain ⟨k, v⟩ := p
    have hk := (hexact _ hp).1
    cases k with
    | str s =>
      refine ⟨v, Mapping.find?_of_mem hn hp, ?_⟩
      have hv := hvalues _ hp
      rwa [hreread _ hp] at hv
    | _ => cases hk

mutual
/-- A value JSON takes comes back equal exactly if it is one of these. -/
theorem PyValue.exact_iff : (v : PyValue) → v.jsonable .strict = true →
    (v.eq (v.reread .strict) = true ↔ v.exact = true)
  | .none, _ => iff_of_true rfl rfl
  | .bool b, _ => iff_of_true (by simp [PyValue.reread, PyValue.eq, PyValue.number?, PyFloat.eq]) rfl
  | .int n, _ => iff_of_true (by simp [PyValue.reread, PyValue.eq, PyValue.number?, PyFloat.eq]) rfl
  | .float f, _ => by
    simpa [PyValue.reread, PyValue.eq, PyValue.number?, PyValue.exact] using f.exact_iff
  | .str s, _ => by
    rw [PyValue.exact, ← pairSurrogates_eq_iff]
    simp [PyValue.reread, PyValue.eq, rereadText_strict, eq_comm]
  | .list items, h => by
    rw [PyValue.reread, PyValue.eq, PyValue.exact]
    exact exactItems_iff items h
  | .tuple items, _ => by
    refine iff_of_false ?_ (by simp [PyValue.exact])
    simp [PyValue.reread, PyValue.eq, PyValue.number?]
  | .dict items, h => dict_exact_iff (values_exact_iff items h)
  | .cycle, h | .bytes _, h | .object .., h | .toolCall .., h | .toolSpec .., h => by
    simp [PyValue.jsonable, JsonOptions.strict] at h
theorem exactItems_iff : (items : List PyValue) → jsonableItems .strict items = true →
    (eqItems items (rereadItems .strict items) = true ↔ exactItems items = true)
  | [], _ => iff_of_true rfl rfl
  | v :: rest, h => by
    obtain ⟨hv, hrest⟩ := Bool.and_eq_true_iff.mp h
    rw [rereadItems, eqItems, exactItems, Bool.and_eq_true, Bool.and_eq_true, v.exact_iff hv,
      exactItems_iff rest hrest]
theorem values_exact_iff : (items : Mapping) → jsonablePairs .strict items = true →
    ∀ p ∈ items, (p.2.eq (p.2.reread .strict) = true ↔ p.2.exact = true)
  | [], _ => nofun
  | (k, v) :: rest, h => by
    obtain ⟨hkv, hrest⟩ := Bool.and_eq_true_iff.mp h
    refine List.forall_mem_cons.mpr ⟨?_, values_exact_iff rest hrest⟩
    exact v.exact_iff (Bool.and_eq_true_iff.mp hkv).2
end

end

end Python
