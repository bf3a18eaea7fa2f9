import MellivorKernel.Python.JsonScan

/-!
# JSON strings

What the scanner makes of the strings the encoder writes: the same text, but
that with `ensure_ascii` a high surrogate and a low one that follows it come
back as the one code point they stand for.
-/

namespace Python

-- ---------------------------------------------------------------------------
-- Surrogates
-- ---------------------------------------------------------------------------

/-- A text whose adjacent surrogates have become the code points they stand for. -/
def pairSurrogates : Str → Str
  | [] => []
  | [c] => [c]
  | c :: d :: rest =>
    if isHighSurrogate c && isLowSurrogate d then joinPair c d :: pairSurrogates rest
    else c :: pairSurrogates (d :: rest)

theorem joinPair_val {c d : CodePoint} (hc : isHighSurrogate c = true)
    (hd : isLowSurrogate d = true) :
    (joinPair c d).val = 0x10000 + ((c.val - 0xD800) * 0x400 + (d.val - 0xDC00)) := by
  simp only [isHighSurrogate, isLowSurrogate, Bool.and_eq_true, decide_eq_true_eq] at hc hd
  simp only [joinPair, Fin.ofNat]
  omega

/-- A code point beyond the basic plane is the pair its two surrogates make. -/
theorem joinPair_split {c : CodePoint} (h : 0x10000 ≤ c.val) :
    let high : CodePoint := Fin.ofNat 0x110000 (0xD800 + (c.val - 0x10000) / 0x400)
    let low : CodePoint := Fin.ofNat 0x110000 (0xDC00 + (c.val - 0x10000) % 0x400)
    isHighSurrogate high = true ∧ isLowSurrogate low = true ∧ joinPair high low = c := by
  have hc := c.isLt
  have hhigh : (0xD800 + (c.val - 0x10000) / 0x400) % 0x110000 =
      0xD800 + (c.val - 0x10000) / 0x400 := by omega
  have hlow : (0xDC00 + (c.val - 0x10000) % 0x400) % 0x110000 =
      0xDC00 + (c.val - 0x10000) % 0x400 := by omega
  have h1 : isHighSurrogate (Fin.ofNat 0x110000 (0xD800 + (c.val - 0x10000) / 0x400)) = true := by
    simp only [isHighSurrogate, Fin.ofNat, hhigh, Bool.and_eq_true, decide_eq_true_eq]
    omega
  have h2 : isLowSurrogate (Fin.ofNat 0x110000 (0xDC00 + (c.val - 0x10000) % 0x400)) = true := by
    simp only [isLowSurrogate, Fin.ofNat, hlow, Bool.and_eq_true, decide_eq_true_eq]
    omega
  refine ⟨h1, h2, Fin.ext ?_⟩
  rw [joinPair_val h1 h2]
  simp only [Fin.ofNat, hhigh, hlow]
  omega

theorem pairSurrogates_head (s : Str) (h : ∀ c ∈ s.head?, isLowSurrogate c = false) :
    ∀ c ∈ (pairSurrogates s).head?, isLowSurrogate c = false := by
  fun_cases pairSurrogates s with
  | case1 => exact h
  | case2 c => exact h
  | case3 c d rest hcd =>
    obtain ⟨hc, hd⟩ := Bool.and_eq_true_iff.mp hcd
    have hv := joinPair_val hc hd
    rintro e he
    obtain rfl : joinPair c d = e := Option.some.inj he
    simp only [isLowSurrogate, Bool.and_eq_false_iff, decide_eq_false_iff_not]
    omega
  | case4 c d rest hcd =>
    rintro _ ⟨⟩
    exact h c rfl

theorem pairSurrogates_cons {c : CodePoint} {s : Str}
    (h : isHighSurrogate c = true → ∀ d ∈ s.head?, isLowSurrogate d = false) :
    pairSurrogates (c :: s) = c :: pairSurrogates s := by
  cases s with
  | nil => rfl
  | cons d rest =>
    rw [pairSurrogates, if_neg]
    rintro hcd
    obtain ⟨hc, hd⟩ := Bool.and_eq_true_iff.mp hcd
    rw [h hc d rfl] at hd
    cases hd

theorem pairSurrogates_idem (s : Str) : pairSurrogates (pairSurrogates s) = pairSurrogates s := by
  fun_induction pairSurrogates s with
  | case1 => rfl
  | case2 c => rfl
  | case3 c d rest hcd ih =>
    obtain ⟨hc, hd⟩ := Bool.and_eq_true_iff.mp hcd
    rw [pairSurrogates_cons, ih]
    intro hp
    have hv := joinPair_val hc hd
    simp only [isHighSurrogate, Bool.and_eq_true, decide_eq_true_eq] at hp
    omega
  | case4 c d rest hcd ih =>
    rw [pairSurrogates_cons, ih]
    intro hc
    refine pairSurrogates_head _ ?_
    rintro _ ⟨⟩
    simpa [hc] using hcd

-- ---------------------------------------------------------------------------
-- Strings
-- ---------------------------------------------------------------------------

def unitsOf (ensureAscii : Bool) (c : CodePoint) : List StringUnit :=
  match jsonShort c with
  | some _ => [.plain c]
  | none =>
    if c.val < 32 then [.escaped c]
    else if !ensureAscii || c.val < 127 then [.plain c]
    else if c.val < 0x10000 then [.escaped c]
    else
      [.escaped (Fin.ofNat 0x110000 (0xD800 + (c.val - 0x10000) / 0x400)),
        .escaped (Fin.ofNat 0x110000 (0xDC00 + (c.val - 0x10000) % 0x400))]

theorem unescape_jsonShort {c e : CodePoint} (h : jsonShort c = some e) :
    e ≠ cp 'u' ∧ unescape e = some c ∧ c.val < 127 := by
  unfold jsonShort at h
  split at h
  · cases h
    rename_i hc
    rcases hc with rfl | rfl <;> decide
  iterate 5
    split at h
    · cases h
      rename_i hc
      subst hc
      decide
  cases h

theorem jsonShort_none {c : CodePoint} (h : jsonShort c = none) : c ≠ cp '"' ∧ c ≠ cp '\\' := by
  unfold jsonShort at h
  split at h
  · cases h
  · rename_i hc
    exact not_or.mp hc

theorem hexValue_hexDigit : ∀ n < 16, hexValue (hexDigit n) = some n := by decide

theorem unitValue_hex {n : Nat} (hn : n < 0x10000) :
    unitValue (hexDigit (n / 16 / 16 / 16 % 16)) (hexDigit (n / 16 / 16 % 16))
      (hexDigit (n / 16 % 16)) (hexDigit (n % 16)) = some (Fin.ofNat 0x110000 n) := by
  have hv (m : Nat) : hexValue (hexDigit (m % 16)) = some (m % 16) :=
    hexValue_hexDigit _ (Nat.mod_lt _ (by decide))
  have hsum : ((n / 16 / 16 / 16 % 16 * 16 + n / 16 / 16 % 16) * 16 + n / 16 % 16) * 16 + n % 16 =
      n := by omega
  simp [unitValue, hv, hsum]

section
variable {opening : Nat} {s rest : Str} {units : List StringUnit}

theorem scanUnits_ne_nil (h : scanUnits opening s = .ok (units, rest)) : s ≠ [] := by
  rintro rfl
  cases h

theorem scanUnits_jsonUnit {n : Nat} (hn : n < 0x10000)
    (h : scanUnits opening s = .ok (units, rest)) :
    scanUnits opening (jsonUnit n ++ s) =
      .ok (.escaped (Fin.ofNat 0x110000 n) :: units, rest) := by
  have hq : cp '\\' ≠ cp '"' := by decide
  have hctl : ¬ (cp '\\').val < 32 := by decide
  have hne := scanUnits_ne_nil h
  have hhex := unitValue_hex hn
  simp only [jsonUnit, hex, List.nil_append, List.append_assoc, List.cons_append]
  change scanUnits opening (cp '\\' :: cp 'u' :: _) = _
  unfold scanUnits
  simp [hq, hctl, hne, hhex, h]
  rfl

theorem scanUnits_unescape {e c : CodePoint} (he : e ≠ cp 'u') (hc : unescape e = some c)
    (h : scanUnits opening s = .ok (units, rest)) :
    scanUnits opening (cp '\\' :: e :: s) = .ok (.plain c :: units, rest) := by
  have hq : cp '\\' ≠ cp '"' := by decide
  have hctl : ¬ (cp '\\').val < 32 := by decide
  unfold scanUnits
  simp [hq, hctl, he, hc, h]
  rfl

theorem scanUnits_plain {c : CodePoint} (hq : c ≠ cp '"') (hctl : ¬ c.val < 32)
    (hb : c ≠ cp '\\') (h : scanUnits opening s = .ok (units, rest)) :
    scanUnits opening (c :: s) = .ok (.plain c :: units, rest) := by
  unfold scanUnits
  rw [if_neg hq, if_neg hctl, if_pos hb, h]
  rfl

theorem scanUnits_jsonEscape (ensureAscii : Bool) (c : CodePoint)
    (h : scanUnits opening s = .ok (units, rest)) :
    scanUnits opening (jsonEscape ensureAscii c ++ s) =
      .ok (unitsOf ensureAscii c ++ units, rest) := by
  unfold jsonEscape unitsOf
  cases hc : jsonShort c with
  | some e =>
    obtain ⟨he, hec, -⟩ := unescape_jsonShort hc
    exact scanUnits_unescape he hec h
  | none =>
    obtain ⟨hq, hb⟩ := jsonShort_none hc
    have hlt := c.isLt
    have hself : Fin.ofNat 0x110000 c.val = c := Fin.ofNat_val_eq_self c
    have hunit (hn : c.val < 0x10000) := scanUnits_jsonUnit hn h
    rw [hself] at hunit
    by_cases h1 : c.val < 32
    · simpa [h1] using hunit (by omega)
    by_cases h2 : (!ensureAscii || c.val < 127) = true
    · simpa [h1, h2] using scanUnits_plain hq h1 hb h
    by_cases h3 : c.val < 0x10000
    · simpa [h1, h2, h3] using hunit h3
    · simp only [h1, h2, h3, if_false]
      exact scanUnits_jsonUnit (by omega) (scanUnits_jsonUnit (by omega) h)

theorem scanUnits_jsonString (ensureAscii : Bool) (t : Str) :
    scanUnits opening (t.flatMap (jsonEscape ensureAscii) ++ cp '"' :: rest) =
      .ok (t.flatMap (unitsOf ensureAscii), rest) := by
  induction t with
  | nil =>
    unfold scanUnits
    rfl
  | cons c t ih =>
    simp only [List.flatMap_cons, List.append_assoc]
    exact scanUnits_jsonEscape ensureAscii c ih

end

/-- No code unit at the front completes a surrogate pair. -/
def NoLow (units : List StringUnit) : Prop :=
  ∀ c, units.head? = some (.escaped c) → isLowSurrogate c = false

theorem joinUnits_escaped {c : CodePoint} {units : List StringUnit}
    (h : isHighSurrogate c = true → NoLow units) :
    joinUnits (.escaped c :: units) = c :: joinUnits units := by
  cases units with
  | nil => rfl
  | cons u units =>
    cases u with
    | plain d => rfl
    | escaped d =>
      rw [joinUnits, if_neg]
      rintro hcd
      obtain ⟨hc, hd⟩ := Bool.and_eq_true_iff.mp hcd
      rw [h hc d rfl] at hd
      cases hd

/-- Written with escapes, a code point is read as itself unless a low
surrogate follows a high one. -/
theorem joinUnits_unitsOf {c : CodePoint} {units : List StringUnit}
    (h : isHighSurrogate c = true → NoLow units) :
    joinUnits (unitsOf true c ++ units) = c :: joinUnits units := by
  unfold unitsOf
  cases jsonShort c with
  | some e => rfl
  | none =>
    by_cases h1 : c.val < 32
    · simpa [h1] using joinUnits_escaped h
    by_cases h2 : c.val < 127
    · simp [h1, h2, joinUnits]
    by_cases h3 : c.val < 0x10000
    · simpa [h1, h2, h3] using joinUnits_escaped h
    · obtain ⟨hhigh, hlow, hjoin⟩ := joinPair_split (Nat.not_lt.mp h3)
      simp only [h1, h2, h3, if_false, Bool.not_true, Bool.false_or, decide_false,
        Bool.false_eq_true, List.cons_append, List.nil_append, joinUnits, hhigh, hlow,
        Bool.and_self, if_true, hjoin]

theorem noLow_unitsOf {c : CodePoint} (h : isLowSurrogate c = false) (units : List StringUnit) :
    NoLow (unitsOf true c ++ units) := by
  rintro d hd
  unfold unitsOf at hd
  cases hs : jsonShort c with
  | some e => simp [hs] at hd
  | none =>
    by_cases h1 : c.val < 32
    · simp [hs, h1] at hd
      exact hd ▸ h
    by_cases h2 : c.val < 127
    · simp [hs, h1, h2] at hd
    by_cases h3 : c.val < 0x10000
    · simp [hs, h1, h2, h3] at hd
      exact hd ▸ h
    · have hc := c.isLt
      simp only [hs, h1, h2, h3, if_false, Bool.not_true, Bool.false_or, decide_false,
        Bool.false_eq_true, List.cons_append, List.head?_cons, Option.some.injEq,
        StringUnit.escaped.injEq] at hd
      subst hd
      simp only [isLowSurrogate, Fin.ofNat, Bool.and_eq_false_iff, decide_eq_false_iff_not]
      omega

theorem unitsOf_surrogate {c : CodePoint} (h : 0xD800 ≤ c.val ∧ c.val ≤ 0xDFFF) :
    unitsOf true c = [.escaped c] := by
  have hs : jsonShort c = none := by
    rw [Option.eq_none_iff_forall_ne_some]
    intro e he
    have hlt := (unescape_jsonShort he).2.2
    omega
  have h1 : ¬ c.val < 32 := by omega
  have h2 : ¬ c.val < 127 := by omega
  have h3 : c.val < 0x10000 := by omega
  simp [unitsOf, hs, h1, h2, h3]

theorem joinUnits_flatMap (s : Str) : joinUnits (s.flatMap (unitsOf true)) = pairSurrogates s := by
  fun_induction pairSurrogates s with
  | case1 => rfl
  | case2 c =>
    rw [List.flatMap_cons, joinUnits_unitsOf fun _ d => by rintro ⟨⟩]
    rfl
  | case3 c d rest hcd ih =>
    have hv := Bool.and_eq_true_iff.mp hcd
    simp only [isHighSurrogate, isLowSurrogate, Bool.and_eq_true, decide_eq_true_eq] at hv
    rw [List.flatMap_cons, List.flatMap_cons, unitsOf_surrogate (by omega),
      unitsOf_surrogate (by omega), ← ih]
    simp [joinUnits, hcd]
  | case4 c d rest hcd ih =>
    rw [List.flatMap_cons, joinUnits_unitsOf, ih]
    rintro hc
    rw [List.flatMap_cons]
    exact noLow_unitsOf (by simpa [hc] using hcd) _

def JsonOptions.rereadText (options : JsonOptions) (s : Str) : Str :=
  if options.ensureAscii then pairSurrogates s else s

theorem joinUnits_unescaped (c : CodePoint) (units : List StringUnit) :
    joinUnits (unitsOf false c ++ units) = c :: joinUnits units := by
  unfold unitsOf
  cases jsonShort c with
  | some e => rfl
  | none =>
    by_cases h : c.val < 32
    · have hc : isHighSurrogate c = false := by
        simp only [isHighSurrogate, Bool.and_eq_false_iff, decide_eq_false_iff_not]
        omega
      simp [h, joinUnits_escaped, hc]
    · simp [h, joinUnits]

theorem scanString_jsonString (options : JsonOptions) (s rest : Str) :
    scanString (s.flatMap (jsonEscape options.ensureAscii) ++ cp '"' :: rest) =
      .ok (options.rereadText s, rest) := by
  rw [scanString, scanUnits_jsonString, JsonOptions.rereadText]
  change Except.ok (joinUnits (s.flatMap (unitsOf options.ensureAscii)), rest) = _
  cases options.ensureAscii with
  | true => rw [joinUnits_flatMap, if_pos rfl]
  | false =>
    rw [if_neg (by decide)]
    induction s with
    | nil => rfl
    | cons c s ih =>
      rw [List.flatMap_cons, joinUnits_unescaped]
      simpa using ih

end Python
