import MellivorKernel.Python.DateTime
import MellivorKernel.Python.Json

/-!
# ASCII texts

What `json.dumps` with `ensure_ascii` and `isoformat` write is ASCII.
-/

namespace Python

open Foundation

def Ascii (s : Str) : Prop := ∀ c ∈ s, c.val < 128

instance (s : Str) : Decidable (Ascii s) :=
  decidable_of_iff (s.all fun c => c.val < 128) (by simp [Ascii])

@[simp] theorem ascii_nil : Ascii [] := nofun

@[simp] theorem ascii_cons {c : CodePoint} {s : Str} : Ascii (c :: s) ↔ c.val < 128 ∧ Ascii s :=
  List.forall_mem_cons

@[simp] theorem ascii_append {s t : Str} : Ascii (s ++ t) ↔ Ascii s ∧ Ascii t :=
  List.forall_mem_append

theorem ascii_flatMap {s : List α} {f : α → Str} (h : ∀ x ∈ s, Ascii (f x)) :
    Ascii (s.flatMap f) := by
  rintro c hc
  obtain ⟨x, hx, hc⟩ := List.mem_flatMap.mp hc
  exact h x hx c hc

theorem ascii_join {sep : Str} {texts : List Str} (hsep : Ascii sep) (h : ∀ t ∈ texts, Ascii t) :
    Ascii (join sep texts) := by
  fun_induction join sep texts with
  | case1 => exact ascii_nil
  | case2 s => exact h s (by simp)
  | case3 s t rest ih =>
    simp only [ascii_append]
    exact ⟨⟨h s (by simp), hsep⟩, ih fun u hu => h u (List.mem_cons_of_mem _ hu)⟩

-- ---------------------------------------------------------------------------
-- Numbers
-- ---------------------------------------------------------------------------

theorem ascii_digit (n : Nat) : (digit n).val < 128 := by
  simp only [digit]
  omega

theorem ascii_digits (width n : Nat) : Ascii (digits width n) := by
  induction width generalizing n with
  | zero => exact ascii_nil
  | succ width ih => simp [digits, ih, ascii_digit]

theorem ascii_hex (width n : Nat) : Ascii (hex width n) := by
  have hdigit : ∀ m < 16, (hexDigit m).val < 128 := by decide
  induction width generalizing n with
  | zero => exact ascii_nil
  | succ width ih => simp [hex, ih, hdigit _ (Nat.mod_lt _ (by decide : 0 < 16))]

theorem ascii_decimal (n : Nat) : Ascii (decimal n) := by
  rintro c hc
  have hd := isDigit_decimal n c hc
  simp only [isDigit, Bool.and_eq_true, decide_eq_true_eq] at hd
  omega

theorem ascii_decimalInt (n : Int) : Ascii (decimalInt n) := by
  have hminus : (cp '-').val < 128 := by decide
  cases n <;> simp [decimalInt, ascii_decimal, hminus]

theorem ascii_numberText (t : NumberText) : Ascii t.text := by
  have hfraction : Ascii (fractionText t.fraction) := by
    unfold fractionText
    split
    · exact ascii_nil
    · refine ascii_cons.mpr ⟨by decide, fun c hc => ?_⟩
      obtain ⟨d, -, rfl⟩ := List.mem_map.mp hc
      exact ascii_digit d
  have hexponent : Ascii (exponentText t.exponent) := by
    cases t.exponent with
    | none => exact ascii_nil
    | some e =>
      have hzero : Ascii (if e.natAbs < 10 then [cp '0'] else []) := by split <;> decide
      have hsign : (if e < 0 then cp '-' else cp '+').val < 128 := by split <;> decide
      simp [exponentText, hzero, hsign, ascii_decimal]
      decide
  have hsign : Ascii (if t.negative then [cp '-'] else []) := by split <;> decide
  simp [NumberText.text, hsign, ascii_decimal, hfraction, hexponent]

-- ---------------------------------------------------------------------------
-- JSON
-- ---------------------------------------------------------------------------

theorem ascii_jsonUnit (n : Nat) : Ascii (jsonUnit n) :=
  ascii_append.mpr ⟨by decide, ascii_hex 4 n⟩

theorem ascii_jsonEscape (c : CodePoint) : Ascii (jsonEscape true c) := by
  have hshort {e : CodePoint} (h : jsonShort c = some e) : e.val < 128 := by
    unfold jsonShort at h
    split at h
    · cases h
      rename_i hc
      rcases hc with rfl | rfl <;> decide
    iterate 5
      split at h
      · cases h
        decide
    cases h
  unfold jsonEscape
  cases hc : jsonShort c with
  | some e => exact ascii_cons.mpr ⟨by decide, ascii_cons.mpr ⟨hshort hc, ascii_nil⟩⟩
  | none =>
    by_cases h1 : c.val < 32
    · simpa [h1] using ascii_jsonUnit _
    by_cases h2 : c.val < 127
    · simp [h1, h2]
      omega
    by_cases h3 : c.val < 0x10000
    · simpa [h1, h2, h3] using ascii_jsonUnit _
    · simp [h1, h2, h3, ascii_jsonUnit]

theorem ascii_jsonString (s : Str) : Ascii (jsonString true s) := by
  have hquote : (cp '"').val < 128 := by decide
  simp [jsonString, hquote, ascii_flatMap fun c _ => ascii_jsonEscape c]

section
variable [Printing] {options : JsonOptions}

theorem ascii_jsonFloat (f : PyFloat) : Ascii (jsonFloat f) := by
  cases f with
  | nan => exact (by decide : Ascii (lit "NaN"))
  | inf negative =>
    cases negative with
    | true => exact (by decide : Ascii (lit "-Infinity"))
    | false => exact (by decide : Ascii (lit "Infinity"))
  | finite q => exact ascii_numberText _

omit [Printing] in
theorem ascii_jsonBool (b : Bool) : Ascii (jsonBool b) := by cases b <;> decide

omit [Printing] in
theorem ascii_intText {n : Int} {text : Str} (h : intText n = .ok text) : Ascii text := by
  unfold intText at h
  split at h
  · cases h
    exact ascii_decimalInt n
  · cases h

omit [Printing] in
theorem ascii_dumpsOther (ha : options.ensureAscii = true) {typeName text : Str}
    {t : Except Exn Str} (h : dumpsOther options typeName t = .ok text) : Ascii text := by
  unfold dumpsOther at h
  split at h
  · obtain ⟨s, -, h⟩ := bind_eq_ok.mp h
    cases h
    rw [ha]
    exact ascii_jsonString s
  · cases h

theorem ascii_keyDumps (ha : options.ensureAscii = true) {k : PyKey} {text : Str}
    (h : k.dumps options = .ok text) : Ascii text := by
  cases k with
  | int n =>
    obtain ⟨t, -, h⟩ := bind_eq_ok.mp h
    cases h
    rw [ha]
    exact ascii_jsonString t
  | object ident typeName => cases h
  | _ =>
    cases h
    rw [ha]
    exact ascii_jsonString _

mutual
theorem ascii_dumps (ha : options.ensureAscii = true) : (v : PyValue) → {text : Str} →
    v.dumps options = .ok text → Ascii text
  | .none, _, h => Except.ok.inj h ▸ by decide
  | .bool b, _, h => Except.ok.inj h ▸ ascii_jsonBool b
  | .int _, _, h => ascii_intText h
  | .float f, _, h => Except.ok.inj h ▸ ascii_jsonFloat f
  | .str s, _, h => by
    cases h
    rw [ha]
    exact ascii_jsonString s
  | .list items, _, h | .tuple items, _, h => by
    obtain ⟨parts, hparts, h⟩ := bind_eq_ok.mp h
    cases h
    simp only [ascii_append]
    exact ⟨⟨by decide, ascii_join (by decide) (ascii_dumpsItems ha items hparts)⟩, by decide⟩
  | .dict items, _, h => by
    obtain ⟨parts, hparts, h⟩ := bind_eq_ok.mp h
    cases h
    simp only [ascii_append]
    exact ⟨⟨by decide, ascii_join (by decide) (ascii_dumpsPairs ha items hparts)⟩, by decide⟩
  | .cycle, _, h => by cases h
  | .bytes _, _, h | .toolCall .., _, h | .toolSpec .., _, h | .object .., _, h =>
    ascii_dumpsOther ha h
theorem ascii_dumpsItems (ha : options.ensureAscii = true) : (items : List PyValue) →
    {parts : List Str} → dumpsItems options items = .ok parts → ∀ t ∈ parts, Ascii t
  | [], _, h => Except.ok.inj h ▸ nofun
  | v :: rest, _, h => by
    obtain ⟨part, hpart, h⟩ := bind_eq_ok.mp h
    obtain ⟨parts, hparts, h⟩ := bind_eq_ok.mp h
    cases h
    exact List.forall_mem_cons.mpr ⟨ascii_dumps ha v hpart, ascii_dumpsItems ha rest hparts⟩
theorem ascii_dumpsPairs (ha : options.ensureAscii = true) : (items : Mapping) →
    {parts : List Str} → dumpsPairs options items = .ok parts → ∀ t ∈ parts, Ascii t
  | [], _, h => Except.ok.inj h ▸ nofun
  | (k, v) :: rest, _, h => by
    obtain ⟨key, hkey, h⟩ := bind_eq_ok.mp h
    obtain ⟨part, hpart, h⟩ := bind_eq_ok.mp h
    obtain ⟨parts, hparts, h⟩ := bind_eq_ok.mp h
    cases h
    refine List.forall_mem_cons.mpr ⟨?_, ascii_dumpsPairs ha rest hparts⟩
    simp only [ascii_append]
    exact ⟨⟨ascii_keyDumps ha hkey, by decide⟩, ascii_dumps ha v hpart⟩
end

end

-- ---------------------------------------------------------------------------
-- Dates
-- ---------------------------------------------------------------------------

theorem ascii_isoformat (d : DateTime) : Ascii d.isoformat := by
  have hoffset (o : Int) : Ascii (offsetText o) := by
    unfold offsetText
    have hsign : (if o < 0 then cp '-' else cp '+').val < 128 := by split <;> decide
    have hcolon : (cp ':').val < 128 := by decide
    simp only [ascii_cons, ascii_append, ascii_digits, hsign, hcolon, true_and]
    split <;> simp [ascii_digits, hcolon]
  have hmicro : Ascii (if d.microsecond = 0 then [] else cp '.' :: digits 6 d.microsecond) := by
    split
    · exact ascii_nil
    · exact ascii_cons.mpr ⟨by decide, ascii_digits _ _⟩
  have hdash : (cp '-').val < 128 := by decide
  have hT : (cp 'T').val < 128 := by decide
  have hcolon : (cp ':').val < 128 := by decide
  simp only [DateTime.isoformat, ascii_append, ascii_cons, ascii_digits, hmicro, hdash, hT, hcolon,
    true_and]
  cases d.utcoffset with
  | none => exact ascii_nil
  | some o => exact hoffset o

end Python
