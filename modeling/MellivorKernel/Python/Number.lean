import MellivorKernel.Python.Text
import Mathlib.Data.Int.Log
import Mathlib.Data.Rat.Floor

/-!
# Numbers and their text

A float is its exact value, so the two zeros are one. The text of a number, as
`repr` and JSON write it, is kept as what it is made of (`NumberText`);
`readNumber` reads one off the front of a text, and `NumberText.toFloat` is
what `float` makes of it.
-/

namespace Python

inductive PyFloat
  | nan
  | inf (negative : Bool)
  | finite (q : Rat)
  deriving DecidableEq

/-- A decimal number: optional sign, whole part without leading zeros, the
digits after the point if there is one, the exponent if there is one. -/
structure NumberText where
  negative : Bool
  whole : Nat
  fraction : List (Fin 10)
  exponent : Option Int
  deriving DecidableEq

-- ---------------------------------------------------------------------------
-- Writing
-- ---------------------------------------------------------------------------

def fractionText (fraction : List (Fin 10)) : Str :=
  if fraction = [] then [] else cp '.' :: fraction.map fun d : Fin 10 => digit d.val

/-- An exponent has a sign and at least two digits. -/
def exponentText : Option Int → Str
  | none => []
  | some e =>
    cp 'e' :: (if e < 0 then cp '-' else cp '+') ::
      ((if e.natAbs < 10 then [cp '0'] else []) ++ decimal e.natAbs)

def NumberText.text (t : NumberText) : Str :=
  (if t.negative then [cp '-'] else []) ++
    (decimal t.whole ++ (fractionText t.fraction ++ exponentText t.exponent))

/-- A number written with a point or an exponent is read as a float. -/
def NumberText.isFloat (t : NumberText) : Bool := !t.fraction.isEmpty || t.exponent.isSome

structure FloatText extends NumberText where
  isFloat : toNumberText.isFloat = true

def NumberText.ofInt (n : Int) : NumberText := ⟨n < 0, n.natAbs, [], none⟩

theorem text_ofInt (n : Int) : (NumberText.ofInt n).text = decimalInt n := by
  cases n <;> simp [NumberText.text, NumberText.ofInt, fractionText, exponentText, decimalInt]

-- ---------------------------------------------------------------------------
-- Reading
-- ---------------------------------------------------------------------------

def isDigit (c : CodePoint) : Bool := 48 ≤ c.val && c.val ≤ 57

def digitValue (c : CodePoint) : Fin 10 := ⟨(c.val - 48) % 10, by omega⟩

def digitsValue (s : Str) : Nat := s.foldl (fun n c => 10 * n + (c.val - 48)) 0

/-- `(0|[1-9][0-9]*)` -/
def readWhole : Str → Option (Nat × Str)
  | [] => none
  | c :: rest =>
    if c = cp '0' then some (0, rest)
    else if isDigit c then
      some (digitsValue (c :: rest.takeWhile isDigit), rest.dropWhile isDigit)
    else none

/-- `(\.[0-9]+)?` -/
def readFraction (s : Str) : List (Fin 10) × Str :=
  match s with
  | [] => ([], [])
  | c :: rest =>
    if c = cp '.' ∧ rest.takeWhile isDigit ≠ [] then
      ((rest.takeWhile isDigit).map digitValue, rest.dropWhile isDigit)
    else ([], s)

def readSign : Str → Bool × Str
  | [] => (false, [])
  | c :: rest =>
    if c = cp '-' then (true, rest) else if c = cp '+' then (false, rest) else (false, c :: rest)

/-- `([eE][-+]?[0-9]+)?` -/
def readExponent (s : Str) : Option Int × Str :=
  match s with
  | [] => (none, [])
  | c :: rest =>
    let (negative, rest) := readSign rest
    let n : Int := digitsValue (rest.takeWhile isDigit)
    if (c = cp 'e' ∨ c = cp 'E') ∧ rest.takeWhile isDigit ≠ [] then
      (some (if negative then -n else n), rest.dropWhile isDigit)
    else (none, s)

def readMinus : Str → Bool × Str
  | [] => (false, [])
  | c :: rest => if c = cp '-' then (true, rest) else (false, c :: rest)

/-- The longest number at the front of a text, and what follows it. -/
def readNumber (s : Str) : Option (NumberText × Str) := do
  let (negative, s) := readMinus s
  let (whole, s) ← readWhole s
  let (fraction, s) := readFraction s
  let (exponent, s) := readExponent s
  some (⟨negative, whole, fraction, exponent⟩, s)

-- ---------------------------------------------------------------------------
-- Value
-- ---------------------------------------------------------------------------

def NumberText.toInt (t : NumberText) : Int := if t.negative then -t.whole else t.whole

@[simp] theorem toInt_ofInt (n : Int) : (NumberText.ofInt n).toInt = n := by
  by_cases h : n < 0
  · simp [NumberText.toInt, NumberText.ofInt, h, abs_of_neg h]
  · simp [NumberText.toInt, NumberText.ofInt, h, abs_of_nonneg (Int.not_lt.mp h)]

def NumberText.value (t : NumberText) : Rat :=
  let n : Int := t.fraction.foldl (fun n d => 10 * n + d.val) t.whole
  (if t.negative then -n else n) * (10 : Rat) ^ (t.exponent.getD 0 - t.fraction.length)

/-- The integer nearest to `q`, the even one of two. -/
def roundHalfEven (q : Rat) : Int :=
  let n := ⌊q⌋
  if q - n < 1 / 2 ∨ (q - n = 1 / 2 ∧ n % 2 = 0) then n else n + 1

/-- The double nearest to `q`: 53 significant bits down to the exponent where
subnormals start, and infinite from the middle above the largest one on. -/
def roundDouble (q : Rat) : PyFloat :=
  let ulp : Rat := 2 ^ (max (Int.log 2 |q|) (-1022) - 52)
  let rounded := roundHalfEven (q / ulp) * ulp
  if |rounded| < 2 ^ 1024 then .finite rounded else .inf (q < 0)

def NumberText.toFloat (t : NumberText) : PyFloat := roundDouble t.value

-- ---------------------------------------------------------------------------
-- Reading back
-- ---------------------------------------------------------------------------

/-- No number that stands before `rest` runs on into it. -/
def Stops (rest : Str) : Prop :=
  ∀ c ∈ rest.head?, isDigit c = false ∧ c ≠ cp '.' ∧ c ≠ cp 'e' ∧ c ≠ cp 'E'

theorem takeWhile_stop {p : α → Bool} {xs rest : List α} (hx : ∀ a ∈ xs, p a = true)
    (hrest : ∀ a ∈ rest.head?, p a = false) : (xs ++ rest).takeWhile p = xs := by
  rw [List.takeWhile_append_of_pos hx]
  cases rest with
  | nil => simp
  | cons a rest => simp [hrest a rfl]

theorem dropWhile_stop {p : α → Bool} {xs rest : List α} (hx : ∀ a ∈ xs, p a = true)
    (hrest : ∀ a ∈ rest.head?, p a = false) : (xs ++ rest).dropWhile p = rest := by
  rw [List.dropWhile_append_of_pos hx]
  cases rest with
  | nil => simp
  | cons a rest => simp [hrest a rfl]

theorem isDigit_digit (n : Nat) : isDigit (digit n) = true := by
  have hr : 48 + n % 10 ≤ 57 := by omega
  simp [isDigit, digit, hr]

@[simp] theorem digitValue_digit (d : Fin 10) : digitValue (digit d) = d := by
  ext
  simp only [digitValue, digit]
  omega

theorem isDigit_cp {c : Char} (h : c.isDigit = true) : isDigit (cp c) = true := by
  simp only [Char.isDigit, ge_iff_le, UInt32.le_iff_toNat_le, Bool.and_eq_true,
    decide_eq_true_eq] at h
  rw [isDigit, Bool.and_eq_true, decide_eq_true_eq, decide_eq_true_eq]
  exact h

theorem isDigit_decimal (n : Nat) : ∀ c ∈ decimal n, isDigit c = true := by
  rintro c hc
  obtain ⟨d, hd, rfl⟩ := List.mem_map.mp hc
  exact isDigit_cp (Nat.isDigit_of_mem_toDigits (by decide) (by decide) hd)

theorem digitsValue_map (l : List Char) : digitsValue (l.map cp) = Nat.ofDigitChars 10 l 0 := by
  rw [digitsValue, Nat.ofDigitChars, List.foldl_map]
  rfl

@[simp] theorem digitsValue_decimal (n : Nat) : digitsValue (decimal n) = n := by
  rw [decimal, digitsValue_map, Nat.ofDigitChars_ten_toDigits]

theorem digitsValue_zero_cons (s : Str) : digitsValue (cp '0' :: s) = digitsValue s := by
  simp [digitsValue, cp]

theorem decimal_head {n : Nat} (h : n ≠ 0) :
    ∃ c rest, decimal n = c :: rest ∧ c ≠ cp '0' := by
  induction n using Nat.strong_induction_on with
  | _ n ih =>
    by_cases hlt : n < 10
    · refine ⟨cp n.digitChar, [], by rw [decimal, Nat.toDigits_of_lt_base hlt]; rfl, fun hc => ?_⟩
      have h48 := congrArg Char.toNat (cp_injective hc)
      rw [Nat.toNat_digitChar_of_lt_ten hlt, show '0'.toNat = 48 from rfl] at h48
      omega
    · obtain ⟨c, rest, hc, hne⟩ := ih (n / 10) (by omega) (by omega)
      refine ⟨c, rest ++ [cp (Nat.digitChar (n % 10))], ?_, hne⟩
      rw [decimal] at hc ⊢
      rw [Nat.toDigits_of_base_le (by decide) (by omega), List.map_append, hc]
      rfl

theorem decimal_ne_nil (n : Nat) : decimal n ≠ [] := by simp [decimal]

theorem readWhole_decimal (n : Nat) {rest : Str} (h : ∀ c ∈ rest.head?, isDigit c = false) :
    readWhole (decimal n ++ rest) = some (n, rest) := by
  by_cases hz : n = 0
  · subst hz
    simp [decimal, readWhole]
  · obtain ⟨c, ds, hc, hne⟩ := decimal_head hz
    have hd := isDigit_decimal n
    have hv := digitsValue_decimal n
    rw [hc] at hd hv ⊢
    obtain ⟨hdc, hds⟩ := List.forall_mem_cons.mp hd
    rw [List.cons_append, readWhole, if_neg hne, if_pos hdc, takeWhile_stop hds h,
      dropWhile_stop hds h, hv]

theorem readFraction_fractionText (fraction : List (Fin 10)) {rest : Str}
    (h : ∀ c ∈ rest.head?, isDigit c = false ∧ c ≠ cp '.') :
    readFraction (fractionText fraction ++ rest) = (fraction, rest) := by
  cases fraction with
  | nil =>
    cases rest with
    | nil => rfl
    | cons c rest => simp [fractionText, readFraction, (h c rfl).2]
  | cons d ds =>
    have hd : ∀ c ∈ (d :: ds).map fun d : Fin 10 => digit d.val, isDigit c = true := by
      simp [isDigit_digit]
    have hrest : ∀ c ∈ rest.head?, isDigit c = false := fun c hc => (h c hc).1
    simp only [fractionText, reduceCtorEq, if_false, List.cons_append, readFraction,
      takeWhile_stop hd hrest, dropWhile_stop hd hrest, List.map_map]
    simp [Function.comp_def]

theorem readExponent_exponentText (exponent : Option Int) {rest : Str} (h : Stops rest) :
    readExponent (exponentText exponent ++ rest) = (exponent, rest) := by
  cases exponent with
  | none =>
    cases rest with
    | nil => rfl
    | cons c rest =>
      obtain ⟨-, -, he, hE⟩ := h c rfl
      simp [exponentText, readExponent, he, hE]
  | some e =>
    have hrest : ∀ c ∈ rest.head?, isDigit c = false := fun c hc => (h c hc).1
    have hsign (ds : Str) : readSign ((if e < 0 then cp '-' else cp '+') :: ds) =
        (decide (e < 0), ds) := by
      have hpm : cp '+' ≠ cp '-' := by decide
      by_cases hn : e < 0 <;> simp [readSign, hn, hpm]
    obtain ⟨ds, hds⟩ : ∃ ds, ds = (if e.natAbs < 10 then [cp '0'] else []) ++ decimal e.natAbs :=
      ⟨_, rfl⟩
    have hd : ∀ c ∈ ds, isDigit c = true := by
      rw [hds]
      rintro c hc
      rcases List.mem_append.mp hc with hc | hc
      · split at hc
        · rw [List.mem_singleton.mp hc]; decide
        · cases hc
      · exact isDigit_decimal _ _ hc
    have hne : ds ≠ [] := by simp [hds, decimal_ne_nil]
    have hv : digitsValue ds = e.natAbs := by
      rw [hds]
      split
      · rw [List.singleton_append, digitsValue_zero_cons, digitsValue_decimal]
      · rw [List.nil_append, digitsValue_decimal]
    have he : (if e < 0 then -((e.natAbs : Nat) : Int) else (e.natAbs : Nat)) = e := by
      split <;> omega
    simp only [exponentText, ← hds, List.cons_append, readExponent, hsign,
      takeWhile_stop hd hrest, dropWhile_stop hd hrest, hv, decide_eq_true_eq, he]
    simp [hne]

theorem readNumber_text (t : NumberText) {rest : Str} (h : Stops rest) :
    readNumber (t.text ++ rest) = some (t, rest) := by
  obtain ⟨negative, whole, fraction, exponent⟩ := t
  have he : ∀ c ∈ (exponentText exponent ++ rest).head?, isDigit c = false ∧ c ≠ cp '.' := by
    cases exponent with
    | none => exact fun c hc => ⟨(h c hc).1, (h c hc).2.1⟩
    | some e => rintro c ⟨⟩; decide
  have hf : ∀ c ∈ (fractionText fraction ++ (exponentText exponent ++ rest)).head?,
      isDigit c = false := by
    cases fraction with
    | nil => exact fun c hc => (he c hc).1
    | cons d ds => rintro c ⟨⟩; decide
  have hminus (s : Str) : readMinus ((if negative then [cp '-'] else []) ++ (decimal whole ++ s)) =
      (negative, decimal whole ++ s) := by
    cases negative with
    | true => simp [readMinus]
    | false =>
      obtain ⟨c, ds, hc⟩ := List.exists_cons_of_ne_nil (decimal_ne_nil whole)
      have hd := isDigit_decimal whole c (by simp [hc])
      have hne : c ≠ cp '-' := by rintro rfl; revert hd; decide
      simp [hc, readMinus, hne]
  simp only [NumberText.text, List.append_assoc, readNumber, hminus, readWhole_decimal _ hf,
    readFraction_fractionText _ he, readExponent_exponentText _ h, Option.bind_eq_bind,
    Option.bind_some]

end Python
