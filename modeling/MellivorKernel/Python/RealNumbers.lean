import MellivorKernel.Foundation.Returns
import MellivorKernel.Python.Rounding
import MellivorKernel.Python.Value

/-!
# Real numbers among values

What both vector contracts begin with: a sequence of numbers, each an `int` or
a `float` that is no `bool`, converted by `float` and finite. `error` builds
the contract's own exception from a message, `subject` is what it is about.
-/

namespace Python

open Foundation

def floatOfInt (n : Int) : Except Exn PyFloat :=
  match roundDouble n with
  | .finite q => .ok (.finite q)
  | _ => .error (.raised .overflowError (lit "int too large to convert to float"))

/-- `float(value)` where `value` is an `int` or a `float` and no `bool`. -/
def PyValue.toFloat? : PyValue → Option (Except Exn PyFloat)
  | .int n => some (floatOfInt n)
  | .float f => some (.ok f)
  | _ => Option.none

def realNumber (error : Str → Exn) (subject : Str) (value : PyValue) : Except Exn Rat :=
  match value.toFloat? with
  | none => .error (error (subject ++ lit " must contain only real numbers."))
  | some (.error exc) => .error exc
  | some (.ok (.finite q)) => .ok q
  | some (.ok _) => .error (error (subject ++ lit " must contain only finite values."))

def realNumbers (error : Str → Exn) (subject : Str) (values : List PyValue) :
    Except Exn (List Rat) :=
  values.mapM (realNumber error subject)

def vectorComponents (error : Str → Exn) (subject : Str) (vector : PyValue) :
    Except Exn (List Rat) :=
  match vector.sequence? with
  | some (first :: more) => realNumbers error subject (first :: more)
  | _ => .error (error (subject ++ lit " must be a non-empty numeric sequence."))

def PyValue.real? (value : PyValue) : Option Rat :=
  match value.toFloat? with
  | some (.ok (.finite q)) => some q
  | _ => Option.none

theorem realNumber_eq_ok {error : Str → Exn} {subject : Str} {value : PyValue} {q : Rat} :
    realNumber error subject value = .ok q ↔ value.real? = some q := by
  unfold realNumber PyValue.real?
  rcases value.toFloat? with _ | _ | f
  · simp
  · simp
  · cases f <;> simp

theorem realNumbers_eq_ok {error : Str → Exn} {subject : Str} {values : List PyValue}
    {components : List Rat} : realNumbers error subject values = .ok components ↔
      values.map PyValue.real? = components.map some := by
  rw [realNumbers, mapM_eq_ok]
  induction values generalizing components with
  | nil => simp
  | cons value values ih =>
    cases components with
    | nil => simp
    | cons q components => simp only [List.map_cons, List.cons.injEq, realNumber_eq_ok, ih]

theorem vectorComponents_eq_ok {error : Str → Exn} {subject : Str} {vector : PyValue}
    {components : List Rat} : vectorComponents error subject vector = .ok components ↔
      (∃ values, vector.sequence? = some values ∧
        values.map PyValue.real? = components.map some) ∧ components ≠ [] := by
  unfold vectorComponents
  split
  · rename_i first more hsequence
    rw [realNumbers_eq_ok, hsequence]
    constructor
    · intro hvalues
      refine ⟨⟨_, rfl, hvalues⟩, ?_⟩
      rintro rfl
      cases hvalues
    · rintro ⟨⟨values, hsome, hvalues⟩, -⟩
      cases hsome
      exact hvalues
  · rename_i hnone
    simp only [reduceCtorEq, false_iff]
    rintro ⟨⟨values, hsome, hvalues⟩, hinhabited⟩
    cases values with
    | nil => exact hinhabited (by simpa using hvalues.symm)
    | cons first more => exact hnone first more hsome

-- ---------------------------------------------------------------------------
-- Integers too large
-- ---------------------------------------------------------------------------

theorem floatOfInt_returns_iff {n : Int} : Returns (floatOfInt n) ↔ n.natAbs < floatLimit := by
  rw [← roundDouble_int]
  unfold floatOfInt
  split
  · rename_i q h
    exact iff_of_true ⟨_, rfl⟩ ⟨q, h⟩
  · rename_i h
    refine iff_of_false (not_returns_error _) ?_
    rintro ⟨q, hq⟩
    exact h q hq

theorem floatOfInt_raises {n : Int} {exc : Exn} (h : floatOfInt n = .error exc) :
    ∃ message, exc = .raised .overflowError message := by
  unfold floatOfInt at h
  split at h
  · cases h
  · cases h
    exact ⟨_, rfl⟩

def PyValue.oversized : PyValue → Bool
  | .int n => floatLimit ≤ n.natAbs
  | _ => false

theorem oversized_int {n : Int} : (PyValue.int n).oversized = true ↔ floatLimit ≤ n.natAbs := by
  simp [PyValue.oversized]

theorem toFloat?_eq_error {value : PyValue} {exc : Exn} (h : value.toFloat? = some (.error exc)) :
    value.oversized = true ∧ ∃ message, exc = .raised .overflowError message := by
  cases value with
  | int n =>
    have hraises : floatOfInt n = .error exc := Option.some.inj h
    refine ⟨oversized_int.mpr (not_lt.mp fun hsmall => ?_), floatOfInt_raises hraises⟩
    obtain ⟨f, hf⟩ := floatOfInt_returns_iff.mpr hsmall
    cases hf.symm.trans hraises
  | _ => cases h

theorem toFloat?_of_oversized {value : PyValue} (h : value.oversized = true) :
    ∃ message, value.toFloat? = some (.error (.raised .overflowError message)) := by
  cases value with
  | int n =>
    have hlarge : ¬ Returns (floatOfInt n) := fun hreturns =>
      absurd (floatOfInt_returns_iff.mp hreturns) (not_lt.mpr (oversized_int.mp h))
    cases hfloat : floatOfInt n with
    | ok f => exact absurd ⟨f, hfloat⟩ hlarge
    | error exc =>
      obtain ⟨message, rfl⟩ := floatOfInt_raises hfloat
      exact ⟨message, congrArg some hfloat⟩
  | _ => cases h

def overflows (values : List PyValue) : Bool :=
  (values.find? fun value => value.real?.isNone).any PyValue.oversized

def PyValue.overflows (vector : PyValue) : Bool := vector.sequence?.any Python.overflows

section
variable {P : Exn → Prop} {error : Str → Exn}

theorem realNumber_raises_iff (h : ∀ message, P (error message))
    (hout : ∀ message, ¬ P (.raised .overflowError message)) {subject : Str} {value : PyValue} :
    RaisesOnly P (realNumber error subject value) ↔ value.oversized = false := by
  unfold realNumber
  cases hfloat : value.toFloat? with
  | none =>
    refine iff_of_true (raisesOnly_error.mpr (h _)) (Bool.eq_false_iff.mpr fun hlarge => ?_)
    obtain ⟨message, hraises⟩ := toFloat?_of_oversized hlarge
    cases hfloat.symm.trans hraises
  | some converted =>
    cases converted with
    | error exc =>
      obtain ⟨hlarge, message, rfl⟩ := toFloat?_eq_error hfloat
      exact iff_of_false (raisesOnly_error.not.mpr (hout message)) (by simp [hlarge])
    | ok f =>
      refine iff_of_true (by cases f <;> simp [h]) (Bool.eq_false_iff.mpr fun hlarge => ?_)
      obtain ⟨message, hraises⟩ := toFloat?_of_oversized hlarge
      cases hfloat.symm.trans hraises

theorem realNumbers_raises_iff (h : ∀ message, P (error message))
    (hout : ∀ message, ¬ P (.raised .overflowError message)) {subject : Str}
    {values : List PyValue} :
    RaisesOnly P (realNumbers error subject values) ↔ overflows values = false := by
  unfold realNumbers overflows
  induction values with
  | nil => exact iff_of_true (raisesOnly_ok []) rfl
  | cons value values ih =>
    rw [raisesOnly_mapM_cons, realNumber_raises_iff h hout, List.find?_cons, ih]
    cases hreal : value.real? with
    | none =>
      have hraises : ¬ Returns (realNumber error subject value) := by
        rintro ⟨q, hq⟩
        simp [realNumber_eq_ok.mp hq] at hreal
      simp [hraises]
    | some q =>
      have hreturns : Returns (realNumber error subject value) := ⟨q, realNumber_eq_ok.mpr hreal⟩
      have hfits : value.oversized = false := Bool.eq_false_iff.mpr fun hlarge => by
        obtain ⟨message, hraises⟩ := toFloat?_of_oversized hlarge
        simp [PyValue.real?, hraises] at hreal
      simp [hreturns, hfits]

theorem vectorComponents_raises_iff (h : ∀ message, P (error message))
    (hout : ∀ message, ¬ P (.raised .overflowError message)) {subject : Str} {vector : PyValue} :
    RaisesOnly P (vectorComponents error subject vector) ↔ vector.overflows = false := by
  unfold vectorComponents PyValue.overflows
  split
  · rename_i first more hsequence
    rw [realNumbers_raises_iff h hout, hsequence, Option.any_some]
  · rename_i hnone
    refine iff_of_true (raisesOnly_error.mpr (h _)) ?_
    cases hsequence : vector.sequence? with
    | none => rfl
    | some values =>
      cases values with
      | nil => rfl
      | cons first more => exact absurd hsequence (hnone first more)

end

-- ---------------------------------------------------------------------------
-- Values whose numbers are converted
-- ---------------------------------------------------------------------------

mutual
def PyValue.floatable : PyValue → Bool
  | .int n => (PyValue.int n).real?.isSome
  | .float f => (PyValue.float f).real?.isSome
  | .list items | .tuple items => floatableItems items
  | .dict items => floatablePairs items
  | _ => true
def floatableItems : List PyValue → Bool
  | [] => true
  | value :: rest => value.floatable && floatableItems rest
def floatablePairs : Mapping → Bool
  | [] => true
  | (_, value) :: rest => value.floatable && floatablePairs rest
end

theorem floatableItems_iff {items : List PyValue} :
    floatableItems items = true ↔ ∀ value ∈ items, value.floatable = true := by
  induction items with
  | nil => simp [floatableItems]
  | cons value rest ih => simp [floatableItems, ih]

theorem floatable_of_sequence {value : PyValue} {items : List PyValue}
    (h : value.floatable = true) (hitems : value.sequence? = some items) :
    ∀ item ∈ items, item.floatable = true := by
  cases value with
  | list items' | tuple items' =>
    cases hitems
    exact floatableItems_iff.mp h
  | _ => cases hitems

theorem floatable_of_find {fields : Mapping} {key : PyKey} {value : PyValue}
    (h : floatablePairs fields = true) (hfind : fields.find? key = some value) :
    value.floatable = true := by
  induction fields with
  | nil => cases hfind
  | cons field rest ih =>
    obtain ⟨hvalue, hrest⟩ := Bool.and_eq_true_iff.mp h
    unfold Mapping.find? at hfind
    split at hfind
    · cases hfind
      exact hvalue
    · exact ih hrest hfind

theorem overflows_of_floatable {value : PyValue} (h : value.floatable = true) :
    value.overflows = false := by
  unfold PyValue.overflows
  cases hitems : value.sequence? with
  | none => rfl
  | some items =>
    rw [Option.any_some, overflows]
    cases hfind : items.find? fun item => item.real?.isNone with
    | none => rfl
    | some item =>
      have hfloatable := floatable_of_sequence h hitems item (List.mem_of_find?_eq_some hfind)
      have hnone : item.real?.isNone = true := by simpa using List.find?_some hfind
      cases item with
      | int n => simp_all [PyValue.floatable]
      | _ => rfl

end Python
