import MellivorKernel.Python.Exception
import Mathlib.Data.Option.Basic

/-!
# Dates and times

`datetime.datetime` by its fields, with `isoformat` and, for the texts
`isoformat` writes, `datetime.fromisoformat`. A `ZonedDateTime` also knows the
object that is its `tzinfo`, on which the comparison of two of them depends.
-/

namespace Python

def isLeap (year : Nat) : Bool := year % 4 = 0 && (year % 100 ≠ 0 || year % 400 = 0)

def daysInMonth (year month : Nat) : Nat :=
  if month = 2 then (if isLeap year then 29 else 28)
  else if month = 4 ∨ month = 6 ∨ month = 9 ∨ month = 11 then 30 else 31

/-- The fields of a date and time, and the offset of its zone in seconds;
`none` is a naive value. -/
structure DateFields where
  year : Nat
  month : Nat
  day : Nat
  hour : Nat
  minute : Nat
  second : Nat
  microsecond : Nat
  utcoffset : Option Int
  deriving DecidableEq

/-- What the `datetime` constructor checks. -/
def DateFields.Valid (d : DateFields) : Prop :=
  1 ≤ d.year ∧ d.year ≤ 9999 ∧ 1 ≤ d.month ∧ d.month ≤ 12 ∧
  1 ≤ d.day ∧ d.day ≤ daysInMonth d.year d.month ∧
  d.hour < 24 ∧ d.minute < 60 ∧ d.second < 60 ∧ d.microsecond < 1000000 ∧
  ∀ o ∈ d.utcoffset, -86400 < o ∧ o < 86400

instance (d : DateFields) : Decidable d.Valid := by
  unfold DateFields.Valid; infer_instance

structure DateTime extends DateFields where
  valid : toDateFields.Valid
  deriving DecidableEq

def DateTime.epoch : DateTime where
  year := 1970
  month := 1
  day := 1
  hour := 0
  minute := 0
  second := 0
  microsecond := 0
  utcoffset := some 0
  valid := by decide

theorem daysInMonth_le (year month : Nat) : daysInMonth year month ≤ 31 := by
  unfold daysInMonth
  split
  · split <;> decide
  · split <;> decide

-- ---------------------------------------------------------------------------
-- Order
-- ---------------------------------------------------------------------------

/-- Days before the first of January of `year`, counted from year one. -/
def daysBeforeYear (year : Nat) : Nat :=
  let y := year - 1
  y * 365 + y / 4 - y / 100 + y / 400

def daysBeforeMonth (year month : Nat) : Nat :=
  ((List.range (month - 1)).map fun m => daysInMonth year (m + 1)).sum

/-- Microseconds since the start of year one, in UTC. -/
def DateTime.instant (d : DateTime) : Int :=
  let days := daysBeforeYear d.year + daysBeforeMonth d.year d.month + (d.day - 1)
  let seconds : Int := days * 86400 + d.hour * 3600 + d.minute * 60 + d.second
  (seconds - d.utcoffset.getD 0) * 1000000 + d.microsecond

/-- The fields on a wall clock, in the order in which they are compared. -/
def DateTime.wall (d : DateTime) : List Nat :=
  [d.year, d.month, d.day, d.hour, d.minute, d.second, d.microsecond]

/-- A date and time with the identity of its `tzinfo`, if it has one;
`utcoffset` is what that object answers for this value, possibly `None`. -/
structure ZonedDateTime extends DateTime where
  tzinfo : Option Nat
  attached : utcoffset.isSome → tzinfo.isSome
  deriving DecidableEq

def ZonedDateTime.Attached (d : ZonedDateTime) : Prop := d.tzinfo.isSome

/-- It is timezone-aware: its `tzinfo` has an offset. -/
def ZonedDateTime.Aware (d : ZonedDateTime) : Prop := d.utcoffset.isSome

def ZonedDateTime.epoch : ZonedDateTime where
  toDateTime := DateTime.epoch
  tzinfo := some 0
  attached _ := rfl

/-- `d < e`: between values of one `tzinfo` or of one offset by the wall clock
(whatever their `fold`), else by the instants. It raises when only one of the
two has an offset. -/
def ZonedDateTime.lessThan (d e : ZonedDateTime) : Except Exn Bool :=
  if d.tzinfo = e.tzinfo ∨ d.utcoffset = e.utcoffset then .ok (d.wall < e.wall)
  else if d.utcoffset.isSome ∧ e.utcoffset.isSome then .ok (d.instant < e.instant)
  else .error (.raised .typeError (lit "can't compare offset-naive and offset-aware datetimes"))

-- ---------------------------------------------------------------------------
-- ISO format
-- ---------------------------------------------------------------------------

/-- The zone suffix: `+HH:MM`, with seconds when there are any. -/
def offsetText (offset : Int) : Str :=
  let n := offset.natAbs
  (if offset < 0 then cp '-' else cp '+') :: digits 2 (n / 3600) ++ cp ':' :: digits 2 (n / 60 % 60) ++
    if n % 60 = 0 then [] else cp ':' :: digits 2 (n % 60)

def DateTime.isoformat (d : DateTime) : Str :=
  digits 4 d.year ++ cp '-' :: (digits 2 d.month ++ cp '-' :: (digits 2 d.day ++ cp 'T' ::
    (digits 2 d.hour ++ cp ':' :: (digits 2 d.minute ++ cp ':' :: (digits 2 d.second ++
      ((if d.microsecond = 0 then [] else cp '.' :: digits 6 d.microsecond) ++
        match d.utcoffset with
        | none => []
        | some offset => offsetText offset))))))

def readChar (c : CodePoint) : Str → Option Str
  | [] => none
  | d :: rest => if d = c then some rest else none

def readDigit : Str → Option (Nat × Str)
  | [] => none
  | d :: rest => if 48 ≤ d.val ∧ d.val ≤ 57 then some (d.val - 48, rest) else none

def readDigits : Nat → Str → Option (Nat × Str)
  | 0, s => some (0, s)
  | width + 1, s => do
    let (n, rest) ← readDigits width s
    let (d, rest) ← readDigit rest
    some (n * 10 + d, rest)

def readMicroseconds (s : Str) : Option (Nat × Str) :=
  match readChar (cp '.') s with
  | some rest => readDigits 6 rest
  | none => some (0, s)

def readOffset : Str → Option (Option Int)
  | [] => some none
  | sign :: rest => do
    let (h, rest) ← readDigits 2 rest
    let rest ← readChar (cp ':') rest
    let (m, rest) ← readDigits 2 rest
    let s ← match rest with
      | [] => some 0
      | rest => do
        let rest ← readChar (cp ':') rest
        let (s, rest) ← readDigits 2 rest
        if rest = [] then some s else none
    let n : Int := ((h * 60 + m) * 60 + s : Nat)
    if sign = cp '+' then some (some n)
    else if sign = cp '-' then some (some (-n))
    else none

/-- `datetime.fromisoformat` on the texts `isoformat` writes; any other text
is rejected. -/
def fromisoformat (s : Str) : Option DateTime := do
  let (year, s) ← readDigits 4 s
  let s ← readChar (cp '-') s
  let (month, s) ← readDigits 2 s
  let s ← readChar (cp '-') s
  let (day, s) ← readDigits 2 s
  let s ← readChar (cp 'T') s
  let (hour, s) ← readDigits 2 s
  let s ← readChar (cp ':') s
  let (minute, s) ← readDigits 2 s
  let s ← readChar (cp ':') s
  let (second, s) ← readDigits 2 s
  let (microsecond, s) ← readMicroseconds s
  let utcoffset ← readOffset s
  let fields : DateFields := { year, month, day, hour, minute, second, microsecond, utcoffset }
  if h : fields.Valid then some ⟨fields, h⟩ else none

-- ---------------------------------------------------------------------------
-- Reading back
-- ---------------------------------------------------------------------------

@[simp] theorem readChar_cons (c : CodePoint) (s : Str) : readChar c (c :: s) = some s := by
  simp [readChar]

theorem readDigit_cons (n : Nat) (s : Str) : readDigit (digit n :: s) = some (n % 10, s) := by
  have hr : 48 + n % 10 ≤ 57 := by omega
  simp [readDigit, digit, hr]

theorem readDigits_append (width n : Nat) (hn : n < 10 ^ width) (s : Str) :
    readDigits width (digits width n ++ s) = some (n, s) := by
  induction width generalizing n s with
  | zero =>
    have : n = 0 := by simpa using hn
    simp [readDigits, digits, this]
  | succ width ih =>
    have hq : n / 10 < 10 ^ width := by
      rw [Nat.div_lt_iff_lt_mul (by decide)]
      simpa [pow_succ] using hn
    simp only [readDigits, digits, List.append_assoc, ih _ hq, List.singleton_append,
      readDigit_cons, Option.bind_eq_bind, Option.bind_some]
    rw [Nat.div_add_mod']

theorem readOffset_offsetText (o : Int) (ho : -86400 < o ∧ o < 86400) :
    readOffset (offsetText o) = some (some o) := by
  obtain ⟨n, hn⟩ : ∃ n, o.natAbs = n := ⟨_, rfl⟩
  have hh : n / 3600 < 10 ^ 2 := by omega
  have hm : n / 60 % 60 < 10 ^ 2 := by omega
  have hs : n % 60 < 10 ^ 2 := by omega
  have hsum : (n / 3600 * 60 + n / 60 % 60) * 60 + n % 60 = n := by omega
  have hplus : cp '-' ≠ cp '+' := by decide
  by_cases hz : n % 60 = 0
  · have hsum' : (n / 3600 * 60 + n / 60 % 60) * 60 = n := by omega
    have hm' := readDigits_append 2 _ hm []
    rw [List.append_nil] at hm'
    by_cases hneg : o < 0
    · simp [offsetText, hn, hz, readOffset, hneg, readDigits_append 2 _ hh, hm', hplus]
      omega
    · simp [offsetText, hn, hz, readOffset, hneg, readDigits_append 2 _ hh, hm']
      omega
  · have hs' := readDigits_append 2 _ hs []
    rw [List.append_nil] at hs'
    by_cases hneg : o < 0
    · simp [offsetText, hn, hz, readOffset, hneg, readDigits_append 2 _ hh,
        readDigits_append 2 _ hm, hs', hplus]
      omega
    · simp [offsetText, hn, hz, readOffset, hneg, readDigits_append 2 _ hh,
        readDigits_append 2 _ hm, hs']
      omega

theorem readMicroseconds_text (n : Nat) (hn : n < 1000000) (s : Str) (hs : s.head? ≠ some (cp '.')) :
    readMicroseconds ((if n = 0 then [] else cp '.' :: digits 6 n) ++ s) = some (n, s) := by
  by_cases hz : n = 0
  · have hnone : readChar (cp '.') s = none := by
      cases s with
      | nil => rfl
      | cons c rest => simpa [readChar] using hs
    simp [hz, readMicroseconds, hnone]
  · simp [hz, readMicroseconds, readDigits_append 6 n hn]

theorem head_offset (utcoffset : Option Int) :
    (match utcoffset with
      | none => []
      | some offset => offsetText offset).head? ≠ some (cp '.') := by
  cases utcoffset with
  | none => simp
  | some o =>
    have h1 : cp '-' ≠ cp '.' := by decide
    have h2 : cp '+' ≠ cp '.' := by decide
    by_cases hneg : o < 0 <;> simp [offsetText, hneg, h1, h2]

theorem bind_eq_of_eq {o : Option α} {f : α → Option β} {a : α} (h : o = some a)
    (hf : f a = b) : o >>= f = b := by
  subst h; exact hf

theorem fromisoformat_isoformat (d : DateTime) : fromisoformat d.isoformat = some d := by
  obtain ⟨⟨year, month, day, hour, minute, second, microsecond, utcoffset⟩, hv⟩ := d
  obtain ⟨hy1, hy2, hmo1, hmo2, hd1, hd2, hh, hmi, hs, hus, ho⟩ := id hv
  simp only at hy2 hmo2 hd2 hh hmi hs hus ho
  have hday := daysInMonth_le year month
  have read (n : Nat) (hn : n < 100) (t : Str) : readDigits 2 (digits 2 n ++ t) = some (n, t) :=
    readDigits_append 2 n hn t
  -- each field is read off the front in the order `isoformat` wrote it
  refine bind_eq_of_eq (readDigits_append 4 year (by omega) _) ?_
  refine bind_eq_of_eq (readChar_cons _ _) ?_
  refine bind_eq_of_eq (read month (by omega) _) ?_
  refine bind_eq_of_eq (readChar_cons _ _) ?_
  refine bind_eq_of_eq (read day (by omega) _) ?_
  refine bind_eq_of_eq (readChar_cons _ _) ?_
  refine bind_eq_of_eq (read hour (by omega) _) ?_
  refine bind_eq_of_eq (readChar_cons _ _) ?_
  refine bind_eq_of_eq (read minute (by omega) _) ?_
  refine bind_eq_of_eq (readChar_cons _ _) ?_
  refine bind_eq_of_eq (read second (by omega) _) ?_
  refine bind_eq_of_eq (readMicroseconds_text microsecond hus _ (head_offset utcoffset)) ?_
  refine bind_eq_of_eq (a := utcoffset) ?_ ?_
  · cases utcoffset with
    | none => rfl
    | some o => exact readOffset_offsetText o (ho o rfl)
  · exact dif_pos hv

end Python
