import Mathlib.Algebra.GroupWithZero.Nat
import Mathlib.Data.List.DropRight
import Mathlib.Data.List.Sort
import Mathlib.Data.List.Lex
import Mathlib.Data.String.Basic

/-!
# Python text

A Python `str` is a sequence of code points, lone surrogates included, so it
is modelled as a list of them rather than as a Lean `String`. `lit` turns a
literal into such a list.
-/

namespace Python

abbrev CodePoint := Fin 0x110000

abbrev Str := List CodePoint

instance codePoints_ne_zero : NeZero 0x110000 := ⟨by decide⟩

instance lawfulBEqCodePoint : LawfulBEq CodePoint := inferInstance

instance lawfulBEqStr : LawfulBEq Str := inferInstance

theorem toNat_lt (c : Char) : c.toNat < 0x110000 := by
  have h : c.toNat.isValidChar := c.valid
  unfold Nat.isValidChar at h
  omega

def cp (c : Char) : CodePoint := ⟨c.toNat, toNat_lt c⟩

def lit (s : String) : Str := s.toList.map cp

theorem cp_injective : Function.Injective cp := fun a b h => by
  have hv : a.toNat = b.toNat := by simpa only [cp, Fin.mk.injEq] using h
  exact Char.toNat_inj.mp hv

@[simp] theorem lit_inj {a b : String} : lit a = lit b ↔ a = b := by
  constructor
  · intro h
    exact String.toList_injective (List.map_injective_iff.mpr cp_injective h)
  · rintro rfl; rfl

@[simp] theorem lit_eq_nil {a : String} : lit a = [] ↔ a = "" := by
  rw [← lit_inj]; rfl

-- ---------------------------------------------------------------------------
-- Whitespace
-- ---------------------------------------------------------------------------

/-- `str.isspace` of one code point. -/
def isSpace (c : CodePoint) : Bool :=
  (9 ≤ c.val && c.val ≤ 13) || (28 ≤ c.val && c.val ≤ 32) || c.val == 0x85 || c.val == 0xA0 ||
    c.val == 0x1680 || (0x2000 ≤ c.val && c.val ≤ 0x200A) || c.val == 0x2028 || c.val == 0x2029 ||
    c.val == 0x202F || c.val == 0x205F || c.val == 0x3000

/-- `not s.strip()`. -/
def blank (s : Str) : Bool := s.all isSpace

def strip (s : Str) : Str := (s.dropWhile isSpace).rdropWhile isSpace

theorem strip_eq_nil {s : Str} : strip s = [] ↔ blank s = true := by
  rw [strip, List.rdropWhile_eq_nil_iff, blank, List.all_eq_true]
  refine ⟨fun h c hc => ?_, fun h c hc => h c ((List.dropWhile_sublist _).subset hc)⟩
  rw [← List.takeWhile_append_dropWhile (p := isSpace) (l := s), List.mem_append] at hc
  exact hc.elim List.mem_takeWhile_imp (h c)

theorem blank_append (s t : Str) : blank (s ++ t) = (blank s && blank t) := List.all_append

/-- A message with a fixed non-blank start is not blank, whatever follows. -/
theorem blank_append_left {s : Str} (h : blank s = false) (t : Str) : blank (s ++ t) = false := by
  rw [blank_append, h, Bool.false_and]

/-- A match of a pattern that ends in `$`, which also matches before a newline
that ends the text. -/
def dollar (p : Str → Bool) (s : Str) : Bool :=
  p s || (s.getLast? = some (cp '\n') && p s.dropLast)

theorem dollar_iff {p : Str → Bool} {s : Str} :
    dollar p s = true ↔ p s = true ∨ ∃ base, s = base ++ [cp '\n'] ∧ p base = true := by
  simp only [dollar, Bool.or_eq_true, Bool.and_eq_true, decide_eq_true_eq,
    List.getLast?_eq_some_iff]
  refine or_congr_right ⟨?_, ?_⟩
  · rintro ⟨⟨base, rfl⟩, h⟩
    exact ⟨base, rfl, by simpa using h⟩
  · rintro ⟨base, rfl, h⟩
    exact ⟨⟨base, rfl⟩, by simpa using h⟩

theorem ne_nil_of_not_blank {s : Str} (h : blank s = false) : s ≠ [] := by
  rintro rfl; simp [blank] at h

-- ---------------------------------------------------------------------------
-- Rendering
-- ---------------------------------------------------------------------------

def hexDigit (n : Nat) : CodePoint :=
  cp (if n < 10 then Char.ofNat (48 + n) else Char.ofNat (87 + n))

def hex : Nat → Nat → Str
  | 0, _ => []
  | width + 1, n => hex width (n / 16) ++ [hexDigit (n % 16)]

def digit (n : Nat) : CodePoint := ⟨48 + n % 10, by omega⟩

/-- `n` in decimal, zero-padded to `width` digits. -/
def digits : Nat → Nat → Str
  | 0, _ => []
  | width + 1, n => digits width (n / 10) ++ [digit n]

def decimal (n : Nat) : Str := (Nat.toDigits 10 n).map cp

def decimalInt : Int → Str
  | .ofNat n => decimal n
  | .negSucc n => cp '-' :: decimal (n + 1)

def join (sep : Str) : List Str → Str
  | [] => []
  | [s] => s
  | s :: t :: rest => s ++ sep ++ join sep (t :: rest)

theorem join_cons (sep s : Str) (rest : List Str) :
    join sep (s :: rest) = s ++ rest.flatMap (sep ++ ·) := by
  induction rest generalizing s with
  | nil => simp [join]
  | cons t rest ih => simp [join, ih]

/-- `sorted(texts)`: by code points. -/
def sorted (texts : List Str) : List Str := texts.insertionSort (· ≤ ·)

theorem sorted_eq_nil {texts : List Str} : sorted texts = [] ↔ texts = [] := by
  have h := List.perm_insertionSort (· ≤ ·) texts
  exact ⟨fun he => List.nil_perm.mp (he ▸ h), fun he => by rw [he]; rfl⟩

example : blank (lit " \t\n") = true ∧ blank (lit " a ") = false := by decide

end Python
