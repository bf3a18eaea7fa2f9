import MellivorKernel.Foundation.Returns
import MellivorKernel.Python.Exception
import MellivorKernel.Python.Printing

/-!
# Digits

`str.isdigit`, and `int` of a text it holds of, by the interpreter's tables of
Unicode 15.0. A digit need not be a decimal: `int` reads decimals only, and no
more than 4300 of them.
-/

namespace Python

/-- The zero of each run of ten decimals. -/
def decimalZeros : List Nat :=
  [0x30, 0x660, 0x6F0, 0x7C0, 0x966, 0x9E6, 0xA66, 0xAE6, 0xB66, 0xBE6, 0xC66, 0xCE6, 0xD66, 0xDE6,
    0xE50, 0xED0, 0xF20, 0x1040, 0x1090, 0x17E0, 0x1810, 0x1946, 0x19D0, 0x1A80, 0x1A90, 0x1B50,
    0x1BB0, 0x1C40, 0x1C50, 0xA620, 0xA8D0, 0xA900, 0xA9D0, 0xA9F0, 0xAA50, 0xABF0, 0xFF10, 0x104A0,
    0x10D30, 0x11066, 0x110F0, 0x11136, 0x111D0, 0x112F0, 0x11450, 0x114D0, 0x11650, 0x116C0,
    0x11730, 0x118E0, 0x11950, 0x11C50, 0x11D50, 0x11DA0, 0x11F50, 0x16A60, 0x16AC0, 0x16B50,
    0x1D7CE, 0x1D7D8, 0x1D7E2, 0x1D7EC, 0x1D7F6, 0x1E140, 0x1E2F0, 0x1E4F0, 0x1E950, 0x1FBF0]

/-- The first and the last of each run of digits that are no decimals. -/
def otherDigits : List (Nat × Nat) :=
  [(0xB2, 0xB3), (0xB9, 0xB9), (0x1369, 0x1371), (0x19DA, 0x19DA), (0x2070, 0x2070),
    (0x2074, 0x2079), (0x2080, 0x2089), (0x2460, 0x2468), (0x2474, 0x247C), (0x2488, 0x2490),
    (0x24EA, 0x24EA), (0x24F5, 0x24FD), (0x24FF, 0x24FF), (0x2776, 0x277E), (0x2780, 0x2788),
    (0x278A, 0x2792), (0x10A40, 0x10A43), (0x10E60, 0x10E68), (0x11052, 0x1105A),
    (0x1F100, 0x1F10A)]

/-- `unicodedata.decimal(c)`, if `c` has one. -/
def decimalOf (c : CodePoint) : Option Nat :=
  (decimalZeros.find? fun start => start ≤ c.val && c.val < start + 10).map (c.val - ·)

def isDecimal (c : CodePoint) : Bool := (decimalOf c).isSome

/-- `str.isdigit` of one code point. -/
def isDigitChar (c : CodePoint) : Bool :=
  isDecimal c || otherDigits.any fun (first, last) => first ≤ c.val && c.val ≤ last

def isdigit (s : Str) : Bool := !s.isEmpty && s.all isDigitChar

def decimalsValue (s : Str) : Nat := s.foldl (fun n c => 10 * n + (decimalOf c).getD 0) 0

/-- `int(s)` of a text that `isdigit`. -/
def intOfDigits [Printing] (s : Str) : Except Exn Nat :=
  let decimals := s.takeWhile isDecimal
  if 4300 < decimals.length then
    .error (.raised .valueError (lit "Exceeds the limit (4300 digits) for integer string " ++
      lit "conversion: value has " ++ decimal decimals.length ++
      lit " digits; use sys.set_int_max_str_digits() to increase the limit"))
  else if decimals = s then .ok (decimalsValue s)
  else .error (.raised .valueError
    (lit "invalid literal for int() with base 10: " ++ (pyRepr s).take 200))

structure Numeral (s : Str) (n : Nat) : Prop where
  ne_nil : s ≠ []
  decimals : s.all isDecimal = true
  value : decimalsValue s = n

def Refused (s : Str) : Prop := s.all isDecimal = false ∨ 4300 < s.length

instance (s : Str) : Decidable (Refused s) := inferInstanceAs (Decidable (_ ∨ _))

theorem Numeral.isdigit {s : Str} {n : Nat} (h : Numeral s n) : isdigit s = true := by
  have hall : s.all isDigitChar = true := List.all_eq_true.mpr fun c hc => by
    rw [isDigitChar, List.all_eq_true.mp h.decimals c hc, Bool.true_or]
  have hne := h.ne_nil
  simp [Python.isdigit, hall, hne]

section
variable [Printing] {s : Str}

theorem intOfDigits_refused (h : Refused s) :
    ∃ message, intOfDigits s = .error (.raised .valueError message) := by
  unfold intOfDigits
  simp only
  split
  · exact ⟨_, rfl⟩
  · rename_i hshort
    split
    · rename_i heq
      have hall := List.takeWhile_eq_self_iff.mp heq
      rw [heq] at hshort
      rcases h with h | h
      · rw [List.all_eq_true.mpr hall] at h
        cases h
      · exact absurd h hshort
    · exact ⟨_, rfl⟩

theorem intOfDigits_of_not_refused (h : ¬ Refused s) : intOfDigits s = .ok (decimalsValue s) := by
  obtain ⟨hall, hshort⟩ := not_or.mp h
  have hself : s.takeWhile isDecimal = s :=
    List.takeWhile_eq_self_iff.mpr (List.all_eq_true.mp (by simpa using hall))
  rw [intOfDigits, hself]
  simp only [if_neg hshort, if_true]

end

example : decimalOf (cp '٣') = some 3 ∧ isdigit (lit "1²") = true ∧ Refused (lit "1²") := by decide

end Python
