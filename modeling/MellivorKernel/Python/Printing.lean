import MellivorKernel.Python.Number

/-!
# Printing

`repr` of text and of floats. What the interpreter decides by an algorithm or
a table that is not modelled is a field of `Printing`: the shortest decimal
text of a finite float, and which code points beyond ASCII are printable.
-/

namespace Python

class Printing where
  floatText : Rat → FloatText
  printable : CodePoint → Bool

section
variable [Printing]

/-- `repr(q)` of a finite float. -/
def floatRepr (q : Rat) : Str := (Printing.floatText q).text

def escape (quote c : CodePoint) : Str :=
  if c = quote ∨ c = cp '\\' then [cp '\\', c]
  else if c = cp '\n' then lit "\\n"
  else if c = cp '\r' then lit "\\r"
  else if c = cp '\t' then lit "\\t"
  else if c.val < 32 ∨ c.val = 127 then lit "\\x" ++ hex 2 c.val
  else if c.val < 127 ∨ Printing.printable c then [c]
  else if c.val < 0x100 then lit "\\x" ++ hex 2 c.val
  else if c.val < 0x10000 then lit "\\u" ++ hex 4 c.val
  else lit "\\U" ++ hex 8 c.val

/-- `repr(s)`, the `!r` of a format string. -/
def pyRepr (s : Str) : Str :=
  let quote := if cp '\'' ∈ s ∧ cp '"' ∉ s then cp '"' else cp '\''
  quote :: s.flatMap (escape quote) ++ [quote]

end

-- ---------------------------------------------------------------------------
-- A printing to evaluate with
-- ---------------------------------------------------------------------------

def decimals : Nat → Rat → List (Fin 10)
  | 0, q => [⟨(q * 10).floor.toNat % 10, by omega⟩]
  | n + 1, q => ⟨(q * 10).floor.toNat % 10, by omega⟩ :: decimals n (q * 10 - (q * 10).floor)

theorem decimals_ne_nil (n : Nat) (q : Rat) : decimals n q ≠ [] := by
  cases n <;> simp [decimals]

/-- Every float in full and no code point beyond ASCII: the text of a float
whose exact value is short is the interpreter's. -/
@[reducible] def plainPrinting : Printing where
  floatText q :=
    { negative := q < 0
      whole := |q|.floor.toNat
      fraction := decimals (q.den.log2 - 1) (|q| - |q|.floor)
      exponent := none
      isFloat := by simp [NumberText.isFloat, decimals_ne_nil] }
  printable _ := false

end Python
