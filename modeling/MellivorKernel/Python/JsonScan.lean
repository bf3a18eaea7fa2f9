import MellivorKernel.Python.Json

/-!
# JSON decoding

`json.loads` of a text, by the scanner of the standard library: strict
strings, `NaN` and the infinities, the last of a repeated key. A scanner takes
what is left of the text and returns the value and what is left after it.
-/

namespace Python

/-- A text that does not decode: what is wrong and how much of the text was
left there; or the exception a conversion raised. -/
inductive ScanError
  | decode (message : String) (remaining : Nat)
  | raised (exc : Exn)

abbrev Scan := Except ScanError

def expecting (what : String) (s : Str) : Scan α :=
  .error (.decode ("Expecting " ++ what) s.length)

def isJsonSpace (c : CodePoint) : Bool :=
  c = cp ' ' || c = cp '\t' || c = cp '\n' || c = cp '\r'

def skipSpace (s : Str) : Str := s.dropWhile isJsonSpace

-- ---------------------------------------------------------------------------
-- Strings
-- ---------------------------------------------------------------------------

def isHighSurrogate (c : CodePoint) : Bool := 0xD800 ≤ c.val && c.val ≤ 0xDBFF

def isLowSurrogate (c : CodePoint) : Bool := 0xDC00 ≤ c.val && c.val ≤ 0xDFFF

def joinPair (high low : CodePoint) : CodePoint :=
  Fin.ofNat 0x110000 (0x10000 + ((high.val - 0xD800) * 0x400 + (low.val - 0xDC00)))

/-- A code point of a string as it stands, or by its `\u` escape. Only the
latter pair up. -/
inductive StringUnit
  | plain (c : CodePoint)
  | escaped (c : CodePoint)

def joinUnits : List StringUnit → Str
  | [] => []
  | .plain c :: rest => c :: joinUnits rest
  | .escaped c :: .escaped d :: rest =>
    if isHighSurrogate c && isLowSurrogate d then joinPair c d :: joinUnits rest
    else c :: joinUnits (.escaped d :: rest)
  | .escaped c :: rest => c :: joinUnits rest

def hexValue (c : CodePoint) : Option Nat :=
  if 48 ≤ c.val ∧ c.val ≤ 57 then some (c.val - 48)
  else if 97 ≤ c.val ∧ c.val ≤ 102 then some (c.val - 87)
  else if 65 ≤ c.val ∧ c.val ≤ 70 then some (c.val - 55)
  else none

def unitValue (a b c d : CodePoint) : Option CodePoint := do
  let a ← hexValue a
  let b ← hexValue b
  let c ← hexValue c
  let d ← hexValue d
  some (Fin.ofNat 0x110000 (((a * 16 + b) * 16 + c) * 16 + d))

/-- What a backslash and a character other than `u` stand for. -/
def unescape (c : CodePoint) : Option CodePoint :=
  if c = cp '"' ∨ c = cp '\\' ∨ c = cp '/' then some c
  else if c = cp 'b' then some 8
  else if c = cp 'f' then some 12
  else if c = cp 'n' then some (cp '\n')
  else if c = cp 'r' then some (cp '\r')
  else if c = cp 't' then some (cp '\t')
  else none

/-- The rest of a string whose opening quote, with what follows it, was
`opening` code points before the end. -/
def scanUnits (opening : Nat) : Str → Scan (List StringUnit × Str)
  | [] => .error (.decode "Unterminated string starting at" opening)
  | c :: s =>
    if c = cp '"' then .ok ([], s)
    else if c.val < 32 then .error (.decode "Invalid control character at" (s.length + 1))
    else if c ≠ cp '\\' then do
      let (units, rest) ← scanUnits opening s
      .ok (.plain c :: units, rest)
    else match s with
      | [] => .error (.decode "Unterminated string starting at" opening)
      | e :: s =>
        if e ≠ cp 'u' then
          match unescape e with
          | some c => do
            let (units, rest) ← scanUnits opening s
            .ok (.plain c :: units, rest)
          | none => .error (.decode "Invalid \\escape" (s.length + 2))
        else match s with
          | a :: b :: c :: d :: s =>
            -- the closing quote has to follow, so the text does not end here
            match if s = [] then none else unitValue a b c d with
            | some c => do
              let (units, rest) ← scanUnits opening s
              .ok (.escaped c :: units, rest)
            | none => .error (.decode "Invalid \\uXXXX escape" (s.length + 5))
          | s => .error (.decode "Invalid \\uXXXX escape" (s.length + 1))

def scanString (s : Str) : Scan (Str × Str) := do
  let (units, rest) ← scanUnits (s.length + 1) s
  .ok (joinUnits units, rest)

-- ---------------------------------------------------------------------------
-- Values
-- ---------------------------------------------------------------------------

def afterWord : Str → Str → Option Str
  | [], s => some s
  | _ :: _, [] => none
  | c :: word, d :: s => if c = d then afterWord word s else none

def jsonConstants : List (Str × PyValue) :=
  [(lit "null", .none), (lit "true", .bool true), (lit "false", .bool false),
    (lit "NaN", .float .nan), (lit "Infinity", .float (.inf false)),
    (lit "-Infinity", .float (.inf true))]

def scanNumber (s : Str) : Scan (PyValue × Str) :=
  match readNumber s with
  | none => expecting "value" s
  | some (t, rest) =>
    if t.isFloat then .ok (.float t.toFloat, rest)
    else if convertible t.toInt then .ok (.int t.toInt, rest)
    else .error (.raised (.raised .valueError (lit "Exceeds the limit (4300 digits) for integer " ++
      lit "string conversion: value has " ++ decimal (decimal t.whole).length ++
      lit " digits; use sys.set_int_max_str_digits() to increase the limit")))

/-- A value that is no string and no container. -/
def scanAtom (s : Str) : Scan (PyValue × Str) :=
  match jsonConstants.findSome? fun (word, v) => (afterWord word s).map fun rest => (v, rest) with
  | some found => .ok found
  | none => scanNumber s

/-- After an element: whether the container is closed, or where the next
element starts. -/
def scanDelimiter (close : CodePoint) (s : Str) : Scan (Bool × Str) :=
  match skipSpace s with
  | [] => expecting "',' delimiter" []
  | c :: rest =>
    if c = close then .ok (true, rest)
    else if c = cp ',' then .ok (false, skipSpace rest)
    else expecting "',' delimiter" (c :: rest)

/-- Items up to the closing bracket. Each takes something of the text, so it
has no more than `fuel` of them. -/
def scanItems (item : Str → Scan (α × Str)) (close : CodePoint) : Nat → Str → Scan (List α × Str)
  | 0, s => expecting "',' delimiter" s
  | fuel + 1, s => do
    let (x, s) ← item s
    let (closed, s) ← scanDelimiter close s
    if closed then .ok ([x], s)
    else do
      let (xs, s) ← scanItems item close fuel s
      .ok (x :: xs, s)

/-- The array whose bracket stood before `s`. -/
def scanArray (scan : Str → Scan (PyValue × Str)) (s : Str) : Scan (PyValue × Str) :=
  match skipSpace s with
  | [] => expecting "value" []
  | c :: rest =>
    if c = cp ']' then .ok (.list [], rest)
    else do
      let (vs, rest) ← scanItems scan (cp ']') (c :: rest).length (c :: rest)
      .ok (.list vs, rest)

def scanKey : Str → Scan (Str × Str)
  | [] => expecting "property name enclosed in double quotes" []
  | c :: s =>
    if c = cp '"' then do
      let (key, s) ← scanString s
      match skipSpace s with
      | [] => expecting "':' delimiter" []
      | c :: s => if c = cp ':' then .ok (key, skipSpace s) else expecting "':' delimiter" (c :: s)
    else expecting "property name enclosed in double quotes" (c :: s)

def scanMember (scan : Str → Scan (PyValue × Str)) (s : Str) : Scan ((Str × PyValue) × Str) := do
  let (key, s) ← scanKey s
  let (v, s) ← scan s
  .ok ((key, v), s)

/-- `dict(pairs)`: the last value of a repeated key, in the place of the first. -/
def ofPairs (pairs : List (Str × PyValue)) : Mapping :=
  pairs.foldl (fun m p => m.put (.str p.1) p.2) []

/-- The object whose brace stood before `s`. -/
def scanObject (scan : Str → Scan (PyValue × Str)) (s : Str) : Scan (PyValue × Str) :=
  match skipSpace s with
  | [] => expecting "property name enclosed in double quotes" []
  | c :: rest =>
    if c = cp '\x7d' then .ok (.dict [], rest)
    else do
      let (members, rest) ← scanItems (scanMember scan) (cp '\x7d') (c :: rest).length (c :: rest)
      .ok (.dict (ofPairs members), rest)

/-- A value at the front of the text, nested no deeper than `depth`. -/
def scanOnce : Nat → Str → Scan (PyValue × Str)
  | 0, s => expecting "value" s
  | _ + 1, [] => expecting "value" []
  | depth + 1, c :: rest =>
    if c = cp '"' then do
      let (text, rest) ← scanString rest
      .ok (.str text, rest)
    else if c = cp '\x7b' then scanObject (scanOnce depth) rest
    else if c = cp '[' then scanArray (scanOnce depth) rest
    else scanAtom (c :: rest)

-- ---------------------------------------------------------------------------
-- Documents
-- ---------------------------------------------------------------------------

/-- `JSONDecoder.decode`. A text nests no deeper than it is long. -/
def decode (s : Str) : Scan PyValue := do
  let (v, rest) ← scanOnce (s.length + 1) (skipSpace s)
  let rest := skipSpace rest
  if rest = [] then .ok v else .error (.decode "Extra data" rest.length)

def jsonDecodeError (message : String) (doc : Str) (pos : Nat) : Exn :=
  let line := (doc.take pos).count (cp '\n') + 1
  let column := ((doc.take pos).reverse.takeWhile (· ≠ cp '\n')).length + 1
  .raised .jsonDecodeError (lit message ++ lit ": line " ++ decimal line ++ lit " column " ++
    decimal column ++ lit " (char " ++ decimal pos ++ lit ")")

def loads (s : Str) : Except Exn PyValue :=
  if s.head? = some (cp '\uFEFF') then
    .error (jsonDecodeError "Unexpected UTF-8 BOM (decode using utf-8-sig)" s 0)
  else match decode s with
    | .ok v => .ok v
    | .error (.decode message remaining) =>
      .error (jsonDecodeError message s (s.length - remaining))
    | .error (.raised exc) => .error exc

end Python
