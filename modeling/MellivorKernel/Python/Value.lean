import MellivorKernel.Foundation.Returns
import MellivorKernel.Python.Exception
import MellivorKernel.Python.Printing

/-!
# Python values

The objects that cross the kernel's untyped boundaries (`Mapping[str, object]`
payloads, message lists, metadata), with the operations the code performs on
them: `isinstance` tests, `dict.get`, truth testing, `==` and `str`.

A mapping is a list of items with distinct keys; where a key is repeated the
first item counts.
-/

namespace Python

open Foundation

/-- What a dictionary is keyed by: the hashable values JSON knows, and any
other hashable object by its identity. -/
inductive PyKey
  | none
  | bool (b : Bool)
  | int (n : Int)
  | float (f : PyFloat)
  | str (s : Str)
  | object (ident : Nat) (typeName : Str)
  deriving DecidableEq

/-- `toolCall` and `toolSpec` are the two value classes of
`providers/tool_calling.py` that travel inside payloads; the checks their
constructors make are the proof fields. `cycle` stands where a container is
met again inside itself, `object` is any object of another class, with what
printing it comes to. -/
inductive PyValue
  | none
  | bool (b : Bool)
  | int (n : Int)
  | float (f : PyFloat)
  | str (s : Str)
  | bytes (bs : List UInt8)
  | list (items : List PyValue)
  | tuple (items : List PyValue)
  | dict (items : List (PyKey × PyValue))
  | toolCall (id name : Str) (id_ok : blank id = false) (name_ok : blank name = false)
      (arguments : List (PyKey × PyValue))
  | toolSpec (name description : Str) (inputSchema : List (PyKey × PyValue))
  | cycle
  | object (ident : Nat) (typeName : Str) (text : Except Exn Str)

abbrev Mapping := List (PyKey × PyValue)

-- ---------------------------------------------------------------------------
-- Lookup
-- ---------------------------------------------------------------------------

/-- Keys that Python holds equal have one normal form: `True`, `1` and `1.0`
are the same key. -/
def PyKey.norm : PyKey → PyKey
  | .bool b => .int (if b then 1 else 0)
  | .float (.finite q) => if q.den = 1 then .int q.num else .float (.finite q)
  | k => k

/-- `m.get(key)` for any hashable key. -/
def Mapping.find? : Mapping → PyKey → Option PyValue
  | [], _ => Option.none
  | (key, value) :: rest, k => if key.norm = k.norm then some value else find? rest k

/-- `m.get("name")`. -/
def Mapping.get? (m : Mapping) (name : String) : Option PyValue := m.find? (.str (lit name))

@[simp] theorem Mapping.get?_nil (name : String) : Mapping.get? [] name = Option.none := rfl

@[simp] theorem Mapping.get?_cons (key : String) (value : PyValue) (rest : Mapping) (name : String) :
    Mapping.get? ((.str (lit key), value) :: rest) name =
      if key = name then some value else Mapping.get? rest name := by
  simp [Mapping.get?, Mapping.find?, PyKey.norm]

/-- `m[k] = v` on a copy of `m`, as in `{**m, k: v}`. -/
def Mapping.put : Mapping → PyKey → PyValue → Mapping
  | [], k, v => [(k, v)]
  | (key, value) :: rest, k, v =>
    if key.norm = k.norm then (key, v) :: rest else (key, value) :: put rest k v

/-- One item of a dictionary display with a literal key. -/
def item (key : String) (value : PyValue) : PyKey × PyValue := (.str (lit key), value)

@[simp] theorem Mapping.get?_item (key : String) (value : PyValue) (rest : Mapping) (name : String) :
    Mapping.get? (item key value :: rest) name =
      if key = name then some value else Mapping.get? rest name := Mapping.get?_cons ..

-- ---------------------------------------------------------------------------
-- Type tests and truth
-- ---------------------------------------------------------------------------

/-- The items of a value that is a `Mapping`. -/
def PyValue.mapping? : PyValue → Option Mapping
  | .dict items => some items
  | _ => Option.none

/-- The elements of a value that is a `Sequence` and not a `str` or `bytes`. -/
def PyValue.sequence? : PyValue → Option (List PyValue)
  | .list items | .tuple items => some items
  | _ => Option.none

def PyValue.str? : PyValue → Option Str
  | .str s => some s
  | _ => Option.none

@[simp] theorem PyValue.mapping?_eq_some {v : PyValue} {m : Mapping} :
    v.mapping? = some m ↔ v = .dict m := by
  cases v <;> simp [PyValue.mapping?]

@[simp] theorem PyValue.str?_eq_some {v : PyValue} {s : Str} : v.str? = some s ↔ v = .str s := by
  cases v <;> simp [PyValue.str?]

def PyValue.truthy : PyValue → Bool
  | .none => false
  | .bool b => b
  | .int n => n ≠ 0
  | .float f => f ≠ .finite 0
  | .str s => s ≠ []
  | .bytes bs => bs ≠ []
  | .list items | .tuple items => !items.isEmpty
  | .dict items => !items.isEmpty
  | .toolCall .. | .toolSpec .. | .cycle | .object .. => true

-- ---------------------------------------------------------------------------
-- Equality
-- ---------------------------------------------------------------------------

def PyFloat.eq : PyFloat → PyFloat → Bool
  | .nan, _ | _, .nan => false
  | f, g => f = g

/-- The number a value is, booleans included. -/
def PyValue.number? : PyValue → Option PyFloat
  | .bool b => some (.finite (if b then 1 else 0))
  | .int n => some (.finite n)
  | .float f => some f
  | _ => Option.none

mutual
def PyValue.eq : PyValue → PyValue → Bool
  | .none, .none => true
  | .str s, .str t => s = t
  | .bytes s, .bytes t => s = t
  | .list xs, .list ys => eqItems xs ys
  | .tuple xs, .tuple ys => eqItems xs ys
  | .dict xs, .dict ys => xs.length = ys.length && eqPairs xs ys
  | .toolCall i n _ _ xs, .toolCall j m _ _ ys =>
    i = j && n = m && xs.length = ys.length && eqPairs xs ys
  | .toolSpec n d xs, .toolSpec m e ys => n = m && d = e && xs.length = ys.length && eqPairs xs ys
  | .cycle, .cycle => true
  | .object i _ _, .object j _ _ => i = j
  | v, w => match v.number?, w.number? with
    | some f, some g => f.eq g
    | _, _ => false
def eqItems : List PyValue → List PyValue → Bool
  | [], [] => true
  | v :: vs, w :: ws => v.eq w && eqItems vs ws
  | _, _ => false
/-- Every item of the first mapping is in the second, with an equal value. -/
def eqPairs : Mapping → Mapping → Bool
  | [], _ => true
  | (k, v) :: rest, ys =>
    (match Mapping.find? ys k with
      | some w => v.eq w
      | Option.none => false) && eqPairs rest ys
end

-- ---------------------------------------------------------------------------
-- Text
-- ---------------------------------------------------------------------------

section
variable [Printing]

def PyFloat.text : PyFloat → Str
  | .nan => lit "nan"
  | .inf negative => if negative then lit "-inf" else lit "inf"
  | .finite q => floatRepr q

def boolText (b : Bool) : Str := if b then lit "True" else lit "False"

def reprBytes (bs : List UInt8) : Str :=
  let units : Str := bs.map fun b => ⟨b.toNat, by have := b.toNat_lt; omega⟩
  let quote := if cp '\'' ∈ units ∧ cp '"' ∉ units then cp '"' else cp '\''
  cp 'b' :: quote ::
    units.flatMap (fun c => if 127 ≤ c.val then lit "\\x" ++ hex 2 c.val else escape quote c) ++ [quote]

/-- Text and integers are converted into each other up to 4300 digits. -/
def convertible (n : Int) : Bool := (decimal n.natAbs).length ≤ 4300

/-- `int.__repr__`, under the limit on the digits it converts. -/
def intText (n : Int) : Except Exn Str :=
  if convertible n then .ok (decimalInt n)
  else .error (.raised .valueError (lit ("Exceeds the limit (4300 digits) for integer string " ++
    "conversion; use sys.set_int_max_str_digits() to increase the limit")))

def PyKey.repr : PyKey → Except Exn Str
  | .none => .ok (lit "None")
  | .bool b => .ok (boolText b)
  | .int n => intText n
  | .float f => .ok f.text
  | .str s => .ok (pyRepr s)
  | .object _ typeName => .ok (lit "<" ++ typeName ++ lit " object>")

mutual
def PyValue.repr : PyValue → Except Exn Str
  | .none => .ok (lit "None")
  | .bool b => .ok (boolText b)
  | .int n => intText n
  | .float f => .ok f.text
  | .str s => .ok (pyRepr s)
  | .bytes bs => .ok (reprBytes bs)
  | .list items => do
    let parts ← reprItems items
    .ok (lit "[" ++ join (lit ", ") parts ++ lit "]")
  | .tuple items => do
    let parts ← reprItems items
    .ok (lit "(" ++ join (lit ", ") parts ++ if parts.length = 1 then lit ",)" else lit ")")
  | .dict items => do
    let parts ← reprPairs items
    .ok (lit "\x7b" ++ join (lit ", ") parts ++ lit "\x7d")
  | .toolCall id name _ _ items => do
    let parts ← reprPairs items
    .ok (lit "ToolCall(id=" ++ pyRepr id ++ lit ", name=" ++ pyRepr name ++
      lit ", arguments=mappingproxy(\x7b" ++ join (lit ", ") parts ++ lit "\x7d))")
  | .toolSpec name description items => do
    let parts ← reprPairs items
    .ok (lit "ToolSpec(name=" ++ pyRepr name ++ lit ", description=" ++ pyRepr description ++
      lit ", input_schema=mappingproxy(\x7b" ++ join (lit ", ") parts ++ lit "\x7d))")
  | .cycle => .ok (lit "[...]")
  | .object _ _ text => text
def reprItems : List PyValue → Except Exn (List Str)
  | [] => .ok []
  | v :: rest => do
    let part ← v.repr
    let parts ← reprItems rest
    .ok (part :: parts)
def reprPairs : Mapping → Except Exn (List Str)
  | [] => .ok []
  | (k, v) :: rest => do
    let key ← k.repr
    let part ← v.repr
    let parts ← reprPairs rest
    .ok ((key ++ lit ": " ++ part) :: parts)
end

def PyValue.text : PyValue → Except Exn Str
  | .str s => .ok s
  | v => v.repr

@[simp] theorem PyValue.text_str (s : Str) : (PyValue.str s).text = .ok s := rfl

/-- `str(m)` of a mapping starts with a brace, so it is never blank. -/
theorem blank_text_dict {m : Mapping} {text : Str} (h : (PyValue.dict m).text = .ok text) :
    blank text = false := by
  obtain ⟨parts, -, h⟩ := bind_eq_ok.mp h
  cases h
  rw [List.append_assoc]
  exact blank_append_left (by decide) _

-- ---------------------------------------------------------------------------
-- What can be printed
-- ---------------------------------------------------------------------------

def PyKey.printable : PyKey → Bool
  | .int n => convertible n
  | _ => true

mutual
/-- No integer is too long and no object's own text fails. -/
def PyValue.printable : PyValue → Bool
  | .none | .bool _ | .float _ | .str _ | .bytes _ | .cycle => true
  | .int n => convertible n
  | .list items | .tuple items => printableItems items
  | .dict items | .toolCall _ _ _ _ items | .toolSpec _ _ items => printablePairs items
  | .object _ _ text => text.isOk
def printableItems : List PyValue → Bool
  | [] => true
  | v :: rest => v.printable && printableItems rest
def printablePairs : Mapping → Bool
  | [] => true
  | (k, v) :: rest => k.printable && v.printable && printablePairs rest
end

omit [Printing] in
theorem convertible_iff {n : Int} : convertible n = true ↔ n.natAbs < 10 ^ 4300 := by
  rw [convertible, decimal, List.length_map, decide_eq_true_iff]
  exact Nat.length_toDigits_le_iff (by decide) (by decide)

omit [Printing] in
/-- The smallest integer of 4301 digits cannot be printed. -/
theorem intText_pow : ∃ message,
    intText ((10 ^ 4300 : Nat) : Int) = .error (.raised .valueError message) := by
  refine ⟨_, if_neg ?_⟩
  rw [convertible_iff, Int.natAbs_natCast]
  exact lt_irrefl _

omit [Printing] in
theorem intText_returns {n : Int} : Returns (intText n) ↔ convertible n = true := by
  unfold intText
  split
  · rename_i h
    exact iff_of_true ⟨_, rfl⟩ h
  · rename_i h
    exact iff_of_false nofun h

theorem PyKey.repr_returns {k : PyKey} : Returns k.repr ↔ k.printable = true := by
  cases k with
  | int n => exact intText_returns
  | _ => exact iff_of_true ⟨_, rfl⟩ rfl

mutual
theorem PyValue.repr_returns : (v : PyValue) → (Returns v.repr ↔ v.printable = true)
  | .none | .bool _ | .float _ | .str _ | .bytes _ | .cycle => iff_of_true ⟨_, rfl⟩ rfl
  | .int _ => intText_returns
  | .list items | .tuple items => by
    rw [PyValue.repr, PyValue.printable, returns_bind_of fun _ => ⟨_, rfl⟩]
    exact reprItems_returns items
  | .dict items | .toolCall _ _ _ _ items | .toolSpec _ _ items => by
    rw [PyValue.repr, PyValue.printable, returns_bind_of fun _ => ⟨_, rfl⟩]
    exact reprPairs_returns items
  | .object _ _ _ => returns_iff_isOk
theorem reprItems_returns : (items : List PyValue) →
    (Returns (reprItems items) ↔ printableItems items = true)
  | [] => iff_of_true ⟨_, rfl⟩ rfl
  | v :: rest => by
    rw [reprItems, printableItems, Bool.and_eq_true, ← v.repr_returns, ← reprItems_returns rest]
    exact returns_bind_and fun _ => returns_bind_of fun _ => ⟨_, rfl⟩
theorem reprPairs_returns : (items : Mapping) →
    (Returns (reprPairs items) ↔ printablePairs items = true)
  | [] => iff_of_true ⟨_, rfl⟩ rfl
  | (k, v) :: rest => by
    rw [reprPairs, printablePairs, Bool.and_eq_true, Bool.and_eq_true, and_assoc,
      ← k.repr_returns, ← v.repr_returns, ← reprPairs_returns rest]
    exact returns_bind_and fun _ => returns_bind_and fun _ => returns_bind_of fun _ => ⟨_, rfl⟩
end

theorem PyValue.text_returns (v : PyValue) : Returns v.text ↔ v.printable = true := by
  cases v with
  | str s => exact iff_of_true ⟨_, rfl⟩ rfl
  | _ => exact PyValue.repr_returns _

end

end Python
