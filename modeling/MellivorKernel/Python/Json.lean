import MellivorKernel.Foundation.Returns
import MellivorKernel.Python.Value

/-!
# JSON encoding

`json.dumps` with the options the kernel uses, `ensure_ascii` and
`default=str`. It raises `TypeError` on a key JSON does not know and, without
a default, on a value JSON does not know, `ValueError` on a container that
holds itself or an integer too long to print, and what `str` raises on what it
is handed; `PyValue.jsonable` says when it does none of these.
-/

namespace Python

open Foundation

structure JsonOptions where
  ensureAscii : Bool
  defaultStr : Bool

/-- `json.dumps(v, ensure_ascii=False, default=str)`. -/
def JsonOptions.lenient : JsonOptions := ⟨false, true⟩

def JsonOptions.strict : JsonOptions := ⟨true, false⟩

-- ---------------------------------------------------------------------------
-- Scalars
-- ---------------------------------------------------------------------------

def jsonUnit (n : Nat) : Str := lit "\\u" ++ hex 4 n

/-- The second character of a two-character escape. -/
def jsonShort (c : CodePoint) : Option CodePoint :=
  if c = cp '"' ∨ c = cp '\\' then some c
  else if c = cp '\n' then some (cp 'n')
  else if c = cp '\r' then some (cp 'r')
  else if c = cp '\t' then some (cp 't')
  else if c = 12 then some (cp 'f')
  else if c = 8 then some (cp 'b')
  else none

def jsonEscape (ensureAscii : Bool) (c : CodePoint) : Str :=
  match jsonShort c with
  | some e => [cp '\\', e]
  | none =>
    if c.val < 32 then jsonUnit c.val
    else if !ensureAscii || c.val < 127 then [c]
    else if c.val < 0x10000 then jsonUnit c.val
    else
      let n := c.val - 0x10000
      jsonUnit (0xD800 + n / 0x400) ++ jsonUnit (0xDC00 + n % 0x400)

def jsonString (ensureAscii : Bool) (s : Str) : Str :=
  cp '"' :: s.flatMap (jsonEscape ensureAscii) ++ [cp '"']

def jsonBool (b : Bool) : Str := if b then lit "true" else lit "false"

section
variable [Printing]

def jsonFloat : PyFloat → Str
  | .nan => lit "NaN"
  | .inf negative => if negative then lit "-Infinity" else lit "Infinity"
  | .finite q => floatRepr q

def PyKey.dumps (options : JsonOptions) : PyKey → Except Exn Str
  | .str s => .ok (jsonString options.ensureAscii s)
  | .none => .ok (jsonString options.ensureAscii (lit "null"))
  | .bool b => .ok (jsonString options.ensureAscii (jsonBool b))
  | .int n => do
    let text ← intText n
    .ok (jsonString options.ensureAscii text)
  | .float f => .ok (jsonString options.ensureAscii (jsonFloat f))
  | .object _ typeName => .error (.raised .typeError
      (lit "keys must be str, int, float, bool or None, not " ++ typeName))

/-- A value of a class JSON does not know. -/
def dumpsOther (options : JsonOptions) (typeName : Str) (text : Except Exn Str) :
    Except Exn Str :=
  if options.defaultStr then do
    let text ← text
    .ok (jsonString options.ensureAscii text)
  else .error (.raised .typeError
    (lit "Object of type " ++ typeName ++ lit " is not JSON serializable"))

-- ---------------------------------------------------------------------------
-- Values
-- ---------------------------------------------------------------------------

mutual
def PyValue.dumps (options : JsonOptions) : PyValue → Except Exn Str
  | .none => .ok (lit "null")
  | .bool b => .ok (jsonBool b)
  | .int n => intText n
  | .float f => .ok (jsonFloat f)
  | .str s => .ok (jsonString options.ensureAscii s)
  | .list items | .tuple items => do
    let parts ← dumpsItems options items
    .ok (lit "[" ++ join (lit ", ") parts ++ lit "]")
  | .dict items => do
    let parts ← dumpsPairs options items
    .ok (lit "\x7b" ++ join (lit ", ") parts ++ lit "\x7d")
  | .cycle => .error (.raised .valueError (lit "Circular reference detected"))
  | .bytes bs => dumpsOther options (lit "bytes") (.ok (reprBytes bs))
  | .toolCall id name hi hn items =>
    dumpsOther options (lit "ToolCall") (PyValue.toolCall id name hi hn items).text
  | .toolSpec name description items =>
    dumpsOther options (lit "ToolSpec") (PyValue.toolSpec name description items).text
  | .object _ typeName text => dumpsOther options typeName text
def dumpsItems (options : JsonOptions) : List PyValue → Except Exn (List Str)
  | [] => .ok []
  | v :: rest => do
    let part ← v.dumps options
    let parts ← dumpsItems options rest
    .ok (part :: parts)
def dumpsPairs (options : JsonOptions) : Mapping → Except Exn (List Str)
  | [] => .ok []
  | (k, v) :: rest => do
    let key ← k.dumps options
    let part ← v.dumps options
    let parts ← dumpsPairs options rest
    .ok ((key ++ lit ": " ++ part) :: parts)
end

def Mapping.dumps (m : Mapping) (options : JsonOptions) : Except Exn Str :=
  (PyValue.dict m).dumps options

end

-- ---------------------------------------------------------------------------
-- What can be encoded
-- ---------------------------------------------------------------------------

def PyKey.jsonable : PyKey → Bool
  | .object .. => false
  | .int n => convertible n
  | _ => true

mutual
/-- No container holds itself, no integer is too long, every key is one JSON
knows and, without a default, so is every value. -/
def PyValue.jsonable (options : JsonOptions) : PyValue → Bool
  | .none | .bool _ | .float _ | .str _ => true
  | .int n => convertible n
  | .list items | .tuple items => jsonableItems options items
  | .dict items => jsonablePairs options items
  | .cycle => false
  | .bytes _ => options.defaultStr
  | .toolCall _ _ _ _ items | .toolSpec _ _ items => options.defaultStr && printablePairs items
  | .object _ _ text => options.defaultStr && text.isOk
def jsonableItems (options : JsonOptions) : List PyValue → Bool
  | [] => true
  | v :: rest => v.jsonable options && jsonableItems options rest
def jsonablePairs (options : JsonOptions) : Mapping → Bool
  | [] => true
  | (k, v) :: rest => k.jsonable && v.jsonable options && jsonablePairs options rest
end

section
variable [Printing] {options : JsonOptions}

theorem PyKey.dumps_returns {k : PyKey} : Returns (k.dumps options) ↔ k.jsonable = true := by
  cases k with
  | object ident typeName => exact iff_of_false nofun nofun
  | int n => exact (returns_bind_of fun _ => ⟨_, rfl⟩).trans intText_returns
  | _ => exact iff_of_true ⟨_, rfl⟩ rfl

omit [Printing] in
theorem dumpsOther_returns {typeName : Str} {text : Except Exn Str} :
    Returns (dumpsOther options typeName text) ↔ options.defaultStr = true ∧ Returns text := by
  unfold dumpsOther
  split
  · rename_i h
    rw [returns_bind_of fun _ => ⟨_, rfl⟩, and_iff_right h]
  · rename_i h
    exact iff_of_false nofun fun hd => h hd.1

mutual
theorem PyValue.dumps_returns : (v : PyValue) →
    (Returns (v.dumps options) ↔ v.jsonable options = true)
  | .none | .bool _ | .float _ | .str _ => iff_of_true ⟨_, rfl⟩ rfl
  | .int _ => intText_returns
  | .list items | .tuple items => by
    rw [PyValue.dumps, PyValue.jsonable, returns_bind_of fun _ => ⟨_, rfl⟩]
    exact dumpsItems_returns items
  | .dict items => by
    rw [PyValue.dumps, PyValue.jsonable, returns_bind_of fun _ => ⟨_, rfl⟩]
    exact dumpsPairs_returns items
  | .cycle => iff_of_false nofun nofun
  | .bytes _ => dumpsOther_returns.trans (and_iff_left ⟨_, rfl⟩)
  | .toolCall .. | .toolSpec .. => by
    rw [PyValue.dumps, dumpsOther_returns, PyValue.text_returns, PyValue.jsonable, Bool.and_eq_true]
    rfl
  | .object .. => by
    rw [PyValue.dumps, dumpsOther_returns, returns_iff_isOk, PyValue.jsonable, Bool.and_eq_true]
theorem dumpsItems_returns : (items : List PyValue) →
    (Returns (dumpsItems options items) ↔ jsonableItems options items = true)
  | [] => iff_of_true ⟨_, rfl⟩ rfl
  | v :: rest => by
    rw [dumpsItems, jsonableItems, Bool.and_eq_true, ← PyValue.dumps_returns v,
      ← dumpsItems_returns rest]
    exact returns_bind_and fun _ => returns_bind_of fun _ => ⟨_, rfl⟩
theorem dumpsPairs_returns : (items : Mapping) →
    (Returns (dumpsPairs options items) ↔ jsonablePairs options items = true)
  | [] => iff_of_true ⟨_, rfl⟩ rfl
  | (k, v) :: rest => by
    rw [dumpsPairs, jsonablePairs, Bool.and_eq_true, Bool.and_eq_true, and_assoc,
      ← @PyKey.dumps_returns _ options k, ← PyValue.dumps_returns v,
      ← dumpsPairs_returns rest]
    exact returns_bind_and fun _ => returns_bind_and fun _ => returns_bind_of fun _ => ⟨_, rfl⟩
end

theorem Mapping.dumps_returns {m : Mapping} :
    Returns (m.dumps options) ↔ jsonablePairs options m = true :=
  PyValue.dumps_returns (.dict m)

end

-- ---------------------------------------------------------------------------
-- What stands in the way
-- ---------------------------------------------------------------------------

inductive JsonFault
  | typeError
  | valueError
  deriving DecidableEq

def JsonFault.cls : JsonFault → ExnClass
  | .typeError => .typeError
  | .valueError => .valueError

def PyKey.obstacle : PyKey → Option JsonFault
  | .object .. => some .typeError
  | .int n => if convertible n then Option.none else some .valueError
  | _ => Option.none

mutual
/-- The class of what `json.dumps(v)` raises: that of the first part it does
not take. -/
def PyValue.obstacle : PyValue → Option JsonFault
  | .none | .bool _ | .float _ | .str _ => Option.none
  | .int n => if convertible n then Option.none else some .valueError
  | .list items | .tuple items => obstacleItems items
  | .dict items => obstaclePairs items
  | .cycle => some .valueError
  | .bytes _ | .toolCall .. | .toolSpec .. | .object .. => some .typeError
def obstacleItems : List PyValue → Option JsonFault
  | [] => none
  | v :: rest => v.obstacle <|> obstacleItems rest
def obstaclePairs : Mapping → Option JsonFault
  | [] => none
  | (k, v) :: rest => k.obstacle <|> v.obstacle <|> obstaclePairs rest
end

def Meets (obstacle : Option JsonFault) (m : Except Exn α) : Prop :=
  match obstacle with
  | none => Returns m
  | some fault => ∃ message, m = .error (.raised fault.cls message)

theorem Meets.bind {c d : Option JsonFault} {m : Except Exn α} {f : α → Except Exn β}
    (h : Meets c m) (hf : ∀ a, Meets d (f a)) : Meets (c <|> d) (m >>= f) := by
  cases c with
  | none =>
    obtain ⟨a, rfl⟩ : Returns m := h
    exact hf a
  | some fault =>
    obtain ⟨message, rfl⟩ := h
    exact ⟨message, rfl⟩

theorem Meets.bind_ok {c : Option JsonFault} {m : Except Exn α} {f : α → β} (h : Meets c m) :
    Meets c (m >>= fun a => .ok (f a)) := by
  cases c with
  | none =>
    obtain ⟨a, rfl⟩ : Returns m := h
    exact returns_ok (f a)
  | some fault =>
    obtain ⟨message, rfl⟩ := h
    exact ⟨message, rfl⟩

theorem intText_meets (n : Int) :
    Meets (if convertible n then none else some .valueError) (intText n) := by
  unfold intText
  split
  · exact returns_ok _
  · exact ⟨_, rfl⟩

section
variable [Printing]

theorem PyKey.dumps_meets (k : PyKey) : Meets k.obstacle (k.dumps .strict) := by
  cases k with
  | object ident typeName => exact ⟨_, rfl⟩
  | int n => exact (intText_meets n).bind_ok
  | _ => exact returns_ok _

mutual
theorem PyValue.dumps_meets : (v : PyValue) → Meets v.obstacle (v.dumps .strict)
  | .none | .bool _ | .float _ | .str _ => returns_ok _
  | .int n => intText_meets n
  | .list items | .tuple items => by
    rw [PyValue.dumps, PyValue.obstacle]
    exact (dumpsItems_meets items).bind_ok
  | .dict items => by
    rw [PyValue.dumps, PyValue.obstacle]
    exact (dumpsPairs_meets items).bind_ok
  | .cycle | .bytes _ | .toolCall .. | .toolSpec .. | .object .. => ⟨_, rfl⟩
theorem dumpsItems_meets : (items : List PyValue) →
    Meets (obstacleItems items) (dumpsItems .strict items)
  | [] => returns_ok _
  | v :: rest => by
    rw [dumpsItems, obstacleItems]
    exact v.dumps_meets.bind fun _ => (dumpsItems_meets rest).bind_ok
theorem dumpsPairs_meets : (items : Mapping) →
    Meets (obstaclePairs items) (dumpsPairs .strict items)
  | [] => returns_ok _
  | (k, v) :: rest => by
    rw [dumpsPairs, obstaclePairs]
    exact k.dumps_meets.bind fun _ => v.dumps_meets.bind fun _ => (dumpsPairs_meets rest).bind_ok
end

end

end Python
