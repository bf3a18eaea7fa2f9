import MellivorKernel.Python.Exception
import MellivorKernel.Python.Printing

/-!
# Permissions

`tools/permissions.py`: a permission is a string its constructor accepts.
-/

namespace MellivorKernel

open Python

def isLowercase (c : CodePoint) : Bool := 97 ≤ c.val && c.val ≤ 122

def isWord (c : CodePoint) : Bool :=
  isLowercase c || (48 ≤ c.val && c.val ≤ 57) || c = cp '_'

/-- Scans `[a-z][a-z0-9_]*(\.[a-z][a-z0-9_]*)+` from its start: `fresh` says
that a segment begins here, `dotted` that a dot has been passed. -/
def scanPermission : (fresh dotted : Bool) → Str → Bool
  | fresh, dotted, [] => !fresh && dotted
  | true, dotted, c :: rest => isLowercase c && scanPermission false dotted rest
  | false, dotted, c :: rest =>
    if c = cp '.' then scanPermission true true rest
    else isWord c && scanPermission false dotted rest

/-- `_PERMISSION_PATTERN.match(value)`: the final `$` also matches before a
newline that ends the string. -/
def permissionPattern (value : Str) : Bool :=
  scanPermission true false value ||
    (value.getLast? = some (cp '\n') && scanPermission true false value.dropLast)

structure Permission where
  value : Str
  matched : permissionPattern value = true
  deriving DecidableEq

@[ext] theorem Permission.ext {p q : Permission} (h : p.value = q.value) : p = q := by
  cases p; cases q; cases h; rfl

section
variable [Printing]

def Permission.new (value : Str) : Except Exn Permission :=
  if h : permissionPattern value = true then .ok ⟨value, h⟩
  else .error (.raised .toolValidationError
    (lit "Invalid permission " ++ pyRepr value ++
      lit "; expected a dotted, lowercase identifier such as 'filesystem.read'."))

theorem Permission.new_ok {value : Str} {p : Permission} :
    Permission.new value = .ok p ↔ p.value = value := by
  unfold Permission.new
  split
  · rename_i h
    constructor
    · intro he; cases he; rfl
    · intro he; exact congrArg Except.ok (Permission.ext he.symm)
  · rename_i h
    constructor
    · intro he; cases he
    · intro he; exact absurd (he ▸ p.matched) h

theorem Permission.new_error {value : Str} {e : Exn} (h : Permission.new value = .error e) :
    ∃ message, e = .raised .toolValidationError message ∧ blank message = false := by
  unfold Permission.new at h
  split at h
  · cases h
  · cases h
    exact ⟨_, rfl, by rw [List.append_assoc]; exact blank_append_left (by decide) _⟩

/-- `frozenset(Permission(value) for value in values)`, over the set's own
iteration order: the first malformed identifier raises. -/
def parsePermissions : List Str → Except Exn (List Permission)
  | [] => .ok []
  | value :: rest => do
    let p ← Permission.new value
    let ps ← parsePermissions rest
    .ok (p :: ps)

theorem parsePermissions_cons {value : Str} {rest : List Str} {ps : List Permission} :
    parsePermissions (value :: rest) = .ok ps ↔
      ∃ p qs, Permission.new value = .ok p ∧ parsePermissions rest = .ok qs ∧ ps = p :: qs := by
  simp only [parsePermissions]
  cases Permission.new value <;> cases parsePermissions rest <;>
    simp [bind, Except.bind, eq_comm]

theorem parsePermissions_ok {values : List Str} {ps : List Permission}
    (h : parsePermissions values = .ok ps) : ps.map Permission.value = values := by
  induction values generalizing ps with
  | nil => cases h; rfl
  | cons value rest ih =>
    obtain ⟨p, qs, hp, hqs, rfl⟩ := parsePermissions_cons.mp h
    rw [List.map_cons, ih hqs, Permission.new_ok.mp hp]

theorem parsePermissions_error {values : List Str} {e : Exn}
    (h : parsePermissions values = .error e) :
    ∃ message, e = .raised .toolValidationError message ∧ blank message = false := by
  induction values with
  | nil => cases h
  | cons value rest ih =>
    simp only [parsePermissions, bind, Except.bind] at h
    split at h
    · rename_i hv
      cases h
      exact Permission.new_error hv
    · split at h
      · rename_i hr
        cases h
        exact ih hr
      · cases h

/-- A malformed identifier anywhere makes the whole set unparseable. -/
theorem parsePermissions_malformed {values : List Str} {value : Str} (hm : value ∈ values)
    (hv : permissionPattern value = false) : ∃ e, parsePermissions values = .error e := by
  cases h : parsePermissions values with
  | error e => exact ⟨e, rfl⟩
  | ok ps =>
    rw [← parsePermissions_ok h] at hm
    obtain ⟨p, -, rfl⟩ := List.mem_map.mp hm
    rw [p.matched] at hv
    cases hv

end

/-- `required - granted`. -/
def missingPermissions (required granted : List Permission) : List Permission :=
  required.filter (· ∉ granted)

theorem missingPermissions_nil {required granted : List Permission} :
    missingPermissions required granted = [] ↔ ∀ p ∈ required, p ∈ granted := by
  simp [missingPermissions, List.filter_eq_nil_iff]

/-- `", ".join(sorted(permission.value for permission in missing))`. -/
def permissionNames (missing : List Permission) : List Str := sorted (missing.map Permission.value)

example : permissionPattern (lit "filesystem.read") = true ∧ permissionPattern (lit "read") = false ∧
    permissionPattern (lit "a.b\n") = true := by decide

end MellivorKernel
