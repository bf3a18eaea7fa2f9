import MellivorKernel.Plugins.Versioning
import MellivorKernel.Python.Value

/-!
# Plugin manifests

`PluginCapability`, `PluginManifest` and `is_valid_manifest`. The constructors
take whatever a JSON document has for a field; the checks they make, and what
the checks raise for a value that is no string, are theirs.
-/

namespace MellivorKernel

open Python Foundation

/-- `type(value).__name__` -/
def typeName : PyValue → Str
  | .none => lit "NoneType"
  | .bool _ => lit "bool"
  | .int _ => lit "int"
  | .float _ => lit "float"
  | .str _ => lit "str"
  | .bytes _ => lit "bytes"
  | .list _ | .cycle => lit "list"
  | .tuple _ => lit "tuple"
  | .dict _ => lit "dict"
  | .toolCall .. => lit "ToolCall"
  | .toolSpec .. => lit "ToolSpec"
  | .object _ typeName _ => typeName

/-- `value.strip()` where a JSON document has no string. -/
def noStrip (value : PyValue) : Exn :=
  .raised .attributeError (lit "'" ++ typeName value ++ lit "' object has no attribute 'strip'")

/-- `if not value.strip(): raise PluginValidationError(message)` -/
def checkText (message : String) : PyValue → Except Exn {text : Str // blank text = false}
  | .str text =>
    if h : blank text = true then .error (.raised .pluginValidationError (lit message))
    else .ok ⟨text, Bool.eq_false_of_not_eq_true h⟩
  | value => .error (noStrip value)

structure PluginCapability where
  name : Str
  description : PyValue
  name_ok : blank name = false

def PluginCapability.new (name description : PyValue) : Except Exn PluginCapability := do
  let name ← checkText "PluginCapability.name must not be blank." name
  .ok ⟨name, description, name.property⟩

/-- Whether `hash(value)` raises for a value of a JSON document. -/
def unhashable : PyValue → Bool
  | .list _ | .dict _ => true
  | _ => false

/-- `hash(capability)`, which hashes the description. -/
def PluginCapability.hash (capability : PluginCapability) : Except Exn PluginCapability :=
  if unhashable capability.description then
    .error (.raised .typeError
      (lit "unhashable type: '" ++ typeName capability.description ++ lit "'"))
  else .ok capability

/-- `frozenset(capabilities)`, as the list of what is put in: only membership
is meant. -/
def frozensetOf (capabilities : List PluginCapability) : Except Exn (List PluginCapability) :=
  capabilities.mapM PluginCapability.hash

theorem frozensetOf_hashable {capabilities : List PluginCapability}
    (h : ∀ capability ∈ capabilities, unhashable capability.description = false) :
    frozensetOf capabilities = .ok capabilities := by
  rw [frozensetOf, mapM_eq_ok]
  refine List.map_congr_left fun capability hcapability => ?_
  rw [PluginCapability.hash, h capability hcapability]
  rfl

def Parsed (text : Str) : Prop := ∃ version, Denotes text version ∧ ¬ Unreadable text

structure PluginManifest where
  id : Str
  name : Str
  version : Str
  description : PyValue
  author : Str
  capabilities : List PluginCapability
  minimumKernelVersion : Str
  id_ok : blank id = false
  name_ok : blank name = false
  author_ok : blank author = false
  version_ok : Parsed version
  minimum_ok : Parsed minimumKernelVersion

theorem Parsed.notBlank {text : Str} (h : Parsed text) : blank text = false := by
  obtain ⟨version, ⟨major, minor, patch, a, b, c, htext, -⟩, -⟩ := h
  rw [Bool.eq_false_iff]
  intro hblank
  rw [strip_eq_nil.mpr hblank] at htext
  simp at htext

section
variable [Printing]

theorem parsed_of_eq_ok {text : Str} {fieldName : String} {version : Version}
    (h : parseVersion text fieldName = .ok version) : Parsed text := ⟨version, parseVersion_eq_ok.mp h⟩

def checkVersion (fieldName : String) : PyValue → Except Exn {text : Str // Parsed text}
  | .str text =>
    match h : parseVersion text fieldName with
    | .ok _ => .ok ⟨text, parsed_of_eq_ok h⟩
    | .error exc => .error exc
  | value => .error (noStrip value)

def PluginManifest.new (id name version description author : PyValue)
    (capabilities : List PluginCapability) (minimumKernelVersion : PyValue) :
    Except Exn PluginManifest := do
  let id ← checkText "PluginManifest.id must not be blank." id
  let name ← checkText "PluginManifest.name must not be blank." name
  let author ← checkText "PluginManifest.author must not be blank." author
  let version ← checkVersion "PluginManifest.version" version
  let minimum ← checkVersion "PluginManifest.minimum_kernel_version" minimumKernelVersion
  .ok {
    id := id
    name := name
    version := version
    description := description
    author := author
    capabilities := capabilities
    minimumKernelVersion := minimum
    id_ok := id.property
    name_ok := name.property
    author_ok := author.property
    version_ok := version.property
    minimum_ok := minimum.property }

end

-- ---------------------------------------------------------------------------
-- What the checks raise
-- ---------------------------------------------------------------------------

/-- A kind of exceptions with the ones for invalid fields and without those of
calls that were not meant to fail. -/
structure Refusal (P : Exn → Prop) : Prop where
  invalid : ∀ message, P (.raised .pluginValidationError message)
  noAttribute : ∀ message, ¬ P (.raised .attributeError message)
  noValue : ∀ message, ¬ P (.raised .valueError message)
  noType : ∀ message, ¬ P (.raised .typeError message)

inductive FieldCheck
  | text | version

def FieldCheck.Good : FieldCheck → PyValue → Prop
  | .text, value => ∃ text, value = .str text ∧ blank text = false
  | .version, value => ∃ text, value = .str text ∧ Parsed text

/-- The check itself fails: the value is no string, or a version that `int`
refuses. -/
def FieldCheck.Slips : FieldCheck → PyValue → Prop
  | .text, value => ∀ text, value ≠ .str text
  | .version, value => ∀ text, value = .str text → Unreadable text

section
variable {P : Exn → Prop} (hP : Refusal P)
include hP

theorem checkText_raises_iff {message : String} {value : PyValue} :
    RaisesOnly P (checkText message value) ↔ ¬ FieldCheck.text.Slips value := by
  cases value with
  | str text =>
    have hcontained : RaisesOnly P (checkText message (.str text)) := by
      rw [checkText]
      split <;> simp [hP.invalid]
    exact iff_of_true hcontained (by simp [FieldCheck.Slips])
  | _ => simp [checkText, noStrip, hP.noAttribute, FieldCheck.Slips]

theorem checkVersion_raises_iff [Printing] {fieldName : String} {value : PyValue} :
    RaisesOnly P (checkVersion fieldName value) ↔ ¬ FieldCheck.version.Slips value := by
  cases value with
  | str text =>
    simp only [FieldCheck.Slips, PyValue.str.injEq, forall_eq']
    rw [checkVersion]
    split
    · rename_i h
      exact iff_of_true (raisesOnly_ok _) (parseVersion_eq_ok.mp h).2
    · rename_i exc h
      rw [raisesOnly_error]
      by_cases hread : Unreadable text
      · obtain ⟨message, hm⟩ := parseVersion_unreadable fieldName hread
        cases h.symm.trans hm
        exact iff_of_false (hP.noValue message) (not_not_intro hread)
      · rcases parseVersion_readable fieldName hread with ⟨_, hdenotes⟩ | ⟨_, hm⟩
        · cases h.symm.trans (parseVersion_of_denotes hdenotes hread)
        · cases h.symm.trans hm
          exact iff_of_true (hP.invalid _) hread
  | _ => simp [checkVersion, noStrip, hP.noAttribute, FieldCheck.Slips]

end

theorem checkText_eq_ok {message : String} {value : PyValue} {text : {t : Str // blank t = false}} :
    checkText message value = .ok text ↔ value = .str text := by
  obtain ⟨text, hblank⟩ := text
  cases value with
  | str text' =>
    rw [checkText]
    split
    · rename_i h
      refine iff_of_false (by simp) ?_
      rintro ⟨rfl⟩
      rw [hblank] at h
      cases h
    · simp
  | _ => simp [checkText]

theorem checkVersion_eq_ok [Printing] {fieldName : String} {value : PyValue}
    {text : {t : Str // Parsed t}} : checkVersion fieldName value = .ok text ↔ value = .str text := by
  obtain ⟨text, hparsed⟩ := text
  cases value with
  | str text' =>
    rw [checkVersion]
    split
    · simp
    · rename_i exc h
      refine iff_of_false (by simp) ?_
      rintro ⟨rfl⟩
      obtain ⟨version, hversion⟩ := hparsed
      cases h.symm.trans (parseVersion_eq_ok.mpr hversion)
  | _ => simp [checkVersion]

theorem checkText_returns {message : String} {value : PyValue} :
    Returns (checkText message value) ↔ FieldCheck.text.Good value := by
  simp only [Returns, checkText_eq_ok, FieldCheck.Good, Subtype.exists, exists_prop]
  exact ⟨fun ⟨text, hblank, h⟩ => ⟨text, h, hblank⟩, fun ⟨text, h, hblank⟩ => ⟨text, hblank, h⟩⟩

theorem checkVersion_returns [Printing] {fieldName : String} {value : PyValue} :
    Returns (checkVersion fieldName value) ↔ FieldCheck.version.Good value := by
  simp only [Returns, checkVersion_eq_ok, FieldCheck.Good, Subtype.exists, exists_prop]
  exact ⟨fun ⟨text, hparsed, h⟩ => ⟨text, h, hparsed⟩, fun ⟨text, h, hparsed⟩ => ⟨text, hparsed, h⟩⟩

section
variable [Printing] {id name version description author minimum : PyValue}
  {capabilities : List PluginCapability}

theorem PluginManifest.new_raises_iff {P : Exn → Prop} (hP : Refusal P) :
    RaisesOnly P (PluginManifest.new id name version description author capabilities minimum) ↔
      ¬ Reaches (fun field => FieldCheck.Good field.1 field.2)
        (fun field => FieldCheck.Slips field.1 field.2)
        [(.text, id), (.text, name), (.text, author), (.version, version), (.version, minimum)] := by
  rw [PluginManifest.new]
  simp only [reaches_cons, not_reaches_nil, and_false, or_false, not_or, not_and]
  refine raisesOnly_check (checkText_raises_iff hP) checkText_returns fun _ => ?_
  refine raisesOnly_check (checkText_raises_iff hP) checkText_returns fun _ => ?_
  refine raisesOnly_check (checkText_raises_iff hP) checkText_returns fun _ => ?_
  refine raisesOnly_check (checkVersion_raises_iff hP) checkVersion_returns fun _ => ?_
  exact (raisesOnly_bind_of fun _ => raisesOnly_ok _).trans (checkVersion_raises_iff hP)

theorem PluginManifest.new_declared {manifest : PluginManifest}
    (h : PluginManifest.new id name version description author capabilities minimum =
      .ok manifest) :
    id = .str manifest.id ∧ name = .str manifest.name ∧ author = .str manifest.author ∧
      version = .str manifest.version ∧ capabilities = manifest.capabilities := by
  simp only [PluginManifest.new, bind_eq_ok, checkText_eq_ok, checkVersion_eq_ok] at h
  obtain ⟨id, hid, name, hname, author, hauthor, version, hversion, minimum, -, h⟩ := h
  cases h
  exact ⟨hid, hname, hauthor, hversion, rfl⟩

end

-- ---------------------------------------------------------------------------
-- Fields of the declared types
-- ---------------------------------------------------------------------------

structure ManifestFields where
  id : Str
  name : Str
  version : Str
  author : Str
  description : Str
  capabilities : List PluginCapability
  minimumKernelVersion : Str
  described : ∀ capability ∈ capabilities, ∃ text, capability.description = .str text

section
variable [Printing]

def isValidManifest (fields : ManifestFields) : Except Exn Bool :=
  let manifest := do
    let capabilities ← frozensetOf fields.capabilities
    PluginManifest.new (.str fields.id) (.str fields.name) (.str fields.version)
      (.str fields.description) (.str fields.author) capabilities
      (.str fields.minimumKernelVersion)
  match manifest with
  | .ok _ => .ok true
  | .error exc => if exc.isA .pluginValidationError then .ok false else .error exc

omit [Printing] in
theorem refusal_invalid : Refusal fun exc => exc.isA .pluginValidationError = true where
  invalid _ := (by decide : ExnClass.isA .pluginValidationError .pluginValidationError = true)
  noAttribute _ := (by decide : ExnClass.isA .attributeError .pluginValidationError ≠ true)
  noValue _ := (by decide : ExnClass.isA .valueError .pluginValidationError ≠ true)
  noType _ := (by decide : ExnClass.isA .typeError .pluginValidationError ≠ true)

theorem isValidManifest_returns_iff (fields : ManifestFields) :
    Returns (isValidManifest fields) ↔ ¬ (blank fields.id = false ∧ blank fields.name = false ∧
      blank fields.author = false ∧ (Unreadable fields.version ∨
        Parsed fields.version ∧ Unreadable fields.minimumKernelVersion)) := by
  have hreturns {m : Except Exn PluginManifest} : Returns (match m with
      | .ok _ => .ok true
      | .error exc => if exc.isA .pluginValidationError then .ok false else .error exc) ↔
      RaisesOnly (fun exc => exc.isA .pluginValidationError = true) m := by
    cases m with
    | ok manifest => simp [returns_ok]
    | error exc =>
      by_cases h : exc.isA .pluginValidationError = true <;>
        simp [h, returns_ok, not_returns_error]
  unfold isValidManifest
  have hhashable : ∀ capability ∈ fields.capabilities,
      unhashable capability.description = false := by
    intro capability hcapability
    obtain ⟨text, htext⟩ := fields.described capability hcapability
    rw [htext]
    rfl
  rw [frozensetOf_hashable hhashable]
  refine hreturns.trans ((PluginManifest.new_raises_iff refusal_invalid).trans (not_congr ?_))
  simp [reaches_cons, not_reaches_nil, FieldCheck.Good, FieldCheck.Slips]

end

end MellivorKernel
