import MellivorKernel.Plugins.Manifest
import MellivorKernel.Python.JsonErrors
import MellivorKernel.Python.Utf8

/-!
# Manifest files

`read_manifest_file`. Limits of the interpreter other than the one on digits
are left out. What comes out of it that should not is characterised by the
document (`manifest_contained_iff`).
-/

namespace MellivorKernel

open Python Foundation

/-- A path, and what is there: no file, or what reading it comes to, which is
its bytes or the text of an `OSError`. -/
structure ManifestFile where
  path : Str
  content : Option (Except Str (List UInt8))

def manifestParseError (message : Str) : Exn := .raised .manifestParseError message

def requiredFields : List String := ["id", "name", "version", "author"]

def parseCapability (path : Str) (entry : PyValue) : Except Exn PluginCapability :=
  match entry.mapping? with
  | none => .error (manifestParseError
      (path ++ lit ": each entry in 'capabilities' must be an object with a 'name' field."))
  | some entry =>
    match entry.get? "name" with
    | none => .error (manifestParseError
        (path ++ lit ": each entry in 'capabilities' must be an object with a 'name' field."))
    | some name => PluginCapability.new name ((entry.get? "description").getD (.str []))

def loadDocument (path : Str) (content : List UInt8) : Except Exn PyValue := do
  let rawText ← readText content
  match loads rawText with
  | .ok data => .ok data
  | .error exc =>
    if exc.isA .jsonDecodeError then
      .error (manifestParseError (path ++ lit " is not valid JSON: " ++ exc.text))
    else .error exc

def checkDocument (path : Str) (data : PyValue) : Except Exn (Mapping × Str × List PyValue) :=
  match data.mapping? with
  | none => .error (manifestParseError (path ++ lit " must contain a JSON object at the top level."))
  | some data =>
    let missing := requiredFields.filter fun field => (data.get? field).isNone
    if missing ≠ [] then
      .error (manifestParseError (path ++ lit " is missing required field(s): " ++
        join (lit ", ") (missing.map lit) ++ lit "."))
    else
      match ((data.get? "entry_point").bind PyValue.str?).filter (!blank ·) with
      | none => .error (manifestParseError
          (path ++ lit " is missing a non-empty 'entry_point' string."))
      | some entryPoint =>
        match (data.get? "capabilities").getD (.list []) with
        | .list capabilities => .ok (data, entryPoint, capabilities)
        | _ => .error (manifestParseError (path ++ lit ": 'capabilities' must be a list."))

section
variable [Printing]

def buildManifest (path : Str) (data : Mapping) (capabilities : List PyValue) :
    Except Exn PluginManifest := do
  let capabilities ← capabilities.mapM (parseCapability path)
  let capabilities ← frozensetOf capabilities
  PluginManifest.new ((data.get? "id").getD .none) ((data.get? "name").getD .none)
    ((data.get? "version").getD .none) ((data.get? "description").getD (.str []))
    ((data.get? "author").getD .none) capabilities
    ((data.get? "minimum_kernel_version").getD (.str (lit "0.0.0")))

def readManifestFile (file : ManifestFile) : Except Exn (PluginManifest × Str) :=
  match file.content with
  | none => .error (.raised .manifestNotFoundError
      (lit "No manifest file found at " ++ file.path ++ lit "."))
  | some (.error text) =>
    .error (manifestParseError (lit "Could not read " ++ file.path ++ lit ": " ++ text))
  | some (.ok content) => do
    let data ← loadDocument file.path content
    let (data, entryPoint, capabilities) ← checkDocument file.path data
    let manifest ← buildManifest file.path data capabilities
    .ok (manifest, entryPoint)

end

-- ---------------------------------------------------------------------------
-- What a document declares
-- ---------------------------------------------------------------------------

/-- The content is this document, and has what the file is checked for. -/
structure Documents (content : List UInt8) (data : Mapping) (entryPoint : Str)
    (entries : List PyValue) : Prop where
  read : ∃ text, readText content = .ok text ∧ loads text = .ok (.dict data)
  required : ∀ field ∈ requiredFields, (data.get? field).isSome = true
  entry : data.get? "entry_point" = some (.str entryPoint)
  notBlank : blank entryPoint = false
  capabilities : (data.get? "capabilities").getD (.list []) = .list entries

def descriptionOf (entry : PyValue) : PyValue :=
  (entry.mapping?.bind fun fields : Mapping => fields.get? "description").getD (.str [])

def Declares (entry : PyValue) (capability : PluginCapability) : Prop :=
  ∃ fields : Mapping, entry = .dict fields ∧ fields.get? "name" = some (.str capability.name) ∧
    descriptionOf entry = capability.description

/-- The manifest has the fields of the document, none of which is blank, and
its capabilities. -/
structure Declared (content : List UInt8) (manifest : PluginManifest) (entryPoint : Str) : Prop where
  document : ∃ data entries, Documents content data entryPoint entries ∧
    data.get? "id" = some (.str manifest.id) ∧ data.get? "name" = some (.str manifest.name) ∧
    data.get? "version" = some (.str manifest.version) ∧
    data.get? "author" = some (.str manifest.author) ∧
    List.Forall₂ Declares entries manifest.capabilities
  notBlank : blank manifest.id = false ∧ blank manifest.name = false ∧
    blank manifest.version = false ∧ blank manifest.author = false ∧ blank entryPoint = false

def Contained (exc : Exn) : Prop :=
  exc.isA .manifestParseError = true ∨ exc.isA .pluginValidationError = true

instance (exc : Exn) : Decidable (Contained exc) := inferInstanceAs (Decidable (_ ∨ _))

/-- Reading the file gives what it declares, or raises one of the two errors. -/
def StaysInside [Printing] (file : ManifestFile) (content : List UInt8) : Prop :=
  (∀ manifest entryPoint, readManifestFile file = .ok (manifest, entryPoint) →
    Declared content manifest entryPoint) ∧
  ∀ exc, readManifestFile file = .error exc → Contained exc

-- ---------------------------------------------------------------------------
-- What escapes
-- ---------------------------------------------------------------------------

/-- An entry whose name can be checked, and is good. -/
def WellNamed (entry : PyValue) : Prop :=
  ∃ (fields : Mapping) (name : Str), entry = .dict fields ∧
    fields.get? "name" = some (.str name) ∧ blank name = false

def Misnamed (entry : PyValue) : Prop :=
  ∃ (fields : Mapping) (name : PyValue), entry = .dict fields ∧ fields.get? "name" = some name ∧
    ∀ text, name ≠ .str text

def manifestFields (data : Mapping) : List (FieldCheck × PyValue) :=
  [(.text, (data.get? "id").getD .none), (.text, (data.get? "name").getD .none),
    (.text, (data.get? "author").getD .none), (.version, (data.get? "version").getD .none),
    (.version, (data.get? "minimum_kernel_version").getD (.str (lit "0.0.0")))]

/-- The first value that is not good, in the order they are looked at, is one
that cannot be checked. -/
inductive Slip (data : Mapping) (entries : List PyValue) : Prop
  | name (h : Reaches WellNamed Misnamed entries)
  | description (h : ∀ entry ∈ entries, WellNamed entry) {entry : PyValue} (hentry : entry ∈ entries)
      (hdescription : unhashable (descriptionOf entry) = true)
  | field (h : ∀ entry ∈ entries, WellNamed entry ∧ unhashable (descriptionOf entry) = false)
      (hfield : Reaches (fun field => FieldCheck.Good field.1 field.2)
        (fun field => FieldCheck.Slips field.1 field.2) (manifestFields data))

inductive Escapes (content : List UInt8) : Prop
  | encoding (h : ¬ Returns (readText content))
  | number {text : Str} {exc : Exn} (htext : readText content = .ok text)
      (h : loads text = .error exc) (hexc : exc.isA .jsonDecodeError = false)
  | slip {data : Mapping} {entryPoint : Str} {entries : List PyValue}
      (h : Documents content data entryPoint entries) (hslip : Slip data entries)

theorem refusal_contained : Refusal Contained where
  invalid _ := .inr (by decide : ExnClass.isA .pluginValidationError .pluginValidationError = true)
  noAttribute _ := by
    rintro (h | h)
    · exact absurd h (by decide : ExnClass.isA .attributeError .manifestParseError ≠ true)
    · exact absurd h (by decide : ExnClass.isA .attributeError .pluginValidationError ≠ true)
  noValue _ := by
    rintro (h | h)
    · exact absurd h (by decide : ExnClass.isA .valueError .manifestParseError ≠ true)
    · exact absurd h (by decide : ExnClass.isA .valueError .pluginValidationError ≠ true)
  noType _ := by
    rintro (h | h)
    · exact absurd h (by decide : ExnClass.isA .typeError .manifestParseError ≠ true)
    · exact absurd h (by decide : ExnClass.isA .typeError .pluginValidationError ≠ true)

theorem contained_manifestParseError (message : Str) : Contained (manifestParseError message) :=
  .inl (by decide : ExnClass.isA .manifestParseError .manifestParseError = true)

theorem not_contained_of_valueError {exc : Exn} (h : exc.isA .valueError = true) :
    ¬ Contained exc := by
  have hclass (c : ExnClass) : c.isA .valueError = true →
      c.isA .manifestParseError = false ∧ c.isA .pluginValidationError = false := by
    induction c with
    | foreign name base ih =>
      simpa [ExnClass.isA_foreign] using ih
    | _ => decide
  cases exc with
  | raised cls message =>
    rintro (hc | hc)
    · simp [(hclass cls h).1] at hc
    · simp [(hclass cls h).2] at hc
  | group message members => cases h

theorem parseCapability_cases (path : Str) (entry : PyValue) :
    ((∀ fields : Mapping, entry = .dict fields → fields.get? "name" = none) ∧
      ∃ message, parseCapability path entry = .error (manifestParseError message)) ∨
    ∃ (fields : Mapping) (name : PyValue), entry = .dict fields ∧ fields.get? "name" = some name ∧
      parseCapability path entry = PluginCapability.new name (descriptionOf entry) := by
  cases entry with
  | dict fields =>
    cases hname : Mapping.get? fields "name" with
    | none =>
      refine .inl ⟨?_, ?_⟩
      · rintro _ ⟨rfl⟩
        exact hname
      · simp only [parseCapability, PyValue.mapping?, hname]
        exact ⟨_, rfl⟩
    | some name =>
      exact .inr ⟨fields, name, rfl, hname, by simp only [parseCapability, PyValue.mapping?, hname,
        descriptionOf, Option.bind_some]⟩
  | _ => exact .inl ⟨by simp, _, rfl⟩

theorem parseCapability_raises_iff {path : Str} {entry : PyValue} :
    RaisesOnly Contained (parseCapability path entry) ↔ ¬ Misnamed entry := by
  rcases parseCapability_cases path entry with ⟨hnone, _, hparse⟩ | ⟨fields, name, rfl, hname, hparse⟩
  · rw [hparse]
    refine iff_of_true (raisesOnly_error.mpr (contained_manifestParseError _)) ?_
    rintro ⟨fields, _, heq, hsome, -⟩
    rw [hnone fields heq] at hsome
    cases hsome
  · rw [hparse, PluginCapability.new, raisesOnly_bind_of fun _ => raisesOnly_ok _,
      checkText_raises_iff refusal_contained]
    simp [FieldCheck.Slips, Misnamed, hname]

theorem parseCapability_eq_ok {path : Str} {entry : PyValue} {capability : PluginCapability} :
    parseCapability path entry = .ok capability ↔ Declares entry capability := by
  rcases parseCapability_cases path entry with ⟨hnone, _, hparse⟩ | ⟨fields, name, rfl, hname, hparse⟩
  · rw [hparse]
    refine iff_of_false (by simp) ?_
    rintro ⟨fields, heq, hsome, -⟩
    rw [hnone fields heq] at hsome
    cases hsome
  · rw [hparse, PluginCapability.new, bind_eq_ok]
    simp only [checkText_eq_ok]
    constructor
    · rintro ⟨text, rfl, h⟩
      cases h
      exact ⟨fields, rfl, hname, rfl⟩
    · rintro ⟨_, ⟨rfl⟩, hname', hdescription⟩
      cases hname.symm.trans hname'
      exact ⟨⟨capability.name, capability.name_ok⟩, rfl, by rw [hdescription]⟩

theorem parseCapability_returns {path : Str} {entry : PyValue} :
    Returns (parseCapability path entry) ↔ WellNamed entry := by
  simp only [Returns, parseCapability_eq_ok]
  constructor
  · rintro ⟨capability, fields, rfl, hname, -⟩
    exact ⟨fields, capability.name, rfl, hname, capability.name_ok⟩
  · rintro ⟨fields, name, rfl, hname, hblank⟩
    exact ⟨⟨name, _, hblank⟩, fields, rfl, hname, rfl⟩

theorem frozensetOf_raises_iff {capabilities : List PluginCapability} :
    RaisesOnly Contained (frozensetOf capabilities) ↔
      ∀ capability ∈ capabilities, unhashable capability.description = false := by
  induction capabilities with
  | nil => exact iff_of_true (raisesOnly_ok _) (by simp)
  | cons capability rest ih =>
    rw [frozensetOf, raisesOnly_mapM_cons, List.forall_mem_cons, ← ih, PluginCapability.hash]
    cases unhashable capability.description with
    | true => simp [refusal_contained.noType]
    | false => simp [returns_ok, frozensetOf]

theorem frozensetOf_eq_ok {capabilities found : List PluginCapability}
    (h : frozensetOf capabilities = .ok found) : found = capabilities := by
  rw [frozensetOf, mapM_eq_ok] at h
  induction capabilities generalizing found with
  | nil =>
    cases found with
    | nil => rfl
    | cons => cases h
  | cons capability rest ih =>
    cases found with
    | nil => cases h
    | cons first found =>
      obtain ⟨hfirst, hrest⟩ := List.cons.inj h
      rw [PluginCapability.hash] at hfirst
      split at hfirst
      · cases hfirst
      · cases hfirst
        rw [ih hrest]

-- ---------------------------------------------------------------------------
-- The phases of a reading
-- ---------------------------------------------------------------------------

theorem forall_description {entries : List PyValue} {capabilities : List PluginCapability}
    (h : List.Forall₂ Declares entries capabilities) :
    (∀ capability ∈ capabilities, unhashable capability.description = false) ↔
      ∀ entry ∈ entries, unhashable (descriptionOf entry) = false := by
  induction h with
  | nil => simp
  | cons hentry _ ih =>
    obtain ⟨_, _, _, hdescription⟩ := hentry
    rw [List.forall_mem_cons, List.forall_mem_cons, ih, hdescription]

theorem mapM_parseCapability {path : Str} {entries : List PyValue}
    {capabilities : List PluginCapability} :
    entries.mapM (parseCapability path) = .ok capabilities ↔
      List.Forall₂ Declares entries capabilities := by
  rw [mapM_eq_ok_iff_forall₂]
  simp only [parseCapability_eq_ok]

theorem exists_capabilities {entries : List PyValue} :
    (∃ capabilities, List.Forall₂ Declares entries capabilities) ↔
      ∀ entry ∈ entries, WellNamed entry := by
  simp only [← @mapM_parseCapability [], ← @parseCapability_returns []]
  exact returns_mapM

theorem buildManifest_raises_iff [Printing] {path : Str} {data : Mapping} {entries : List PyValue} :
    RaisesOnly Contained (buildManifest path data entries) ↔ ¬ Slip data entries := by
  rw [buildManifest, raisesOnly_bind, raisesOnly_mapM_iff (fun _ => parseCapability_raises_iff)
    fun _ => parseCapability_returns]
  simp only [mapM_parseCapability, raisesOnly_bind, frozensetOf_raises_iff,
    PluginManifest.new_raises_iff refusal_contained]
  constructor
  · rintro ⟨hname, hrest⟩ hslip
    cases hslip with
    | name h => exact hname h
    | description h hentry hdescription =>
      obtain ⟨capabilities, hcapabilities⟩ := exists_capabilities.mpr h
      have hhashable := (forall_description hcapabilities).mp (hrest _ hcapabilities).1 _ hentry
      rw [hdescription] at hhashable
      cases hhashable
    | field h hfield =>
      obtain ⟨capabilities, hcapabilities⟩ := exists_capabilities.mpr fun entry hentry =>
        (h entry hentry).1
      have hhashable := (forall_description hcapabilities).mpr fun entry hentry =>
        (h entry hentry).2
      exact (hrest _ hcapabilities).2 _ (frozensetOf_hashable hhashable) hfield
  · intro hslip
    refine ⟨fun h => hslip (.name h), fun capabilities hcapabilities => ?_⟩
    have hnamed := exists_capabilities.mp ⟨_, hcapabilities⟩
    have hhashable : ∀ entry ∈ entries, unhashable (descriptionOf entry) = false := by
      intro entry hentry
      by_contra hdescription
      exact hslip (.description hnamed hentry (by simpa using hdescription))
    refine ⟨(forall_description hcapabilities).mpr hhashable, fun _ _ hfield => ?_⟩
    exact hslip (.field (fun entry hentry => ⟨hnamed entry hentry, hhashable entry hentry⟩) hfield)

theorem checkDocument_eq_ok {path : Str} {value : PyValue} {data : Mapping} {entryPoint : Str}
    {entries : List PyValue} : checkDocument path value = .ok (data, entryPoint, entries) ↔
      value = .dict data ∧ (∀ field ∈ requiredFields, (data.get? field).isSome = true) ∧
        (data.get? "entry_point" = some (.str entryPoint) ∧ blank entryPoint = false) ∧
        (data.get? "capabilities").getD (.list []) = .list entries := by
  cases value with
  | dict data' =>
    have hmissing : requiredFields.filter (fun field => (Mapping.get? data' field).isNone) = [] ↔
        ∀ field ∈ requiredFields, (Mapping.get? data' field).isSome = true := by
      rw [List.filter_eq_nil_iff]
      refine forall₂_congr fun field _ => ?_
      cases Mapping.get? data' field <;> simp
    simp only [checkDocument, PyValue.mapping?, PyValue.dict.injEq]
    by_cases hrequired : ∀ field ∈ requiredFields, (Mapping.get? data' field).isSome = true
    · rw [if_neg (by simpa using hmissing.mpr hrequired)]
      have hentry (text : Str) :
          ((Mapping.get? data' "entry_point").bind PyValue.str?).filter (!blank ·) = some text ↔
            Mapping.get? data' "entry_point" = some (.str text) ∧ blank text = false := by
        simp [Option.filter_eq_some_iff, Option.bind_eq_some_iff]
      cases hfound : ((Mapping.get? data' "entry_point").bind PyValue.str?).filter (!blank ·) with
      | none =>
        refine iff_of_false (by simp) ?_
        rintro ⟨rfl, -, h, -⟩
        rw [(hentry entryPoint).mpr h] at hfound
        cases hfound
      | some text =>
        have htext := (hentry text).mp hfound
        simp only
        split
        · rename_i capabilities hcapabilities
          constructor
          · rintro ⟨rfl⟩
            exact ⟨rfl, hrequired, htext, hcapabilities⟩
          · rintro ⟨rfl, -, h, hentries⟩
            cases htext.1.symm.trans h.1
            cases hcapabilities.symm.trans hentries
            rfl
        · rename_i hnone
          refine iff_of_false (by simp) ?_
          rintro ⟨rfl, -, -, hentries⟩
          exact hnone _ hentries
    · rw [if_pos (mt hmissing.mp hrequired)]
      refine iff_of_false (by simp) ?_
      rintro ⟨rfl, h, -⟩
      exact hrequired h
  | _ => simp [checkDocument, PyValue.mapping?]

theorem checkDocument_raises (path : Str) (value : PyValue) :
    RaisesOnly Contained (checkDocument path value) := by
  have herror {message : Str} : RaisesOnly Contained
      (.error (manifestParseError message) : Except Exn (Mapping × Str × List PyValue)) :=
    raisesOnly_error.mpr (contained_manifestParseError message)
  unfold checkDocument
  split
  · exact herror
  · simp only
    split
    · exact herror
    · split
      · exact herror
      · split
        · exact raisesOnly_ok _
        · exact herror

theorem loadDocument_eq_ok {path : Str} {content : List UInt8} {value : PyValue} :
    loadDocument path content = .ok value ↔
      ∃ text, readText content = .ok text ∧ loads text = .ok value := by
  rw [loadDocument, bind_eq_ok]
  refine exists_congr fun text => and_congr_right fun _ => ?_
  cases loads text with
  | ok data => simp
  | error exc => by_cases h : exc.isA .jsonDecodeError = true <;> simp [h]

theorem loadDocument_raises_iff {path : Str} {content : List UInt8} :
    RaisesOnly Contained (loadDocument path content) ↔ Returns (readText content) ∧
      ∀ text exc, readText content = .ok text → loads text = .error exc →
        exc.isA .jsonDecodeError = true := by
  have hread : RaisesOnly Contained (readText content) ↔ Returns (readText content) := by
    have hraises := readText_raises content
    generalize readText content = decoded at hraises ⊢
    cases decoded with
    | ok text => exact iff_of_true (raisesOnly_ok _) (returns_ok _)
    | error exc =>
      obtain ⟨message, rfl⟩ := hraises _ rfl
      refine iff_of_false ?_ (not_returns_error _)
      rw [raisesOnly_error]
      exact not_contained_of_valueError
        (by decide : ExnClass.isA .unicodeDecodeError .valueError = true)
  rw [loadDocument, raisesOnly_bind, hread]
  refine and_congr_right fun _ => forall_congr' fun text => ?_
  cases hloads : loads text with
  | ok data => simp
  | error exc =>
    by_cases h : exc.isA .jsonDecodeError = true
    · simp [h, contained_manifestParseError]
    · have hescapes := not_contained_of_valueError (loads_raises hloads)
      simp [h, hescapes]

theorem documents_iff {path : Str} {content : List UInt8} {data : Mapping} {entryPoint : Str}
    {entries : List PyValue} : Documents content data entryPoint entries ↔
      ∃ value, loadDocument path content = .ok value ∧
        checkDocument path value = .ok (data, entryPoint, entries) := by
  simp only [loadDocument_eq_ok, checkDocument_eq_ok]
  constructor
  · rintro ⟨hread, hrequired, hentry, hblank, hcapabilities⟩
    exact ⟨_, hread, rfl, hrequired, ⟨hentry, hblank⟩, hcapabilities⟩
  · rintro ⟨_, hread, rfl, hrequired, ⟨hentry, hblank⟩, hcapabilities⟩
    exact ⟨hread, hrequired, hentry, hblank, hcapabilities⟩

section
variable [Printing] (path : Str) (content : List UInt8)

theorem readManifestFile_raises_iff :
    RaisesOnly Contained (readManifestFile ⟨path, some (.ok content)⟩) ↔ ¬ Escapes content := by
  simp only [readManifestFile]
  rw [raisesOnly_bind, loadDocument_raises_iff]
  simp only [raisesOnly_bind, checkDocument_raises, true_and, raisesOnly_ok, implies_true, and_true,
    buildManifest_raises_iff]
  constructor
  · rintro ⟨⟨hencoding, hnumber⟩, hslip⟩ hescapes
    cases hescapes with
    | encoding h => exact h hencoding
    | number htext h hexc =>
      rw [hnumber _ _ htext h] at hexc
      cases hexc
    | slip h hdocument =>
      obtain ⟨value, hvalue, hchecked⟩ := (@documents_iff path).mp h
      exact hslip value hvalue _ hchecked hdocument
  · intro h
    refine ⟨⟨?_, fun text exc htext hexc => ?_⟩, fun value hvalue checked hchecked hslip => ?_⟩
    · by_contra hencoding
      exact h (.encoding hencoding)
    · by_contra hnumber
      exact h (.number htext hexc (by simpa using hnumber))
    · exact h (.slip (documents_iff.mpr ⟨value, hvalue, hchecked⟩) hslip)

theorem readManifestFile_declared {manifest : PluginManifest} {entryPoint : Str}
    (h : readManifestFile ⟨path, some (.ok content)⟩ = .ok (manifest, entryPoint)) :
    Declared content manifest entryPoint := by
  simp only [readManifestFile, bind_eq_ok] at h
  obtain ⟨value, hvalue, ⟨data, entryPoint, entries⟩, hchecked, manifest, hmanifest, h⟩ := h
  cases h
  have hdocument := documents_iff.mpr ⟨value, hvalue, hchecked⟩
  have hrequired {field : String} (hmem : field ∈ requiredFields) {v : PyValue}
      (h : (data.get? field).getD .none = v) : data.get? field = some v := by
    obtain ⟨w, hw⟩ := Option.isSome_iff_exists.mp (hdocument.required field hmem)
    rw [hw] at h ⊢
    rw [← h]
    rfl
  simp only [buildManifest, bind_eq_ok] at hmanifest
  obtain ⟨capabilities, hcapabilities, found, hfound, hmanifest⟩ := hmanifest
  cases frozensetOf_eq_ok hfound
  obtain ⟨hid, hname, hauthor, hversion, rfl⟩ := PluginManifest.new_declared hmanifest
  refine ⟨⟨data, entries, hdocument, ?_, ?_, ?_, ?_, mapM_parseCapability.mp hcapabilities⟩, ?_⟩
  · exact hrequired (by simp [requiredFields]) hid
  · exact hrequired (by simp [requiredFields]) hname
  · exact hrequired (by simp [requiredFields]) hversion
  · exact hrequired (by simp [requiredFields]) hauthor
  · exact ⟨manifest.id_ok, manifest.name_ok, manifest.version_ok.notBlank, manifest.author_ok,
      hdocument.notBlank⟩

/-- Reading stays inside its boundary exactly for the contents that let nothing
escape. -/
theorem manifest_contained_iff :
    StaysInside ⟨path, some (.ok content)⟩ content ↔ ¬ Escapes content := by
  rw [← readManifestFile_raises_iff path content]
  exact ⟨fun h => h.2, fun h => ⟨fun _ _ => readManifestFile_declared path content, h⟩⟩

end

def numberedContent : List UInt8 :=
  (lit ("\x7b\"id\": 1, \"name\": \"n\", \"version\": \"1.0.0\", \"author\": \"a\", " ++
    "\"entry_point\": \"m:f\"\x7d")).map fun c => UInt8.ofNat c.val

/-- The number has no `strip`; and bytes that are no text do not decode. -/
theorem numericId_escapes :
    ¬ @StaysInside plainPrinting ⟨lit "plugin.json", some (.ok numberedContent)⟩ numberedContent ∧
      ¬ @StaysInside plainPrinting ⟨lit "plugin.json", some (.ok [0xFF])⟩ [0xFF] := by
  constructor
  · rintro ⟨-, hraises⟩
    have hescapes : ¬ RaisesOnly Contained
        (@readManifestFile plainPrinting ⟨lit "plugin.json", some (.ok numberedContent)⟩) := by
      decide +kernel
    exact hescapes hraises
  · rintro ⟨-, hraises⟩
    have hescapes : ¬ RaisesOnly Contained
        (@readManifestFile plainPrinting ⟨lit "plugin.json", some (.ok [0xFF])⟩) := by
      decide +kernel
    exact hescapes hraises

end MellivorKernel
