import Mathlib.Data.Prod.Lex
import MellivorKernel.Python.Digits

/-!
# Versions

`parse_version`. The parts of a version are tested with `str.isdigit` and read
with `int`; it is exact for the texts on which the two agree
(`parseVersion_exact_iff`).
-/

namespace MellivorKernel

open Python Foundation

/-- A version, compared as Python compares tuples. -/
abbrev Version := ℕ ×ₗ ℕ ×ₗ ℕ

def Version.of (major minor patch : Nat) : Version := toLex (major, toLex (minor, patch))

/-- The value is three numerals with dots between them, and nothing around
them but whitespace. -/
def Denotes (value : Str) (version : Version) : Prop :=
  ∃ major minor patch a b c, strip value = major ++ cp '.' :: (minor ++ cp '.' :: patch) ∧
    Numeral major a ∧ Numeral minor b ∧ Numeral patch c ∧ version = .of a b c

/-- The value is three texts of digits, one of which `int` refuses. -/
def Unreadable (value : Str) : Prop :=
  ∃ major minor patch, (strip value).splitOn (cp '.') = [major, minor, patch] ∧
    (isdigit major = true ∧ isdigit minor = true ∧ isdigit patch = true) ∧
    (Refused major ∨ Refused minor ∨ Refused patch)

section
variable [Printing]

def parseVersion (value : Str) (fieldName : String) : Except Exn Version :=
  let invalid : Exn := .raised .pluginValidationError
    (lit fieldName ++ lit " must be a MAJOR.MINOR.PATCH version string, got " ++ pyRepr value ++
      lit ".")
  match (strip value).splitOn (cp '.') with
  | [major, minor, patch] =>
    if isdigit major && isdigit minor && isdigit patch then do
      let major ← intOfDigits major
      let minor ← intOfDigits minor
      let patch ← intOfDigits patch
      .ok (.of major minor patch)
    else .error invalid
  | _ => .error invalid

end

-- ---------------------------------------------------------------------------
-- Exactness
-- ---------------------------------------------------------------------------

theorem dot_not_mem {s : Str} {n : Nat} (h : Numeral s n) : cp '.' ∉ s := by
  intro hmem
  exact absurd (List.all_eq_true.mp h.decimals _ hmem) (by decide)

theorem split_denoting {value major minor patch : Str} {a b c : Nat}
    (h : strip value = major ++ cp '.' :: (minor ++ cp '.' :: patch)) (hmajor : Numeral major a)
    (hminor : Numeral minor b) (hpatch : Numeral patch c) :
    (strip value).splitOn (cp '.') = [major, minor, patch] := by
  rw [h, List.splitOn_append_cons_self_of_not_mem (dot_not_mem hmajor),
    List.splitOn_append_cons_self_of_not_mem (dot_not_mem hminor),
    List.splitOn_eq_singleton (dot_not_mem hpatch)]

theorem numeral_of_isdigit {s : Str} (hdigit : isdigit s = true) (h : ¬ Refused s) :
    Numeral s (decimalsValue s) := by
  obtain ⟨hall, -⟩ := not_or.mp h
  refine ⟨?_, by simpa using hall, rfl⟩
  rintro rfl
  cases hdigit

section
variable [Printing] {value : Str} {fieldName : String} {version : Version}

theorem parseVersion_unreadable (fieldName : String) (h : Unreadable value) :
    ∃ message, parseVersion value fieldName = .error (.raised .valueError message) := by
  obtain ⟨major, minor, patch, hparts, ⟨hmajor, hminor, hpatch⟩, hrefused⟩ := h
  rw [parseVersion, hparts]
  simp only [hmajor, hminor, hpatch, Bool.and_self, if_true]
  by_cases h : Refused major
  · obtain ⟨message, hm⟩ := intOfDigits_refused h
    exact ⟨message, by rw [hm]; rfl⟩
  by_cases h' : Refused minor
  · obtain ⟨message, hm⟩ := intOfDigits_refused h'
    exact ⟨message, by rw [intOfDigits_of_not_refused h, hm]; rfl⟩
  · obtain ⟨message, hm⟩ := intOfDigits_refused ((hrefused.resolve_left h).resolve_left h')
    refine ⟨message, ?_⟩
    rw [intOfDigits_of_not_refused h, intOfDigits_of_not_refused h', hm]
    rfl

theorem parseVersion_of_denotes (h : Denotes value version) (hread : ¬ Unreadable value) :
    parseVersion value fieldName = .ok version := by
  obtain ⟨major, minor, patch, a, b, c, hvalue, hmajor, hminor, hpatch, rfl⟩ := h
  have hparts := split_denoting hvalue hmajor hminor hpatch
  have hnone : ¬ (Refused major ∨ Refused minor ∨ Refused patch) := fun hrefused =>
    hread ⟨_, _, _, hparts, ⟨hmajor.isdigit, hminor.isdigit, hpatch.isdigit⟩, hrefused⟩
  simp only [not_or] at hnone
  rw [parseVersion, hparts]
  simp only [hmajor.isdigit, hminor.isdigit, hpatch.isdigit, Bool.and_self, if_true]
  rw [intOfDigits_of_not_refused hnone.1, intOfDigits_of_not_refused hnone.2.1,
    intOfDigits_of_not_refused hnone.2.2, hmajor.value, hminor.value, hpatch.value]
  rfl

theorem parseVersion_readable (fieldName : String) (hread : ¬ Unreadable value) :
    (∃ version, Denotes value version) ∨
      ∃ message, parseVersion value fieldName = .error (.raised .pluginValidationError message) := by
  by_cases h : ∃ major minor patch, (strip value).splitOn (cp '.') = [major, minor, patch] ∧
      isdigit major = true ∧ isdigit minor = true ∧ isdigit patch = true
  · obtain ⟨major, minor, patch, hparts, hmajor, hminor, hpatch⟩ := h
    have hnone : ¬ (Refused major ∨ Refused minor ∨ Refused patch) := fun hrefused =>
      hread ⟨_, _, _, hparts, ⟨hmajor, hminor, hpatch⟩, hrefused⟩
    simp only [not_or] at hnone
    have hvalue : [cp '.'].intercalate ((strip value).splitOn (cp '.')) = strip value :=
      List.intercalate_splitOn _
    rw [hparts] at hvalue
    exact .inl ⟨_, major, minor, patch, _, _, _, by simpa using hvalue.symm,
      numeral_of_isdigit hmajor hnone.1, numeral_of_isdigit hminor hnone.2.1,
      numeral_of_isdigit hpatch hnone.2.2, rfl⟩
  · right
    unfold parseVersion
    split
    · rename_i major minor patch hparts
      rw [if_neg]
      · exact ⟨_, rfl⟩
      · intro hdigits
        simp only [Bool.and_eq_true, and_assoc] at hdigits
        exact h ⟨_, _, _, hparts, hdigits⟩
    · exact ⟨_, rfl⟩

theorem parseVersion_eq_ok :
    parseVersion value fieldName = .ok version ↔ Denotes value version ∧ ¬ Unreadable value := by
  refine ⟨fun h => ?_, fun ⟨h, hread⟩ => parseVersion_of_denotes h hread⟩
  have hread : ¬ Unreadable value := by
    intro hunreadable
    obtain ⟨message, hm⟩ := parseVersion_unreadable fieldName hunreadable
    cases h.symm.trans hm
  rcases parseVersion_readable fieldName hread with ⟨version', hdenotes⟩ | ⟨_, hm⟩
  · cases h.symm.trans (parseVersion_of_denotes hdenotes hread)
    exact ⟨hdenotes, hread⟩
  · cases h.symm.trans hm

theorem parseVersion_eq_error {exc : Exn} (hread : ¬ Unreadable value)
    (h : parseVersion value fieldName = .error exc) :
    exc.isA .pluginValidationError = true ∧ ∀ version, ¬ Denotes value version := by
  have hnone : ∀ version, ¬ Denotes value version := by
    intro version hdenotes
    rw [parseVersion_of_denotes hdenotes hread] at h
    cases h
  refine ⟨?_, hnone⟩
  rcases parseVersion_readable fieldName hread with ⟨version, hdenotes⟩ | ⟨_, hm⟩
  · exact absurd hdenotes (hnone version)
  · cases h.symm.trans hm
    rfl

/-- A parsed version is what the value denotes; what is refused is refused as
invalid, and denotes nothing. -/
def ParsesExactly (value : Str) (fieldName : String) : Prop :=
  (∀ version, parseVersion value fieldName = .ok version → Denotes value version) ∧
    ∀ exc, parseVersion value fieldName = .error exc →
      exc.isA .pluginValidationError = true ∧ ∀ version, ¬ Denotes value version

theorem parseVersion_exact_iff (value : Str) (fieldName : String) :
    ParsesExactly value fieldName ↔ ¬ Unreadable value := by
  constructor
  · rintro ⟨-, herror⟩ h
    obtain ⟨message, hm⟩ := parseVersion_unreadable fieldName h
    exact absurd (herror _ hm).1 (by decide : ExnClass.isA .valueError .pluginValidationError ≠ true)
  · exact fun hread => ⟨fun version h => (parseVersion_eq_ok.mp h).1, fun exc h =>
      parseVersion_eq_error hread h⟩

end

end MellivorKernel
