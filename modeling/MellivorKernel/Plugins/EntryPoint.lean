import MellivorKernel.Plugins.DiscoveryRun
import MellivorKernel.Python.UrlSplit

/-!
# Entry points

`resolve_entry_point`. The import system is a parameter: a module is what
`getattr` makes of its attributes' names, an attribute is whether it is callable
and what calling it comes to. The text of an entry point is split at its first
colon, so every entry point names one module and one attribute at most
(`resolveEntryPoint_eq_ok`).
-/

namespace MellivorKernel

open Python Foundation

/-- The builtin class; `ModuleNotFoundError` derives from it. -/
def importError : ExnClass := .foreign (lit "ImportError") .exception

structure Attribute where
  callable : Bool
  call : Except Exn Plugin

structure PythonModule where
  getattr : Str → Except Exn Attribute

/-- `importlib.import_module`. -/
abbrev Importer := Str → Except Exn PythonModule

def entryPointError (message : Str) : Exn := .raised .entryPointError message

def resolveEntryPoint [Printing] (importModule : Importer) (entryPoint : Str) :
    Except Exn (Except Exn Plugin) :=
  let moduleName := before (cp ':') entryPoint
  let attrName := after (cp ':') entryPoint
  if cp ':' ∉ entryPoint ∨ moduleName = [] ∨ attrName = [] then .error (entryPointError
    (lit "Entry point " ++ pyRepr entryPoint ++ lit " must be in 'module:attribute' format."))
  else match importModule moduleName with
  | .error exc =>
    if exc.isA importError then .error (entryPointError
      (lit "Could not import module " ++ pyRepr moduleName ++ lit " for entry point " ++
        pyRepr entryPoint ++ lit ": " ++ exc.text))
    else .error exc
  | .ok imported => match imported.getattr attrName with
    | .error exc =>
      if exc.isA .attributeError then .error (entryPointError
        (lit "Module " ++ pyRepr moduleName ++ lit " has no attribute " ++ pyRepr attrName ++
          lit " for entry point " ++ pyRepr entryPoint ++ lit "."))
      else .error exc
    | .ok attr =>
      if attr.callable then .ok attr.call
      else .error (entryPointError
        (lit "Resolved entry point " ++ pyRepr entryPoint ++ lit " is not callable."))

/-- The entry point names a callable of a module; calling it comes to this. -/
structure NamesFactory (importModule : Importer) (entryPoint : Str) (factory : Except Exn Plugin) :
    Prop where
  named : ∃ moduleName attrName imported attr,
    entryPoint = moduleName ++ cp ':' :: attrName ∧ cp ':' ∉ moduleName ∧ moduleName ≠ [] ∧
    attrName ≠ [] ∧ importModule moduleName = .ok imported ∧
    imported.getattr attrName = .ok attr ∧ attr.callable = true ∧ attr.call = factory

theorem before_not_mem (c : CodePoint) (s : Str) : c ∉ before c s := fun h => by
  simpa using List.mem_takeWhile_imp h

section
variable [Printing] {importModule : Importer} {entryPoint : Str}

theorem resolveEntryPoint_eq_ok {factory : Except Exn Plugin} :
    resolveEntryPoint importModule entryPoint = .ok factory ↔
      NamesFactory importModule entryPoint factory := by
  constructor
  · intro h
    unfold resolveEntryPoint at h
    simp only at h
    split at h
    · cases h
    rename_i hformat
    simp only [not_or, not_not] at hformat
    obtain ⟨hcolon, hmodule, hattr⟩ := hformat
    split at h
    · split at h <;> cases h
    rename_i imported himported
    split at h
    · split at h <;> cases h
    rename_i attr hgetattr
    split at h
    · rename_i hcallable
      cases h
      exact ⟨_, _, imported, attr, before_append_after hcolon, before_not_mem _ _, hmodule,
        hattr, himported, hgetattr, hcallable, rfl⟩
    · cases h
  · rintro ⟨moduleName, attrName, imported, attr, rfl, hcolon, hmodule, hattr, himported, hgetattr,
      hcallable, rfl⟩
    unfold resolveEntryPoint
    simp only [before_of_not_mem hcolon, after_of_not_mem hcolon, hmodule, hattr, himported,
      hgetattr, hcallable, if_true]
    exact if_neg (by simp)

end

end MellivorKernel
