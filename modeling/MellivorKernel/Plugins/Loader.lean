import MellivorKernel.Plugins.Lifecycle
import MellivorKernel.Plugins.Manifest

/-!
# Loading plugins

`PluginLoader.load`: the gate on the kernel's version, then the factory. What
calling the factory comes to is given; `load` also says whether it was called.
-/

namespace MellivorKernel

open Python Foundation

structure PluginLoader where
  kernelVersion : Str

section
variable [Printing]

def PluginLoader.checkCompatibility (loader : PluginLoader) (manifest : PluginManifest) :
    Except Exn Unit := do
  let required ← parseVersion manifest.minimumKernelVersion "PluginManifest.minimum_kernel_version"
  let running ← parseVersion loader.kernelVersion "kernel_version"
  if running < required then
    .error (.raised .pluginLoadError
      (lit "Plugin " ++ pyRepr manifest.id ++ lit " requires kernel >= " ++
        manifest.minimumKernelVersion ++ lit ", but the running kernel is " ++
        loader.kernelVersion ++ lit "."))
  else .ok ()

/-- What is done with what the factory comes to. -/
def takePlugin (manifest : PluginManifest) : Except Exn Plugin → Except Exn Plugin
  | .error exc => .error (.raised .pluginLoadError
      (lit "Plugin " ++ pyRepr manifest.id ++ lit " failed to instantiate: " ++ exc.text))
  | .ok plugin =>
    if plugin.metadata.id ≠ manifest.id then .error (.raised .pluginLoadError
      (lit "Plugin instance id " ++ pyRepr plugin.metadata.id ++
        lit " does not match the manifest it was loaded from (" ++ pyRepr manifest.id ++ lit ")."))
    else .ok plugin

/-- `PluginLoader.load`, and whether it calls the factory. -/
def PluginLoader.load (loader : PluginLoader) (manifest : PluginManifest)
    (factory : Except Exn Plugin) : Except Exn Plugin × Bool :=
  match loader.checkCompatibility manifest with
  | .error exc => (.error exc, false)
  | .ok () => (takePlugin manifest factory, true)

/-- The factory is called exactly for the plugins the kernel is new enough
for; a plugin that is not loaded is refused. -/
def Gated (loader : PluginLoader) (manifest : PluginManifest) (factory : Except Exn Plugin) : Prop :=
  ((loader.load manifest factory).2 = true ↔ ∃ required running,
      Denotes manifest.minimumKernelVersion required ∧ Denotes loader.kernelVersion running ∧
        required ≤ running) ∧
    ∀ exc, (loader.load manifest factory).1 = .error exc →
      exc.isA .pluginLoadError = true ∨ exc.isA .pluginValidationError = true

theorem takePlugin_eq_error {manifest : PluginManifest} {factory : Except Exn Plugin} {exc : Exn}
    (h : takePlugin manifest factory = .error exc) : exc.isA .pluginLoadError = true := by
  unfold takePlugin at h
  split at h
  · cases h
    rfl
  · split at h
    · cases h
      rfl
    · cases h

theorem takePlugin_eq_ok {manifest : PluginManifest} {factory : Except Exn Plugin} {plugin : Plugin} :
    takePlugin manifest factory = .ok plugin ↔
      factory = .ok plugin ∧ plugin.metadata.id = manifest.id := by
  cases factory with
  | error exc => simp [takePlugin]
  | ok found =>
    by_cases h : found.metadata.id = manifest.id
    · simp only [takePlugin, h, ne_eq, not_true_eq_false, if_false, Except.ok.injEq]
      exact ⟨fun heq => ⟨heq, heq ▸ h⟩, fun heq => heq.1⟩
    · simp only [takePlugin, h, ne_eq, not_false_eq_true, if_true, reduceCtorEq, Except.ok.injEq,
        false_iff, not_and]
      exact fun heq => heq ▸ h

theorem PluginLoader.load_declared {loader : PluginLoader} {manifest : PluginManifest}
    {factory : Except Exn Plugin} {plugin : Plugin}
    (h : (loader.load manifest factory).1 = .ok plugin) : plugin.metadata.id = manifest.id := by
  unfold PluginLoader.load at h
  split at h
  · cases h
  · exact (takePlugin_eq_ok.mp h).2

theorem parseVersion_minimum {manifest : PluginManifest} {required : Version} (fieldName : String)
    (h : Denotes manifest.minimumKernelVersion required) :
    parseVersion manifest.minimumKernelVersion fieldName = .ok required := by
  obtain ⟨_, -, hread⟩ := manifest.minimum_ok
  exact parseVersion_of_denotes h hread

theorem gated_iff (loader : PluginLoader) (manifest : PluginManifest)
    (factory : Except Exn Plugin) :
    Gated loader manifest factory ↔ ¬ Unreadable loader.kernelVersion := by
  obtain ⟨required, hrequired, -⟩ := manifest.minimum_ok
  have hunique : ∀ version, Denotes manifest.minimumKernelVersion version → version = required := by
    intro version h
    exact Except.ok.inj ((parseVersion_minimum "" h).symm.trans (parseVersion_minimum "" hrequired))
  have hcheck : loader.checkCompatibility manifest = (do
      let running ← parseVersion loader.kernelVersion "kernel_version"
      if running < required then
        .error (.raised .pluginLoadError
          (lit "Plugin " ++ pyRepr manifest.id ++ lit " requires kernel >= " ++
            manifest.minimumKernelVersion ++ lit ", but the running kernel is " ++
            loader.kernelVersion ++ lit "."))
      else .ok ()) := by
    rw [PluginLoader.checkCompatibility, parseVersion_minimum _ hrequired]
    rfl
  rw [Gated, PluginLoader.load, hcheck]
  by_cases hread : Unreadable loader.kernelVersion
  · obtain ⟨message, hm⟩ := parseVersion_unreadable "kernel_version" hread
    refine iff_of_false (fun hgated => ?_) (not_not_intro hread)
    rw [hm] at hgated
    exact absurd (hgated.2 _ rfl) (by rintro (h | h) <;> cases h)
  refine iff_of_true ?_ hread
  cases hrunning : parseVersion loader.kernelVersion "kernel_version" with
  | error exc =>
    obtain ⟨hinvalid, hnone⟩ := parseVersion_eq_error hread hrunning
    refine ⟨iff_of_false (by simp [bind, Except.bind]) ?_, ?_⟩
    · rintro ⟨_, running, -, hdenotes, -⟩
      exact hnone running hdenotes
    · intro exc' h
      cases h
      exact .inr hinvalid
  | ok running =>
    obtain ⟨hdenotes, -⟩ := parseVersion_eq_ok.mp hrunning
    have hle : (∃ required' running', Denotes manifest.minimumKernelVersion required' ∧
        Denotes loader.kernelVersion running' ∧ required' ≤ running') ↔ required ≤ running := by
      constructor
      · rintro ⟨required', running', hrequired', hrunning', hle⟩
        obtain rfl := hunique required' hrequired'
        rw [parseVersion_of_denotes hrunning' hread] at hrunning
        cases hrunning
        exact hle
      · exact fun hle => ⟨required, running, hrequired, hdenotes, hle⟩
    rw [hle]
    by_cases hlt : running < required
    · simp only [bind, Except.bind, if_pos hlt]
      refine ⟨iff_of_false (by simp) (not_le.mpr hlt), fun exc h => ?_⟩
      cases h
      exact .inl rfl
    · simp only [bind, Except.bind, if_neg hlt]
      exact ⟨iff_of_true trivial (not_lt.mp hlt), fun exc h => .inl (takePlugin_eq_error h)⟩

/-- Parsing, the check of a manifest's fields and the gate are what they
should be, up to the versions that `isdigit` lets through to `int` in vain. -/
theorem versions_exact_iff :
    (∀ value fieldName, ParsesExactly value fieldName ↔ ¬ Unreadable value) ∧
      (∀ fields, Returns (isValidManifest fields) ↔
        ¬ (blank fields.id = false ∧ blank fields.name = false ∧ blank fields.author = false ∧
          (Unreadable fields.version ∨
            Parsed fields.version ∧ Unreadable fields.minimumKernelVersion))) ∧
      ∀ loader manifest factory, Gated loader manifest factory ↔ ¬ Unreadable loader.kernelVersion :=
  ⟨parseVersion_exact_iff, isValidManifest_returns_iff, gated_iff⟩

end

-- ---------------------------------------------------------------------------
-- A superscript
-- ---------------------------------------------------------------------------

def superscriptFields : ManifestFields where
  id := lit "a"
  name := lit "A"
  version := lit "1.0.²"
  author := lit "me"
  description := []
  capabilities := []
  minimumKernelVersion := lit "0.0.0"
  described := by simp

/-- A superscript is a digit and no decimal: the `ValueError` of `int` comes
out of all three. -/
theorem superscript_crashes :
    (∃ message, @parseVersion plainPrinting (lit "1.0.²") "PluginManifest.version" =
        .error (.raised .valueError message)) ∧
      ¬ @ParsesExactly plainPrinting (lit "1.0.²") "PluginManifest.version" ∧
      ¬ Returns (@isValidManifest plainPrinting superscriptFields) := by
  let _ : Printing := plainPrinting
  have hread : Unreadable (lit "1.0.²") :=
    ⟨lit "1", lit "0", lit "²", by decide, by decide, .inr (.inr (by decide))⟩
  refine ⟨parseVersion_unreadable _ hread, fun h => (parseVersion_exact_iff _ _).mp h hread, ?_⟩
  rw [isValidManifest_returns_iff, not_not]
  exact ⟨by decide, by decide, by decide, .inl hread⟩

end MellivorKernel
