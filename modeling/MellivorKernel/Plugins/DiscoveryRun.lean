import MellivorKernel.Plugins.Discovery
import MellivorKernel.Plugins.Loader
import MellivorKernel.Plugins.ManifestFile

/-!
# Discovery runs

`discover_and_register` with the calls it makes. What reading a directory's
manifest, resolving its entry point and calling the factory come to is given;
the loader and the registry are the ones of the other modules. The first
failure ends the run (`prefix_law`).
-/

namespace MellivorKernel

open Python Foundation

/-- A plugin directory: what reading its manifest comes to, and what resolving
the entry point does, which is a factory with what calling it comes to. -/
structure PluginDir where
  path : Str
  readManifest : Except Exn (PluginManifest × Str)
  resolveEntryPoint : Str → Except Exn (Except Exn Plugin)

def PluginDir.ofFile [Printing] (path : Str) (file : ManifestFile)
    (resolveEntryPoint : Str → Except Exn (Except Exn Plugin)) : PluginDir where
  path := path
  readManifest := readManifestFile file
  resolveEntryPoint := resolveEntryPoint

inductive LoadCall
  | readManifest | resolveEntryPoint | factory

structure DirCall where
  dir : Str
  call : LoadCall

structure PluginDiscovery where
  loader : PluginLoader

structure ScannedRoot where
  scan : Except Exn (List PluginDir)

structure DiscoveryOutcome where
  result : Except Exn (List Plugin)
  registry : PluginRegistry
  calls : List DirCall

section
variable [Printing]

def PluginDiscovery.load (discovery : PluginDiscovery) (pluginDir : PluginDir) :
    Except Exn Plugin × List DirCall :=
  let read := ⟨pluginDir.path, .readManifest⟩
  match pluginDir.readManifest with
  | .error exc => (.error exc, [read])
  | .ok (manifest, entryPoint) =>
    let resolve := ⟨pluginDir.path, .resolveEntryPoint⟩
    match pluginDir.resolveEntryPoint entryPoint with
    | .error exc => (.error exc, [read, resolve])
    | .ok factory =>
      let (loaded, called) := discovery.loader.load manifest factory
      (loaded, [read, resolve] ++ if called then [⟨pluginDir.path, .factory⟩] else [])

def PluginDiscovery.discoverEach (discovery : PluginDiscovery) :
    List PluginDir → PluginRegistry → List Plugin → List DirCall → DiscoveryOutcome
  | [], registry, discovered, calls => ⟨.ok discovered, registry, calls⟩
  | pluginDir :: rest, registry, discovered, calls =>
    let (loaded, made) := discovery.load pluginDir
    match loaded with
    | .error exc => ⟨.error exc, registry, calls ++ made⟩
    | .ok plugin =>
      match registry.register plugin with
      | .error exc => ⟨.error exc, registry, calls ++ made⟩
      | .ok registry => discovery.discoverEach rest registry (discovered ++ [plugin]) (calls ++ made)

def PluginDiscovery.discoverAndRegister (discovery : PluginDiscovery) (root : ScannedRoot)
    (registry : PluginRegistry) : DiscoveryOutcome :=
  match root.scan with
  | .error exc => ⟨.error exc, registry, []⟩
  | .ok dirs => discovery.discoverEach dirs registry [] []

-- ---------------------------------------------------------------------------
-- Prefixes
-- ---------------------------------------------------------------------------

variable (discovery : PluginDiscovery)

def PluginDiscovery.loads (dirs : List PluginDir) : List (Except Exn Plugin) :=
  dirs.map fun pluginDir => (discovery.load pluginDir).1

def PluginDiscovery.loadCalls (dirs : List PluginDir) : List DirCall :=
  dirs.flatMap fun pluginDir => (discovery.load pluginDir).2

def Registers (registry : PluginRegistry) (plugins : List Plugin) (changed : PluginRegistry) : Prop :=
  changed.plugins.entries =
    registry.plugins.entries ++ plugins.map fun plugin => (plugin.metadata.id, plugin)

inductive FailsAt (registry : PluginRegistry) (earlier : List Plugin) (pluginDir : PluginDir) :
    Exn → Prop
  | load {exc : Exn} (h : (discovery.load pluginDir).1 = .error exc) :
      FailsAt registry earlier pluginDir exc
  | taken {plugin : Plugin} (h : (discovery.load pluginDir).1 = .ok plugin)
      (htaken : plugin.metadata.id ∈ registry.plugins.keys ∨
        ∃ other ∈ earlier, other.metadata.id = plugin.metadata.id) :
      FailsAt registry earlier pluginDir (.raised .pluginRegistrationError
        (lit "Plugin " ++ pyRepr plugin.metadata.id ++ lit " is already registered."))

/-- The failure ends the run: the plugins before it are registered, and no
call is made for what is left. -/
structure StopsAt (before : List PluginDir) (pluginDir : PluginDir) (after : List PluginDir)
    (registry : PluginRegistry) (plugins : List Plugin) (exc : Exn) (outcome : DiscoveryOutcome) :
    Prop where
  result : outcome.result = .error exc
  registry : Registers registry plugins outcome.registry
  calls : outcome.calls = discovery.loadCalls (before ++ [pluginDir])
  untouched : ∀ later ∈ after, later.path ∉ (before ++ [pluginDir]).map PluginDir.path →
    ∀ call ∈ outcome.calls, call.dir ≠ later.path

structure Completes (dirs : List PluginDir) (registry : PluginRegistry) (plugins : List Plugin)
    (outcome : DiscoveryOutcome) : Prop where
  result : outcome.result = .ok plugins
  registry : Registers registry plugins outcome.registry
  calls : outcome.calls = discovery.loadCalls dirs
  declared : List.Forall₂ (fun pluginDir plugin => ∃ manifest entryPoint,
    pluginDir.readManifest = .ok (manifest, entryPoint) ∧
      outcome.registry.plugins.get? manifest.id = some plugin) dirs plugins

/-- Either all directories give plugins with free ids, and the run completes;
or those before the first failure do, and the run stops there. -/
structure PrefixLaw (dirs : List PluginDir) (registry : PluginRegistry)
    (outcome : DiscoveryOutcome) : Prop where
  completes : ∀ plugins, Registrable registry (discovery.loads dirs) plugins →
    Completes discovery dirs registry plugins outcome
  stops : ∀ before pluginDir after plugins exc, dirs = before ++ pluginDir :: after →
    Registrable registry (discovery.loads before) plugins →
      FailsAt discovery registry plugins pluginDir exc →
        StopsAt discovery before pluginDir after registry plugins exc outcome
  total : (∃ plugins, Registrable registry (discovery.loads dirs) plugins) ∨
    ∃ before pluginDir after plugins exc, dirs = before ++ pluginDir :: after ∧
      Registrable registry (discovery.loads before) plugins ∧
        FailsAt discovery registry plugins pluginDir exc

-- ---------------------------------------------------------------------------
-- One directory
-- ---------------------------------------------------------------------------

section
variable {registry changed : PluginRegistry} {plugin : Plugin} {plugins : List Plugin}

omit [Printing] in
@[simp] theorem registers_nil : Registers registry [] registry := by simp [Registers]

omit [Printing] in
theorem Registers.trans {others : List Plugin} {last : PluginRegistry}
    (h : Registers registry plugins changed) (hothers : Registers changed others last) :
    Registers registry (plugins ++ others) last := by
  rw [Registers] at h hothers ⊢
  simp [hothers, h]

omit [Printing] in
theorem Registers.mem_keys (h : Registers registry plugins changed) {id : Str} :
    id ∈ changed.plugins.keys ↔
      id ∈ registry.plugins.keys ∨ ∃ other ∈ plugins, other.metadata.id = id := by
  rw [Registers] at h
  simp [Dict.keys, h]

theorem register_registers (h : registry.register plugin = .ok changed) :
    Registers registry [plugin] changed := by
  obtain ⟨hnew, hchanged⟩ := PluginRegistry.register_eq_ok.mp h
  simp [Registers, hchanged, Dict.entries_set_of_not_mem hnew]

theorem register_taken (h : plugin.metadata.id ∈ registry.plugins.keys) :
    registry.register plugin = .error (.raised .pluginRegistrationError
      (lit "Plugin " ++ pyRepr plugin.metadata.id ++ lit " is already registered.")) := if_pos h

end

section
variable {pluginDir : PluginDir} {plugin : Plugin} {discovery : PluginDiscovery}

theorem PluginDiscovery.dir_of_mem_load {call : DirCall} (h : call ∈ (discovery.load pluginDir).2) :
    call.dir = pluginDir.path := by
  unfold PluginDiscovery.load at h
  split at h
  · obtain rfl := List.mem_singleton.mp h
    rfl
  · split at h
    · simp only [List.mem_cons, List.not_mem_nil, or_false] at h
      rcases h with rfl | rfl <;> rfl
    · split at h
      simp only [List.cons_append, List.nil_append, List.mem_cons] at h
      rcases h with rfl | rfl | h
      · rfl
      · rfl
      · split at h
        · obtain rfl := List.mem_singleton.mp h
          rfl
        · cases h

theorem PluginDiscovery.load_declared (h : (discovery.load pluginDir).1 = .ok plugin) :
    ∃ manifest entryPoint, pluginDir.readManifest = .ok (manifest, entryPoint) ∧
      plugin.metadata.id = manifest.id := by
  unfold PluginDiscovery.load at h
  split at h
  · cases h
  · rename_i manifest entryPoint hread
    split at h
    · cases h
    · exact ⟨manifest, entryPoint, hread, PluginLoader.load_declared h⟩

end

-- ---------------------------------------------------------------------------
-- Runs
-- ---------------------------------------------------------------------------

section
variable {registry : PluginRegistry} {plugins : List Plugin} {dirs before : List PluginDir}

/-- A prefix of plugins with free ids is registered, and the run goes on. -/
theorem discoverEach_append (h : Registrable registry (discovery.loads before) plugins)
    (rest : List PluginDir) (discovered : List Plugin) (calls : List DirCall) :
    ∃ changed, Registers registry plugins changed ∧
      discovery.discoverEach (before ++ rest) registry discovered calls =
        discovery.discoverEach rest changed (discovered ++ plugins)
          (calls ++ discovery.loadCalls before) := by
  induction before generalizing registry plugins discovered calls with
  | nil =>
    obtain rfl := registrable_nil.mp h
    exact ⟨registry, registers_nil, by simp [PluginDiscovery.loadCalls]⟩
  | cons pluginDir before ih =>
    have hloads : (discovery.load pluginDir).1 :: discovery.loads before = plugins.map .ok := h.loads
    obtain ⟨plugin, others, rfl, hload, -⟩ := List.map_eq_cons_iff.mp hloads.symm
    have hfirst : Registrable registry (.ok plugin :: discovery.loads before) (plugin :: others) := by
      rw [hload]
      exact h
    obtain ⟨changed, hregister⟩ := hfirst.register
    obtain ⟨last, hlast, hrun⟩ := ih ((registrable_cons hregister).mp hfirst)
      (discovered ++ [plugin]) (calls ++ (discovery.load pluginDir).2)
    refine ⟨last, (register_registers hregister).trans hlast, ?_⟩
    have hstep : discovery.discoverEach (pluginDir :: (before ++ rest)) registry discovered calls =
        discovery.discoverEach (before ++ rest) changed (discovered ++ [plugin])
          (calls ++ (discovery.load pluginDir).2) := by
      simp only [PluginDiscovery.discoverEach, ← hload, hregister]
    rw [List.cons_append, hstep, hrun]
    simp [PluginDiscovery.loadCalls]

theorem discoverEach_failsAt {changed : PluginRegistry} {pluginDir : PluginDir} {exc : Exn}
    (h : FailsAt discovery registry plugins pluginDir exc)
    (hchanged : Registers registry plugins changed) (rest : List PluginDir) (discovered : List Plugin) (calls : List DirCall) :
    discovery.discoverEach (pluginDir :: rest) changed discovered calls =
      ⟨.error exc, changed, calls ++ (discovery.load pluginDir).2⟩ := by
  cases h with
  | load h => simp only [PluginDiscovery.discoverEach, h]
  | taken h htaken =>
    simp only [PluginDiscovery.discoverEach, h, register_taken (hchanged.mem_keys.mpr htaken)]

theorem registrable_or_failsAt (dirs : List PluginDir) (registry : PluginRegistry) :
    (∃ plugins, Registrable registry (discovery.loads dirs) plugins) ∨
      ∃ before pluginDir after plugins exc, dirs = before ++ pluginDir :: after ∧
        Registrable registry (discovery.loads before) plugins ∧
          FailsAt discovery registry plugins pluginDir exc := by
  induction dirs generalizing registry with
  | nil => exact .inl ⟨[], registrable_nil.mpr rfl⟩
  | cons pluginDir dirs ih =>
    cases hload : (discovery.load pluginDir).1 with
    | error exc => exact .inr ⟨[], pluginDir, dirs, [], exc, rfl, registrable_nil.mpr rfl, .load hload⟩
    | ok plugin =>
      by_cases htaken : plugin.metadata.id ∈ registry.plugins.keys
      · exact .inr ⟨[], pluginDir, dirs, [], _, rfl, registrable_nil.mpr rfl,
          .taken hload (.inl htaken)⟩
      obtain ⟨changed, hregister⟩ : ∃ changed, registry.register plugin = .ok changed :=
        ⟨_, if_neg htaken⟩
      have hcons {before : List PluginDir} {plugins : List Plugin}
          (h : Registrable changed (discovery.loads before) plugins) :
          Registrable registry (discovery.loads (pluginDir :: before)) (plugin :: plugins) := by
        have hfirst := (registrable_cons hregister).mpr h
        rw [← hload] at hfirst
        exact hfirst
      rcases ih changed with ⟨plugins, h⟩ | ⟨before, failing, after, plugins, exc, rfl, h, hfails⟩
      · exact .inl ⟨plugin :: plugins, hcons h⟩
      · refine .inr ⟨pluginDir :: before, failing, after, plugin :: plugins, exc, rfl, hcons h, ?_⟩
        cases hfails with
        | load h => exact .load h
        | taken h htaken =>
          refine .taken h ?_
          rw [(register_registers hregister).mem_keys] at htaken
          simpa [or_assoc] using htaken

theorem Registrable.declared {changed : PluginRegistry}
    (h : Registrable registry (discovery.loads dirs) plugins)
    (hchanged : Registers registry plugins changed) :
    List.Forall₂ (fun pluginDir plugin => ∃ manifest entryPoint,
      pluginDir.readManifest = .ok (manifest, entryPoint) ∧
        changed.plugins.get? manifest.id = some plugin) dirs plugins := by
  have hloads : List.Forall₂ (fun pluginDir plugin => (discovery.load pluginDir).1 = .ok plugin)
      dirs plugins := by
    have heq : List.Forall₂ (· = ·) (discovery.loads dirs) (plugins.map .ok) := by
      rw [h.loads, List.forall₂_eq_eq_eq]
    exact List.forall₂_map_left_iff.mp (List.forall₂_map_right_iff.mp heq)
  have hregistered : ∀ plugin ∈ plugins, changed.plugins.get? plugin.metadata.id = some plugin := by
    intro plugin hplugin
    rw [Dict.get?_eq_some, show changed.plugins.entries = _ from hchanged]
    exact List.mem_append_right _ (List.mem_map_of_mem hplugin)
  have hboth := ((List.forall₂_and_left plugins dirs).mpr ⟨hregistered, hloads.flip⟩).flip
  refine hboth.imp fun pluginDir plugin hplugin => ?_
  obtain ⟨hget, hload⟩ := hplugin
  obtain ⟨manifest, entryPoint, hread, hid⟩ := PluginDiscovery.load_declared hload
  exact ⟨manifest, entryPoint, hread, hid ▸ hget⟩

end

/-- The run without its calls, over what loading the directories comes to. -/
theorem discoverEach_refines (dirs : List PluginDir) (registry : PluginRegistry)
    (discovered : List Plugin) (calls : List DirCall) :
    ((discovery.discoverEach dirs registry discovered calls).result,
      (discovery.discoverEach dirs registry discovered calls).registry) =
        registerEach (discovery.loads dirs) registry discovered := by
  induction dirs generalizing registry discovered calls with
  | nil => rfl
  | cons pluginDir dirs ih =>
    simp only [PluginDiscovery.discoverEach, PluginDiscovery.loads, List.map_cons]
    cases (discovery.load pluginDir).1 with
    | error exc => rfl
    | ok plugin =>
      simp only [registerEach]
      cases registry.register plugin with
      | error exc => rfl
      | ok changed => exact ih changed _ _

theorem discoverAndRegister_refines (root : ScannedRoot) (registry : PluginRegistry) (repr : Str) :
    ((discovery.discoverAndRegister root registry).result,
      (discovery.discoverAndRegister root registry).registry) =
        discoverAndRegister ⟨repr, root.scan.map discovery.loads⟩ registry := by
  obtain ⟨scan⟩ := root
  cases scan with
  | error exc => rfl
  | ok dirs => exact discoverEach_refines discovery dirs registry [] []

/-- Discovery stops at the first failure, with the plugins before it
registered in the order found; or there is none, and it registers all. -/
theorem prefix_law (dirs : List PluginDir) (registry : PluginRegistry) :
    PrefixLaw discovery dirs registry (discovery.discoverAndRegister ⟨.ok dirs⟩ registry) where
  completes plugins h := by
    obtain ⟨changed, hchanged, hrun⟩ := discoverEach_append discovery h [] [] []
    rw [List.append_nil, List.nil_append, List.nil_append] at hrun
    rw [show discovery.discoverAndRegister ⟨.ok dirs⟩ registry = _ from hrun]
    exact ⟨rfl, hchanged, rfl, h.declared discovery hchanged⟩
  stops before pluginDir after plugins exc hdirs h hfails := by
    obtain ⟨changed, hchanged, hrun⟩ := discoverEach_append discovery h (pluginDir :: after) [] []
    rw [← hdirs, discoverEach_failsAt discovery hfails hchanged, List.nil_append] at hrun
    rw [show discovery.discoverAndRegister ⟨.ok dirs⟩ registry = _ from hrun]
    have hcalls : discovery.loadCalls before ++ (discovery.load pluginDir).2 =
        discovery.loadCalls (before ++ [pluginDir]) := by simp [PluginDiscovery.loadCalls]
    refine ⟨rfl, hchanged, hcalls, fun later _ hlater call hcall hdir => hlater ?_⟩
    have hcall' : call ∈ discovery.loadCalls (before ++ [pluginDir]) := hcalls ▸ hcall
    obtain ⟨made, hmade, hcall⟩ := List.mem_flatMap.mp hcall'
    rw [← hdir, PluginDiscovery.dir_of_mem_load hcall]
    exact List.mem_map_of_mem hmade
  total := registrable_or_failsAt discovery dirs registry

end

end MellivorKernel
