import MellivorKernel.Plugins.Lifecycle

/-!
# Discovering plugins

`PluginDiscovery.discover_and_register`. What the root is found to contain and
what loading comes to for each directory is given. A plugin is registered as
soon as it is loaded, and stays registered if a later one fails. The discovery
returns exactly if all plugins load and have ids that are free
(`registerEach_eq_ok`).
-/

namespace MellivorKernel

open Python Foundation

/-- A root to discover plugins from: how it prints, and what scanning it comes
to, with what `load` comes to for each directory found. -/
structure DiscoveryRoot where
  repr : Str
  scan : Except Exn (List (Except Exn Plugin))

section
variable [Printing]

/-- `for plugin_dir in self.scan(root)`, with the plugins discovered so far. -/
def registerEach : List (Except Exn Plugin) → PluginRegistry → List Plugin →
    Except Exn (List Plugin) × PluginRegistry
  | [], registry, discovered => (.ok discovered, registry)
  | .error exc :: _, registry, _ => (.error exc, registry)
  | .ok plugin :: rest, registry, discovered =>
    match registry.register plugin with
    | .error exc => (.error exc, registry)
    | .ok registry => registerEach rest registry (discovered ++ [plugin])

def discoverAndRegister (root : DiscoveryRoot) (registry : PluginRegistry) :
    Except Exn (List Plugin) × PluginRegistry :=
  match root.scan with
  | .error exc => (.error exc, registry)
  | .ok loaded => registerEach loaded registry []

end

-- ---------------------------------------------------------------------------
-- A discovery that returns
-- ---------------------------------------------------------------------------

structure Registrable (registry : PluginRegistry) (loaded : List (Except Exn Plugin))
    (plugins : List Plugin) : Prop where
  loads : loaded = plugins.map .ok
  free : (registry.plugins.keys ++ plugins.map fun plugin => plugin.metadata.id).Nodup

theorem registrable_nil {registry : PluginRegistry} {plugins : List Plugin} :
    Registrable registry [] plugins ↔ plugins = [] := by
  constructor
  · intro h
    exact List.map_eq_nil_iff.mp h.loads.symm
  · rintro rfl
    exact ⟨rfl, by simpa [Dict.keys] using registry.plugins.nodup⟩

section
variable [Printing] {registry changed : PluginRegistry} {plugin : Plugin}
  {loaded : List (Except Exn Plugin)} {plugins : List Plugin}

theorem PluginRegistry.register_eq_ok : registry.register plugin = .ok changed ↔
    plugin.metadata.id ∉ registry.plugins ∧
      changed.plugins = registry.plugins.set plugin.metadata.id plugin := by
  obtain ⟨plugins, keyed⟩ := changed
  unfold PluginRegistry.register
  by_cases h : plugin.metadata.id ∈ registry.plugins
  · simp [h]
  · simp [h, eq_comm]

theorem registrable_cons (h : registry.register plugin = .ok changed) :
    Registrable registry (.ok plugin :: loaded) (plugin :: plugins) ↔
      Registrable changed loaded plugins := by
  obtain ⟨hnew, hchanged⟩ := PluginRegistry.register_eq_ok.mp h
  have hkeys : changed.plugins.keys = registry.plugins.keys ++ [plugin.metadata.id] := by
    rw [hchanged, Dict.keys_set]
    exact if_neg hnew
  constructor
  · rintro ⟨hloads, hfree⟩
    refine ⟨(List.cons.inj hloads).2, ?_⟩
    rw [hkeys]
    simpa using hfree
  · rintro ⟨hloads, hfree⟩
    rw [hkeys] at hfree
    exact ⟨by rw [hloads, List.map_cons], by simpa using hfree⟩

theorem Registrable.register (h : Registrable registry loaded (plugin :: plugins)) :
    ∃ changed, registry.register plugin = .ok changed := by
  have hnew : plugin.metadata.id ∉ registry.plugins.keys := by
    intro hmem
    have hfree := h.free
    simp only [List.map_cons, List.nodup_append, List.mem_cons] at hfree
    exact hfree.2.2 _ hmem _ (.inl rfl) rfl
  exact ⟨_, if_neg hnew⟩

theorem registerEach_eq_ok {discovered found : List Plugin} :
    (registerEach loaded registry discovered).1 = .ok found ↔
      ∃ plugins, found = discovered ++ plugins ∧ Registrable registry loaded plugins := by
  induction loaded generalizing registry discovered with
  | nil => simp [registerEach, registrable_nil, eq_comm]
  | cons first rest ih =>
    have hfirst {plugins : List Plugin} (h : Registrable registry (first :: rest) plugins) :
        ∃ plugin others, plugins = plugin :: others ∧ first = .ok plugin := by
      cases plugins with
      | nil => cases h.loads
      | cons plugin others => exact ⟨plugin, others, rfl, (List.cons.inj h.loads).1⟩
    cases first with
    | error exc =>
      refine iff_of_false nofun ?_
      rintro ⟨plugins, -, h⟩
      obtain ⟨plugin, others, -, heq⟩ := hfirst h
      cases heq
    | ok plugin =>
      unfold registerEach
      cases hregister : registry.register plugin with
      | error exc =>
        refine iff_of_false nofun ?_
        rintro ⟨plugins, -, h⟩
        obtain ⟨plugin', others, rfl, heq⟩ := hfirst h
        cases heq
        obtain ⟨changed, hchanged⟩ := h.register
        cases hregister.symm.trans hchanged
      | ok changed =>
        simp only [ih]
        constructor
        · rintro ⟨plugins, rfl, h⟩
          exact ⟨plugin :: plugins, by simp, (registrable_cons hregister).mpr h⟩
        · rintro ⟨plugins, rfl, h⟩
          obtain ⟨plugin', others, rfl, heq⟩ := hfirst h
          cases heq
          exact ⟨others, by simp, (registrable_cons hregister).mp h⟩

theorem Registrable.entries (h : Registrable registry loaded plugins) (discovered : List Plugin) :
    (registerEach loaded registry discovered).2.plugins.entries =
      registry.plugins.entries ++ plugins.map fun plugin => (plugin.metadata.id, plugin) := by
  induction plugins generalizing registry loaded discovered with
  | nil =>
    rw [h.loads]
    simp [registerEach]
  | cons plugin plugins ih =>
    obtain rfl : loaded = .ok plugin :: plugins.map .ok := h.loads
    obtain ⟨changed, hregister⟩ := h.register
    obtain ⟨hnew, hchanged⟩ := PluginRegistry.register_eq_ok.mp hregister
    simp only [registerEach, hregister]
    rw [ih ((registrable_cons hregister).mp h), hchanged, Dict.entries_set_of_not_mem hnew]
    simp

end

end MellivorKernel
