import MellivorKernel.AIEngine.Ownership
import MellivorKernel.Foundation.Returns
import MellivorKernel.Plugins.Discovery

/-!
# Building on a registry that is owned

`AIEngineBuilder.build` discovers plugins first. Only then does
`AIEngine.__init__` see whether the registry has a live engine already. A build
that is rejected there leaves the registry, and what its engine goes on to
start, as it was exactly if nothing was discovered (`build_intact_iff`).
-/

namespace MellivorKernel

open Python Foundation

def Engines.withRegistry (s : Engines) (registry : Nat) (changed : PluginRegistry) : Engines :=
  { s with registries := fun r => if r = registry then changed else s.registries r }

/-- `AIEngineBuilder.build()` with this registry and discovery root. -/
def Engines.buildFrom [Printing] (registryRepr : Nat → Str) (s : Engines) (registry : Nat) :
    Option DiscoveryRoot → Except Exn Unit × Engines
  | none => s.build registryRepr registry
  | some root =>
    match discoverAndRegister root (s.registries registry) with
    | (.error exc, changed) =>
      (.error (.raised .aiEngineError (lit "Plugin discovery from " ++ root.repr ++
        lit " failed: " ++ exc.text)), s.withRegistry registry changed)
    | (.ok _, changed) => (s.withRegistry registry changed).build registryRepr registry

structure Engines.Rejects [Printing] (s : Engines) (registry : Nat) (root : Option DiscoveryRoot) :
    Prop where
  owned : s.owned registry = true
  discovered : ∀ r ∈ root, Returns (discoverAndRegister r (s.registries registry)).1

def Engines.discovered [Printing] (s : Engines) (registry : Nat) : Option DiscoveryRoot → Engines
  | none => s
  | some root => s.withRegistry registry (discoverAndRegister root (s.registries registry)).2

def DiscoveryRoot.Finds (root : DiscoveryRoot) (registry : PluginRegistry) (plugins : List Plugin) :
    Prop :=
  ∃ loaded, root.scan = .ok loaded ∧ Registrable registry loaded plugins

/-- The registry has the same plugins under the same ids in the same order, and
the next `start_plugins` of any engine calls no plugin it would not have called. -/
structure Engines.Intact [Printing] (s s' : Engines) (registry : Nat) : Prop where
  contents : s'.registries registry = s.registries registry
  untouched : ∀ answers engine, ∀ c ∈ (s'.drive (startOne answers) engine).2.calls,
    ∃ c' ∈ (s.drive (startOne answers) engine).2.calls, c'.plugin = c.plugin

section
variable {s : Engines} {registry : Nat}

@[simp] theorem withRegistry_self (changed : PluginRegistry) :
    (s.withRegistry registry changed).registries registry = changed := if_pos rfl

theorem withRegistry_same : s.withRegistry registry (s.registries registry) = s := by
  have hsame : (fun r => if r = registry then s.registries registry else s.registries r) =
      s.registries := by
    funext r
    split
    · rename_i h
      rw [h]
    · rfl
  rw [Engines.withRegistry, hsame]

end

section
variable [Printing] {registryRepr : Nat → Str} {s : Engines} {registry : Nat}
  {root : Option DiscoveryRoot}

theorem discoverAndRegister_returns {r : DiscoveryRoot} {held : PluginRegistry} :
    Returns (discoverAndRegister r held).1 ↔ ∃ plugins, r.Finds held plugins := by
  unfold discoverAndRegister DiscoveryRoot.Finds
  cases r.scan with
  | error exc => simp [Returns]
  | ok loaded => simp [Returns, registerEach_eq_ok]

theorem DiscoveryRoot.Finds.entries {r : DiscoveryRoot} {held : PluginRegistry}
    {plugins : List Plugin} (h : r.Finds held plugins) :
    (discoverAndRegister r held).2.plugins.entries =
      held.plugins.entries ++ plugins.map fun plugin => (plugin.metadata.id, plugin) := by
  obtain ⟨loaded, hscan, hregistrable⟩ := h
  rw [discoverAndRegister, hscan]
  exact hregistrable.entries []

theorem Engines.Rejects.build_eq (h : s.Rejects registry root) :
    s.buildFrom registryRepr registry root =
      ((s.build registryRepr registry).1, s.discovered registry root) := by
  cases root with
  | none => simp [Engines.buildFrom, Engines.build, Engines.discovered, h.owned]
  | some r =>
    obtain ⟨plugins, hplugins⟩ := h.discovered r rfl
    simp only [Engines.buildFrom, Engines.discovered]
    rcases hd : discoverAndRegister r (s.registries registry) with ⟨outcome, changed⟩
    obtain rfl : outcome = .ok plugins := by rw [← hplugins, hd]
    have howned : (s.withRegistry registry changed).owned registry = true := h.owned
    simp [Engines.build, howned, h.owned]

theorem intact_refl : s.Intact s registry := ⟨rfl, fun _ _ c hc => ⟨c, hc, rfl⟩⟩

/-- A build that is rejected because the registry is owned leaves everything
intact exactly if the configured discovery, where it returns, finds nothing. -/
theorem build_intact_iff (registryRepr : Nat → Str) (s : Engines) (registry : Nat)
    (root : Option DiscoveryRoot) :
    (s.Rejects registry root →
      s.Intact (s.buildFrom registryRepr registry root).2 registry) ↔
    (s.owned registry = true → ∀ r ∈ root, ∀ plugins,
      r.Finds (s.registries registry) plugins → plugins = []) := by
  constructor
  · intro hintact howned r hr plugins hfinds
    obtain rfl : root = some r := hr
    have hrejects : s.Rejects registry (some r) := by
      refine ⟨howned, fun r' hr' => ?_⟩
      obtain rfl : r = r' := Option.some.inj hr'
      exact discoverAndRegister_returns.mpr ⟨plugins, hfinds⟩
    have hsame := (hintact hrejects).contents
    rw [hrejects.build_eq] at hsame
    simp only [Engines.discovered, withRegistry_self] at hsame
    have hentries := hfinds.entries
    rw [hsame, List.self_eq_append_right, List.map_eq_nil_iff] at hentries
    exact hentries
  · intro hnone hrejects
    rw [hrejects.build_eq]
    cases root with
    | none => exact intact_refl
    | some r =>
      obtain ⟨plugins, hfinds⟩ := discoverAndRegister_returns.mp (hrejects.discovered r rfl)
      obtain rfl := hnone hrejects.owned r rfl plugins hfinds
      have hsame : (discoverAndRegister r (s.registries registry)).2 = s.registries registry := by
        have hentries := hfinds.entries
        generalize discoverAndRegister r (s.registries registry) = discovered at hentries ⊢
        obtain ⟨outcome, changed, keyed⟩ := discovered
        obtain rfl : changed = (s.registries registry).plugins := Dict.ext (by simpa using hentries)
        rfl
      simp only [Engines.discovered, hsame, withRegistry_same]
      exact intact_refl

end

-- ---------------------------------------------------------------------------
-- A second build that discovers a plugin
-- ---------------------------------------------------------------------------

def onePluginRoot : DiscoveryRoot := ⟨lit "'plugins'", .ok [.ok firstPlugin]⟩

def ownedRegistry : Engines := (@enginesMachine plainPrinting hooksReturn decimal).after .new [.build 0]

/-- The build is rejected, but the engine that owns the registry starts the
plugin now. -/
theorem rejectedBuild_notIntact :
    ¬ (@Engines.Rejects plainPrinting ownedRegistry 0 (some onePluginRoot) →
      @Engines.Intact plainPrinting ownedRegistry
        (@Engines.buildFrom plainPrinting decimal ownedRegistry 0 (some onePluginRoot)).2 0) := by
  intro hall
  have hrejects : @Engines.Rejects plainPrinting ownedRegistry 0 (some onePluginRoot) := by
    refine @Engines.Rejects.mk plainPrinting _ _ _ (by decide) fun r hr => ?_
    obtain rfl : onePluginRoot = r := Option.some.inj hr
    exact ⟨[firstPlugin], rfl⟩
  have hcalled : (⟨firstPlugin, .initializePlugin⟩ : HookCall) ∈
      (@Engines.drive plainPrinting (@startOne plainPrinting hooksReturn)
        (@Engines.buildFrom plainPrinting decimal ownedRegistry 0 (some onePluginRoot)).2 0).2.calls := by
    decide
  obtain ⟨c, hc, -⟩ := @Engines.Intact.untouched plainPrinting _ _ _ (hall hrejects) hooksReturn 0
    _ hcalled
  have hnone : (@Engines.drive plainPrinting (@startOne plainPrinting hooksReturn)
      ownedRegistry 0).2.calls = [] := rfl
  rw [hnone] at hc
  cases hc

end MellivorKernel
