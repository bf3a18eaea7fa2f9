import MellivorKernel.AIEngine.Fleet
import MellivorKernel.AIEngine.Instances

/-!
# Engines that share registries over time

`AIEngine.__init__` with `_registry_owners`, any number of engines and
registries. A registry has one live engine at most. The engine remembers which
plugins were initialized, and takes that with it when it is dropped: a plugin
is initialized once if no engine is built on a registry whose plugins have been
initialized (`initialize_atMostOnce`).
-/

namespace MellivorKernel

open Python Foundation

structure AIEngine where
  pluginRegistry : Nat
  pluginLifecycles : PluginLifecycles

/-- The live engines and all registries, each by its identity. `owners` is the
weak table: what it refers to may be dropped. -/
structure Engines where
  registries : Nat → PluginRegistry
  engines : Dict Nat AIEngine
  owners : Dict Nat Nat
  built : Nat
  calls : List HookCall

def Engines.new : Engines := ⟨fun _ => .new, Dict.empty, Dict.empty, 0, []⟩

inductive EnginesOp
  | build (registry : Nat)
  | drop (engine : Nat)
  | register (registry : Nat) (plugin : Plugin)
  | startPlugins (engine : Nat)
  | stopPlugins (engine : Nat)

/-- `existing_owner is not None and existing_owner() is not None` -/
def Engines.owned (s : Engines) (registry : Nat) : Bool :=
  (s.owners.get? registry).any fun owner => (s.engines.get? owner).isSome

section
variable [Printing] (answers : Answers) (registryRepr : Nat → Str)

/-- `AIEngine(plugin_registry=registry)`; the engine gets the next identity. -/
def Engines.build (s : Engines) (registry : Nat) : Except Exn Unit × Engines :=
  if s.owned registry then
    (.error (.raised .aiEngineError (registryRepr registry ++
      lit " is already owned by another live AIEngine. " ++
      lit "Each AIEngine must be built with an exclusive PluginRegistry.")), s)
  else (.ok (), { s with
    engines := s.engines.set s.built ⟨registry, Dict.empty⟩
    owners := s.owners.set registry s.built
    built := s.built + 1 })

def Engines.drive (move : PluginLifecycle → List HookCall → Driven PluginLifecycle) (s : Engines)
    (engineId : Nat) : Except Exn Unit × Engines :=
  match s.engines.get? engineId with
  | none => (.ok (), s)
  | some engine =>
    let registry := s.registries engine.pluginRegistry
    let (outcome, lifecycles, calls) :=
      driveEach move registry registry.enumerate engine.pluginLifecycles s.calls
    (outcome, { s with
      engines := s.engines.set engineId { engine with pluginLifecycles := lifecycles }
      calls := calls })

def enginesMachine : Machine Engines EnginesOp (Except Exn Unit)
  | s, .build registry => s.build registryRepr registry
  | s, .drop engine => (.ok (), { s with engines := s.engines.erase engine })
  | s, .register registry plugin =>
    match (s.registries registry).register plugin with
    | .error exc => (.error exc, s)
    | .ok changed =>
      (.ok (), { s with registries := fun r => if r = registry then changed else s.registries r })
  | s, .startPlugins engine => s.drive (startOne answers) engine
  | s, .stopPlugins engine => s.drive (PluginLifecycle.stop answers) engine

end

-- ---------------------------------------------------------------------------
-- Owners
-- ---------------------------------------------------------------------------

/-- The table refers to every live engine. -/
structure Engines.Exclusive (s : Engines) : Prop where
  owner : ∀ id engine, s.engines.get? id = some engine →
    s.owners.get? engine.pluginRegistry = some id
  numbered : ∀ id engine, s.engines.get? id = some engine → id < s.built

theorem Engines.exclusive_new : Engines.new.Exclusive := ⟨nofun, nofun⟩

section
variable {s : Engines}

theorem Engines.Exclusive.unique (h : s.Exclusive) {id id' : Nat} {engine engine' : AIEngine}
    (hget : s.engines.get? id = some engine) (hget' : s.engines.get? id' = some engine')
    (hsame : engine.pluginRegistry = engine'.pluginRegistry) : id = id' := by
  have howner := h.owner id engine hget
  rw [hsame, h.owner id' engine' hget'] at howner
  exact (Option.some.inj howner).symm

theorem Engines.Exclusive.owned (h : s.Exclusive) {id : Nat} {engine : AIEngine}
    (hget : s.engines.get? id = some engine) : s.owned engine.pluginRegistry = true := by
  simp [Engines.owned, h.owner id engine hget, hget]

theorem Engines.Exclusive.drop (h : s.Exclusive) (id : Nat) :
    ({ s with engines := s.engines.erase id } : Engines).Exclusive := by
  have hkept {id' : Nat} {engine : AIEngine} (hget : (s.engines.erase id).get? id' = some engine) :
      s.engines.get? id' = some engine := by
    rw [Dict.get?_erase] at hget
    split at hget
    · cases hget
    · exact hget
  exact ⟨fun id' engine hget => h.owner id' engine (hkept hget),
    fun id' engine hget => h.numbered id' engine (hkept hget)⟩

theorem Engines.Exclusive.build (h : s.Exclusive) {registry : Nat}
    (hfree : s.owned registry = false) : ({ s with
      engines := s.engines.set s.built ⟨registry, Dict.empty⟩
      owners := s.owners.set registry s.built
      built := s.built + 1 } : Engines).Exclusive := by
  constructor <;> intro id engine hget <;> simp only [Dict.get?_set] at hget ⊢ <;> split at hget
  · rename_i hid
    cases hget
    simp [hid]
  · have hother : engine.pluginRegistry ≠ registry := by
      rintro rfl
      rw [h.owned hget] at hfree
      cases hfree
    rw [if_neg hother, h.owner id engine hget]
  · omega
  · have hlt := h.numbered id engine hget
    omega

theorem Engines.Exclusive.changed (h : s.Exclusive) {id : Nat} {engine : AIEngine}
    (hget : s.engines.get? id = some engine) (lifecycles : PluginLifecycles)
    (calls : List HookCall) : ({ s with
      engines := s.engines.set id { engine with pluginLifecycles := lifecycles }
      calls := calls } : Engines).Exclusive := by
  constructor <;> intro id' engine' hget' <;> simp only [Dict.get?_set] at hget' <;> split at hget'
  · rename_i hid
    cases hget'
    exact hid ▸ h.owner id engine hget
  · exact h.owner id' engine' hget'
  · rename_i hid
    cases hget'
    exact hid ▸ h.numbered id engine hget
  · exact h.numbered id' engine' hget'

end

section
variable [Printing] {answers : Answers} {registryRepr : Nat → Str} {s : Engines}

theorem Engines.Exclusive.drive (h : s.Exclusive)
    (move : PluginLifecycle → List HookCall → Driven PluginLifecycle) (id : Nat) :
    (s.drive move id).2.Exclusive := by
  unfold Engines.drive
  split
  · exact h
  · rename_i engine hget
    exact h.changed hget _ _

theorem engines_exclusive (op : EnginesOp) (h : s.Exclusive) :
    (enginesMachine answers registryRepr s op).2.Exclusive := by
  cases op with
  | build registry =>
    simp only [enginesMachine, Engines.build]
    split
    · exact h
    · rename_i hfree
      exact h.build (Bool.eq_false_iff.mpr hfree)
  | drop engine => exact h.drop engine
  | register registry plugin =>
    simp only [enginesMachine]
    split
    · exact h
    · exact ⟨h.owner, h.numbered⟩
  | startPlugins engine => exact h.drive _ _
  | stopPlugins engine => exact h.drive _ _

end

-- ---------------------------------------------------------------------------
-- Plugins of one registry
-- ---------------------------------------------------------------------------

def PluginRegistry.Holds (registry : PluginRegistry) (plugin : Plugin) : Prop :=
  registry.plugins.get? plugin.metadata.id = some plugin

def Engines.Only (s : Engines) (registry : Nat) (plugin : Plugin) : Prop :=
  ∀ r, (s.registries r).Holds plugin ↔ r = registry

/-- An engine is built only on a registry of whose plugins none has been
initialized. -/
def Engines.Unused (s : Engines) : EnginesOp → Prop
  | .build registry => s.owned registry = false → ∀ plugin, s.Only registry plugin →
    ⟨plugin, .initializePlugin⟩ ∉ s.calls
  | _ => True

/-- A move that initializes only what is `REGISTERED`, once, and leaves it
otherwise. -/
def InitializesOnce (move : PluginLifecycle → List HookCall → Driven PluginLifecycle) : Prop :=
  ∀ lifecycle calls, ∃ new, (move lifecycle calls).2.2 = calls ++ new ∧
    (∀ c ∈ new, c.plugin = lifecycle.plugin) ∧
    ((⟨lifecycle.plugin, .initializePlugin⟩ ∉ new ∧
        ((move lifecycle calls).2.1.state = .registered → lifecycle.state = .registered)) ∨
      (new.count ⟨lifecycle.plugin, .initializePlugin⟩ = 1 ∧ lifecycle.state = .registered ∧
        (move lifecycle calls).2.1.state ≠ .registered))

theorem startOne_initializesOnce [Printing] (answers : Answers) :
    InitializesOnce (startOne answers) := by
  intro lifecycle calls
  have hspec := startOne_spec answers lifecycle calls
  generalize startOne answers lifecycle calls = started at hspec ⊢
  cases hspec with
  | initialized h outcome state hstate =>
    refine ⟨_, rfl, by simp, .inr ⟨by simp, h, ?_⟩⟩
    rcases hstate with rfl | rfl <;> nofun
  | uninitialized h exc => exact ⟨_, rfl, by simp, .inr ⟨by simp, h, nofun⟩⟩
  | again h outcome state hstate =>
    refine ⟨_, rfl, by simp, .inl ⟨by simp, fun hstate' => ?_⟩⟩
    rcases hstate with rfl | rfl <;> cases hstate'
  | refused h exc => exact ⟨[], by simp, by simp, .inl ⟨by simp, id⟩⟩

theorem stop_initializesOnce [Printing] (answers : Answers) :
    InitializesOnce (PluginLifecycle.stop answers) := by
  intro lifecycle calls
  have hspec := lifecycle.transition_spec answers [.running] "stop" .stop .stopped calls
  unfold PluginLifecycle.stop
  generalize PluginLifecycle.transition _ _ _ _ _ _ _ = stopped at hspec ⊢
  cases hspec with
  | refused h exc => exact ⟨[], by simp, by simp, .inl ⟨by simp, id⟩⟩
  | made h => exact ⟨_, rfl, by simp, .inl ⟨by simp, nofun⟩⟩
  | failed h exc => exact ⟨_, rfl, by simp, .inl ⟨by simp, nofun⟩⟩

/-- The registry holds the plugin of every lifecycle. Of the plugins in
question each was initialized once at most, and not if its lifecycle says so. -/
structure Remembers (P : Plugin → Prop) (registry : PluginRegistry)
    (lifecycles : PluginLifecycles) (calls : List HookCall) : Prop where
  held : ∀ id lifecycle, lifecycles.get? id = some lifecycle →
    registry.plugins.get? id = some lifecycle.plugin
  once : ∀ plugin, P plugin → calls.count ⟨plugin, .initializePlugin⟩ ≤ 1
  pending : ∀ plugin, P plugin → stateOf lifecycles plugin = .registered →
    ⟨plugin, .initializePlugin⟩ ∉ calls

section
variable [Printing] {P : Plugin → Prop} {registry : PluginRegistry}
  {lifecycles : PluginLifecycles} {calls : List HookCall}
  {move : PluginLifecycle → List HookCall → Driven PluginLifecycle}

theorem Remembers.of_lifecycle (h : Remembers P registry lifecycles calls) {id : Str}
    {lifecycle : PluginLifecycle} (hl : lifecycleFor registry lifecycles id = .ok lifecycle) :
    registry.plugins.get? id = some lifecycle.plugin ∧
      stateOf lifecycles lifecycle.plugin = lifecycle.state := by
  rcases lifecycleFor_cases hl with hget | ⟨hget, hplugin, hregistered⟩
  · have hheld := h.held _ _ hget
    exact ⟨hheld, by simp [stateOf, registry.keyed _ _ hheld, hget]⟩
  · exact ⟨hplugin, by simp [stateOf, registry.keyed _ _ hplugin, hget, hregistered]⟩

theorem Remembers.moved (hP : ∀ plugin, P plugin → registry.Holds plugin) (hm : Moves move)
    (honce : InitializesOnce move) (h : Remembers P registry lifecycles calls) {id : Str}
    {lifecycle : PluginLifecycle}
    (hl : lifecycleFor registry lifecycles id = .ok lifecycle) :
    Remembers P registry (lifecycles.set id (move lifecycle calls).2.1)
      (move lifecycle calls).2.2 := by
  obtain ⟨hplugin, hof⟩ := h.of_lifecycle hl
  obtain ⟨new, hnew, hown, hmoved⟩ := honce lifecycle calls
  have hkept := hm.plugin lifecycle calls
  obtain ⟨plugin, state⟩ := lifecycle
  generalize move ⟨plugin, state⟩ calls = moved at hnew hmoved hkept ⊢
  obtain ⟨outcome, ⟨plugin', state'⟩, calls'⟩ := moved
  simp only at hnew hkept hmoved hplugin hof
  subst hkept hnew
  have hid := registry.keyed _ _ hplugin
  subst hid
  -- another plugin in question has another id, and is not called
  have hother {other : Plugin} (ho : P other) (hne : other ≠ plugin') :
      stateOf (lifecycles.set plugin'.metadata.id ⟨plugin', state'⟩) other =
        stateOf lifecycles other ∧ ⟨other, .initializePlugin⟩ ∉ new := by
    refine ⟨?_, fun hmem => hne (hown _ hmem)⟩
    rw [stateOf_set, if_neg hne, if_neg]
    intro hsame
    have hholds := hP other ho
    rw [PluginRegistry.Holds, hsame, hplugin] at hholds
    exact hne (Option.some.inj hholds).symm
  refine ⟨?_, ?_, ?_⟩
  · intro id lifecycle hget
    rw [Dict.get?_set] at hget
    split at hget
    · cases hget
      simp [*]
    · exact h.held id lifecycle hget
  · intro other ho
    rw [List.count_append]
    by_cases hne : other = plugin'
    · subst hne
      rcases hmoved with ⟨hnot, -⟩ | ⟨hcount, hregistered, -⟩
      · rw [List.count_eq_zero.mpr hnot]
        exact h.once other ho
      · have hzero := h.pending other ho (hof.trans hregistered)
        rw [List.count_eq_zero.mpr hzero, hcount]
    · rw [List.count_eq_zero.mpr (hother ho hne).2]
      exact h.once other ho
  · intro other ho hregistered hmem
    by_cases hne : other = plugin'
    · subst hne
      rw [stateOf_set, if_pos rfl] at hregistered
      rcases hmoved with ⟨hnot, hback⟩ | ⟨-, -, hleft⟩
      · rcases List.mem_append.mp hmem with hmem | hmem
        · exact h.pending other ho (hof.trans (hback hregistered)) hmem
        · exact hnot hmem
      · exact hleft hregistered
    · obtain ⟨hsame, hnot⟩ := hother ho hne
      rw [hsame] at hregistered
      rcases List.mem_append.mp hmem with hmem | hmem
      · exact h.pending other ho hregistered hmem
      · exact hnot hmem

theorem driveEach_remembers (hP : ∀ plugin, P plugin → registry.Holds plugin) (hm : Moves move)
    (honce : InitializesOnce move) (h : Remembers P registry lifecycles calls)
    (enumerated : List PluginMetadata) :
    Remembers P registry (driveEach move registry enumerated lifecycles calls).2.1
      (driveEach move registry enumerated lifecycles calls).2.2 ∧
    ∃ new, (driveEach move registry enumerated lifecycles calls).2.2 = calls ++ new ∧
      ∀ c ∈ new, registry.Holds c.plugin := by
  refine driveEach_invariant (fun lifecycles' calls' => Remembers P registry lifecycles' calls' ∧
    ∃ new, calls' = calls ++ new ∧ ∀ c ∈ new, registry.Holds c.plugin) ?_ ⟨h, [], by simp, by simp⟩
  rintro metadata - lifecycles' calls' lifecycle ⟨h', new, rfl, hnew⟩ hl
  obtain ⟨hplugin, -⟩ := h'.of_lifecycle hl
  obtain ⟨more, hmore, hown, -⟩ := honce lifecycle (calls ++ new)
  refine ⟨h'.moved hP hm honce hl, new ++ more, by rw [hmore, List.append_assoc], fun c hc => ?_⟩
  rcases List.mem_append.mp hc with hc | hc
  · exact hnew c hc
  · rw [PluginRegistry.Holds, hown c hc]
    rwa [registry.keyed _ _ hplugin]

end

-- ---------------------------------------------------------------------------
-- All engines
-- ---------------------------------------------------------------------------

/-- Each live engine remembers the plugins that only its registry has, and
every plugin that was initialized is registered somewhere. -/
structure Engines.Sound (s : Engines) : Prop where
  exclusive : s.Exclusive
  remembers : ∀ id engine, s.engines.get? id = some engine →
    Remembers (s.Only engine.pluginRegistry) (s.registries engine.pluginRegistry)
      engine.pluginLifecycles s.calls
  once : ∀ registry plugin, s.Only registry plugin → s.calls.count ⟨plugin, .initializePlugin⟩ ≤ 1
  called : ∀ plugin, ⟨plugin, .initializePlugin⟩ ∈ s.calls → ∃ r, (s.registries r).Holds plugin

theorem Engines.sound_new : Engines.new.Sound := by
  refine ⟨Engines.exclusive_new, nofun, fun _ _ _ => ?_, nofun⟩
  simp [Engines.new]

section
variable {s : Engines}

theorem Engines.Only.holds {registry : Nat} {plugin : Plugin} (h : s.Only registry plugin) :
    (s.registries registry).Holds plugin := (h registry).mpr rfl

theorem Engines.Sound.drop (h : s.Sound) (id : Nat) :
    ({ s with engines := s.engines.erase id } : Engines).Sound := by
  refine ⟨h.exclusive.drop id, fun id' engine hget => ?_, h.once, h.called⟩
  simp only [Dict.get?_erase] at hget
  split at hget
  · cases hget
  · exact h.remembers id' engine hget

theorem Engines.Sound.build (h : s.Sound) {registry : Nat} (hfree : s.owned registry = false)
    (hunused : ∀ plugin, s.Only registry plugin → ⟨plugin, .initializePlugin⟩ ∉ s.calls) :
    ({ s with
      engines := s.engines.set s.built ⟨registry, Dict.empty⟩
      owners := s.owners.set registry s.built
      built := s.built + 1 } : Engines).Sound := by
  refine ⟨h.exclusive.build hfree, fun id engine hget => ?_, h.once, h.called⟩
  simp only [Dict.get?_set] at hget
  split at hget
  · cases hget
    exact ⟨nofun, fun plugin honly => h.once registry plugin honly,
      fun plugin honly _ => hunused plugin honly⟩
  · exact h.remembers id engine hget

theorem register_holds [Printing] {registry changed : PluginRegistry} {plugin : Plugin}
    (h : registry.register plugin = .ok changed) :
    (∀ id lifecycle, registry.plugins.get? id = some lifecycle →
      changed.plugins.get? id = some lifecycle) ∧
    (∀ other, changed.Holds other ↔ registry.Holds other ∨ other = plugin) ∧
    ¬ registry.Holds plugin := by
  unfold PluginRegistry.register at h
  split at h
  · cases h
  · rename_i hnew
    cases h
    have hnone : registry.plugins.get? plugin.metadata.id = none := Dict.get?_eq_none.mpr hnew
    refine ⟨fun id held hget => ?_, fun other => ?_, ?_⟩
    · refine (Dict.get?_set_ne _ ?_ _).trans hget
      rintro rfl
      rw [hnone] at hget
      cases hget
    · unfold PluginRegistry.Holds
      rw [Dict.get?_set]
      split
      · rename_i hsame
        rw [hsame, hnone]
        simp [eq_comm]
      · rename_i hid
        refine ⟨.inl, ?_⟩
        rintro (hget | rfl)
        · exact hget
        · exact absurd rfl hid
    · simp [PluginRegistry.Holds, hnone]

/-- A plugin of one registry after `plugin` was registered was one before, or
it is this plugin and nothing was known of it. -/
theorem only_registered {registry : Nat} {plugin : Plugin} {changed : PluginRegistry}
    (hholds : ∀ other, changed.Holds other ↔ (s.registries registry).Holds other ∨ other = plugin)
    (hnew : ¬ (s.registries registry).Holds plugin) {r : Nat} {other : Plugin}
    (h : ({ s with registries := fun r => if r = registry then changed else s.registries r } :
      Engines).Only r other) :
    s.Only r other ∨ ∀ r', ¬ (s.registries r').Holds other := by
  by_cases ho : other = plugin
  · subst ho
    have hr : registry = r := (h registry).mp (by simp [hholds])
    subst hr
    refine .inr fun r' hr' => ?_
    by_cases hreg : r' = registry
    · exact hnew (hreg ▸ hr')
    · exact hreg ((h r').mp (by simpa [hreg] using hr'))
  · refine .inl fun r' => ?_
    rw [← h r']
    by_cases hreg : r' = registry
    · simp [hreg, hholds, ho]
    · simp [hreg]

theorem Engines.Sound.register [Printing] (h : s.Sound) {registry : Nat} {plugin : Plugin}
    {changed : PluginRegistry} (hregister : (s.registries registry).register plugin = .ok changed) :
    ({ s with registries := fun r => if r = registry then changed else s.registries r } :
      Engines).Sound := by
  obtain ⟨hkept, hholds, hnew⟩ := register_holds hregister
  have hunknown {other : Plugin} (hnone : ∀ r, ¬ (s.registries r).Holds other) :
      ⟨other, .initializePlugin⟩ ∉ s.calls := fun hmem =>
    let ⟨r, hr⟩ := h.called other hmem
    hnone r hr
  have honce (r : Nat) (other : Plugin) (honly : ({ s with
      registries := fun r => if r = registry then changed else s.registries r } :
        Engines).Only r other) : s.calls.count ⟨other, .initializePlugin⟩ ≤ 1 := by
    rcases only_registered hholds hnew honly with honly | hnone
    · exact h.once r other honly
    · rw [List.count_eq_zero.mpr (hunknown hnone)]
      exact Nat.zero_le 1
  refine ⟨⟨h.exclusive.owner, h.exclusive.numbered⟩, fun id engine hget => ?_, honce, ?_⟩
  · have hremembers := h.remembers id engine hget
    refine ⟨fun id' lifecycle hl => ?_, fun other => honce _ other, fun other honly hstate => ?_⟩
    · have hheld := hremembers.held id' lifecycle hl
      simp only
      split
      · rename_i hreg
        exact hkept _ _ (hreg ▸ hheld)
      · exact hheld
    · rcases only_registered hholds hnew honly with honly | hnone
      · exact hremembers.pending other honly hstate
      · exact hunknown hnone
  · intro other hmem
    obtain ⟨r, hr⟩ := h.called other hmem
    refine ⟨r, ?_⟩
    simp only
    split
    · rename_i hreg
      exact (hholds other).mpr (.inl (hreg ▸ hr))
    · exact hr

theorem Engines.Sound.drive [Printing] (h : s.Sound)
    {move : PluginLifecycle → List HookCall → Driven PluginLifecycle} (hm : Moves move)
    (honce : InitializesOnce move) (id : Nat) : (s.drive move id).2.Sound := by
  have hexclusive := h.exclusive.drive move id
  unfold Engines.drive at hexclusive ⊢
  split at hexclusive
  · exact h
  · rename_i engine hget
    obtain ⟨hremembers, new, hnew, hown⟩ := driveEach_remembers
      (fun plugin honly => Engines.Only.holds honly) hm honce (h.remembers id engine hget)
      (s.registries engine.pluginRegistry).enumerate
    simp only at hexclusive ⊢
    generalize driveEach move (s.registries engine.pluginRegistry) _ _ _ = driven
      at hremembers hnew hexclusive ⊢
    obtain ⟨outcome, lifecycles, calls⟩ := driven
    simp only at hnew hremembers hexclusive ⊢
    subst hnew
    -- a plugin that only another registry has was not called
    have hcount (r : Nat) (plugin : Plugin) (honly : s.Only r plugin)
        (hr : r ≠ engine.pluginRegistry) : ⟨plugin, .initializePlugin⟩ ∉ new := by
      intro hmem
      exact hr ((honly _).mp (hown _ hmem)).symm
    refine ⟨hexclusive, fun id' engine' hget' => ?_, fun r plugin honly => ?_, ?_⟩
    · rw [Dict.get?_set] at hget'
      split at hget'
      · cases hget'
        exact hremembers
      · rename_i hid
        have hr : engine'.pluginRegistry ≠ engine.pluginRegistry := fun hsame =>
          hid (h.exclusive.unique hget' hget hsame)
        have hothers := h.remembers id' engine' hget'
        refine ⟨hothers.held, fun plugin honly => ?_, fun plugin honly hstate hmem => ?_⟩
        · rw [List.count_append, List.count_eq_zero.mpr (hcount _ plugin honly hr)]
          exact hothers.once plugin honly
        · rcases List.mem_append.mp hmem with hmem | hmem
          · exact hothers.pending plugin honly hstate hmem
          · exact hcount _ plugin honly hr hmem
    · by_cases hr : r = engine.pluginRegistry
      · subst hr
        exact hremembers.once plugin honly
      · rw [List.count_append, List.count_eq_zero.mpr (hcount r plugin honly hr)]
        exact h.once r plugin honly
    · intro plugin hmem
      rcases List.mem_append.mp hmem with hmem | hmem
      · exact h.called plugin hmem
      · exact ⟨_, hown _ hmem⟩

end

section
variable [Printing] {answers : Answers} {registryRepr : Nat → Str} {s : Engines}

theorem engines_sound {op : EnginesOp} (hop : s.Unused op) (h : s.Sound) :
    (enginesMachine answers registryRepr s op).2.Sound := by
  cases op with
  | build registry =>
    simp only [enginesMachine, Engines.build]
    split
    · exact h
    · rename_i hfree
      have hfree' := Bool.eq_false_iff.mpr hfree
      exact h.build hfree' (hop hfree')
  | drop engine => exact h.drop engine
  | register registry plugin =>
    simp only [enginesMachine]
    split
    · exact h
    · rename_i hregister
      exact h.register hregister
  | startPlugins engine =>
    exact h.drive (startOne_moves answers) (startOne_initializesOnce answers) engine
  | stopPlugins engine =>
    exact h.drive (stop_moves answers) (stop_initializesOnce answers) engine

/-- In every run a registry has one live engine at most. In a run that builds
engines only on registries of whose plugins none has been initialized, a plugin
of one registry is initialized at most once. Both hold whatever the hooks do. -/
theorem initialize_atMostOnce (ops : List EnginesOp) :
    (∀ id id' engine engine',
      ((enginesMachine answers registryRepr).after .new ops).engines.get? id = some engine →
      ((enginesMachine answers registryRepr).after .new ops).engines.get? id' = some engine' →
      engine.pluginRegistry = engine'.pluginRegistry → id = id') ∧
    ((enginesMachine answers registryRepr).Along Engines.Unused .new ops →
      ∀ registry plugin,
        ((enginesMachine answers registryRepr).after .new ops).Only registry plugin →
        ((enginesMachine answers registryRepr).after .new ops).calls.count
          ⟨plugin, .initializePlugin⟩ ≤ 1) := by
  constructor
  · have hexclusive := Machine.after_invariant (m := enginesMachine answers registryRepr)
      (fun _ op _ => engines_exclusive op) (fun _ (_ : _ ∈ ops) => trivial) Engines.exclusive_new
    exact fun _ _ _ _ => hexclusive.unique
  · intro hops
    obtain ⟨-, hsound⟩ := Machine.along_invariant (Q := fun _ _ => True)
      (fun _ _ hop h => ⟨trivial, engines_sound hop h⟩) hops Engines.sound_new
    exact hsound.once

end

-- ---------------------------------------------------------------------------
-- A second engine on a registry
-- ---------------------------------------------------------------------------

def secondEngine : List EnginesOp :=
  [.build 0, .register 0 oldInstance, .startPlugins 0, .drop 0, .build 0, .startPlugins 1]

theorem secondEngine_initializesAgain :
    ((@enginesMachine plainPrinting hooksReturn decimal).after .new secondEngine).Only 0 oldInstance ∧
    ((@enginesMachine plainPrinting hooksReturn decimal).after .new secondEngine).calls.count
      ⟨oldInstance, .initializePlugin⟩ = 2 := by
  refine ⟨fun r => ⟨fun hholds => ?_, fun hr => ?_⟩, by decide⟩
  · by_contra hr
    have hnew : ((@enginesMachine plainPrinting hooksReturn decimal).after .new
        secondEngine).registries r = .new := if_neg hr
    rw [hnew] at hholds
    cases hholds
  · subst hr
    rfl

def unusedRegistry : List EnginesOp :=
  [.build 0, .register 0 oldInstance, .drop 0, .build 0, .startPlugins 1, .stopPlugins 1]

theorem unusedRegistry_initializesOnce :
    ((@enginesMachine plainPrinting hooksReturn decimal).after .new unusedRegistry).calls.count
      ⟨oldInstance, .initializePlugin⟩ ≤ 1 := by
  refine (@initialize_atMostOnce plainPrinting hooksReturn decimal unusedRegistry).2 ?_ 0
    oldInstance fun r => ⟨fun hholds => ?_, fun hr => ?_⟩
  · exact ⟨fun _ _ _ => nofun, trivial, trivial, fun _ _ _ => nofun, trivial, trivial, trivial⟩
  · by_contra hr
    have hnew : ((@enginesMachine plainPrinting hooksReturn decimal).after .new
        unusedRegistry).registries r = .new := if_neg hr
    rw [hnew] at hholds
    cases hholds
  · subst hr
    rfl

end MellivorKernel
