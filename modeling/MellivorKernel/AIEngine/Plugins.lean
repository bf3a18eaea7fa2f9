import MellivorKernel.Foundation.Machine
import MellivorKernel.Plugins.Lifecycle

/-!
# Driving a plugin fleet

`AIEngine.start_plugins`, `stop_plugins` and `dispose_plugins`. Each goes
through the registry in order and moves the lifecycle the engine keeps for
every plugin id, until one raises.
-/

namespace MellivorKernel

open Python Foundation

abbrev PluginLifecycles := Dict Str PluginLifecycle

section
variable [Printing] (answers : Answers)

/-- `_lifecycle_for`, up to keeping what it creates. -/
def lifecycleFor (registry : PluginRegistry) (lifecycles : PluginLifecycles) (pluginId : Str) :
    Except Exn PluginLifecycle :=
  match lifecycles.get? pluginId with
  | some lifecycle => .ok lifecycle
  | none => (registry.lookup pluginId).map PluginLifecycle.new

/-- A lifecycle is the one kept, or a new one for the registered plugin. -/
theorem lifecycleFor_cases {registry : PluginRegistry} {lifecycles : PluginLifecycles} {id : Str}
    {lifecycle : PluginLifecycle} (h : lifecycleFor registry lifecycles id = .ok lifecycle) :
    lifecycles.get? id = some lifecycle ∨
      (lifecycles.get? id = none ∧ registry.plugins.get? id = some lifecycle.plugin ∧
        lifecycle.state = .registered) := by
  unfold lifecycleFor PluginRegistry.lookup at h
  split at h
  · cases h
    exact .inl ‹_›
  · rename_i hnone
    split at h
    · rename_i plugin hplugin
      cases h
      exact .inr ⟨hnone, hplugin, rfl⟩
    · cases h

/-- `for metadata in self._plugin_registry.enumerate()`, with what is done to
the lifecycle of each. -/
def driveEach (move : PluginLifecycle → List HookCall → Driven PluginLifecycle)
    (registry : PluginRegistry) :
    List PluginMetadata → PluginLifecycles → List HookCall → Driven PluginLifecycles
  | [], lifecycles, calls => (.ok (), lifecycles, calls)
  | metadata :: rest, lifecycles, calls =>
    match lifecycleFor registry lifecycles metadata.id with
    | .error exc => (.error exc, lifecycles, calls)
    | .ok lifecycle =>
      match move lifecycle calls with
      | (.error exc, moved, calls) => (.error exc, lifecycles.set metadata.id moved, calls)
      | (.ok (), moved, calls) =>
        driveEach move registry rest (lifecycles.set metadata.id moved) calls

/-- The body of the loop of `start_plugins`. -/
def startOne (lifecycle : PluginLifecycle) (calls : List HookCall) : Driven PluginLifecycle :=
  if lifecycle.state = .registered then
    match lifecycle.initializePlugin answers calls with
    | (.ok (), lifecycle, calls) => lifecycle.start answers calls
    | raised => raised
  else lifecycle.start answers calls

def startPlugins (registry : PluginRegistry) :
    PluginLifecycles → List HookCall → Driven PluginLifecycles :=
  driveEach (startOne answers) registry registry.enumerate

def stopPlugins (registry : PluginRegistry) :
    PluginLifecycles → List HookCall → Driven PluginLifecycles :=
  driveEach (PluginLifecycle.stop answers) registry registry.enumerate

def disposePlugins (registry : PluginRegistry) :
    PluginLifecycles → List HookCall → Driven PluginLifecycles :=
  driveEach (PluginLifecycle.dispose answers) registry registry.enumerate

-- ---------------------------------------------------------------------------
-- One plugin
-- ---------------------------------------------------------------------------

/-- What `start_plugins` can do to one plugin. -/
inductive StartedOne (lifecycle : PluginLifecycle) (calls : List HookCall) :
    Driven PluginLifecycle → Prop
  | initialized (h : lifecycle.state = .registered) (outcome : Except Exn Unit)
      (state : PluginLifecycleState) (hstate : state = .running ∨ state = .failed) :
      StartedOne lifecycle calls (outcome, ⟨lifecycle.plugin, state⟩,
        calls ++ [⟨lifecycle.plugin, .initializePlugin⟩, ⟨lifecycle.plugin, .start⟩])
  | uninitialized (h : lifecycle.state = .registered) (exc : Exn) :
      StartedOne lifecycle calls (.error exc, ⟨lifecycle.plugin, .failed⟩,
        calls ++ [⟨lifecycle.plugin, .initializePlugin⟩])
  | again (h : lifecycle.state = .initialized ∨ lifecycle.state = .stopped)
      (outcome : Except Exn Unit) (state : PluginLifecycleState)
      (hstate : state = .running ∨ state = .failed) :
      StartedOne lifecycle calls (outcome, ⟨lifecycle.plugin, state⟩,
        calls ++ [⟨lifecycle.plugin, .start⟩])
  | refused (h : lifecycle.state ≠ .registered) (exc : Exn) :
      StartedOne lifecycle calls (.error exc, lifecycle, calls)

theorem startOne_spec (lifecycle : PluginLifecycle) (calls : List HookCall) :
    StartedOne lifecycle calls (startOne answers lifecycle calls) := by
  unfold startOne PluginLifecycle.initializePlugin PluginLifecycle.start
  split
  · rename_i hregistered
    have hinitialize := lifecycle.transition_spec answers [.registered] "initialize" .initializePlugin
      .initialized calls
    generalize PluginLifecycle.transition answers [.registered] _ _ _ _ _ = initialized
      at hinitialize ⊢
    cases hinitialize with
    | refused h => simp [hregistered] at h
    | failed h exc => exact .uninitialized hregistered exc
    | made h =>
      have hstart := PluginLifecycle.transition_spec answers [.initialized, .stopped] "start" .start
        .running ⟨lifecycle.plugin, .initialized⟩ (calls ++ [⟨lifecycle.plugin, .initializePlugin⟩])
      simp only
      generalize PluginLifecycle.transition answers [.initialized, .stopped] _ _ _ _ _ = started
        at hstart ⊢
      cases hstart with
      | refused h => simp at h
      | made h =>
        simpa using StartedOne.initialized hregistered (.ok ()) .running (.inl rfl)
      | failed h exc =>
        simpa using StartedOne.initialized hregistered (.error exc) .failed (.inr rfl)
  · rename_i hregistered
    have hstart := lifecycle.transition_spec answers [.initialized, .stopped] "start" .start
      .running calls
    generalize PluginLifecycle.transition answers [.initialized, .stopped] _ _ _ _ _ = started
      at hstart ⊢
    cases hstart with
    | refused h exc => exact .refused hregistered exc
    | made h => exact .again (by simpa using h) (.ok ()) .running (.inl rfl)
    | failed h exc => exact .again (by simpa using h) (.error exc) .failed (.inr rfl)

-- ---------------------------------------------------------------------------
-- The loop
-- ---------------------------------------------------------------------------

/-- What moving one lifecycle keeps, the loop keeps, however it ends. -/
theorem driveEach_invariant (Inv : PluginLifecycles → List HookCall → Prop)
    {move : PluginLifecycle → List HookCall → Driven PluginLifecycle} {registry : PluginRegistry}
    {enumerated : List PluginMetadata} {lifecycles : PluginLifecycles} {calls : List HookCall}
    (hmove : ∀ metadata ∈ enumerated, ∀ lifecycles calls lifecycle, Inv lifecycles calls →
      lifecycleFor registry lifecycles metadata.id = .ok lifecycle →
      Inv (lifecycles.set metadata.id (move lifecycle calls).2.1) (move lifecycle calls).2.2)
    (h : Inv lifecycles calls) :
    Inv (driveEach move registry enumerated lifecycles calls).2.1
      (driveEach move registry enumerated lifecycles calls).2.2 := by
  induction enumerated generalizing lifecycles calls with
  | nil => exact h
  | cons metadata rest ih =>
    obtain ⟨hfirst, hrest⟩ := List.forall_mem_cons.mp hmove
    unfold driveEach
    cases hl : lifecycleFor registry lifecycles metadata.id with
    | error exc => exact h
    | ok lifecycle =>
      have hnext := hfirst lifecycles calls lifecycle h hl
      simp only
      rcases hm : move lifecycle calls with ⟨exc | _, moved, calls'⟩
      · rw [hm] at hnext
        exact hnext
      · rw [hm] at hnext
        exact ih hrest hnext

end

-- ---------------------------------------------------------------------------
-- A fleet
-- ---------------------------------------------------------------------------

/-- An engine with its registry, and the hook calls it has made. -/
structure Fleet where
  pluginRegistry : PluginRegistry
  pluginLifecycles : PluginLifecycles
  calls : List HookCall

def Fleet.new : Fleet := ⟨.new, Dict.empty, []⟩

inductive FleetOp
  | register (plugin : Plugin)
  | unregister (pluginId : Str)
  | startPlugins
  | stopPlugins
  | disposePlugins

section
variable [Printing] (answers : Answers)

def Fleet.driven (fleet : Fleet) : Driven PluginLifecycles → Except Exn Unit × Fleet
  | (outcome, lifecycles, calls) =>
    (outcome, { fleet with pluginLifecycles := lifecycles, calls := calls })

def Fleet.reregistered (fleet : Fleet) : Except Exn PluginRegistry → Except Exn Unit × Fleet
  | .ok registry => (.ok (), { fleet with pluginRegistry := registry })
  | .error exc => (.error exc, fleet)

def fleetMachine : Machine Fleet FleetOp (Except Exn Unit)
  | fleet, .register plugin => fleet.reregistered (fleet.pluginRegistry.register plugin)
  | fleet, .unregister pluginId => fleet.reregistered (fleet.pluginRegistry.unregister pluginId)
  | fleet, .startPlugins =>
    fleet.driven (startPlugins answers fleet.pluginRegistry fleet.pluginLifecycles fleet.calls)
  | fleet, .stopPlugins =>
    fleet.driven (stopPlugins answers fleet.pluginRegistry fleet.pluginLifecycles fleet.calls)
  | fleet, .disposePlugins =>
    fleet.driven (disposePlugins answers fleet.pluginRegistry fleet.pluginLifecycles fleet.calls)

end

end MellivorKernel
