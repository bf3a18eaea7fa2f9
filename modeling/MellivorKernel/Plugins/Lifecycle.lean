import MellivorKernel.Foundation.Dict
import MellivorKernel.Python.Printing
import MellivorKernel.Python.Exception

/-!
# Plugins

`PluginRegistry` and `PluginLifecycle`. A plugin is an object: it has an
identity and a snapshot of metadata. What a hook answers may depend on all the
hook calls made before it. The context handed to `initialize` and log lines
are left out.
-/

namespace MellivorKernel

open Python Foundation

structure PluginMetadata where
  id : Str
  id_ok : blank id = false
  deriving DecidableEq

structure Plugin where
  ident : Nat
  metadata : PluginMetadata
  deriving DecidableEq

inductive Hook
  | initializePlugin | start | stop | dispose
  deriving DecidableEq

structure HookCall where
  plugin : Plugin
  hook : Hook
  deriving DecidableEq

abbrev Answers := List HookCall → HookCall → Except Exn Unit

-- ---------------------------------------------------------------------------
-- The registry
-- ---------------------------------------------------------------------------

structure PluginRegistry where
  plugins : Dict Str Plugin
  keyed : ∀ id plugin, plugins.get? id = some plugin → plugin.metadata.id = id

def PluginRegistry.new : PluginRegistry := ⟨Dict.empty, nofun⟩

def PluginRegistry.enumerate (registry : PluginRegistry) : List PluginMetadata :=
  registry.plugins.values.map Plugin.metadata

section
variable [Printing]

def notRegistered (pluginId : Str) : Exn :=
  .raised .pluginRegistrationError (lit "Plugin " ++ pyRepr pluginId ++ lit " is not registered.")

def PluginRegistry.register (registry : PluginRegistry) (plugin : Plugin) :
    Except Exn PluginRegistry :=
  if plugin.metadata.id ∈ registry.plugins then
    .error (.raised .pluginRegistrationError
      (lit "Plugin " ++ pyRepr plugin.metadata.id ++ lit " is already registered."))
  else .ok {
    plugins := registry.plugins.set plugin.metadata.id plugin
    keyed := by
      intro id other h
      rw [Dict.get?_set] at h
      split at h
      · rename_i heq
        cases h
        exact heq.symm
      · exact registry.keyed id other h }

def PluginRegistry.unregister (registry : PluginRegistry) (pluginId : Str) :
    Except Exn PluginRegistry :=
  if pluginId ∈ registry.plugins then .ok {
    plugins := registry.plugins.erase pluginId
    keyed := by
      intro id plugin h
      rw [Dict.get?_erase] at h
      split at h
      · cases h
      · exact registry.keyed id plugin h }
  else .error (notRegistered pluginId)

def PluginRegistry.lookup (registry : PluginRegistry) (pluginId : Str) : Except Exn Plugin :=
  match registry.plugins.get? pluginId with
  | some plugin => .ok plugin
  | none => .error (notRegistered pluginId)

end

theorem PluginRegistry.mem_enumerate {registry : PluginRegistry} {metadata : PluginMetadata} :
    metadata ∈ registry.enumerate ↔
      ∃ plugin, registry.plugins.get? metadata.id = some plugin ∧ plugin.metadata = metadata := by
  simp only [PluginRegistry.enumerate, Dict.values, List.map_map, List.mem_map]
  constructor
  · rintro ⟨⟨id, plugin⟩, hmem, rfl⟩
    have hget := Dict.get?_eq_some.mpr hmem
    refine ⟨plugin, ?_, rfl⟩
    have hid := registry.keyed id plugin hget
    simpa [hid] using hget
  · rintro ⟨plugin, hget, rfl⟩
    exact ⟨_, Dict.get?_eq_some.mp hget, rfl⟩

theorem PluginRegistry.enumerate_nodup (registry : PluginRegistry) :
    (registry.enumerate.map PluginMetadata.id).Nodup := by
  have hids : registry.enumerate.map PluginMetadata.id = registry.plugins.keys := by
    simp only [PluginRegistry.enumerate, Dict.values, Dict.keys, List.map_map]
    refine List.map_congr_left fun p hp => ?_
    exact registry.keyed p.1 p.2 (Dict.get?_eq_some.mpr hp)
  rw [hids]
  exact registry.plugins.nodup

-- ---------------------------------------------------------------------------
-- The lifecycle of one plugin
-- ---------------------------------------------------------------------------

inductive PluginLifecycleState
  | registered | initialized | running | stopped | disposed | failed
  deriving DecidableEq

def PluginLifecycleState.value : PluginLifecycleState → String
  | .registered => "registered"
  | .initialized => "initialized"
  | .running => "running"
  | .stopped => "stopped"
  | .disposed => "disposed"
  | .failed => "failed"

structure PluginLifecycle where
  plugin : Plugin
  state : PluginLifecycleState
  deriving DecidableEq

def PluginLifecycle.new (plugin : Plugin) : PluginLifecycle := ⟨plugin, .registered⟩

/-- How an operation that may call hooks ends: its outcome, what it changed
and the hook calls made so far. -/
abbrev Driven (σ : Type) := Except Exn Unit × σ × List HookCall

section
variable [Printing] (answers : Answers)

def PluginLifecycle.require (lifecycle : PluginLifecycle) (allowed : List PluginLifecycleState)
    (action : String) : Except Exn Unit :=
  if lifecycle.state ∈ allowed then .ok ()
  else .error (.raised .pluginLifecycleError (lit "Cannot " ++ lit action ++ lit " plugin " ++
    pyRepr lifecycle.plugin.metadata.id ++ lit " from state " ++
    pyRepr (lit lifecycle.state.value) ++ lit "."))

def PluginLifecycle.run (lifecycle : PluginLifecycle) (hook : Hook)
    (nextState : PluginLifecycleState) (calls : List HookCall) : Driven PluginLifecycle :=
  match answers calls ⟨lifecycle.plugin, hook⟩ with
  | .ok () => (.ok (), { lifecycle with state := nextState }, calls ++ [⟨lifecycle.plugin, hook⟩])
  | .error exc =>
    (.error (.raised .pluginLifecycleError (lit "Plugin " ++ pyRepr lifecycle.plugin.metadata.id ++
        lit " failed during lifecycle transition to " ++ pyRepr (lit nextState.value) ++ lit ": " ++
        exc.text)),
      { lifecycle with state := .failed }, calls ++ [⟨lifecycle.plugin, hook⟩])

def PluginLifecycle.transition (allowed : List PluginLifecycleState) (action : String) (hook : Hook)
    (nextState : PluginLifecycleState) (lifecycle : PluginLifecycle) (calls : List HookCall) :
    Driven PluginLifecycle :=
  match lifecycle.require allowed action with
  | .error exc => (.error exc, lifecycle, calls)
  | .ok () => lifecycle.run answers hook nextState calls

def PluginLifecycle.initializePlugin : PluginLifecycle → List HookCall → Driven PluginLifecycle :=
  transition answers [.registered] "initialize" .initializePlugin .initialized

def PluginLifecycle.start : PluginLifecycle → List HookCall → Driven PluginLifecycle :=
  transition answers [.initialized, .stopped] "start" .start .running

def PluginLifecycle.stop : PluginLifecycle → List HookCall → Driven PluginLifecycle :=
  transition answers [.running] "stop" .stop .stopped

def PluginLifecycle.dispose (lifecycle : PluginLifecycle) (calls : List HookCall) :
    Driven PluginLifecycle :=
  if lifecycle.state = .disposed then (.ok (), lifecycle, calls)
  else transition answers [.registered, .initialized, .stopped, .failed] "dispose" .dispose
    .disposed lifecycle calls

end

-- ---------------------------------------------------------------------------
-- What a transition can do
-- ---------------------------------------------------------------------------

/-- How a transition with these allowed states ends: refused without a call, or
with one call and in the state it leads to, or failed. -/
inductive Transitioned (allowed : List PluginLifecycleState) (hook : Hook)
    (nextState : PluginLifecycleState) (lifecycle : PluginLifecycle) (calls : List HookCall) :
    Driven PluginLifecycle → Prop
  | refused (h : lifecycle.state ∉ allowed) (exc : Exn) :
      Transitioned allowed hook nextState lifecycle calls (.error exc, lifecycle, calls)
  | made (h : lifecycle.state ∈ allowed) :
      Transitioned allowed hook nextState lifecycle calls
        (.ok (), ⟨lifecycle.plugin, nextState⟩, calls ++ [⟨lifecycle.plugin, hook⟩])
  | failed (h : lifecycle.state ∈ allowed) (exc : Exn) :
      Transitioned allowed hook nextState lifecycle calls
        (.error exc, ⟨lifecycle.plugin, .failed⟩, calls ++ [⟨lifecycle.plugin, hook⟩])

/-- A transition is refused before its hook is called, or it ends as the hook
does. -/
theorem PluginLifecycle.transition_cases [Printing] (answers : Answers)
    (allowed : List PluginLifecycleState) (action : String) (hook : Hook)
    (nextState : PluginLifecycleState) (lifecycle : PluginLifecycle) (calls : List HookCall) :
    let ended := transition answers allowed action hook nextState lifecycle calls
    (lifecycle.state ∉ allowed ∧ ∃ message,
      ended = (.error (.raised .pluginLifecycleError message), lifecycle, calls)) ∨
    (lifecycle.state ∈ allowed ∧ answers calls ⟨lifecycle.plugin, hook⟩ = .ok () ∧
      ended = (.ok (), ⟨lifecycle.plugin, nextState⟩, calls ++ [⟨lifecycle.plugin, hook⟩])) ∨
    (lifecycle.state ∈ allowed ∧ ∃ exc message,
      answers calls ⟨lifecycle.plugin, hook⟩ = .error exc ∧
      ended = (.error (.raised .pluginLifecycleError message), ⟨lifecycle.plugin, .failed⟩,
        calls ++ [⟨lifecycle.plugin, hook⟩])) := by
  unfold PluginLifecycle.transition PluginLifecycle.require
  by_cases h : lifecycle.state ∈ allowed
  · simp only [h, if_true, PluginLifecycle.run]
    cases hanswer : answers calls ⟨lifecycle.plugin, hook⟩ with
    | ok u => exact .inr (.inl ⟨trivial, rfl, rfl⟩)
    | error exc => exact .inr (.inr ⟨trivial, exc, _, rfl, rfl⟩)
  · simp only [h, if_false]
    exact .inl ⟨not_false, _, rfl⟩

theorem PluginLifecycle.transition_spec [Printing] (answers : Answers)
    (allowed : List PluginLifecycleState) (action : String) (hook : Hook)
    (nextState : PluginLifecycleState) (lifecycle : PluginLifecycle) (calls : List HookCall) :
    Transitioned allowed hook nextState lifecycle calls
      (transition answers allowed action hook nextState lifecycle calls) := by
  obtain ⟨h, _, heq⟩ | ⟨h, -, heq⟩ | ⟨h, _, _, -, heq⟩ :=
    transition_cases answers allowed action hook nextState lifecycle calls
  · exact heq ▸ .refused h _
  · exact heq ▸ .made h
  · exact heq ▸ .failed h _

def hooksReturn : Answers := fun _ _ => .ok ()

theorem PluginLifecycle.transition_returns [Printing] {allowed : List PluginLifecycleState}
    {lifecycle : PluginLifecycle} (h : lifecycle.state ∈ allowed) (action : String) (hook : Hook)
    (nextState : PluginLifecycleState) (calls : List HookCall) :
    transition hooksReturn allowed action hook nextState lifecycle calls =
      (.ok (), ⟨lifecycle.plugin, nextState⟩, calls ++ [⟨lifecycle.plugin, hook⟩]) := by
  obtain ⟨hnot, -⟩ | ⟨-, -, heq⟩ | ⟨-, _, _, hraises, -⟩ :=
    transition_cases hooksReturn allowed action hook nextState lifecycle calls
  · exact absurd h hnot
  · exact heq
  · cases hraises

end MellivorKernel
