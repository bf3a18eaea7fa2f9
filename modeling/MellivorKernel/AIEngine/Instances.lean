import MellivorKernel.AIEngine.Plugins
import MellivorKernel.Foundation.History

/-!
# Which instances an engine drives

The engine keeps a lifecycle for each plugin id, and with it the instance that
was registered when it was made. As long as no other instance is registered
under an id the engine keeps a lifecycle for, every hook call goes to the
instance the registry holds (`hooks_directed`). An instance is initialized
before it is started in any case.
-/

namespace MellivorKernel

open Python Foundation

def InitializedFirst (calls : List HookCall) : Prop :=
  ∀ before after plugin, calls = before ++ ⟨plugin, .start⟩ :: after →
    ⟨plugin, .initializePlugin⟩ ∈ before

/-- A state only `initialize` leads out of `REGISTERED` to. -/
def PluginLifecycleState.begun : PluginLifecycleState → Bool
  | .initialized | .running | .stopped => true
  | .registered | .disposed | .failed => false

def PluginLifecycle.Begun (lifecycle : PluginLifecycle) (calls : List HookCall) : Prop :=
  lifecycle.state.begun = true → ⟨lifecycle.plugin, .initializePlugin⟩ ∈ calls

theorem initializedFirst_iff {calls : List HookCall} : InitializedFirst calls ↔
    Follows (fun before c => c.hook = .start → ⟨c.plugin, .initializePlugin⟩ ∈ before) calls := by
  constructor
  · rintro h before ⟨plugin, hook⟩ after heq rfl
    exact h before after plugin heq
  · intro h before after plugin heq
    exact h before ⟨plugin, .start⟩ after heq rfl

theorem initializedFirst_concat {calls : List HookCall} {c : HookCall} (h : InitializedFirst calls)
    (hc : c.hook = .start → ⟨c.plugin, .initializePlugin⟩ ∈ calls) :
    InitializedFirst (calls ++ [c]) :=
  initializedFirst_iff.mpr (follows_concat.mpr ⟨initializedFirst_iff.mp h, hc⟩)

/-- A move of a lifecycle: it stays with its plugin, calls hooks of that plugin
only, and starts none that has not been initialized. -/
structure Moves (move : PluginLifecycle → List HookCall → Driven PluginLifecycle) : Prop where
  plugin : ∀ lifecycle calls, (move lifecycle calls).2.1.plugin = lifecycle.plugin
  own : ∀ lifecycle calls, ∃ new, (move lifecycle calls).2.2 = calls ++ new ∧
    ∀ c ∈ new, c.plugin = lifecycle.plugin
  ordered : ∀ lifecycle calls, lifecycle.Begun calls → InitializedFirst calls →
    (move lifecycle calls).2.1.Begun (move lifecycle calls).2.2 ∧
      InitializedFirst (move lifecycle calls).2.2

def Moved (lifecycle : PluginLifecycle) (calls : List HookCall) (ended : Driven PluginLifecycle) :
    Prop :=
  ended.2.1.plugin = lifecycle.plugin ∧
  (∃ new, ended.2.2 = calls ++ new ∧ ∀ c ∈ new, c.plugin = lifecycle.plugin) ∧
  (lifecycle.Begun calls → InitializedFirst calls →
    ended.2.1.Begun ended.2.2 ∧ InitializedFirst ended.2.2)

theorem moves_of {move : PluginLifecycle → List HookCall → Driven PluginLifecycle}
    (h : ∀ lifecycle calls, Moved lifecycle calls (move lifecycle calls)) : Moves move where
  plugin lifecycle calls := (h lifecycle calls).1
  own lifecycle calls := (h lifecycle calls).2.1
  ordered lifecycle calls := (h lifecycle calls).2.2

theorem moved_refused (lifecycle : PluginLifecycle) (calls : List HookCall)
    (outcome : Except Exn Unit) : Moved lifecycle calls (outcome, lifecycle, calls) :=
  ⟨rfl, ⟨[], by simp, by simp⟩, fun hbegun hfirst => ⟨hbegun, hfirst⟩⟩

theorem StartedOne.moved {lifecycle : PluginLifecycle} {calls : List HookCall}
    {ended : Driven PluginLifecycle} (h : StartedOne lifecycle calls ended) :
    Moved lifecycle calls ended := by
  cases h with
  | initialized h outcome state hstate =>
    refine ⟨rfl, ⟨_, rfl, by simp⟩, fun _ hfirst => ⟨fun _ => by simp, ?_⟩⟩
    rw [← List.singleton_append, ← List.append_assoc]
    exact initializedFirst_concat (initializedFirst_concat hfirst (by simp)) (by simp)
  | uninitialized h exc =>
    refine ⟨rfl, ⟨_, rfl, by simp⟩, fun _ hfirst => ⟨?_, initializedFirst_concat hfirst (by simp)⟩⟩
    simp [PluginLifecycle.Begun, PluginLifecycleState.begun]
  | again h outcome state hstate =>
    refine ⟨rfl, ⟨_, rfl, by simp⟩, fun hbegun hfirst => ?_⟩
    have hinitialized : ⟨lifecycle.plugin, .initializePlugin⟩ ∈ calls := by
      refine hbegun ?_
      rcases h with h | h <;> rw [h] <;> rfl
    exact ⟨fun _ => List.mem_append_left _ hinitialized,
      initializedFirst_concat hfirst fun _ => hinitialized⟩
  | refused h exc => exact moved_refused lifecycle calls _

theorem Transitioned.moved {allowed : List PluginLifecycleState} {hook : Hook}
    {nextState : PluginLifecycleState} {lifecycle : PluginLifecycle} {calls : List HookCall}
    {ended : Driven PluginLifecycle}
    (h : Transitioned allowed hook nextState lifecycle calls ended) (hhook : hook ≠ .start)
    (hnext : nextState.begun = true → ∀ state ∈ allowed, state.begun = true) :
    Moved lifecycle calls ended := by
  have hfirst (hfirst : InitializedFirst calls) :
      InitializedFirst (calls ++ [⟨lifecycle.plugin, hook⟩]) :=
    initializedFirst_concat hfirst fun heq => absurd heq hhook
  cases h with
  | refused h exc => exact moved_refused lifecycle calls _
  | made h =>
    refine ⟨rfl, ⟨_, rfl, by simp⟩, fun hbegun hcalls => ⟨fun hbegun' => ?_, hfirst hcalls⟩⟩
    exact List.mem_append_left _ (hbegun (hnext hbegun' _ h))
  | failed h exc =>
    refine ⟨rfl, ⟨_, rfl, by simp⟩, fun _ hcalls => ⟨?_, hfirst hcalls⟩⟩
    simp [PluginLifecycle.Begun, PluginLifecycleState.begun]

section
variable [Printing] (answers : Answers)

theorem startOne_moves : Moves (startOne answers) :=
  moves_of fun lifecycle calls => (startOne_spec answers lifecycle calls).moved

theorem stop_moves : Moves (PluginLifecycle.stop answers) := by
  refine moves_of fun lifecycle calls => ?_
  refine (lifecycle.transition_spec answers _ _ _ _ calls).moved ?_ ?_
  · simp
  · simp [PluginLifecycleState.begun]

theorem dispose_moves : Moves (PluginLifecycle.dispose answers) := by
  refine moves_of fun lifecycle calls => ?_
  unfold PluginLifecycle.dispose
  split
  · exact moved_refused lifecycle calls _
  · refine (lifecycle.transition_spec answers _ _ _ _ calls).moved ?_ ?_
    · simp
    · simp [PluginLifecycleState.begun]

end

-- ---------------------------------------------------------------------------
-- The loop
-- ---------------------------------------------------------------------------

/-- A lifecycle is kept under its plugin's id, and the registry holds no other
instance under it. -/
def Agrees (registry : PluginRegistry) (lifecycles : PluginLifecycles) : Prop :=
  ∀ id lifecycle, lifecycles.get? id = some lifecycle → lifecycle.plugin.metadata.id = id ∧
    ∀ plugin, registry.plugins.get? id = some plugin → plugin = lifecycle.plugin

/-- The registry holds the instance the call goes to. -/
def HookCall.Current (registry : PluginRegistry) (c : HookCall) : Prop :=
  registry.plugins.get? c.plugin.metadata.id = some c.plugin

/-- What is known about the lifecycles of an engine and its hook calls. -/
structure Ordered (lifecycles : PluginLifecycles) (calls : List HookCall) : Prop where
  begun : ∀ id lifecycle, lifecycles.get? id = some lifecycle → lifecycle.Begun calls
  first : InitializedFirst calls

theorem Ordered.new : Ordered Dict.empty [] := by
  refine ⟨nofun, fun before after plugin h => ?_⟩
  simp at h

section
variable [Printing] {move : PluginLifecycle → List HookCall → Driven PluginLifecycle}
  {registry : PluginRegistry} {lifecycles : PluginLifecycles} {calls : List HookCall}

theorem Agrees.of_lifecycle (h : Agrees registry lifecycles) {metadata : PluginMetadata}
    (hmem : metadata ∈ registry.enumerate) {lifecycle : PluginLifecycle}
    (hl : lifecycleFor registry lifecycles metadata.id = .ok lifecycle) :
    registry.plugins.get? metadata.id = some lifecycle.plugin := by
  rcases lifecycleFor_cases hl with hget | ⟨-, hplugin, -⟩
  · obtain ⟨plugin, hplugin, -⟩ := PluginRegistry.mem_enumerate.mp hmem
    rwa [← (h _ _ hget).2 plugin hplugin]
  · exact hplugin

omit [Printing] in
theorem Agrees.moved (h : Agrees registry lifecycles) {id : Str} {lifecycle : PluginLifecycle}
    (hplugin : registry.plugins.get? id = some lifecycle.plugin) :
    Agrees registry (lifecycles.set id lifecycle) := by
  intro id' lifecycle' hget
  rw [Dict.get?_set] at hget
  split at hget
  · rename_i hid
    cases hget
    subst hid
    refine ⟨registry.keyed _ _ hplugin, fun plugin hp => ?_⟩
    rw [hplugin] at hp
    exact (Option.some.inj hp).symm
  · exact h id' lifecycle' hget

theorem Ordered.moved (hm : Moves move) (h : Ordered lifecycles calls) {id : Str}
    {lifecycle : PluginLifecycle} (hl : lifecycleFor registry lifecycles id = .ok lifecycle) :
    Ordered (lifecycles.set id (move lifecycle calls).2.1) (move lifecycle calls).2.2 := by
  have hbegun : lifecycle.Begun calls := by
    rcases lifecycleFor_cases hl with hget | ⟨-, -, hregistered⟩
    · exact h.begun id lifecycle hget
    · intro hbegun
      rw [hregistered] at hbegun
      cases hbegun
  obtain ⟨hnext, hfirst⟩ := hm.ordered lifecycle calls hbegun h.first
  obtain ⟨new, hnew, -⟩ := hm.own lifecycle calls
  refine ⟨fun id' lifecycle' hget => ?_, hfirst⟩
  rw [Dict.get?_set] at hget
  split at hget
  · cases hget
    exact hnext
  · intro hb
    rw [hnew]
    exact List.mem_append_left _ (h.begun id' lifecycle' hget hb)

theorem driveEach_current (hm : Moves move) (hagrees : Agrees registry lifecycles)
    (hordered : Ordered lifecycles calls) :
    Agrees registry (driveEach move registry registry.enumerate lifecycles calls).2.1 ∧
      Ordered (driveEach move registry registry.enumerate lifecycles calls).2.1
        (driveEach move registry registry.enumerate lifecycles calls).2.2 ∧
      ∃ new, (driveEach move registry registry.enumerate lifecycles calls).2.2 = calls ++ new ∧
        ∀ c ∈ new, c.Current registry := by
  refine driveEach_invariant (fun lifecycles' calls' => Agrees registry lifecycles' ∧
    Ordered lifecycles' calls' ∧ ∃ new, calls' = calls ++ new ∧ ∀ c ∈ new, c.Current registry) ?_
    ⟨hagrees, hordered, [], by simp, by simp⟩
  rintro metadata hmem lifecycles' calls' lifecycle ⟨hagrees', hordered', new, rfl, hnew⟩ hl
  have hplugin := hagrees'.of_lifecycle hmem hl
  obtain ⟨more, hmore, hown⟩ := hm.own lifecycle (calls ++ new)
  refine ⟨?_, hordered'.moved hm hl, new ++ more, by rw [hmore, List.append_assoc], ?_⟩
  · exact hagrees'.moved (by rw [hm.plugin, hplugin])
  · intro c hc
    rcases List.mem_append.mp hc with hc | hc
    · exact hnew c hc
    · rw [HookCall.Current, hown c hc]
      rwa [registry.keyed _ _ hplugin]

end

-- ---------------------------------------------------------------------------
-- Runs
-- ---------------------------------------------------------------------------

/-- Registering a plugin puts no other instance under an id the engine keeps a
lifecycle for. -/
def Fleet.SameInstance (fleet : Fleet) : FleetOp → Prop
  | .register plugin => plugin.metadata.id ∉ fleet.pluginRegistry.plugins →
    ∀ lifecycle, fleet.pluginLifecycles.get? plugin.metadata.id = some lifecycle →
      lifecycle.plugin = plugin
  | _ => True

section
variable [Printing] (answers : Answers)

def Fleet.Directed (fleet : Fleet) (op : FleetOp) : Prop :=
  ∃ new, (fleetMachine answers fleet op).2.calls = fleet.calls ++ new ∧
    ∀ c ∈ new, fleet.pluginRegistry.lookup c.plugin.metadata.id = .ok c.plugin

/-- The kept lifecycles agree with the registry, and no plugin is started
before it is initialized. -/
structure Fleet.Sound (fleet : Fleet) : Prop where
  agrees : Agrees fleet.pluginRegistry fleet.pluginLifecycles
  ordered : Ordered fleet.pluginLifecycles fleet.calls

omit [Printing] in
theorem Fleet.sound_new : Fleet.new.Sound := ⟨nofun, .new⟩

theorem driven_sound {fleet : Fleet} (h : fleet.Sound)
    {move : PluginLifecycle → List HookCall → Driven PluginLifecycle} (hm : Moves move) :
    (∃ new, (fleet.driven (driveEach move fleet.pluginRegistry fleet.pluginRegistry.enumerate
        fleet.pluginLifecycles fleet.calls)).2.calls = fleet.calls ++ new ∧
      ∀ c ∈ new, fleet.pluginRegistry.lookup c.plugin.metadata.id = .ok c.plugin) ∧
    (fleet.driven (driveEach move fleet.pluginRegistry fleet.pluginRegistry.enumerate
      fleet.pluginLifecycles fleet.calls)).2.Sound := by
  obtain ⟨hagrees, hordered, new, hnew, hcurrent⟩ := driveEach_current hm h.agrees h.ordered
  refine ⟨⟨new, hnew, fun c hc => ?_⟩, hagrees, hordered⟩
  rw [PluginRegistry.lookup, hcurrent c hc]

theorem reregistered_sound {fleet : Fleet} (h : fleet.Sound) {changed : Except Exn PluginRegistry}
    (hagrees : ∀ registry, changed = .ok registry → Agrees registry fleet.pluginLifecycles) :
    (∃ new, (fleet.reregistered changed).2.calls = fleet.calls ++ new ∧
      ∀ c ∈ new, fleet.pluginRegistry.lookup c.plugin.metadata.id = .ok c.plugin) ∧
    (fleet.reregistered changed).2.Sound := by
  cases changed with
  | error exc => exact ⟨⟨[], by simp [Fleet.reregistered], by simp⟩, h⟩
  | ok registry =>
    exact ⟨⟨[], by simp [Fleet.reregistered], by simp⟩, hagrees registry rfl, h.ordered⟩

theorem fleet_directed {fleet : Fleet} {op : FleetOp} (hop : fleet.SameInstance op)
    (h : fleet.Sound) :
    fleet.Directed answers op ∧ (fleetMachine answers fleet op).2.Sound := by
  cases op with
  | startPlugins => exact driven_sound h (startOne_moves answers)
  | stopPlugins => exact driven_sound h (stop_moves answers)
  | disposePlugins => exact driven_sound h (dispose_moves answers)
  | register plugin =>
    refine reregistered_sound h fun registry hregister id lifecycle hget => ?_
    unfold PluginRegistry.register at hregister
    split at hregister
    · cases hregister
    · rename_i hnew
      cases hregister
      refine ⟨(h.agrees id lifecycle hget).1, fun other hother => ?_⟩
      simp only [Dict.get?_set] at hother
      split at hother
      · rename_i hid
        cases hother
        exact (hop hnew lifecycle (hid ▸ hget)).symm
      · exact (h.agrees id lifecycle hget).2 other hother
  | unregister pluginId =>
    refine reregistered_sound h fun registry hunregister id lifecycle hget => ?_
    unfold PluginRegistry.unregister at hunregister
    split at hunregister
    · cases hunregister
      refine ⟨(h.agrees id lifecycle hget).1, fun other hother => ?_⟩
      simp only [Dict.get?_erase] at hother
      split at hother
      · cases hother
      · exact (h.agrees id lifecycle hget).2 other hother
    · cases hunregister

/-- In a run that puts no other instance under an id the engine keeps a
lifecycle for, every hook call goes to the instance the registry returns at
that moment, and no instance is started before it is initialized, whatever the
hooks do. -/
theorem hooks_directed {ops : List FleetOp}
    (hops : (fleetMachine answers).Along Fleet.SameInstance .new ops) :
    (fleetMachine answers).Along (Fleet.Directed answers) .new ops ∧
      InitializedFirst ((fleetMachine answers).after .new ops).calls := by
  obtain ⟨hdirected, hsound⟩ := Machine.along_invariant
    (fun _ _ => fleet_directed answers) hops Fleet.sound_new
  exact ⟨hdirected, hsound.ordered.first⟩

end

-- ---------------------------------------------------------------------------
-- A plugin registered again as another instance
-- ---------------------------------------------------------------------------

def oldInstance : Plugin := ⟨1, lit "plugin", by decide⟩

def newInstance : Plugin := { oldInstance with ident := 2 }

def replacement : List FleetOp :=
  [.register oldInstance, .startPlugins, .unregister (lit "plugin"), .register newInstance,
    .stopPlugins]

/-- `stop_plugins` stops the instance that was unregistered. -/
theorem replacedInstance_driven :
    ¬ (@fleetMachine plainPrinting hooksReturn).Along
      (@Fleet.Directed plainPrinting hooksReturn) .new replacement := by
  rintro ⟨-, -, -, -, ⟨new, hnew, hcurrent⟩, -⟩
  obtain rfl : [⟨oldInstance, .stop⟩] = new := List.append_cancel_left hnew
  have hheld := hcurrent ⟨oldInstance, .stop⟩ (List.mem_singleton_self _)
  cases hheld

theorem sameInstance_directed :
    (@fleetMachine plainPrinting hooksReturn).Along
      (@Fleet.Directed plainPrinting hooksReturn) .new [.register oldInstance, .startPlugins,
        .unregister (lit "plugin"), .register oldInstance, .stopPlugins] := by
  refine (@hooks_directed plainPrinting hooksReturn [.register oldInstance, .startPlugins,
    .unregister (lit "plugin"), .register oldInstance, .stopPlugins] ?_).1
  refine ⟨fun _ => nofun, trivial, trivial, ?_, trivial, trivial⟩
  intro _ lifecycle hget
  cases hget
  rfl

end MellivorKernel
