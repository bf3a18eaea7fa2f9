import MellivorKernel.AIEngine.Plugins

/-!
# Starting a fleet

What `start_plugins` leaves of a fleet whose hooks return and whose plugins
are neither unregistered nor disposed. The loop raises at the first plugin
that is running: the call leaves every plugin running exactly if no plugin
that is not running comes after one that is (`startPlugins_allRunning_iff`).
-/

namespace MellivorKernel

open Python Foundation

def stateOf (lifecycles : PluginLifecycles) (plugin : Plugin) : PluginLifecycleState :=
  match lifecycles.get? plugin.metadata.id with
  | some lifecycle => if lifecycle.plugin = plugin then lifecycle.state else .registered
  | none => .registered

theorem stateOf_set (lifecycles : PluginLifecycles) (plugin other : Plugin)
    (state : PluginLifecycleState) :
    stateOf (lifecycles.set plugin.metadata.id ⟨plugin, state⟩) other =
      if other = plugin then state
      else if other.metadata.id = plugin.metadata.id then .registered
      else stateOf lifecycles other := by
  unfold stateOf
  rw [Dict.get?_set]
  by_cases h : other = plugin
  · simp [h]
  · by_cases hid : other.metadata.id = plugin.metadata.id
    · simp [hid, h, Ne.symm h]
    · simp [hid, h]

/-- The registry holds the plugin of every lifecycle, which is not on its way,
and a plugin was initialized once if it left `REGISTERED` and not before. -/
structure Tracked (registry : PluginRegistry) (lifecycles : PluginLifecycles)
    (calls : List HookCall) : Prop where
  held : ∀ id lifecycle, lifecycles.get? id = some lifecycle →
    registry.plugins.get? id = some lifecycle.plugin
  settled : ∀ id lifecycle, lifecycles.get? id = some lifecycle →
    lifecycle.state = .registered ∨ lifecycle.state = .running ∨ lifecycle.state = .stopped
  counted : ∀ plugin, calls.count ⟨plugin, .initializePlugin⟩ =
    if stateOf lifecycles plugin = .registered then 0 else 1

section
variable {registry : PluginRegistry} {lifecycles : PluginLifecycles} {calls : List HookCall}

theorem Tracked.new : Tracked .new Dict.empty [] := ⟨nofun, nofun, fun _ => rfl⟩

theorem Tracked.stateOf_registered (h : Tracked registry lifecycles calls) {plugin other : Plugin}
    (hplugin : registry.plugins.get? other.metadata.id = some plugin) (hother : other ≠ plugin) :
    stateOf lifecycles other = .registered := by
  unfold stateOf
  cases hget : lifecycles.get? other.metadata.id with
  | none => rfl
  | some lifecycle =>
    have hheld := h.held _ _ hget
    rw [hplugin] at hheld
    refine if_neg ?_
    rintro rfl
    exact hother (Option.some.inj hheld).symm

theorem Tracked.moved (h : Tracked registry lifecycles calls) {id : Str} {plugin : Plugin}
    (hplugin : registry.plugins.get? id = some plugin) {state : PluginLifecycleState}
    (hstate : state = .registered ∨ state = .running ∨ state = .stopped) {new : List HookCall}
    (hown : ∀ c ∈ new, c.plugin = plugin)
    (hcount : (if stateOf lifecycles plugin = .registered then 0 else 1) +
      new.count ⟨plugin, .initializePlugin⟩ = if state = .registered then 0 else 1) :
    Tracked registry (lifecycles.set id ⟨plugin, state⟩) (calls ++ new) := by
  have hid : plugin.metadata.id = id := registry.keyed id plugin hplugin
  subst hid
  refine ⟨?_, ?_, ?_⟩
  · intro id lifecycle hget
    rw [Dict.get?_set] at hget
    split at hget
    · cases hget
      simp [*]
    · exact h.held id lifecycle hget
  · intro id lifecycle hget
    rw [Dict.get?_set] at hget
    split at hget
    · cases hget
      exact hstate
    · exact h.settled id lifecycle hget
  · intro other
    rw [List.count_append, h.counted, stateOf_set]
    by_cases hother : other = plugin
    · subst hother
      simpa using hcount
    · have hnone : new.count ⟨other, .initializePlugin⟩ = 0 :=
        List.count_eq_zero.mpr fun hmem => hother (hown _ hmem)
      rw [if_neg hother, hnone, Nat.add_zero]
      by_cases hid : other.metadata.id = plugin.metadata.id
      · rw [if_pos hid, h.stateOf_registered (hid ▸ hplugin) hother]
      · rw [if_neg hid]

theorem Tracked.unmoved (h : Tracked registry lifecycles calls) {id : Str} {plugin : Plugin}
    (hplugin : registry.plugins.get? id = some plugin) {state : PluginLifecycleState}
    (hstate : state = .registered ∨ state = .running ∨ state = .stopped)
    (hof : stateOf lifecycles plugin = state) :
    Tracked registry (lifecycles.set id ⟨plugin, state⟩) calls := by
  have hmoved := h.moved hplugin hstate (List.forall_mem_nil fun c : HookCall => c.plugin = plugin)
    (by simp [hof])
  rwa [List.append_nil] at hmoved

end

section
variable [Printing] {registry : PluginRegistry} {lifecycles : PluginLifecycles}
  {calls : List HookCall}

theorem Tracked.of_lifecycle (h : Tracked registry lifecycles calls) {id : Str}
    {lifecycle : PluginLifecycle} (hl : lifecycleFor registry lifecycles id = .ok lifecycle) :
    registry.plugins.get? id = some lifecycle.plugin ∧
      (lifecycle.state = .registered ∨ lifecycle.state = .running ∨ lifecycle.state = .stopped) ∧
      stateOf lifecycles lifecycle.plugin = lifecycle.state := by
  rcases lifecycleFor_cases hl with hget | ⟨hget, hplugin, hregistered⟩
  · have hheld := h.held _ _ hget
    have hid := registry.keyed _ _ hheld
    refine ⟨hheld, h.settled _ _ hget, ?_⟩
    simp [stateOf, hid, hget]
  · have hid := registry.keyed _ _ hplugin
    refine ⟨hplugin, .inl hregistered, ?_⟩
    simp [stateOf, hid, hget, hregistered]

theorem lifecycleFor_returns {metadata : PluginMetadata} (h : metadata ∈ registry.enumerate) :
    ∃ lifecycle, lifecycleFor registry lifecycles metadata.id = .ok lifecycle := by
  obtain ⟨plugin, hplugin, -⟩ := PluginRegistry.mem_enumerate.mp h
  unfold lifecycleFor
  split
  · exact ⟨_, rfl⟩
  · exact ⟨.new plugin, by rw [PluginRegistry.lookup, hplugin]; rfl⟩

-- ---------------------------------------------------------------------------
-- One plugin
-- ---------------------------------------------------------------------------

theorem startOne_registered (plugin : Plugin) (calls : List HookCall) :
    startOne hooksReturn ⟨plugin, .registered⟩ calls =
      (.ok (), ⟨plugin, .running⟩, calls ++ [⟨plugin, .initializePlugin⟩, ⟨plugin, .start⟩]) := by
  unfold startOne PluginLifecycle.initializePlugin PluginLifecycle.start
  rw [if_pos rfl, PluginLifecycle.transition_returns (by simp)]
  simp only
  rw [PluginLifecycle.transition_returns (by simp), List.append_assoc]
  rfl

theorem startOne_stopped (plugin : Plugin) (calls : List HookCall) :
    startOne hooksReturn ⟨plugin, .stopped⟩ calls =
      (.ok (), ⟨plugin, .running⟩, calls ++ [⟨plugin, .start⟩]) := by
  unfold startOne PluginLifecycle.start
  rw [if_neg nofun, PluginLifecycle.transition_returns (by simp)]

/-- A plugin that is running makes the loop raise. -/
theorem startOne_running (answers : Answers) (plugin : Plugin) (calls : List HookCall) :
    ∃ exc, startOne answers ⟨plugin, .running⟩ calls = (.error exc, ⟨plugin, .running⟩, calls) :=
  ⟨_, rfl⟩

theorem Tracked.started (h : Tracked registry lifecycles calls) {id : Str}
    {lifecycle : PluginLifecycle} (hl : lifecycleFor registry lifecycles id = .ok lifecycle) :
    Tracked registry (lifecycles.set id (startOne hooksReturn lifecycle calls).2.1)
      (startOne hooksReturn lifecycle calls).2.2 := by
  obtain ⟨hplugin, hstate, hof⟩ := h.of_lifecycle hl
  obtain ⟨plugin, state⟩ := lifecycle
  simp only at hplugin hstate hof
  rcases hstate with rfl | rfl | rfl
  · rw [startOne_registered]
    exact h.moved hplugin (.inr (.inl rfl)) (by simp) (by simp [hof])
  · obtain ⟨exc, hraises⟩ := startOne_running hooksReturn plugin calls
    rw [hraises]
    exact h.unmoved hplugin (.inr (.inl rfl)) hof
  · rw [startOne_stopped]
    exact h.moved hplugin (.inr (.inl rfl)) (by simp) (by simp [hof])

theorem Tracked.stopped (h : Tracked registry lifecycles calls) {id : Str}
    {lifecycle : PluginLifecycle} (hl : lifecycleFor registry lifecycles id = .ok lifecycle) :
    Tracked registry (lifecycles.set id (lifecycle.stop hooksReturn calls).2.1)
      (lifecycle.stop hooksReturn calls).2.2 := by
  obtain ⟨hplugin, hstate, hof⟩ := h.of_lifecycle hl
  obtain ⟨plugin, state⟩ := lifecycle
  simp only at hplugin hstate hof
  rcases hstate with rfl | rfl | rfl
  · exact h.unmoved hplugin (.inl rfl) hof
  · rw [PluginLifecycle.stop, PluginLifecycle.transition_returns (by simp)]
    exact h.moved hplugin (.inr (.inr rfl)) (by simp) (by simp [hof])
  · exact h.unmoved hplugin (.inr (.inr rfl)) hof

-- ---------------------------------------------------------------------------
-- The loop
-- ---------------------------------------------------------------------------

theorem driveEach_get? {move : PluginLifecycle → List HookCall → Driven PluginLifecycle}
    {enumerated : List PluginMetadata} {id : Str} (hid : id ∉ enumerated.map PluginMetadata.id)
    (lifecycles : PluginLifecycles) (calls : List HookCall) :
    (driveEach move registry enumerated lifecycles calls).2.1.get? id = lifecycles.get? id := by
  induction enumerated generalizing lifecycles calls with
  | nil => rfl
  | cons metadata rest ih =>
    rw [List.map_cons, List.mem_cons, not_or] at hid
    unfold driveEach
    split
    · rfl
    · split
      · exact Dict.get?_set_ne _ hid.1 _
      · rw [ih hid.2, Dict.get?_set_ne _ hid.1]

def running (lifecycles : PluginLifecycles) (metadata : PluginMetadata) : Bool :=
  (lifecycles.get? metadata.id).map PluginLifecycle.state = some .running

omit [Printing] in
theorem running_set (lifecycles : PluginLifecycles) (id : Str) (lifecycle : PluginLifecycle)
    (metadata : PluginMetadata) :
    running (lifecycles.set id lifecycle) metadata =
      if metadata.id = id then decide (lifecycle.state = .running)
      else running lifecycles metadata := by
  unfold running
  rw [Dict.get?_set]
  split <;> simp

theorem driveEach_startOne (h : Tracked registry lifecycles calls) {metadata : PluginMetadata}
    (hmem : metadata ∈ registry.enumerate) (rest : List PluginMetadata) :
    (running lifecycles metadata = true ∧
      ∀ other, running (driveEach (startOne hooksReturn) registry (metadata :: rest)
        lifecycles calls).2.1 other = running lifecycles other) ∨
    (running lifecycles metadata = false ∧ ∃ plugin calls',
      Tracked registry (lifecycles.set metadata.id ⟨plugin, .running⟩) calls' ∧
      driveEach (startOne hooksReturn) registry (metadata :: rest) lifecycles calls =
        driveEach (startOne hooksReturn) registry rest
          (lifecycles.set metadata.id ⟨plugin, .running⟩) calls') := by
  obtain ⟨⟨plugin, state⟩, hl⟩ := lifecycleFor_returns hmem
  obtain ⟨hplugin, hstate, hof⟩ := h.of_lifecycle hl
  have htracked := h.started hl
  have hrunning : running lifecycles metadata = decide (state = .running) := by
    rcases lifecycleFor_cases hl with hget | ⟨hget, -, rfl⟩ <;> simp [running, hget]
  simp only [driveEach, hl]
  simp only at hstate
  rcases hstate with rfl | rfl | rfl
  · rw [startOne_registered] at htracked ⊢
    exact .inr ⟨hrunning, plugin, _, htracked, rfl⟩
  · obtain ⟨exc, hraises⟩ := startOne_running hooksReturn plugin calls
    rw [hraises]
    refine .inl ⟨hrunning, fun other => ?_⟩
    rw [running_set]
    split
    · rename_i hid
      simpa [running, hid] using hrunning.symm
    · rfl
  · rw [startOne_stopped] at htracked ⊢
    exact .inr ⟨hrunning, plugin, _, htracked, rfl⟩

/-- The loop leaves every plugin running exactly if none that is not running
comes after one that is. -/
theorem driveEach_running_iff {enumerated : List PluginMetadata}
    (hn : (enumerated.map PluginMetadata.id).Nodup) (hmem : enumerated ⊆ registry.enumerate)
    (h : Tracked registry lifecycles calls) :
    (∀ metadata ∈ enumerated, running (driveEach (startOne hooksReturn) registry
        enumerated lifecycles calls).2.1 metadata = true) ↔
      enumerated.Pairwise fun earlier later =>
        running lifecycles earlier = true → running lifecycles later = true := by
  induction enumerated generalizing lifecycles calls with
  | nil => simp
  | cons metadata rest ih =>
    obtain ⟨hfirst, hrest⟩ := List.nodup_cons.mp hn
    obtain ⟨hmetadata, hmem⟩ := List.cons_subset.mp hmem
    rw [List.forall_mem_cons, List.pairwise_cons]
    rcases driveEach_startOne h hmetadata rest with
      ⟨hrunning, hsame⟩ | ⟨hrunning, plugin, calls', htracked, hdrive⟩
    · simp only [hsame, hrunning, true_and, forall_const]
      refine ⟨fun hall => ⟨hall, ?_⟩, fun hall => hall.1⟩
      exact List.pairwise_of_forall_mem_list fun earlier _ later hlater _ => hall later hlater
    · have hfirst' : running (driveEach (startOne hooksReturn) registry rest
          (lifecycles.set metadata.id ⟨plugin, .running⟩) calls').2.1 metadata = true := by
        rw [running, driveEach_get? hfirst, Dict.get?_set_self]
        rfl
      have hothers : ∀ other ∈ rest,
          running (lifecycles.set metadata.id ⟨plugin, .running⟩) other = running lifecycles other := by
        intro other hother
        rw [running_set, if_neg]
        intro heq
        exact hfirst (heq ▸ List.mem_map_of_mem hother)
      rw [hdrive]
      simp only [hfirst', hrunning, Bool.false_eq_true, true_and, false_implies, implies_true]
      rw [ih hrest hmem htracked]
      refine List.Pairwise.iff_of_mem fun hearlier hlater => ?_
      rw [hothers _ hearlier, hothers _ hlater]

theorem Tracked.register (h : Tracked registry lifecycles calls) {plugin : Plugin}
    {registry' : PluginRegistry} (hregister : registry.register plugin = .ok registry') :
    Tracked registry' lifecycles calls := by
  unfold PluginRegistry.register at hregister
  split at hregister
  · cases hregister
  · rename_i hnew
    cases hregister
    refine ⟨fun id lifecycle hget => ?_, h.settled, h.counted⟩
    have hheld := h.held id lifecycle hget
    refine (Dict.get?_set_ne _ ?_ _).trans hheld
    rintro rfl
    exact hnew (Dict.mem_keys.mpr ⟨_, hheld⟩)

-- ---------------------------------------------------------------------------
-- Runs
-- ---------------------------------------------------------------------------

omit [Printing] in
/-- Nothing is unregistered or disposed of. -/
def FleetOp.Keeps : FleetOp → Prop
  | .register _ | .startPlugins | .stopPlugins => True
  | .unregister _ | .disposePlugins => False

def Fleet.Tracked (fleet : Fleet) : Prop :=
  MellivorKernel.Tracked fleet.pluginRegistry fleet.pluginLifecycles fleet.calls

theorem startPlugins_tracked {fleet : Fleet} (h : fleet.Tracked) :
    (fleetMachine hooksReturn fleet .startPlugins).2.Tracked :=
  driveEach_invariant (MellivorKernel.Tracked _) (fun _ _ _ _ _ hinv hl => hinv.started hl) h

theorem fleet_tracked {fleet : Fleet} {op : FleetOp} (hop : op.Keeps) (h : fleet.Tracked) :
    (fleetMachine hooksReturn fleet op).2.Tracked := by
  cases op with
  | register plugin =>
    cases hregister : fleet.pluginRegistry.register plugin with
    | ok registry =>
      simp only [fleetMachine, hregister, Fleet.reregistered]
      exact h.register hregister
    | error exc =>
      simp only [fleetMachine, hregister, Fleet.reregistered]
      exact h
  | startPlugins => exact startPlugins_tracked h
  | stopPlugins =>
    exact driveEach_invariant (MellivorKernel.Tracked _)
      (fun _ _ _ _ _ hinv hl => hinv.stopped hl) h
  | unregister pluginId => exact hop.elim
  | disposePlugins => exact hop.elim

/-- Every registered plugin is running, after one `initialize`. -/
def Fleet.AllRunning (fleet : Fleet) : Prop :=
  ∀ id plugin, fleet.pluginRegistry.plugins.get? id = some plugin →
    fleet.pluginLifecycles.get? id = some ⟨plugin, .running⟩ ∧
      fleet.calls.count ⟨plugin, .initializePlugin⟩ = 1

/-- No registered plugin that is not running comes after one that is. -/
def Fleet.InOrder (fleet : Fleet) : Prop :=
  fleet.pluginRegistry.enumerate.Pairwise fun earlier later =>
    running fleet.pluginLifecycles earlier = true → running fleet.pluginLifecycles later = true

omit [Printing] in
theorem allRunning_iff {fleet : Fleet} (h : fleet.Tracked) :
    fleet.AllRunning ↔ ∀ metadata ∈ fleet.pluginRegistry.enumerate,
      running fleet.pluginLifecycles metadata = true := by
  constructor
  · intro hall metadata hmem
    obtain ⟨plugin, hplugin, -⟩ := PluginRegistry.mem_enumerate.mp hmem
    simp [running, (hall _ _ hplugin).1]
  · intro hall id plugin hplugin
    have hid := fleet.pluginRegistry.keyed id plugin hplugin
    subst hid
    have hrunning := hall _ (PluginRegistry.mem_enumerate.mpr ⟨plugin, hplugin, rfl⟩)
    simp only [running, decide_eq_true_eq, Option.map_eq_some_iff] at hrunning
    obtain ⟨⟨other, state⟩, hget, rfl⟩ := hrunning
    have hheld := h.held _ _ hget
    rw [hplugin] at hheld
    cases hheld
    exact ⟨hget, by simp [h.counted, stateOf, hget]⟩

/-- After any calls of `register`, `start_plugins` and `stop_plugins`, the next
`start_plugins` leaves every registered plugin running exactly if no plugin
that is not running was registered after one that is. -/
theorem startPlugins_allRunning_iff {ops : List FleetOp} (hops : ∀ op ∈ ops, op.Keeps) :
    (fleetMachine hooksReturn ((fleetMachine hooksReturn).after .new ops)
      .startPlugins).2.AllRunning ↔ ((fleetMachine hooksReturn).after .new ops).InOrder := by
  have htracked : ((fleetMachine hooksReturn).after .new ops).Tracked :=
    Machine.after_invariant (fun _ _ => fleet_tracked) hops .new
  rw [allRunning_iff (startPlugins_tracked htracked)]
  exact driveEach_running_iff (PluginRegistry.enumerate_nodup _) (List.Subset.refl _) htracked

end

-- ---------------------------------------------------------------------------
-- A plugin registered while another one is running
-- ---------------------------------------------------------------------------

def firstPlugin : Plugin := ⟨1, lit "first plugin", by decide⟩

def secondPlugin : Plugin := ⟨2, lit "second plugin", by decide⟩

/-- The second plugin stays as it was registered. -/
theorem latePlugin_notStarted :
    ¬ (@fleetMachine plainPrinting hooksReturn ((@fleetMachine plainPrinting hooksReturn).after .new
      [.register firstPlugin, .startPlugins, .register secondPlugin]) .startPlugins).2.AllRunning := by
  intro hall
  have hsecond := (hall (lit "second plugin") secondPlugin (by decide)).1
  revert hsecond
  decide

theorem stoppedFleet_restarts :
    (@fleetMachine plainPrinting hooksReturn ((@fleetMachine plainPrinting hooksReturn).after .new
      [.register firstPlugin, .startPlugins, .stopPlugins, .register secondPlugin])
        .startPlugins).2.AllRunning := by
  refine (@startPlugins_allRunning_iff plainPrinting
    [.register firstPlugin, .startPlugins, .stopPlugins, .register secondPlugin] ?_).mpr ?_
  · simp [FleetOp.Keeps]
  · unfold Fleet.InOrder
    decide

end MellivorKernel
