import MellivorKernel.AIEngine.Fleet
import MellivorKernel.AIEngine.Instances
import MellivorKernel.Foundation.Returns

/-!
# Stopping a fleet

What `stop_plugins` does to the plugins that are running, whatever the others
are and whatever the hooks answer. The loop ends at the first plugin that is
not running or whose hook raises: every running one is stopped exactly if all
that come before it are running and let themselves be stopped
(`stopPlugins_stopsAll_iff`).
-/

namespace MellivorKernel

open Python Foundation

-- ---------------------------------------------------------------------------
-- One plugin
-- ---------------------------------------------------------------------------

def stopOf (plugin : Plugin) : HookCall := ⟨plugin, .stop⟩

inductive StoppedOne (answers : Answers) (lifecycle : PluginLifecycle) (calls : List HookCall) :
    Driven PluginLifecycle → Prop
  | stopped (h : lifecycle.state = .running)
      (hreturns : Returns (answers calls (stopOf lifecycle.plugin))) :
      StoppedOne answers lifecycle calls
        (.ok (), ⟨lifecycle.plugin, .stopped⟩, calls ++ [stopOf lifecycle.plugin])
  | failed (h : lifecycle.state = .running)
      (hraises : ¬ Returns (answers calls (stopOf lifecycle.plugin))) (exc : Exn) :
      StoppedOne answers lifecycle calls
        (.error exc, ⟨lifecycle.plugin, .failed⟩, calls ++ [stopOf lifecycle.plugin])
  | refused (h : lifecycle.state ≠ .running) (exc : Exn) :
      StoppedOne answers lifecycle calls (.error exc, lifecycle, calls)

theorem stop_spec [Printing] (answers : Answers) (lifecycle : PluginLifecycle)
    (calls : List HookCall) :
    StoppedOne answers lifecycle calls (lifecycle.stop answers calls) := by
  unfold PluginLifecycle.stop
  obtain ⟨h, _, heq⟩ | ⟨h, hanswer, heq⟩ | ⟨h, _, _, hanswer, heq⟩ :=
    PluginLifecycle.transition_cases answers [.running] "stop" .stop .stopped lifecycle calls
  · exact heq ▸ .refused (by simpa using h) _
  · exact heq ▸ .stopped (by simpa using h) ⟨(), hanswer⟩
  · refine heq ▸ .failed (by simpa using h) ?_ _
    rw [stopOf, hanswer]
    exact not_returns_error _

-- ---------------------------------------------------------------------------
-- Before and after
-- ---------------------------------------------------------------------------

def Named (lifecycles : PluginLifecycles) : Prop :=
  ∀ id lifecycle, lifecycles.get? id = some lifecycle → lifecycle.plugin.metadata.id = id

def RunsIn (registry : PluginRegistry) (lifecycles : PluginLifecycles) (plugin : Plugin) : Prop :=
  registry.plugins.get? plugin.metadata.id = some plugin ∧ stateOf lifecycles plugin = .running

structure Stopped (calls : List HookCall) (lifecycles' : PluginLifecycles)
    (calls' : List HookCall) (plugin : Plugin) : Prop where
  once : ∃ new, calls' = calls ++ new ∧ new.count (stopOf plugin) = 1
  left : stateOf lifecycles' plugin ≠ .running

/-- What is kept under the id is running, and its stop hook returns. -/
def Passes (answers : Answers) (lifecycles : PluginLifecycles) (calls : List HookCall)
    (metadata : PluginMetadata) : Prop :=
  ∃ plugin, lifecycles.get? metadata.id = some ⟨plugin, .running⟩ ∧
    Returns (answers calls (stopOf plugin))

def stopsOf (lifecycles : PluginLifecycles) (enumerated : List PluginMetadata) : List HookCall :=
  (enumerated.filterMap fun metadata => lifecycles.get? metadata.id).map fun lifecycle =>
    stopOf lifecycle.plugin

/-- Whatever comes before a running plugin passes, when it is its turn. -/
def Unobstructed (answers : Answers) (registry : PluginRegistry) (lifecycles : PluginLifecycles)
    (calls : List HookCall) (enumerated : List PluginMetadata) : Prop :=
  ∀ earlier metadata later plugin, enumerated = earlier ++ metadata :: later →
    plugin.metadata ∈ later → RunsIn registry lifecycles plugin →
    Passes answers lifecycles (calls ++ stopsOf lifecycles earlier) metadata

section
variable {registry : PluginRegistry} {lifecycles : PluginLifecycles} {calls : List HookCall}

theorem stateOf_eq_running {plugin : Plugin} :
    stateOf lifecycles plugin = .running ↔
      lifecycles.get? plugin.metadata.id = some ⟨plugin, .running⟩ := by
  unfold stateOf
  cases lifecycles.get? plugin.metadata.id with
  | none => simp
  | some lifecycle =>
    obtain ⟨other, state⟩ := lifecycle
    by_cases h : other = plugin <;> simp [h]

theorem stateOf_set_self (lifecycles : PluginLifecycles) (plugin : Plugin)
    (state : PluginLifecycleState) :
    stateOf (lifecycles.set plugin.metadata.id ⟨plugin, state⟩) plugin = state := by
  rw [stateOf_set, if_pos rfl]

theorem Stopped.count {lifecycles' : PluginLifecycles} {new : List HookCall} {plugin : Plugin}
    (h : Stopped calls lifecycles' (calls ++ new) plugin) : new.count (stopOf plugin) = 1 := by
  obtain ⟨new', heq, hcount⟩ := h.once
  rwa [List.append_cancel_left heq]

theorem count_stopOf_ne {plugin other : Plugin} (h : plugin.metadata.id ≠ other.metadata.id) :
    [stopOf other].count (stopOf plugin) = 0 := by
  rw [List.count_eq_zero, List.mem_singleton]
  intro heq
  exact h (congrArg (fun c : HookCall => c.plugin.metadata.id) heq)

theorem stopsOf_cons (metadata : PluginMetadata) (rest : List PluginMetadata) :
    stopsOf lifecycles (metadata :: rest) =
      stopsOf lifecycles [metadata] ++ stopsOf lifecycles rest := by
  simp only [stopsOf, ← List.map_append, ← List.filterMap_append, List.singleton_append]

theorem unobstructed_cons {answers : Answers} {metadata : PluginMetadata}
    {rest : List PluginMetadata} :
    Unobstructed answers registry lifecycles calls (metadata :: rest) ↔
      (∀ plugin, plugin.metadata ∈ rest → RunsIn registry lifecycles plugin →
        Passes answers lifecycles calls metadata) ∧
      Unobstructed answers registry lifecycles (calls ++ stopsOf lifecycles [metadata]) rest := by
  constructor
  · intro h
    refine ⟨fun plugin hmem hruns => ?_, fun earlier other later plugin heq hmem hruns => ?_⟩
    · have hpasses := h [] metadata rest plugin rfl hmem hruns
      rwa [stopsOf, List.filterMap_nil, List.map_nil, List.append_nil] at hpasses
    · have hpasses := h (metadata :: earlier) other later plugin (by rw [heq]; rfl) hmem hruns
      rwa [stopsOf_cons, ← List.append_assoc] at hpasses
  · rintro ⟨hfirst, hrest⟩ earlier other later plugin heq hmem hruns
    cases earlier with
    | nil =>
      obtain ⟨rfl, rfl⟩ := List.cons.inj heq
      rw [stopsOf, List.filterMap_nil, List.map_nil, List.append_nil]
      exact hfirst plugin hmem hruns
    | cons head earlier =>
      obtain ⟨rfl, rfl⟩ := List.cons.inj heq
      rw [stopsOf_cons, ← List.append_assoc]
      exact hrest earlier other later plugin rfl hmem hruns

/-- Where the first does not pass, no running plugin may come after it. -/
theorem unobstructed_of_not_passes {answers : Answers} {metadata : PluginMetadata}
    {rest : List PluginMetadata} (h : ¬ Passes answers lifecycles calls metadata) :
    Unobstructed answers registry lifecycles calls (metadata :: rest) ↔
      ∀ plugin, plugin.metadata ∈ rest → ¬ RunsIn registry lifecycles plugin := by
  rw [unobstructed_cons]
  constructor
  · exact fun hall plugin hmem hruns => h (hall.1 plugin hmem hruns)
  · refine fun hnone => ⟨fun plugin hmem hruns => absurd hruns (hnone plugin hmem), ?_⟩
    rintro earlier other later plugin rfl hmem hruns
    exact absurd hruns (hnone plugin (List.mem_append_right _ (List.mem_cons_of_mem _ hmem)))

theorem runsIn_congr {lifecycles' : PluginLifecycles} {plugin : Plugin}
    (h : lifecycles'.get? plugin.metadata.id = lifecycles.get? plugin.metadata.id) :
    RunsIn registry lifecycles' plugin ↔ RunsIn registry lifecycles plugin := by
  simp only [RunsIn, stateOf_eq_running, h]

theorem unobstructed_congr {answers : Answers} {lifecycles' : PluginLifecycles}
    {enumerated : List PluginMetadata}
    (h : ∀ metadata ∈ enumerated, lifecycles'.get? metadata.id = lifecycles.get? metadata.id) :
    Unobstructed answers registry lifecycles' calls enumerated ↔
      Unobstructed answers registry lifecycles calls enumerated := by
  unfold Unobstructed
  refine forall_congr' fun earlier => forall_congr' fun metadata => forall_congr' fun later =>
    forall_congr' fun plugin => forall_congr' fun heq => forall_congr' fun hmem => ?_
  subst heq
  simp only [List.forall_mem_append, List.forall_mem_cons] at h
  obtain ⟨hearlier, hmetadata, hlater⟩ := h
  have hstops : stopsOf lifecycles' earlier = stopsOf lifecycles earlier :=
    congrArg _ (List.filterMap_congr hearlier)
  rw [runsIn_congr (hlater _ hmem), hstops, Passes, Passes, hmetadata]

end

-- ---------------------------------------------------------------------------
-- The loop
-- ---------------------------------------------------------------------------

section
variable [Printing] {registry : PluginRegistry} {lifecycles : PluginLifecycles}
  {calls : List HookCall}

theorem Named.of_lifecycle (h : Named lifecycles) {id : Str} {lifecycle : PluginLifecycle}
    (hl : lifecycleFor registry lifecycles id = .ok lifecycle) : lifecycle.plugin.metadata.id = id := by
  rcases lifecycleFor_cases hl with hget | ⟨-, hplugin, -⟩
  · exact h id lifecycle hget
  · exact registry.keyed id _ hplugin

theorem Named.moved {move : PluginLifecycle → List HookCall → Driven PluginLifecycle}
    (hm : Moves move) (h : Named lifecycles) {id : Str} {lifecycle : PluginLifecycle}
    (hl : lifecycleFor registry lifecycles id = .ok lifecycle) (calls : List HookCall) :
    Named (lifecycles.set id (move lifecycle calls).2.1) := by
  intro id' lifecycle' hget
  rw [Dict.get?_set] at hget
  split at hget
  · rename_i hid
    cases hget
    rw [hm.plugin, hid]
    exact h.of_lifecycle hl
  · exact h id' lifecycle' hget

theorem driveEach_named {move : PluginLifecycle → List HookCall → Driven PluginLifecycle}
    (hm : Moves move) (h : Named lifecycles) (enumerated : List PluginMetadata) :
    Named (driveEach move registry enumerated lifecycles calls).2.1 ∧
      ∃ new, (driveEach move registry enumerated lifecycles calls).2.2 = calls ++ new ∧
        ∀ c ∈ new, c.plugin.metadata.id ∈ enumerated.map PluginMetadata.id := by
  refine driveEach_invariant (fun lifecycles' calls' => Named lifecycles' ∧
    ∃ new, calls' = calls ++ new ∧
      ∀ c ∈ new, c.plugin.metadata.id ∈ enumerated.map PluginMetadata.id) ?_
    ⟨h, [], by simp, by simp⟩
  rintro metadata hmem lifecycles' calls' lifecycle ⟨hnamed, new, rfl, hnew⟩ hl
  obtain ⟨more, hmore, hown⟩ := hm.own lifecycle (calls ++ new)
  refine ⟨hnamed.moved hm hl _, new ++ more, by rw [hmore, List.append_assoc], ?_⟩
  rw [List.forall_mem_append]
  refine ⟨hnew, fun c hc => ?_⟩
  rw [hown c hc, hnamed.of_lifecycle hl]
  exact List.mem_map_of_mem hmem

theorem RunsIn.lifecycle {plugin : Plugin} (h : RunsIn registry lifecycles plugin) :
    lifecycleFor registry lifecycles plugin.metadata.id = .ok ⟨plugin, .running⟩ := by
  rw [lifecycleFor, stateOf_eq_running.mp h.2]

def AllStopped (registry : PluginRegistry) (lifecycles : PluginLifecycles) (calls : List HookCall)
    (enumerated : List PluginMetadata) (lifecycles' : PluginLifecycles) (calls' : List HookCall) :
    Prop :=
  ∀ plugin, plugin.metadata ∈ enumerated → RunsIn registry lifecycles plugin →
    Stopped calls lifecycles' calls' plugin

section
variable {metadata : PluginMetadata} {rest : List PluginMetadata} {lifecycle : PluginLifecycle}
  (hfirst : metadata.id ∉ rest.map PluginMetadata.id)
  (hl : lifecycleFor registry lifecycles metadata.id = .ok lifecycle)
  (hid : lifecycle.plugin.metadata.id = metadata.id)

include hl in
theorem eq_of_runsIn {plugin : Plugin} (heq : plugin.metadata = metadata)
    (hruns : RunsIn registry lifecycles plugin) : lifecycle = ⟨plugin, .running⟩ := by
  subst heq
  exact Except.ok.inj (hl.symm.trans hruns.lifecycle)

include hl in
theorem not_passes {answers : Answers}
    (h : lifecycle.state = .running → ¬ Returns (answers calls (stopOf lifecycle.plugin))) :
    ¬ Passes answers lifecycles calls metadata := by
  rintro ⟨plugin, hget, hpasses⟩
  rw [lifecycleFor, hget] at hl
  cases hl
  exact h rfl hpasses

omit [Printing] in
include hfirst hid in
theorem ne_of_later {plugin : Plugin} (hrest : plugin.metadata ∈ rest) :
    plugin.metadata.id ≠ lifecycle.plugin.metadata.id := by
  intro heq
  exact hfirst (hid ▸ heq ▸ List.mem_map_of_mem hrest)

include hl in
theorem allStopped_refused (h : lifecycle.state ≠ .running) {lifecycles' : PluginLifecycles} :
    AllStopped registry lifecycles calls (metadata :: rest) lifecycles' calls ↔
      ∀ plugin, plugin.metadata ∈ rest → ¬ RunsIn registry lifecycles plugin := by
  constructor
  · intro hall plugin hrest hruns
    obtain ⟨new, heq, hcount⟩ := (hall plugin (List.mem_cons_of_mem _ hrest) hruns).once
    rw [List.self_eq_append_right.mp heq] at hcount
    cases hcount
  · intro hnone plugin hplugin hruns
    rcases List.mem_cons.mp hplugin with heq | hrest
    · obtain rfl := eq_of_runsIn hl heq hruns
      exact absurd rfl h
    · exact absurd hruns (hnone plugin hrest)

include hfirst hl hid in
/-- A hook that raises ends the loop: its own plugin has been stopped. -/
theorem allStopped_failed :
    AllStopped registry lifecycles calls (metadata :: rest)
        (lifecycles.set metadata.id ⟨lifecycle.plugin, .failed⟩)
        (calls ++ [stopOf lifecycle.plugin]) ↔
      ∀ plugin, plugin.metadata ∈ rest → ¬ RunsIn registry lifecycles plugin := by
  constructor
  · intro hall plugin hrest hruns
    have hcount := (hall plugin (List.mem_cons_of_mem _ hrest) hruns).count
    rw [count_stopOf_ne (ne_of_later hfirst hid hrest)] at hcount
    cases hcount
  · intro hnone plugin hplugin hruns
    rcases List.mem_cons.mp hplugin with heq | hrest
    · obtain rfl := eq_of_runsIn hl heq hruns
      refine ⟨⟨_, rfl, List.count_singleton_self⟩, ?_⟩
      rw [← hid, stateOf_set_self]
      nofun
    · exact absurd hruns (hnone plugin hrest)

include hfirst hl hid in
/-- After a plugin that let itself be stopped it is up to the others. -/
theorem allStopped_stopped {after : PluginLifecycles} {new : List HookCall}
    (hgone : after.get? metadata.id = some ⟨lifecycle.plugin, .stopped⟩)
    (hids : ∀ c ∈ new, c.plugin.metadata.id ∈ rest.map PluginMetadata.id) :
    AllStopped registry lifecycles calls (metadata :: rest) after
        (calls ++ [stopOf lifecycle.plugin] ++ new) ↔
      AllStopped registry (lifecycles.set metadata.id ⟨lifecycle.plugin, .stopped⟩)
        (calls ++ [stopOf lifecycle.plugin]) rest after
        (calls ++ [stopOf lifecycle.plugin] ++ new) := by
  have hcount {other : Plugin} (hrest : other.metadata ∈ rest) :
      ([stopOf lifecycle.plugin] ++ new).count (stopOf other) = new.count (stopOf other) := by
    rw [List.count_append, count_stopOf_ne (ne_of_later hfirst hid hrest), Nat.zero_add]
  have hsame {other : Plugin} (hrest : other.metadata ∈ rest) :
      RunsIn registry (lifecycles.set metadata.id ⟨lifecycle.plugin, .stopped⟩) other ↔
        RunsIn registry lifecycles other :=
    runsIn_congr (Dict.get?_set_ne _ (hid ▸ ne_of_later hfirst hid hrest) _)
  constructor
  · intro hall other hrest hruns
    have hstopped := hall other (List.mem_cons_of_mem _ hrest) ((hsame hrest).mp hruns)
    rw [List.append_assoc] at hstopped
    exact ⟨⟨new, rfl, (hcount hrest).symm.trans hstopped.count⟩, hstopped.left⟩
  · intro hall other hplugin hruns
    rcases List.mem_cons.mp hplugin with heq | hrest
    · obtain rfl := eq_of_runsIn hl heq hruns
      have hnone : stopOf other ∉ new := fun hmem => hfirst (hid ▸ hids _ hmem)
      refine ⟨⟨_, List.append_assoc _ _ _, ?_⟩, ?_⟩
      · rw [List.count_append, List.count_singleton_self, List.count_eq_zero.mpr hnone]
      · rw [ne_eq, stateOf_eq_running, show other.metadata.id = metadata.id from hid, hgone]
        simp
    · have hstopped := hall other hrest ((hsame hrest).mpr hruns)
      exact ⟨⟨_, List.append_assoc _ _ _, (hcount hrest).trans hstopped.count⟩, hstopped.left⟩

end

theorem driveEach_stop_iff {answers : Answers} {enumerated : List PluginMetadata}
    (hn : (enumerated.map PluginMetadata.id).Nodup) (hmem : enumerated ⊆ registry.enumerate)
    (h : Named lifecycles) :
    AllStopped registry lifecycles calls enumerated
        (driveEach (PluginLifecycle.stop answers) registry enumerated lifecycles calls).2.1
        (driveEach (PluginLifecycle.stop answers) registry enumerated lifecycles calls).2.2 ↔
      Unobstructed answers registry lifecycles calls enumerated := by
  induction enumerated generalizing lifecycles calls with
  | nil =>
    refine iff_of_true nofun fun earlier metadata later plugin heq => ?_
    cases List.append_eq_nil_iff.mp heq.symm |>.2
  | cons metadata rest ih =>
    obtain ⟨hfirst, hn⟩ := List.nodup_cons.mp hn
    obtain ⟨hmetadata, hmem⟩ := List.cons_subset.mp hmem
    obtain ⟨lifecycle, hl⟩ : ∃ lifecycle,
        lifecycleFor registry lifecycles metadata.id = .ok lifecycle := lifecycleFor_returns hmetadata
    have hid := h.of_lifecycle hl
    have hnamed := h.moved (stop_moves answers) hl calls
    have hspec := stop_spec answers lifecycle calls
    unfold driveEach
    rw [hl]
    simp only
    generalize lifecycle.stop answers calls = ended at hspec hnamed ⊢
    cases hspec with
    | stopped hrunning hreturns =>
      have hget : lifecycles.get? metadata.id = some lifecycle := by
        rcases lifecycleFor_cases hl with hget | ⟨-, -, hregistered⟩
        · exact hget
        · rw [hrunning] at hregistered
          cases hregistered
      have hpasses : Passes answers lifecycles calls metadata := by
        refine ⟨lifecycle.plugin, ?_, hreturns⟩
        rw [hget, ← hrunning]
      have hstops : stopsOf lifecycles [metadata] = [stopOf lifecycle.plugin] := by
        simp [stopsOf, hget]
      have hsame : ∀ other ∈ rest,
          (lifecycles.set metadata.id ⟨lifecycle.plugin, .stopped⟩).get? other.id =
            lifecycles.get? other.id := by
        intro other hrest
        refine Dict.get?_set_ne _ ?_ _
        rintro heq
        exact hfirst (heq ▸ List.mem_map_of_mem hrest)
      rw [unobstructed_cons, and_iff_right fun _ _ _ => hpasses, hstops,
        ← unobstructed_congr hsame, ← ih hn hmem hnamed]
      obtain ⟨-, new, hnew, hids⟩ : Named (driveEach (PluginLifecycle.stop answers) registry rest
          (lifecycles.set metadata.id ⟨lifecycle.plugin, .stopped⟩)
          (calls ++ [stopOf lifecycle.plugin])).2.1 ∧ _ :=
        driveEach_named (stop_moves answers) hnamed rest
      simp only
      rw [hnew]
      refine allStopped_stopped hfirst hl hid ?_ hids
      rw [driveEach_get? hfirst, Dict.get?_set_self]
    | failed hrunning hraises exc =>
      rw [unobstructed_of_not_passes (not_passes hl fun _ => hraises)]
      exact allStopped_failed hfirst hl hid
    | refused hrunning exc =>
      rw [unobstructed_of_not_passes (not_passes hl fun h => absurd h hrunning)]
      exact allStopped_refused hl hrunning

-- ---------------------------------------------------------------------------
-- Runs
-- ---------------------------------------------------------------------------

theorem fleet_named (answers : Answers) {fleet : Fleet} (op : FleetOp)
    (h : Named fleet.pluginLifecycles) :
    Named (fleetMachine answers fleet op).2.pluginLifecycles := by
  cases op with
  | register plugin =>
    simp only [fleetMachine]
    cases fleet.pluginRegistry.register plugin <;> exact h
  | unregister pluginId =>
    simp only [fleetMachine]
    cases fleet.pluginRegistry.unregister pluginId <;> exact h
  | startPlugins => exact (driveEach_named (startOne_moves answers) h _).1
  | stopPlugins => exact (driveEach_named (stop_moves answers) h _).1
  | disposePlugins => exact (driveEach_named (dispose_moves answers) h _).1

/-- The next `stop_plugins` calls the stop hook of every registered plugin that
is running once, and leaves none of them running. -/
def Fleet.StopsAll (answers : Answers) (fleet : Fleet) : Prop :=
  ∀ plugin, RunsIn fleet.pluginRegistry fleet.pluginLifecycles plugin →
    Stopped fleet.calls (fleetMachine answers fleet .stopPlugins).2.pluginLifecycles
      (fleetMachine answers fleet .stopPlugins).2.calls plugin

/-- In the order of the registry, every plugin before a running one is running
and its stop hook returns. -/
def Fleet.Unobstructed (answers : Answers) (fleet : Fleet) : Prop :=
  MellivorKernel.Unobstructed answers fleet.pluginRegistry fleet.pluginLifecycles fleet.calls
    fleet.pluginRegistry.enumerate

/-- In every state a run leads to, whatever the hooks answer. -/
theorem stopPlugins_stopsAll_iff (answers : Answers) (ops : List FleetOp) :
    ((fleetMachine answers).after .new ops).StopsAll answers ↔
      ((fleetMachine answers).after .new ops).Unobstructed answers := by
  have hnamed : Named ((fleetMachine answers).after .new ops).pluginLifecycles := by
    have hstep (fleet : Fleet) (op : FleetOp) (_ : True) (h : Named fleet.pluginLifecycles) :
        Named (fleetMachine answers fleet op).2.pluginLifecycles := fleet_named answers op h
    have hstart : Named Fleet.new.pluginLifecycles := nofun
    exact Machine.after_invariant hstep (fun _ _ => trivial) hstart
  generalize (fleetMachine answers).after .new ops = fleet at hnamed ⊢
  refine Iff.trans ?_ (driveEach_stop_iff (PluginRegistry.enumerate_nodup _)
    (List.Subset.refl _) hnamed)
  refine forall_congr' fun plugin => ⟨fun h _ => h, fun h hruns => h ?_ hruns⟩
  exact PluginRegistry.mem_enumerate.mpr ⟨plugin, hruns.1, rfl⟩

end

def firstUnstoppable : Answers := fun _ call =>
  if call = stopOf firstPlugin then .error (.raised .exception (lit "still busy")) else .ok ()

/-- The second plugin is left running, its stop hook not called. -/
theorem secondPlugin_notStopped : ¬ @Fleet.StopsAll plainPrinting firstUnstoppable
    ((@fleetMachine plainPrinting firstUnstoppable).after .new
      [.register firstPlugin, .register secondPlugin, .startPlugins]) := by
  intro hall
  have hleft := (hall secondPlugin ⟨by decide, by decide⟩).left
  revert hleft
  decide

end MellivorKernel
