import MellivorKernel.Bootstrap.Bootstrap
import MellivorKernel.Core.ContainerLaw
import MellivorKernel.Core.KernelLaw

/-!
# The law of bootstrapping

What is registered, as one list of actions: the built-in tools if they are
asked for, the default services, the extra services. Bootstrapping returns a
running kernel exactly if all their ids and types are free and the log level is
known; otherwise it raises `BootstrapError` for the first that is taken, and
what came before that stays registered (`bootstrap_law`).
-/

namespace MellivorKernel

open Python Foundation

inductive BootAction (τ : Type)
  | tool (tool : BaseTool)
  | service (service : ServiceType τ × Handle)

def BootAction.key {τ : Type} : BootAction τ → Str ⊕ ServiceType τ
  | .tool t => .inl t.id
  | .service s => .inr s.1

def BootAction.tool? {τ : Type} : BootAction τ → Option (Str × BaseTool)
  | .tool t => some (t.id, t)
  | .service _ => none

def BootAction.service? {τ : Type} : BootAction τ → Option (ServiceType τ × Handle)
  | .tool _ => none
  | .service s => some s

section
variable {τ : Type} [DecidableEq τ]

def Booting.Taken (booting : Booting τ) : Str ⊕ ServiceType τ → Prop
  | .inl id => id ∈ booting.tools.tools.keys
  | .inr serviceType => booting.container.isRegistered serviceType = true

structure Booting.Extended (before after : Booting τ) (actions : List (BootAction τ)) : Prop where
  tools : after.tools.tools.entries = before.tools.tools.entries ++
    actions.filterMap BootAction.tool?
  instances : after.container.instances.entries = before.container.instances.entries ++
    actions.filterMap BootAction.service?
  factories : after.container.factories = before.container.factories
  logging : after.logging = before.logging

def BootstrapBuilder.plan (builder : BootstrapBuilder τ) (builtinTools : List BaseTool)
    (created : Created) : List (BootAction τ) :=
  (if builder.registerBuiltinTools then builtinTools else []).map .tool ++
    (defaultServices builder.config (builder.providerRegistry.getD created.providerRegistry)
      ((builder.toolRegistry.map Prod.fst).getD created.toolRegistry) ++
      builder.extraServices.entries).map .service

section
variable [Printing] (typeRepr : ServiceType τ → Str)

def Booting.perform (booting : Booting τ) : BootAction τ → Except Exn Unit × Booting τ
  | .tool tool => booting.registerTool tool
  | .service service => booting.registerService typeRepr service

/-- What carrying out an action raises if its id or type is taken. -/
def BootAction.refusal : BootAction τ → Exn
  | .tool t => .raised .toolRegistrationError
      (lit "Tool " ++ pyRepr t.id ++ lit " is already registered.")
  | .service s => ServiceContainer.alreadyRegistered typeRepr s.1

omit [Printing] in
theorem Booting.Extended.taken_iff {before after : Booting τ} {actions : List (BootAction τ)}
    (h : before.Extended after actions) (k : Str ⊕ ServiceType τ) :
    after.Taken k ↔ k ∈ actions.map BootAction.key ∨ before.Taken k := by
  cases k with
  | inl id =>
    have hkeys : id ∈ (actions.filterMap BootAction.tool?).map Prod.fst ↔
        .inl id ∈ actions.map BootAction.key := by
      simp only [List.mem_map, List.mem_filterMap]
      constructor
      · rintro ⟨p, ⟨action, hmem, htool⟩, rfl⟩
        cases action <;> cases htool
        exact ⟨_, hmem, rfl⟩
      · rintro ⟨action, hmem, hkey⟩
        cases action <;> cases hkey
        exact ⟨_, ⟨_, hmem, rfl⟩, rfl⟩
    rw [← hkeys, Booting.Taken, Dict.keys, h.tools, List.map_append, List.mem_append, or_comm]
    rfl
  | inr serviceType =>
    have hkeys : serviceType ∈ (actions.filterMap BootAction.service?).map Prod.fst ↔
        .inr serviceType ∈ actions.map BootAction.key := by
      simp only [List.mem_map, List.mem_filterMap]
      constructor
      · rintro ⟨p, ⟨action, hmem, hservice⟩, rfl⟩
        cases action <;> cases hservice
        exact ⟨_, hmem, rfl⟩
      · rintro ⟨action, hmem, hkey⟩
        cases action <;> cases hkey
        exact ⟨_, ⟨_, hmem, rfl⟩, rfl⟩
    have hinstances : serviceType ∈ after.container.instances ↔
        serviceType ∈ (actions.filterMap BootAction.service?).map Prod.fst ∨
          serviceType ∈ before.container.instances := by
      rw [Dict.mem_def, Dict.keys, h.instances, List.map_append, List.mem_append, or_comm]
      rfl
    rw [← hkeys, Booting.Taken, Booting.Taken, ServiceContainer.isRegistered_iff,
      ServiceContainer.isRegistered_iff, h.factories, hinstances]
    tauto

-- ---------------------------------------------------------------------------
-- One action
-- ---------------------------------------------------------------------------

variable {booting : Booting τ} {typeRepr}

theorem perform_taken {action : BootAction τ} (h : booting.Taken action.key) :
    booting.perform typeRepr action = (.error (action.refusal typeRepr), booting) := by
  cases action with
  | tool t =>
    have htaken : t.id ∈ booting.tools.tools.keys := h
    simp only [Booting.perform, Booting.registerTool, ToolRegistry.register, dif_pos htaken]
    rfl
  | service s =>
    have htaken : booting.container.isRegistered s.1 = true := h
    simp only [Booting.perform, Booting.registerService, ServiceContainer.registerInstance,
      if_pos htaken]
    rfl

theorem perform_free {action : BootAction τ} (h : ¬ booting.Taken action.key) :
    (booting.perform typeRepr action).1 = .ok () ∧
      booting.Extended (booting.perform typeRepr action).2 [action] := by
  cases action with
  | tool t =>
    have hfree : t.id ∉ booting.tools.tools.keys := h
    simp only [Booting.perform, Booting.registerTool, ToolRegistry.register, dif_neg hfree]
    exact ⟨trivial, Dict.entries_set_of_not_mem hfree _, (List.append_nil _).symm, rfl, rfl⟩
  | service s =>
    have hfree : ¬ booting.container.isRegistered s.1 = true := h
    simp only [Booting.perform, Booting.registerService, ServiceContainer.registerInstance,
      if_neg hfree]
    have hnew : s.1 ∉ booting.container.instances.keys := fun hmem =>
      hfree (ServiceContainer.isRegistered_iff.mpr (.inr hmem))
    exact ⟨trivial, (List.append_nil _).symm, Dict.entries_set_of_not_mem hnew _, rfl, rfl⟩

variable (typeRepr) in
theorem perform_registration : Registration (Booting.perform typeRepr) BootAction.key Booting.Taken
    (BootAction.refusal typeRepr) where
  refuses booting action h := perform_taken h
  enters booting action h := (perform_free h).1
  takes booting action h k := by
    rw [(perform_free h).2.taken_iff, List.map_singleton, List.mem_singleton]

-- ---------------------------------------------------------------------------
-- All actions
-- ---------------------------------------------------------------------------

omit [DecidableEq τ] [Printing] in
theorem Booting.Extended.trans {first second third : Booting τ} {before after : List (BootAction τ)}
    (h : first.Extended second before) (h' : second.Extended third after) :
    first.Extended third (before ++ after) where
  tools := by rw [h'.tools, h.tools, List.filterMap_append, List.append_assoc]
  instances := by rw [h'.instances, h.instances, List.filterMap_append, List.append_assoc]
  factories := h'.factories.trans h.factories
  logging := h'.logging.trans h.logging

theorem takeEach_extended {actions : List (BootAction τ)}
    (h : Free BootAction.key Booting.Taken booting actions) :
    booting.Extended (takeEach (Booting.perform typeRepr) booting actions).2 actions := by
  induction actions generalizing booting with
  | nil => exact ⟨(List.append_nil _).symm, (List.append_nil _).symm, rfl, rfl⟩
  | cons action rest ih =>
    obtain ⟨hfree, hrest⟩ := (perform_registration typeRepr).free_cons.mp h
    rw [(perform_registration typeRepr).takeEach_cons hfree]
    exact (perform_free hfree).2.trans (ih hrest)

variable {builder : BootstrapBuilder τ} {builtinTools : List BaseTool} {created : Created}

def BootstrapBuilder.containerHandle (builder : BootstrapBuilder τ) (created : Created) : Handle :=
  (builder.container.map Prod.fst).getD created.container

def BootstrapBuilder.kernel (builder : BootstrapBuilder τ) (created : Created) : Core.Kernel :=
  Core.Kernel.new builder.logLevel (builder.containerHandle created)

theorem assemble_eq (builder : BootstrapBuilder τ) (booting : Booting τ) :
    builder.assemble typeRepr builtinTools created booting =
      match takeEach (Booting.perform typeRepr) booting (builder.plan builtinTools created) with
      | (.error exc, booting) => (.error exc, booting)
      | (.ok (), booting) =>
        match (builder.kernel created).start booting.logging with
        | (.error exc, _, logging) => (.error exc, { booting with logging })
        | (.ok (), kernel, logging) =>
          (.ok ⟨kernel, builder.config, builder.providerRegistry.getD created.providerRegistry,
            (builder.toolRegistry.map Prod.fst).getD created.toolRegistry⟩,
            { booting with logging }) := by
  have htools (booting : Booting τ) (tools : List BaseTool) :
      takeEach Booting.registerTool booting tools =
        takeEach (Booting.perform typeRepr) booting (tools.map .tool) := by
    rw [← takeEach_map]
    rfl
  have hservices (booting : Booting τ) (services : List (ServiceType τ × Handle)) :
      takeEach (Booting.registerService typeRepr) booting services =
        takeEach (Booting.perform typeRepr) booting (services.map .service) := by
    rw [← takeEach_map]
    rfl
  rw [BootstrapBuilder.plan, List.map_append, takeEach_append, BootstrapBuilder.assemble]
  simp only [htools, hservices, takeEach_append]
  obtain ⟨exc | ⟨⟩, booted⟩ := takeEach (Booting.perform typeRepr) booting
    ((if builder.registerBuiltinTools then builtinTools else []).map .tool)
  · rfl
  simp only
  obtain ⟨exc | ⟨⟩, booted⟩ := takeEach (Booting.perform typeRepr) booted
    ((defaultServices builder.config _ _).map .service)
  · rfl
  simp only
  obtain ⟨exc | ⟨⟩, booted⟩ := takeEach (Booting.perform typeRepr) booted
    (builder.extraServices.entries.map .service)
  · rfl
  rfl

/-- `except KernelError as exc: raise BootstrapError(...)` -/
def bootFailure (exc : Exn) : Exn :=
  .raised bootstrapError (lit "Kernel bootstrap failed: " ++ exc.text)

structure Booted (builder : BootstrapBuilder τ) (builtinTools : List BaseTool) (created : Created)
    (logging : Logging) (outcome : Except Exn RuntimeContext × Booting τ) : Prop where
  context : outcome.1 = .ok {
    kernel := { builder.kernel created with state := .running }
    configuration := builder.config
    providerRegistry := builder.providerRegistry.getD created.providerRegistry
    toolRegistry := (builder.toolRegistry.map Prod.fst).getD created.toolRegistry }
  extended : (builder.booting logging).Extended { outcome.2 with logging }
    (builder.plan builtinTools created)
  logging : outcome.2.logging = (configureLogging logging builder.logLevel).2

structure NotBooted (builder : BootstrapBuilder τ) (logging : Logging) (exc : Exn)
    (done : List (BootAction τ)) (outcome : Except Exn RuntimeContext × Booting τ) : Prop where
  raised : outcome.1 = .error (bootFailure exc)
  extended : (builder.booting logging).Extended outcome.2 done

structure Bootable (builder : BootstrapBuilder τ) (builtinTools : List BaseTool)
    (logging : Logging) : Prop where
  tools : builder.registerBuiltinTools = true → (builtinTools.map BaseTool.id).Nodup ∧
    ∀ tool ∈ builtinTools, tool.id ∉ (builder.booting logging).tools.tools.keys
  defaults : ∀ serviceType ∈ [.kernelConfig, .providerRegistry, .toolRegistry],
    (builder.booting logging).container.isRegistered serviceType = false
  extras : ∀ serviceType ∈ builder.extraServices.keys,
    serviceType ∉ [ServiceType.kernelConfig, .providerRegistry, .toolRegistry] ∧
      (builder.booting logging).container.isRegistered serviceType = false
  level : builder.logLevel ∈ logging.levelNames.keys

/-- What bootstrapping comes to: with everything free it boots; the first action
whose id or type is taken ends it, or at last the kernel that does not start. -/
structure BootstrapLaw (typeRepr : ServiceType τ → Str) (builder : BootstrapBuilder τ)
    (builtinTools : List BaseTool) (created : Created) (logging : Logging)
    (outcome : Except Exn RuntimeContext × Booting τ) : Prop where
  returns_iff : Returns outcome.1 ↔ Bootable builder builtinTools logging
  booted : Returns outcome.1 → Booted builder builtinTools created logging outcome
  taken : ∀ before action after, builder.plan builtinTools created = before ++ action :: after →
    Free BootAction.key Booting.Taken (builder.booting logging) before →
      (action.key ∈ before.map BootAction.key ∨ (builder.booting logging).Taken action.key) →
        NotBooted builder logging (action.refusal typeRepr) before outcome
  unknown : Free BootAction.key Booting.Taken (builder.booting logging)
      (builder.plan builtinTools created) → ∀ exc,
    resolveLevel logging.levelNames builder.logLevel = .error exc →
      NotBooted builder logging
        (.raised Core.startupError (lit "Kernel startup failed: " ++ exc.text))
        (builder.plan builtinTools created) outcome

omit [DecidableEq τ] [Printing] in
theorem plan_keys : (builder.plan builtinTools created).map BootAction.key =
    ((if builder.registerBuiltinTools then builtinTools else []).map BaseTool.id).map .inl ++
      (([.kernelConfig, .providerRegistry, .toolRegistry] : List (ServiceType τ)) ++
        builder.extraServices.keys).map .inr := by
  simp [BootstrapBuilder.plan, defaultServices, BootAction.key, Dict.keys, Function.comp_def]

omit [DecidableEq τ] [Printing] in
theorem nodup_sum_iff {ids : List Str} {types : List (ServiceType τ)}
    {T : Str ⊕ ServiceType τ → Prop} :
    ((ids.map Sum.inl ++ types.map Sum.inr).Nodup ∧
        ∀ k ∈ ids.map Sum.inl ++ types.map Sum.inr, ¬ T k) ↔
      (ids.Nodup ∧ ∀ id ∈ ids, ¬ T (.inl id)) ∧ types.Nodup ∧ ∀ t ∈ types, ¬ T (.inr t) := by
  simp only [List.nodup_append, List.nodup_map_iff Sum.inl_injective,
    List.nodup_map_iff Sum.inr_injective, List.forall_mem_append, List.forall_mem_map, ne_eq,
    reduceCtorEq, not_false_eq_true, implies_true, and_true]
  tauto

omit [Printing] in
theorem free_plan_iff {logging : Logging} : Free BootAction.key Booting.Taken
    (builder.booting logging) (builder.plan builtinTools created) ↔
      (builder.registerBuiltinTools = true → (builtinTools.map BaseTool.id).Nodup ∧
        ∀ tool ∈ builtinTools, tool.id ∉ (builder.booting logging).tools.tools.keys) ∧
      (∀ serviceType ∈ [.kernelConfig, .providerRegistry, .toolRegistry],
        (builder.booting logging).container.isRegistered serviceType = false) ∧
      ∀ serviceType ∈ builder.extraServices.keys,
        serviceType ∉ [ServiceType.kernelConfig, .providerRegistry, .toolRegistry] ∧
          (builder.booting logging).container.isRegistered serviceType = false := by
  have hfree : Free BootAction.key Booting.Taken (builder.booting logging)
      (builder.plan builtinTools created) ↔
      ((builder.plan builtinTools created).map BootAction.key).Nodup ∧
        ∀ k ∈ (builder.plan builtinTools created).map BootAction.key,
          ¬ (builder.booting logging).Taken k := by
    rw [Free, List.forall_mem_map]
  have hextras : (([.kernelConfig, .providerRegistry, .toolRegistry] : List (ServiceType τ)) ++
      builder.extraServices.keys).Nodup ↔ ∀ serviceType ∈ builder.extraServices.keys,
        serviceType ∉ [ServiceType.kernelConfig, .providerRegistry, .toolRegistry] := by
    have hkeys : builder.extraServices.keys.Nodup := builder.extraServices.nodup
    rw [List.nodup_append, and_iff_right (by simp), and_iff_right hkeys]
    exact ⟨fun h t ht hd => h t hd t ht rfl, fun h t hd t' ht heq => h t' ht (heq ▸ hd)⟩
  have htools : (((if builder.registerBuiltinTools then builtinTools else []).map BaseTool.id).Nodup ∧
      ∀ id ∈ (if builder.registerBuiltinTools then builtinTools else []).map BaseTool.id,
        ¬ (builder.booting logging).Taken (.inl id)) ↔
      (builder.registerBuiltinTools = true → (builtinTools.map BaseTool.id).Nodup ∧
        ∀ tool ∈ builtinTools, tool.id ∉ (builder.booting logging).tools.tools.keys) := by
    cases builder.registerBuiltinTools <;> simp [Booting.Taken]
  rw [hfree, plan_keys, nodup_sum_iff, htools, hextras, List.forall_mem_append]
  refine and_congr_right fun _ => ?_
  simp only [Booting.Taken, Bool.not_eq_true]
  constructor
  · rintro ⟨hdistinct, hdefaults, hfresh⟩
    exact ⟨hdefaults, fun t ht => ⟨hdistinct t ht, hfresh t ht⟩⟩
  · rintro ⟨hdefaults, hextra⟩
    exact ⟨fun t ht => (hextra t ht).1, hdefaults, fun t ht => (hextra t ht).2⟩

omit [DecidableEq τ] in
theorem kernel_start (logging : Logging) :
    (∀ level, resolveLevel logging.levelNames builder.logLevel = .ok level →
      (builder.kernel created).start logging =
        (.ok (), { builder.kernel created with state := .running },
          (configureLogging logging builder.logLevel).2)) ∧
    ∀ exc, resolveLevel logging.levelNames builder.logLevel = .error exc → ∃ kernel,
      (builder.kernel created).start logging =
        (.error (.raised Core.startupError (lit "Kernel startup failed: " ++ exc.text)), kernel,
          logging) := by
  have hstart : (builder.kernel created).state ∈
      [Core.KernelState.notStarted, .stopped, .failed] := List.mem_cons_self
  constructor
  · intro level hlevel
    have hlevel' : resolveLevel logging.levelNames (builder.kernel created).logLevel = .ok level :=
      hlevel
    simp only [Core.Kernel.start, if_pos hstart, Core.configureLogging_ok hlevel',
      Core.configureLogging_ok hlevel]
    rfl
  · intro exc hlevel
    have hlevel' : resolveLevel logging.levelNames (builder.kernel created).logLevel = .error exc :=
      hlevel
    simp only [Core.Kernel.start, if_pos hstart, Core.configureLogging_error hlevel']
    exact ⟨_, rfl⟩

omit [DecidableEq τ] in
theorem kernelError_refusal (action : BootAction τ) :
    (action.refusal typeRepr).isA .kernelError = true := by
  cases action <;> rfl

section
variable {logging : Logging}

theorem build_taken {before after : List (BootAction τ)} {action : BootAction τ}
    (hplan : builder.plan builtinTools created = before ++ action :: after)
    (hbefore : Free BootAction.key Booting.Taken (builder.booting logging) before)
    (htaken : action.key ∈ before.map BootAction.key ∨
      (builder.booting logging).Taken action.key) :
    NotBooted builder logging (action.refusal typeRepr) before
      (builder.build typeRepr builtinTools created logging) := by
  have hassemble : builder.assemble typeRepr builtinTools created (builder.booting logging) =
      (.error (action.refusal typeRepr),
        (takeEach (Booting.perform typeRepr) (builder.booting logging) before).2) := by
    rw [assemble_eq, hplan, (perform_registration typeRepr).takeEach_taken hbefore htaken]
  simp only [BootstrapBuilder.build, hassemble]
  exact ⟨congrArg Except.error (if_pos (kernelError_refusal action)), takeEach_extended hbefore⟩

variable (typeRepr) in
theorem assemble_free
    (hfree : Free BootAction.key Booting.Taken (builder.booting logging)
      (builder.plan builtinTools created)) : ∃ booted,
    (builder.booting logging).Extended booted (builder.plan builtinTools created) ∧
      booted.logging = logging ∧
      builder.assemble typeRepr builtinTools created (builder.booting logging) =
        match (builder.kernel created).start logging with
        | (.error exc, _, logging) => (.error exc, { booted with logging })
        | (.ok (), kernel, logging) =>
          (.ok ⟨kernel, builder.config, builder.providerRegistry.getD created.providerRegistry,
            (builder.toolRegistry.map Prod.fst).getD created.toolRegistry⟩,
            { booted with logging }) := by
  have hextended : (builder.booting logging).Extended (takeEach (Booting.perform typeRepr)
      (builder.booting logging) (builder.plan builtinTools created)).2 _ := takeEach_extended hfree
  have hlogging := hextended.logging
  have hok : takeEach (Booting.perform typeRepr) (builder.booting logging)
      (builder.plan builtinTools created) = (.ok (), (takeEach (Booting.perform typeRepr)
        (builder.booting logging) (builder.plan builtinTools created)).2) :=
    Prod.ext ((perform_registration typeRepr).takeEach_ok_iff.mpr hfree) rfl
  refine ⟨_, hextended, hlogging, ?_⟩
  rw [assemble_eq, hok]
  simp only [hlogging]
  rfl

theorem build_unknown
    (hfree : Free BootAction.key Booting.Taken (builder.booting logging)
      (builder.plan builtinTools created)) {exc : Exn}
    (hlevel : resolveLevel logging.levelNames builder.logLevel = .error exc) :
    NotBooted builder logging
      (.raised Core.startupError (lit "Kernel startup failed: " ++ exc.text))
      (builder.plan builtinTools created)
      (builder.build typeRepr builtinTools created logging) := by
  obtain ⟨booted, hextended, hlogging, hassemble⟩ := assemble_free typeRepr hfree
  obtain ⟨kernel, hkernel⟩ := (kernel_start logging).2 exc hlevel
  rw [hkernel] at hassemble
  simp only [BootstrapBuilder.build, hassemble]
  exact ⟨rfl, { hextended with logging := rfl }⟩

theorem build_booted
    (hfree : Free BootAction.key Booting.Taken (builder.booting logging)
      (builder.plan builtinTools created)) {level : Int}
    (hlevel : resolveLevel logging.levelNames builder.logLevel = .ok level) :
    Booted builder builtinTools created logging
      (builder.build typeRepr builtinTools created logging) := by
  obtain ⟨booted, hextended, hlogging, hassemble⟩ := assemble_free typeRepr hfree
  rw [(kernel_start logging).1 level hlevel] at hassemble
  simp only [BootstrapBuilder.build, hassemble]
  exact ⟨rfl, { hextended with logging := rfl }, rfl⟩

end

theorem bootstrap_law (typeRepr : ServiceType τ → Str) (builder : BootstrapBuilder τ)
    (builtinTools : List BaseTool) (created : Created) (logging : Logging) :
    BootstrapLaw typeRepr builder builtinTools created logging
      (builder.build typeRepr builtinTools created logging) := by
  have hbootable : Bootable builder builtinTools logging ↔
      Free BootAction.key Booting.Taken (builder.booting logging)
        (builder.plan builtinTools created) ∧
      Returns (resolveLevel logging.levelNames builder.logLevel) := by
    rw [free_plan_iff, Core.resolveLevel_returns]
    exact ⟨fun h => ⟨⟨h.tools, h.defaults, h.extras⟩, h.level⟩,
      fun h => ⟨h.1.1, h.1.2.1, h.1.2.2, h.2⟩⟩
  have hraised {exc : Exn} {done : List (BootAction τ)}
      (h : NotBooted builder logging exc done
        (builder.build typeRepr builtinTools created logging)) :
      ¬ Returns (builder.build typeRepr builtinTools created logging).1 := by
    rw [h.raised]
    exact not_returns_error _
  have hreturns : Returns (builder.build typeRepr builtinTools created logging).1 →
      Free BootAction.key Booting.Taken (builder.booting logging)
        (builder.plan builtinTools created) ∧
      Returns (resolveLevel logging.levelNames builder.logLevel) := by
    intro h
    rcases (perform_registration typeRepr).free_or_taken (builder.booting logging)
        (builder.plan builtinTools created) with
      hfree | ⟨before, action, after, hplan, hbefore, htaken⟩
    · cases hlevel : resolveLevel logging.levelNames builder.logLevel with
      | ok level => exact ⟨hfree, returns_ok level⟩
      | error exc => exact absurd h (hraised (build_unknown hfree hlevel))
    · exact absurd h (hraised (build_taken hplan hbefore htaken))
  constructor
  · rw [hbootable]
    refine ⟨hreturns, fun ⟨hfree, level, hlevel⟩ => ?_⟩
    rw [(build_booted hfree hlevel).context]
    exact returns_ok _
  · intro h
    obtain ⟨hfree, level, hlevel⟩ := hreturns h
    exact build_booted hfree hlevel
  · exact fun before action after hplan hbefore htaken => build_taken hplan hbefore htaken
  · exact fun hfree exc hlevel => build_unknown hfree hlevel

end

end

end MellivorKernel
