import MellivorKernel.Execution.LoopEnforcement
import MellivorKernel.Workflow.RunLaw

/-!
# What a workflow lets run

The workflow engine over an execution engine given as it stands at each step.
Whatever the options, the schedule, the resolvers and the tools do, and however
the run ends: the steps that execute are declared ones, each executes once at
most and with the request that it declares or that its resolver answered, and a
tool that runs in a step is the one this request names, under permissions that
the step was granted (`run_stepsPermitted`).
-/

namespace MellivorKernel

open Python Foundation Program

def WorkflowEngine.over [Printing] (engine : WorkflowEngine) (execution : Str → ExecutionEngine) :
    WorkflowEngine :=
  { engine with executionEngine := fun step request context granted =>
      (((execution step.name).execute request context granted).exec []).1 }

def WorkflowCall.inner [Printing] (execution : Str → ExecutionEngine) : WorkflowCall → List Call
  | .execute name request context granted =>
    (((execution name).execute request context granted).exec []).2
  | _ => []

/-- What a step's execution ran: the tool its request names, once at most, and
only under permissions among those granted. -/
structure RanPermitted [Printing] (engine : ExecutionEngine) (request : ExecutionRequest)
    (granted : List Str) (made : List Call) : Prop where
  once : RunsAtMost request made
  covered : ∀ toolId payload, .execute toolId payload ∈ made →
    ∃ tool, engine.dispatcher.toolRegistry.lookup toolId = .ok tool ∧
      ∀ p ∈ tool.permissions, p.value ∈ granted

/-- What a step is executed with: the request it declares, or what its resolver
answered when it was asked. -/
inductive Requested [Printing] (options : WorkflowExecutionOptions) (step : WorkflowStep)
    (calls : List WorkflowCall) : ExecutionRequest → Prop
  | declared (hnone : options.requestResolvers.get? step.name = none) :
      Requested options step calls step.request
  | resolved {resolver : RequestResolver} {seen : WorkflowContext} {request : ExecutionRequest}
      (hresolver : options.requestResolvers.get? step.name = some resolver)
      (hasked : .resolve step.name seen step.request ∈ calls)
      (hanswer : resolver seen step.request = .ok (.request request)) :
      Requested options step calls request

/-- The executions among the calls of a workflow run are those of declared
steps, one each at most, with the request and under the grants of the step. -/
structure StepsPermitted [Printing] (execution : Str → ExecutionEngine)
    (options : WorkflowExecutionOptions) (steps : List WorkflowStep) (calls : List WorkflowCall) :
    Prop where
  once : (calls.filterMap WorkflowCall.executedStep?).Nodup
  declared : ∀ name request context granted, .execute name request context granted ∈ calls →
    ∃ step ∈ steps, step.name = name ∧ step.grantedPermissions = granted ∧
      Requested options step calls request ∧ RanPermitted (execution name) request granted
        ((WorkflowCall.execute name request context granted).inner execution)

section
variable [Printing] {engine : WorkflowEngine} {discipline : Discipline}
  {options : WorkflowExecutionOptions} {context : WorkflowContext}

theorem execute_ranPermitted (engine : ExecutionEngine) (request : ExecutionRequest)
    (context : ExecutionContext) (granted : List Str) :
    RanPermitted engine request granted ((engine.execute request context granted).exec []).2 := by
  obtain ⟨made, hmade, hruns⟩ := execute_executed engine request context granted []
  obtain ⟨made', hmade', hcovered⟩ := execute_covered engine request context granted []
  obtain rfl : made = made' := List.append_cancel_left (hmade.symm.trans hmade')
  rw [hmade, List.nil_append]
  refine ⟨hruns, fun toolId payload hmem => ?_⟩
  obtain ⟨tool, hlookup, hpermissions⟩ := hcovered _ hmem
  exact ⟨tool, hlookup, fun p hp => engine.effectivePermissions_subset _ (hpermissions p hp)⟩

-- ---------------------------------------------------------------------------
-- The steps that were turned to
-- ---------------------------------------------------------------------------

abbrev StepTurn := WorkflowStep × WorkflowContext

def turnCalls (engine : WorkflowEngine) (options : WorkflowExecutionOptions)
    (turns : List StepTurn) : List WorkflowCall :=
  turns.flatMap fun turn => (engine.stepRun options turn.2 turn.1).2

/-- The calls are those of distinct steps among the given ones. -/
def TurnedTo (engine : WorkflowEngine) (options : WorkflowExecutionOptions)
    (steps : List WorkflowStep) (calls : List WorkflowCall) : Prop :=
  ∃ turns : List StepTurn, (turns.map fun turn => turn.1.name).Nodup ∧
    (∀ turn ∈ turns, turn.1 ∈ steps) ∧ calls = turnCalls engine options turns

theorem runUnit_turnedTo {unit : List WorkflowStep} {schedule : List GroupAction}
    (hn : (unit.map WorkflowStep.name).Nodup) {outcome : Except Exn (Dict Str ExecutionResult)}
    {calls : List WorkflowCall}
    (h : engine.runUnit discipline options unit context schedule = some (outcome, calls)) :
    TurnedTo engine options unit calls := by
  have hgroup (h : engine.runParallelGroup discipline options unit context schedule =
      some (outcome, calls)) : TurnedTo engine options unit calls := by
    obtain ⟨s, hs, -, -, rfl⟩ := runParallelGroup_eq_some h
    have hinv := GroupInv.run hn hs
    refine ⟨(s.begunSteps unit).map (·, context), ?_, ?_, ?_⟩
    · rw [List.map_map]
      exact hinv.begunSteps_nodup hn
    · rintro turn hturn
      obtain ⟨step, hstep, rfl⟩ := List.mem_map.mp hturn
      exact begunSteps_subset step hstep
    · rw [turnCalls, List.flatMap_map]
  unfold WorkflowEngine.runUnit at h
  split at h
  · rename_i step
    split at h
    · exact hgroup h
    · cases h
      exact ⟨[(step, context)], List.nodup_singleton _, by simp, (List.append_nil _).symm⟩
  · exact hgroup h

theorem runUnits_turnedTo {units : List (List WorkflowStep)} {schedules : List (List GroupAction)}
    {d : Dict Str ExecutionResult} (hn : (units.flatten.map WorkflowStep.name).Nodup)
    {outcome : Except Exn UnitsEnd} {calls : List WorkflowCall}
    (h : engine.runUnits discipline options units schedules context d = some (outcome, calls)) :
    TurnedTo engine options units.flatten calls := by
  induction units generalizing schedules context d outcome calls with
  | nil =>
    cases h
    exact ⟨[], List.nodup_nil, by simp, rfl⟩
  | cons unit rest ih =>
    rw [List.flatten_cons, List.map_append, List.nodup_append] at hn
    have hfirst {unitCalls : List WorkflowCall} (h : TurnedTo engine options unit unitCalls) :
        TurnedTo engine options (unit :: rest).flatten unitCalls := by
      obtain ⟨turns, hnodup, hmem, hcalls⟩ := h
      exact ⟨turns, hnodup, fun turn ht => List.mem_append_left _ (hmem turn ht), hcalls⟩
    unfold WorkflowEngine.runUnits at h
    split at h
    · cases h
    · rename_i exc unitCalls hrun
      cases h
      exact hfirst (runUnit_turnedTo hn.1 hrun)
    · rename_i results unitCalls hrun
      have hunit := runUnit_turnedTo hn.1 hrun
      simp only at h
      split at h
      · cases h
        exact hfirst hunit
      · obtain ⟨⟨ended, more⟩, hrest, heq⟩ := Option.map_eq_some_iff.mp h
        cases heq
        obtain ⟨turns, hnodup, hmem, rfl⟩ := hunit
        obtain ⟨turns', hnodup', hmem', rfl⟩ := ih hn.2.1 hrest
        refine ⟨turns ++ turns', ?_, ?_, ?_⟩
        · rw [List.map_append, List.nodup_append]
          refine ⟨hnodup, hnodup', fun a ha b hb => ?_⟩
          obtain ⟨turn, ht, rfl⟩ := List.mem_map.mp ha
          obtain ⟨turn', ht', rfl⟩ := List.mem_map.mp hb
          exact hn.2.2 _ (List.mem_map_of_mem (hmem turn ht)) _ (List.mem_map_of_mem (hmem' turn' ht'))
        · intro turn ht
          exact (List.mem_append.mp ht).elim (fun h => List.mem_append_left _ (hmem turn h))
            fun h => List.mem_append_right _ (hmem' turn h)
        · exact (List.flatMap_append ..).symm

-- ---------------------------------------------------------------------------
-- Whole runs
-- ---------------------------------------------------------------------------

theorem run_turnedTo {workflow : Workflow} {schedules : List (List GroupAction)}
    {outcome : Except Exn WorkflowResult} {calls : List WorkflowCall}
    (h : engine.run discipline workflow context options schedules = some (outcome, calls)) :
    ∃ opening stepCalls closing, TurnedTo engine options workflow.definition.steps stepCalls ∧
      calls = opening ++ stepCalls ++ closing ∧ ∀ c ∈ opening ++ closing, c.Own := by
  rw [WorkflowEngine.run] at h
  obtain ⟨opening, hopening, hown⟩ := opening_only engine workflow options []
  rw [List.nil_append] at hopening
  have hn : ((groupIntoUnits workflow.definition.steps options).flatten.map
      WorkflowStep.name).Nodup := by
    rw [groupIntoUnits_flatten]
    exact workflow.definition.steps_nodup
  split at h
  · rename_i exc calls' hexec
    cases h
    rw [hexec] at hopening
    obtain rfl : calls = opening := hopening
    exact ⟨calls, [], [], ⟨[], List.nodup_nil, by simp, rfl⟩, by simp, by simpa using hown⟩
  · rename_i calls' hexec
    rw [hexec] at hopening
    obtain rfl : calls' = opening := hopening
    obtain ⟨⟨ended, stepCalls⟩, hunits, hclose⟩ := Option.map_eq_some_iff.mp h
    have hturned := runUnits_turnedTo hn hunits
    rw [groupIntoUnits_flatten] at hturned
    have hfinish : Only WorkflowCall.Own (do engine.finish workflow (← lift ended)) :=
      .bind (.lift _) fun ended log => finish_only_own workflow ended log
    obtain ⟨closing, hclosing, hown'⟩ := hfinish (calls' ++ stepCalls)
    have hcalls := congrArg Prod.snd hclose
    simp only at hcalls
    refine ⟨calls', stepCalls, closing, hturned, hcalls ▸ hclosing, fun c hc => ?_⟩
    exact (List.mem_append.mp hc).elim (hown c) (hown' c)

theorem turnCalls_executed (turns : List StepTurn) :
    ((turnCalls engine options turns).filterMap WorkflowCall.executedStep?).Sublist
      (turns.map fun turn => turn.1.name) :=
  filterMap_flatMap_sublist fun turn _ =>
    (stepRun_calls engine options turn.2 turn.1).sublists.2.2

theorem Requested.mono {step : WorkflowStep} {made calls : List WorkflowCall}
    {request : ExecutionRequest} (h : Requested options step made request) (hsub : made ⊆ calls) :
    Requested options step calls request := by
  cases h with
  | declared hnone => exact .declared hnone
  | resolved hresolver hasked hanswer => exact .resolved hresolver (hsub hasked) hanswer

def AllRequested (options : WorkflowExecutionOptions) (step : WorkflowStep)
    (calls : List WorkflowCall) : Prop :=
  ∀ name request seen granted, .execute name request seen granted ∈ calls →
    Requested options step calls request

theorem AllRequested.nil {step : WorkflowStep} : AllRequested options step [] :=
  fun _ _ _ _ h => (List.not_mem_nil h).elim

theorem AllRequested.now {step : WorkflowStep} {more : List WorkflowCall}
    (h : AllRequested options step more) :
    AllRequested options step ([.now step.name] ++ more) := by
  intro name request seen granted hmem
  have hmore := (List.mem_append.mp hmem).resolve_left fun h => by simp at h
  exact (h name request seen granted hmore).mono (List.subset_append_right _ _)

theorem resolveAndExecuteDue_requested (engine : WorkflowEngine) (step : WorkflowStep)
    (context : WorkflowContext) (options : WorkflowExecutionOptions) :
    (engine.resolveAndExecuteDue step context options).Traces fun _ made =>
      AllRequested options step made := by
  unfold WorkflowEngine.resolveAndExecuteDue WorkflowEngine.executeStep
  cases hresolver : options.requestResolvers.get? step.name with
  | none =>
    refine .call fun name request seen granted hmem => ?_
    cases List.mem_singleton.mp hmem
    exact .declared hresolver
  | some resolver =>
    refine .attempt_call_bind ?_
    have hnone : AllRequested options step [.resolve step.name context step.request] :=
      fun _ _ _ _ hmem => by simp at hmem
    rcases hanswer : resolver context step.request with exc | answer | typeName
    · exact .lift hnone
    · refine .call fun name request seen granted hmem => ?_
      rcases List.mem_cons.mp hmem with hmem | hmem
      · cases hmem
      · cases List.mem_singleton.mp hmem
        exact .resolved hresolver List.mem_cons_self hanswer
    · exact .lift hnone

theorem stepRun_requested (engine : WorkflowEngine) (options : WorkflowExecutionOptions)
    (context : WorkflowContext) (step : WorkflowStep) :
    AllRequested options step (engine.stepRun options context step).2 := by
  have htraces : (engine.resolveAndExecuteStep step context options).Traces fun _ made =>
      AllRequested options step made := by
    unfold WorkflowEngine.resolveAndExecuteStep
    refine .bind (.call (Q := fun _ made => made = [.now step.name]) rfl) ?_ ?_
    · rintro exc _ rfl
      exact AllRequested.nil.now
    · rintro u _ rfl
      have hdue := resolveAndExecuteDue_requested engine step context options
      cases options.notBefore.get? step.name with
      | none => exact hdue.mono fun _ more hmore => hmore.now
      | some notBefore =>
        refine .lift_bind (fun _ _ => AllRequested.nil.now) fun later _ => ?_
        split
        · exact .lift AllRequested.nil.now
        · exact hdue.mono fun _ more hmore => hmore.now
  obtain ⟨made, hmade, hrequested⟩ := htraces []
  obtain rfl : (engine.stepRun options context step).2 = made := hmade
  exact hrequested

theorem stepRun_execute {step : WorkflowStep} {name : Str} {request : ExecutionRequest}
    {seen : ExecutionContext} {granted : List Str}
    (h : .execute name request seen granted ∈ (engine.stepRun options context step).2) :
    step.name = name ∧ step.grantedPermissions = granted := by
  obtain ⟨resolves, executes, hcalls, hr, he⟩ := (stepRun_calls engine options context step).shape
  rw [hcalls, List.mem_cons, List.mem_append] at h
  rcases h with h | h | h
  · cases h
  · rcases hr with rfl | rfl
    · cases h
    · cases List.mem_singleton.mp h
  · rcases he with rfl | ⟨request', rfl⟩
    · cases h
    · cases List.mem_singleton.mp h
      exact ⟨rfl, rfl⟩

theorem TurnedTo.stepsPermitted {execution : Str → ExecutionEngine} {steps : List WorkflowStep}
    {opening stepCalls closing : List WorkflowCall}
    (h : TurnedTo (engine.over execution) options steps stepCalls)
    (hown : ∀ c ∈ opening ++ closing, c.Own) :
    StepsPermitted execution options steps (opening ++ stepCalls ++ closing) := by
  obtain ⟨turns, hnodup, hmem, rfl⟩ := h
  constructor
  · rw [filterMap_own hown WorkflowCall.step?_of_executed]
    exact (turnCalls_executed turns).nodup hnodup
  · intro name request seen granted hcall
    have hturn : .execute name request seen granted ∈
        turnCalls (engine.over execution) options turns := mem_of_step hown hcall rfl
    obtain ⟨turn, ht, hstep⟩ := List.mem_flatMap.mp hturn
    obtain ⟨hname, hgranted⟩ := stepRun_execute hstep
    refine ⟨turn.1, hmem turn ht, hname, hgranted, (stepRun_requested _ _ _ _ _ _ _ _ hstep).mono ?_,
      execute_ranPermitted _ _ _ _⟩
    exact fun c hc => List.mem_append_left _ (List.mem_append_right _
      (List.mem_flatMap.mpr ⟨turn, ht, hc⟩))

/-- The executions of a workflow run, under any options and schedule and
however it ends. -/
theorem run_stepsPermitted {execution : Str → ExecutionEngine} {workflow : Workflow}
    {schedules : List (List GroupAction)} {outcome : Except Exn WorkflowResult}
    {calls : List WorkflowCall}
    (h : (engine.over execution).run discipline workflow context options schedules =
      some (outcome, calls)) :
    StepsPermitted execution options workflow.definition.steps calls := by
  obtain ⟨opening, stepCalls, closing, hturned, rfl, hown⟩ := run_turnedTo h
  exact hturned.stepsPermitted hown

end

-- ---------------------------------------------------------------------------
-- A group of two steps that each run a tool
-- ---------------------------------------------------------------------------

def workEngine (_ : Str) : ExecutionEngine where
  dispatcher := {
    toolRegistry := ⟨Dict.empty.set (lit "work") { echoTool with id := lit "work" }, by
      rintro p (_ | ⟨_, ⟨⟩⟩)
      rfl⟩
    providerRegistry := ⟨Dict.empty⟩ }
  authorizer := none
  eventBus := some fun _ => .ok ()
  memory := none
  observability := none
  now := DateTime.epoch

def workSchedule : List GroupAction :=
  [.submit, .submit, .take 0, .take 1, .finish 1, .yield 1, .finish 0, .yield 0]

theorem workEngine_permitted : ∃ outcome calls,
    @WorkflowEngine.run plainPrinting (@WorkflowEngine.over plainPrinting pairEngine workEngine)
      .any pairWorkflow pairContext pairOptions [workSchedule] = some (outcome, calls) ∧
    (calls.flatMap (@WorkflowCall.inner plainPrinting workEngine)).filterMap Call.executed? =
      [(lit "work", []), (lit "work", [])] ∧
    @StepsPermitted plainPrinting workEngine pairOptions pairWorkflow.definition.steps calls := by
  obtain ⟨outcome, calls, hrun, htools⟩ : ∃ outcome calls,
      @WorkflowEngine.run plainPrinting (@WorkflowEngine.over plainPrinting pairEngine workEngine)
        .any pairWorkflow pairContext pairOptions [workSchedule] = some (outcome, calls) ∧
      (calls.flatMap (@WorkflowCall.inner plainPrinting workEngine)).filterMap Call.executed? =
        [(lit "work", []), (lit "work", [])] := ⟨_, _, rfl, rfl⟩
  exact ⟨outcome, calls, hrun, htools, @run_stepsPermitted plainPrinting _ _ _ _ _ _ _ _ _ hrun⟩

end MellivorKernel
