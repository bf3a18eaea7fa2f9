import MellivorKernel.Workflow.ParallelGroup

/-!
# Workflow runs

`WorkflowEngine.run`: check the options, group the steps into units, run the
units in order until one has a stopping failure, and report the outcome. The
options are a value here, so the snapshot `run` takes of them is left out, as
are log lines. Each unit has a schedule of its own; a unit that runs inline
ignores it.
-/

namespace MellivorKernel

open Python Foundation Program

section
variable [Printing]

-- ---------------------------------------------------------------------------
-- Options against a definition
-- ---------------------------------------------------------------------------

/-- A group names contiguous steps in declared order. -/
def contiguous (declaredNames group : List Str) : Bool :=
  let indexes := group.map (declaredNames.idxOf ·)
  let declaredGroupOrder := (indexes.insertionSort (· ≤ ·)).filterMap (declaredNames[·]?)
  group = declaredGroupOrder &&
    indexes.max?.getD 0 - indexes.min?.getD 0 + 1 = indexes.length

def validateOptions (steps : List WorkflowStep) (options : WorkflowExecutionOptions) :
    Except Exn Unit :=
  let declaredNames := steps.map WorkflowStep.name
  let referencedNames := options.requestResolvers.keys ++ options.notBefore.keys ++
    options.parallelGroups.flatten
  let unknownNames := sorted ((referencedNames.filter (· ∉ declaredNames)).dedup)
  if unknownNames ≠ [] then .error (.raised .workflowError
    (lit "WorkflowExecutionOptions references unknown step(s): " ++ join (lit ", ") unknownNames ++
      lit "."))
  else if options.parallelGroups.all (contiguous declaredNames) then .ok ()
  else .error (.raised .workflowError
    (lit "WorkflowExecutionOptions.parallel_groups must name contiguous steps in their declared workflow order."))

/-- `group_by_name`: which group a step is in. -/
def groupByName (options : WorkflowExecutionOptions) : Dict Str Nat :=
  Dict.ofList (options.parallelGroups.zipIdx.flatMap fun (group, index) =>
    group.map fun stepName => (stepName, index))

def addToUnits (groups : Dict Str Nat) (units : List (List WorkflowStep)) (step : WorkflowStep) :
    List (List WorkflowStep) :=
  match units.getLast? with
  | some (first :: more) =>
    if (groups.get? step.name).isSome ∧ groups.get? first.name = groups.get? step.name then
      units.dropLast ++ [first :: more ++ [step]]
    else units ++ [[step]]
  | _ => units ++ [[step]]

def groupIntoUnits (steps : List WorkflowStep) (options : WorkflowExecutionOptions) :
    List (List WorkflowStep) :=
  steps.foldl (addToUnits (groupByName options)) []

def isExplicitlyParallel (stepName : Str) (options : WorkflowExecutionOptions) : Bool :=
  options.parallelGroups.any (stepName ∈ ·)

def firstStoppingFailure : List WorkflowStep → Dict Str ExecutionResult →
    Option (WorkflowStep × ExecutionResult)
  | [], _ => none
  | step :: rest, unitResults =>
    match unitResults.get? step.name with
    | some result =>
      if step.StoppedBy result then some (step, result) else firstStoppingFailure rest unitResults
    | none => firstStoppingFailure rest unitResults

-- ---------------------------------------------------------------------------
-- Units
-- ---------------------------------------------------------------------------

def WorkflowEngine.runUnit (engine : WorkflowEngine) (discipline : Discipline)
    (options : WorkflowExecutionOptions) (unit : List WorkflowStep) (context : WorkflowContext)
    (schedule : List GroupAction) :
    Option (Except Exn (Dict Str ExecutionResult) × List WorkflowCall) :=
  match unit with
  | [step] =>
    if isExplicitlyParallel step.name options then
      engine.runParallelGroup discipline options unit context schedule
    else
      let (outcome, calls) := engine.stepRun options context step
      some (outcome.map fun result => Dict.empty.set step.name result, calls)
  | _ => engine.runParallelGroup discipline options unit context schedule

/-- How the loop over the units ended: what was recorded, and the stopping
failure if there was one. -/
abbrev UnitsEnd := Dict Str ExecutionResult × Option (WorkflowStep × ExecutionResult)

def WorkflowEngine.runUnits (engine : WorkflowEngine) (discipline : Discipline)
    (options : WorkflowExecutionOptions) :
    List (List WorkflowStep) → List (List GroupAction) → WorkflowContext →
      Dict Str ExecutionResult → Option (Except Exn UnitsEnd × List WorkflowCall)
  | [], _, _, stepResults => some (.ok (stepResults, none), [])
  | unit :: rest, schedules, context, stepResults =>
    match engine.runUnit discipline options unit context (schedules.headD []) with
    | none => none
    | some (.error exc, calls) => some (.error exc, calls)
    | some (.ok unitResults, calls) =>
      let stepResults := stepResults.update unitResults
      match firstStoppingFailure unit unitResults with
      | some stopping => some (.ok (stepResults, some stopping), calls)
      | none =>
        (engine.runUnits discipline options rest schedules.tail
          { context with stepResults := stepResults } stepResults).map
          fun (ended, more) => (ended, calls ++ more)

-- ---------------------------------------------------------------------------
-- The run
-- ---------------------------------------------------------------------------

def WorkflowEngine.remember (engine : WorkflowEngine) (workflow : Workflow)
    (result : WorkflowResult) : Program Exn WorkflowCall Unit :=
  match engine.memory with
  | none => pure ()
  | some store => do
    let stepCount := result.stepResults.keys.length
    let content :=
      if result.success then
        lit "Workflow " ++ pyRepr workflow.definition.name ++ lit " succeeded with " ++
          decimal stepCount ++ lit " step(s)."
      else lit "Workflow " ++ pyRepr workflow.definition.name ++ lit " failed: " ++
        result.error.getD (lit "None")
    let entry ← lift (MemoryEntry.new workflow.workflowId content {lit "workflow"}
      [item "name" (.str workflow.definition.name), item "success" (.bool result.success),
        item "step_count" (.int stepCount)] engine.now)
    let _ ← (call (.remember entry) (store entry)).attempt
    pure ()

/-- What `run` does once the units have ended. -/
def WorkflowEngine.finish (engine : WorkflowEngine) (workflow : Workflow) :
    UnitsEnd → Program Exn WorkflowCall WorkflowResult
  | (stepResults, some (stoppingStep, stoppingResult)) => do
    let workflowResult ← lift (WorkflowResult.new false stepResults
      (some (lit "Step " ++ pyRepr stoppingStep.name ++ lit " failed: " ++
        stoppingResult.error.getD (lit "None")))
      (some stoppingStep.name))
    tell .publish engine.eventBus (.workflowFailed workflow.workflowId workflow.definition.name
      (workflowResult.error.getD []) (some stoppingStep.name))
    engine.remember workflow workflowResult
    pure workflowResult
  | (stepResults, none) => do
    let workflowResult ← lift (WorkflowResult.new true stepResults none none)
    tell .publish engine.eventBus (.workflowCompleted workflow.workflowId workflow.definition.name
      stepResults.keys.length)
    engine.remember workflow workflowResult
    pure workflowResult

/-- What `run` does before its first unit. -/
def WorkflowEngine.opening (engine : WorkflowEngine) (workflow : Workflow)
    (options : WorkflowExecutionOptions) : Program Exn WorkflowCall Unit := do
  lift (validateOptions workflow.definition.steps options)
  tell .publish engine.eventBus (.workflowStarted workflow.workflowId workflow.definition.name)

/-- `WorkflowEngine.run` under one schedule for each unit; `none` when a
schedule does not bring its group to an end. -/
def WorkflowEngine.run (engine : WorkflowEngine) (discipline : Discipline) (workflow : Workflow)
    (context : WorkflowContext) (options : WorkflowExecutionOptions)
    (schedules : List (List GroupAction)) :
    Option (Except Exn WorkflowResult × List WorkflowCall) :=
  match (engine.opening workflow options).exec [] with
  | (.error exc, calls) => some (.error exc, calls)
  | (.ok (), calls) =>
    (engine.runUnits discipline options (groupIntoUnits workflow.definition.steps options) schedules
      context Dict.empty).map fun (ended, more) =>
        (do engine.finish workflow (← lift ended)).exec (calls ++ more)

-- ---------------------------------------------------------------------------
-- Grouping
-- ---------------------------------------------------------------------------

omit [Printing] in
theorem addToUnits_flatten (groups : Dict Str Nat) (units : List (List WorkflowStep))
    (step : WorkflowStep) : (addToUnits groups units step).flatten = units.flatten ++ [step] := by
  unfold addToUnits
  split
  · rename_i first more hlast
    split
    · obtain ⟨init, rfl⟩ := List.getLast?_eq_some_iff.mp hlast
      simp
    · simp
  · simp

theorem groupIntoUnits_flatten (steps : List WorkflowStep) (options : WorkflowExecutionOptions) :
    (groupIntoUnits steps options).flatten = steps := by
  have h (units : List (List WorkflowStep)) :
      (steps.foldl (addToUnits (groupByName options)) units).flatten = units.flatten ++ steps := by
    induction steps generalizing units with
    | nil => simp
    | cons step rest ih => simp [ih, addToUnits_flatten]
  simpa [groupIntoUnits] using h []

theorem groupIntoUnits_ungrouped (steps : List WorkflowStep) (options : WorkflowExecutionOptions) :
    groupIntoUnits steps options.ungrouped = steps.map ([·]) := by
  have hadd (units : List (List WorkflowStep)) (step : WorkflowStep) :
      addToUnits (groupByName options.ungrouped) units step = units ++ [[step]] := by
    unfold addToUnits
    have hnone : (groupByName options.ungrouped).get? step.name = none := rfl
    simp only [hnone, Option.isSome_none, Bool.false_eq_true, false_and, if_false]
    split <;> rfl
  have h (units : List (List WorkflowStep)) :
      steps.foldl (addToUnits (groupByName options.ungrouped)) units = units ++ steps.map ([·]) := by
    induction steps generalizing units with
    | nil => simp
    | cons step rest ih => simp [ih, hadd]
  simpa [groupIntoUnits] using h []

theorem runUnits_inline (engine : WorkflowEngine) (discipline : Discipline)
    (options : WorkflowExecutionOptions) (step : WorkflowStep) (rest : List (List WorkflowStep))
    (schedules : List (List GroupAction)) (context : WorkflowContext)
    (d : Dict Str ExecutionResult) :
    engine.runUnits discipline options.ungrouped ([step] :: rest) schedules context d =
      match engine.stepRun options.ungrouped context step with
      | (.error exc, calls) => some (.error exc, calls)
      | (.ok result, calls) =>
        if step.StoppedBy result then some (.ok (d.set step.name result, some (step, result)), calls)
        else (engine.runUnits discipline options.ungrouped rest schedules.tail
          { context with stepResults := d.set step.name result } (d.set step.name result)).map
          fun (ended, more) => (ended, calls ++ more) := by
  have hunit : engine.runUnit discipline options.ungrouped [step] context (schedules.headD []) =
      some ((engine.stepRun options.ungrouped context step).1.map
          fun result => Dict.empty.set step.name result,
        (engine.stepRun options.ungrouped context step).2) := rfl
  rw [WorkflowEngine.runUnits, hunit]
  rcases engine.stepRun options.ungrouped context step with ⟨exc | result, calls⟩
  · rfl
  · have hupdate : d.update (Dict.empty.set step.name result) = d.set step.name result := rfl
    simp only [Except.map, hupdate, firstStoppingFailure, Dict.get?_set_self]
    by_cases hstop : step.StoppedBy result
    · simp only [hstop, if_true]
    · simp only [hstop, if_false]

end

end MellivorKernel
