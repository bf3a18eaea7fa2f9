import MellivorKernel.Execution.Calls
import MellivorKernel.Workflow.Types

/-!
# One step of a workflow

`WorkflowEngine._resolve_and_execute_step`, the pipeline a step goes through
whether it runs inline or in a pool. The clock, the resolvers and
`ExecutionEngine.execute` answer for the step they are asked about. As no step
is asked about twice in a run, this covers collaborators that keep state.
-/

namespace MellivorKernel

open Python Foundation Program

inductive WorkflowCall
  | publish (event : Event)
  | now (step : Str)
  | resolve (step : Str) (context : WorkflowContext) (request : ExecutionRequest)
  | execute (step : Str) (request : ExecutionRequest) (context : ExecutionContext)
      (grantedPermissions : List Str)
  | remember (entry : MemoryEntry)

def WorkflowCall.step? : WorkflowCall → Option Str
  | .now step | .resolve step .. | .execute step .. => some step
  | .publish _ | .remember _ => none

def WorkflowCall.Own (c : WorkflowCall) : Prop := c.step? = none

theorem WorkflowCall.own_publish (event : Event) : (WorkflowCall.publish event).Own := rfl

theorem WorkflowCall.own_remember (entry : MemoryEntry) : (WorkflowCall.remember entry).Own := rfl

/-- `now` is what a memory entry reads its creation time from, `clock` the
injected clock, read once a step. -/
structure WorkflowEngine where
  executionEngine : WorkflowStep → ExecutionRequest → ExecutionContext → List Str →
    Except Exn ExecutionResult
  memory : Option MemoryStore
  eventBus : Option EventBus
  maxConcurrency : Option Nat
  maxConcurrency_ok : ∀ m ∈ maxConcurrency, 0 < m
  clock : WorkflowStep → ZonedDateTime
  now : DateTime

section
variable [Printing]

def WorkflowEngine.executeStep (engine : WorkflowEngine) (step : WorkflowStep)
    (context : WorkflowContext) (request : ExecutionRequest) :
    Program Exn WorkflowCall ExecutionResult :=
  call (.execute step.name request context.executionContext step.grantedPermissions)
    (engine.executionEngine step request context.executionContext step.grantedPermissions)

def WorkflowEngine.resolveAndExecuteDue (engine : WorkflowEngine) (step : WorkflowStep)
    (context : WorkflowContext) (options : WorkflowExecutionOptions) :
    Program Exn WorkflowCall ExecutionResult :=
  match options.requestResolvers.get? step.name with
  | some resolver => do
    match ← (call (.resolve step.name context step.request)
        (resolver context step.request)).attempt with
    | .error exc =>
      lift (ExecutionResult.new false none (some
        (lit "Dynamic request resolution failed for step " ++ pyRepr step.name ++ lit ": " ++
          exc.text)) 0 [item "stage" (.str (lit "dynamic_request"))])
    | .ok (.other typeName) =>
      lift (ExecutionResult.new false none (some
        (lit "Step " ++ pyRepr step.name ++ lit "'s request resolver returned " ++ typeName ++
          lit ", expected ExecutionRequest.")) 0 [item "stage" (.str (lit "dynamic_request"))])
    | .ok (.request request) => engine.executeStep step context request
  | none => engine.executeStep step context step.request

def WorkflowEngine.resolveAndExecuteStep (engine : WorkflowEngine) (step : WorkflowStep)
    (context : WorkflowContext) (options : WorkflowExecutionOptions) :
    Program Exn WorkflowCall ExecutionResult := do
  call (.now step.name) (.ok ())
  let now := engine.clock step
  match options.notBefore.get? step.name with
  | some notBefore =>
    if ← lift (now.lessThan notBefore) then
      lift (ExecutionResult.new false none (some
        (lit "Step " ++ pyRepr step.name ++ lit " is not yet due to run (not_before=" ++
          notBefore.isoformat ++ lit ", now=" ++ now.isoformat ++ lit ").")) 0
        [item "stage" (.str (lit "scheduling"))])
    else engine.resolveAndExecuteDue step context options
  | none => engine.resolveAndExecuteDue step context options

/-- What a step's pipeline returns or raises, and the calls it makes. -/
def WorkflowEngine.stepRun (engine : WorkflowEngine) (options : WorkflowExecutionOptions)
    (context : WorkflowContext) (step : WorkflowStep) :
    Except Exn ExecutionResult × List WorkflowCall :=
  (engine.resolveAndExecuteStep step context options).exec []

def WorkflowStep.StoppedBy (step : WorkflowStep) (result : ExecutionResult) : Prop :=
  result.success = false ∧ step.continueOnFailure = false

instance (step : WorkflowStep) (result : ExecutionResult) : Decidable (step.StoppedBy result) :=
  inferInstanceAs (Decidable (_ ∧ _))

-- ---------------------------------------------------------------------------
-- The calls of a step
-- ---------------------------------------------------------------------------

/-- The shape of what a step calls: the clock, then at most one resolution in
the context it was given, then at most one execution; neither before the step
is due. -/
structure StepCalls (engine : WorkflowEngine) (options : WorkflowExecutionOptions)
    (context : WorkflowContext) (step : WorkflowStep) (calls : List WorkflowCall) : Prop where
  shape : ∃ resolves executes, calls = .now step.name :: (resolves ++ executes) ∧
    (resolves = [] ∨ resolves = [.resolve step.name context step.request]) ∧
    (executes = [] ∨ ∃ request, executes =
      [.execute step.name request context.executionContext step.grantedPermissions])
  due : ∀ notBefore, options.notBefore.get? step.name = some notBefore →
    (engine.clock step).lessThan notBefore = .ok true → calls = [.now step.name]

theorem resolveAndExecuteDue_calls (engine : WorkflowEngine) (step : WorkflowStep)
    (context : WorkflowContext) (options : WorkflowExecutionOptions) (log : List WorkflowCall) :
    ∃ resolves executes,
      ((engine.resolveAndExecuteDue step context options).exec log).2 =
        log ++ (resolves ++ executes) ∧
      (resolves = [] ∨ resolves = [.resolve step.name context step.request]) ∧
      (executes = [] ∨ ∃ request, executes =
        [.execute step.name request context.executionContext step.grantedPermissions]) := by
  unfold WorkflowEngine.resolveAndExecuteDue WorkflowEngine.executeStep
  cases options.requestResolvers.get? step.name with
  | none => exact ⟨[], _, rfl, .inl rfl, .inr ⟨_, rfl⟩⟩
  | some resolver =>
    simp only
    rw [exec_bind, exec_attempt, exec_call]
    rcases resolver context step.request with exc | request | typeName
    · exact ⟨[_], [], by simp, .inr rfl, .inl rfl⟩
    · exact ⟨[_], [.execute step.name request context.executionContext step.grantedPermissions],
        by simp, .inr rfl, .inr ⟨request, rfl⟩⟩
    · exact ⟨[_], [], by simp, .inr rfl, .inl rfl⟩

theorem stepRun_calls (engine : WorkflowEngine) (options : WorkflowExecutionOptions)
    (context : WorkflowContext) (step : WorkflowStep) :
    StepCalls engine options context step (engine.stepRun options context step).2 := by
  obtain ⟨resolves, executes, hdue, hr, he⟩ :=
    resolveAndExecuteDue_calls engine step context options [.now step.name]
  unfold WorkflowEngine.stepRun WorkflowEngine.resolveAndExecuteStep
  rw [exec_bind, exec_call]
  simp only [List.nil_append]
  cases hn : options.notBefore.get? step.name with
  | none => exact ⟨⟨resolves, executes, hdue, hr, he⟩, by simp [hn]⟩
  | some notBefore =>
    simp only
    rw [exec_bind, exec_lift]
    rcases hlater : (engine.clock step).lessThan notBefore with exc | _ | _
    · exact ⟨⟨[], [], rfl, .inl rfl, .inl rfl⟩, fun _ _ _ => rfl⟩
    · refine ⟨⟨resolves, executes, hdue, hr, he⟩, fun notBefore' hn' hlt => ?_⟩
      rw [hn] at hn'
      cases hn'
      cases hlater.symm.trans hlt
    · simp only [if_true, exec_lift]
      exact ⟨⟨[], [], rfl, .inl rfl, .inl rfl⟩, fun _ _ _ => rfl⟩

/-- A step returns if the clock reading can be compared with the time it is
scheduled at and its execution returns: every other failure before that is
turned into a result. -/
theorem stepRun_returns (engine : WorkflowEngine) (options : WorkflowExecutionOptions)
    (context : WorkflowContext) (step : WorkflowStep)
    (hclock : ∀ notBefore, options.notBefore.get? step.name = some notBefore →
      ∃ later, (engine.clock step).lessThan notBefore = .ok later)
    (hexecute : ∀ request, ∃ result, engine.executionEngine step request context.executionContext
      step.grantedPermissions = .ok result) :
    ∃ result, (engine.stepRun options context step).1 = .ok result := by
  have hfailed {message : Str} {metadata : Mapping} (hb : blank message = false) :
      ∃ result, ExecutionResult.new false none (some message) 0 metadata = .ok result :=
    ExecutionResult.new_returns.mpr ((outcomeOk_failed Rat.le_refl).mpr hb)
  have hdue (log : List WorkflowCall) :
      ∃ result, ((engine.resolveAndExecuteDue step context options).exec log).1 = .ok result := by
    unfold WorkflowEngine.resolveAndExecuteDue WorkflowEngine.executeStep
    cases options.requestResolvers.get? step.name with
    | none => exact hexecute step.request
    | some resolver =>
      simp only
      rw [exec_bind, exec_attempt, exec_call]
      rcases resolver context step.request with exc | request | typeName
      · simp only [exec_lift, List.append_assoc]
        exact hfailed (blank_append_left (by decide) _)
      · exact hexecute request
      · simp only [exec_lift, List.append_assoc]
        exact hfailed (blank_append_left (by decide) _)
  unfold WorkflowEngine.stepRun WorkflowEngine.resolveAndExecuteStep
  rw [exec_bind, exec_call]
  simp only
  cases hn : options.notBefore.get? step.name with
  | none => exact hdue _
  | some notBefore =>
    obtain ⟨later, hlater⟩ := hclock notBefore hn
    simp only
    rw [exec_bind, exec_lift, hlater]
    simp only
    split
    · simp only [exec_lift, List.append_assoc]
      exact hfailed (blank_append_left (by decide) _)
    · exact hdue _

end

end MellivorKernel
