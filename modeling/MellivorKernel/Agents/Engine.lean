import MellivorKernel.Workflow.Units

/-!
# The agent engine

`AgentEngine.execute`: announce the agent, run the one workflow its definition
names, announce the outcome and record it. The workflow runs without options,
so it needs no schedule. `newWorkflowId` is the id the new `Workflow` mints.
-/

namespace MellivorKernel

open Python Foundation Program

structure AgentDefinition where
  name : Str
  workflow : WorkflowDefinition
  name_ok : blank name = false

/-- One run of an agent. -/
structure Agent where
  definition : AgentDefinition
  agentId : Str

structure AgentContext where
  workflowContext : WorkflowContext

structure AgentResult where
  success : Bool
  workflowResult : WorkflowResult
  error : Option Str
  failed : success = false → errorMissing error = false
  succeeded : success = true → error = none

def AgentResult.new (success : Bool) (workflowResult : WorkflowResult) (error : Option Str) :
    Except Exn AgentResult :=
  if hf : success = false → errorMissing error = false then
    if hs : success = true → error = none then .ok ⟨success, workflowResult, error, hf, hs⟩
    else .error (.raised .agentError (lit "A successful AgentResult must not set `error`."))
  else .error (.raised .agentError
    (lit "A failed AgentResult must include a non-empty `error` message."))

/-- A call of an agent run, the calls of its workflow run among them. -/
inductive AgentCall
  | publish (event : Event)
  | workflow (c : WorkflowCall)
  | remember (entry : MemoryEntry)

/-- `newWorkflowId` is the hex of a fresh UUID; `now` is what a memory entry
reads its creation time from. -/
structure AgentEngine where
  workflowEngine : WorkflowEngine
  memory : Option MemoryStore
  eventBus : Option EventBus
  newWorkflowId : Str
  newWorkflowId_ok : blank newWorkflowId = false
  now : DateTime

section
variable [Printing]

-- ---------------------------------------------------------------------------
-- A workflow run without options
-- ---------------------------------------------------------------------------

theorem runUnits_default_cons (engine : WorkflowEngine) (discipline : Discipline)
    (step : WorkflowStep) (rest : List (List WorkflowStep)) (schedules : List (List GroupAction))
    (context : WorkflowContext) (d : Dict Str ExecutionResult) :
    engine.runUnits discipline .default ([step] :: rest) schedules context d =
      match engine.stepRun .default context step with
      | (.error exc, calls) => some (.error exc, calls)
      | (.ok result, calls) =>
        if step.StoppedBy result then some (.ok (d.set step.name result, some (step, result)), calls)
        else (engine.runUnits discipline .default rest schedules.tail
          { context with stepResults := d.set step.name result } (d.set step.name result)).map
          fun (ended, more) => (ended, calls ++ more) :=
  runUnits_inline engine discipline .default step rest schedules context d

theorem runUnits_default_isSome (engine : WorkflowEngine) (discipline : Discipline)
    (steps : List WorkflowStep) (schedules : List (List GroupAction)) (context : WorkflowContext)
    (d : Dict Str ExecutionResult) :
    (engine.runUnits discipline .default (steps.map ([·])) schedules context d).isSome := by
  induction steps generalizing schedules context d with
  | nil => rfl
  | cons step rest ih =>
    rw [List.map_cons, runUnits_default_cons]
    rcases engine.stepRun _ context step with ⟨exc | result, calls⟩
    · rfl
    · simp only
      split
      · rfl
      · rw [Option.isSome_map]
        exact ih _ _ _

theorem run_default_isSome (engine : WorkflowEngine) (workflow : Workflow)
    (context : WorkflowContext) : (engine.run .any workflow context .default []).isSome := by
  unfold WorkflowEngine.run
  split
  · rfl
  · rw [Option.isSome_map]
    have hunits := groupIntoUnits_ungrouped workflow.definition.steps .default
    exact hunits ▸ runUnits_default_isSome engine .any _ [] context Dict.empty

/-- `run(workflow, context)`: no options, and so no schedule to wait for. -/
def WorkflowEngine.runDefault (engine : WorkflowEngine) (workflow : Workflow)
    (context : WorkflowContext) : Except Exn WorkflowResult × List WorkflowCall :=
  (engine.run .any workflow context .default []).get (run_default_isSome engine workflow context)

theorem runDefault_eq (engine : WorkflowEngine) (workflow : Workflow) (context : WorkflowContext) :
    engine.run .any workflow context .default [] = some (engine.runDefault workflow context) :=
  (Option.some_get _).symm

-- ---------------------------------------------------------------------------
-- The run
-- ---------------------------------------------------------------------------

def AgentEngine.delegate (engine : AgentEngine) (workflow : Workflow) (context : WorkflowContext) :
    Program Exn AgentCall WorkflowResult :=
  let (outcome, calls) := engine.workflowEngine.runDefault workflow context
  ExceptT.mk fun log => (outcome, log ++ calls.map AgentCall.workflow)

def AgentEngine.remember (engine : AgentEngine) (agent : Agent) (result : AgentResult) :
    Program Exn AgentCall Unit :=
  match engine.memory with
  | none => pure ()
  | some store => do
    let content :=
      if result.success then
        lit "Agent " ++ pyRepr agent.definition.name ++ lit " completed successfully."
      else lit "Agent " ++ pyRepr agent.definition.name ++ lit " failed: " ++
        result.error.getD (lit "None")
    let entry ← lift (MemoryEntry.new agent.agentId content {lit "agent"}
      [item "name" (.str agent.definition.name), item "success" (.bool result.success)] engine.now)
    let _ ← (call (.remember entry) (store entry)).attempt
    pure ()

def agentError (definition : AgentDefinition) (workflowResult : WorkflowResult) : Str :=
  lit "Workflow " ++ pyRepr definition.workflow.name ++ lit " failed: " ++
    workflowResult.error.getD (lit "None")

def AgentEngine.execute (engine : AgentEngine) (agent : Agent) (context : AgentContext) :
    Program Exn AgentCall AgentResult := do
  let definition := agent.definition
  tell .publish engine.eventBus (.agentStarted agent.agentId definition.name)
  let workflow : Workflow := ⟨definition.workflow, engine.newWorkflowId⟩
  let workflowResult ← engine.delegate workflow context.workflowContext
  if workflowResult.success then
    let result ← lift (AgentResult.new true workflowResult none)
    tell .publish engine.eventBus (.agentCompleted agent.agentId definition.name)
    engine.remember agent result
    pure result
  else
    let error := agentError definition workflowResult
    let result ← lift (AgentResult.new false workflowResult (some error))
    tell .publish engine.eventBus (.agentFailed agent.agentId definition.name error)
    engine.remember agent result
    pure result

-- ---------------------------------------------------------------------------
-- How a run ends
-- ---------------------------------------------------------------------------

theorem agentError_ok (definition : AgentDefinition) (workflowResult : WorkflowResult) :
    blank (agentError definition workflowResult) = false := by
  simp only [agentError, List.append_assoc]
  exact blank_append_left (by decide) _

def mirror (definition : AgentDefinition) (workflowResult : WorkflowResult) : AgentResult where
  success := workflowResult.success
  workflowResult := workflowResult
  error := if workflowResult.success then none else some (agentError definition workflowResult)
  failed h := by simp [h, errorMissing, agentError_ok]
  succeeded h := if_pos h

def agentEvent (agent : Agent) (workflowResult : WorkflowResult) : Event :=
  if workflowResult.success then .agentCompleted agent.agentId agent.definition.name
  else .agentFailed agent.agentId agent.definition.name
    (agentError agent.definition workflowResult)

theorem AgentEngine.execute_eq (engine : AgentEngine) (agent : Agent) (context : AgentContext) :
    engine.execute agent context = (do
      tell .publish engine.eventBus (.agentStarted agent.agentId agent.definition.name)
      let workflowResult ← engine.delegate ⟨agent.definition.workflow, engine.newWorkflowId⟩
        context.workflowContext
      tell .publish engine.eventBus (agentEvent agent workflowResult)
      engine.remember agent (mirror agent.definition workflowResult)
      pure (mirror agent.definition workflowResult)) := by
  unfold AgentEngine.execute
  congr! 3
  funext workflowResult
  unfold agentEvent
  cases hs : workflowResult.success with
  | true =>
    have hnew : AgentResult.new true workflowResult none =
        .ok (mirror agent.definition workflowResult) := by
      simp [AgentResult.new, mirror, hs]
    simp only [hnew, if_true]
    rfl
  | false =>
    have hnew : AgentResult.new false workflowResult
        (some (agentError agent.definition workflowResult)) =
          .ok (mirror agent.definition workflowResult) := by
      simp [AgentResult.new, mirror, hs, errorMissing, agentError_ok]
    simp only [hnew, Bool.false_eq_true, if_false]
    rfl

end

end MellivorKernel
