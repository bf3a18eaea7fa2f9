import MellivorKernel.Agents.Engine
import MellivorKernel.Execution.Terminal

/-!
# Runs with and without memory

A run of each of the three engines, without a store and with one. The entry is
built outside the `try` that guards the store: with a store a run ends as it
does without one exactly if its entry can be built (`recording_harmless_iff`),
which a blank workflow or agent id and a payload that cannot be printed
prevent.
-/

namespace MellivorKernel

open Python Foundation Program

def WorkflowCall.Records : WorkflowCall → Prop
  | .remember _ => True
  | _ => False

def AgentCall.Records : AgentCall → Prop
  | .remember _ => True
  | _ => False

def ExecutionEngine.withMemory (engine : ExecutionEngine) (store : MemoryStore) : ExecutionEngine :=
  { engine with memory := some store }

def WorkflowEngine.withMemory (engine : WorkflowEngine) (store : MemoryStore) : WorkflowEngine :=
  { engine with memory := some store }

def AgentEngine.withMemory (engine : AgentEngine) (store : MemoryStore) : AgentEngine :=
  { engine with memory := some store }

section
variable [Printing]

-- ---------------------------------------------------------------------------
-- Executions
-- ---------------------------------------------------------------------------

def ExecutionEngine.announce (engine : ExecutionEngine) (request : ExecutionRequest)
    (context : ExecutionContext) (granted : List Str) : Kernel ExecutionResult := do
  engine.publish (.executionStarted request.requestId request.target request.operation)
  engine.observe request (lit "execution.started")
    (lit "Executing request " ++ request.requestId ++ lit ".") []
  let result ← engine.resolve request context granted
  engine.publish (terminalEvent request result)
  tell .emit engine.observability (terminalObservation request result)
  pure result

theorem execute_eq_announce (engine : ExecutionEngine) (request : ExecutionRequest)
    (context : ExecutionContext) (granted : List Str) :
    engine.execute request context granted = (do
      let result ← engine.announce request context granted
      engine.remember request result
      pure result) := by
  rw [ExecutionEngine.execute_eq]
  simp only [ExecutionEngine.announce, ExecutionEngine.finish, bind_assoc, pure_bind]

theorem announce_delivers (engine : ExecutionEngine) (request : ExecutionRequest)
    (context : ExecutionContext) (granted : List Str) :
    (engine.announce request context granted).Traces fun outcome _ =>
      Delivers (engine.delivers request context granted) outcome :=
  have hquiet {α : Type} (entry : α → Call) (sink : Option (α → Except Exn Unit)) (a : α) :
      (tell entry sink a).Traces fun _ _ => True := tell_traces trivial
  .bind_returned (hquiet _ _ _) fun _ _ _ =>
    .bind_returned (hquiet _ _ _) fun _ _ _ =>
      .bind_returned (resolve_delivers engine request context granted) fun _ _ h =>
        .bind_returned (hquiet _ _ _) fun _ _ _ =>
          .bind_returned (hquiet _ _ _) fun _ _ _ => .pure h

theorem execute_recording_iff {engine : ExecutionEngine} (hnone : engine.memory = none)
    (store : MemoryStore) {request : ExecutionRequest} {context : ExecutionContext}
    {granted : List Str} {log log' : List Call} {result : ExecutionResult}
    (h : (engine.execute request context granted).exec log = (.ok result, log')) :
    Extends Call.Records (.ok result, log')
        (((engine.withMemory store).execute request context granted).exec log) ↔
      engine.recordable request context granted = true := by
  have hannounce : (engine.announce request context granted).exec log = (.ok result, log') := by
    rw [execute_eq_announce] at h
    simpa only [ExecutionEngine.remember, hnone, pure_bind, bind_pure] using h
  have hsame : (engine.withMemory store).announce request context granted =
      engine.announce request context granted := rfl
  obtain ⟨-, -, hdelivers⟩ := announce_delivers engine request context granted log
  rw [hannounce] at hdelivers
  rw [execute_eq_announce, hsame, extends_then_iff hannounce, ExecutionEngine.recordable,
    ← hdelivers result rfl]
  cases hprint : (delivered result.success result.payload).all printablePairs with
  | true => exact iff_of_true (remember_recordable request (fun _ => hprint) log') rfl
  | false =>
    refine iff_of_false ?_ Bool.false_ne_true
    obtain ⟨e, he⟩ := remember_unrecordable (engine.withMemory store) rfl request hprint log'
    rintro ⟨more, heq, -⟩
    rw [he] at heq
    cases heq

-- ---------------------------------------------------------------------------
-- Workflows
-- ---------------------------------------------------------------------------

theorem workflow_remember_iff (engine : WorkflowEngine) (store : MemoryStore) (workflow : Workflow)
    (result : WorkflowResult) (log : List WorkflowCall) :
    (∃ more, ((engine.withMemory store).remember workflow result).exec log =
      (.ok (), log ++ more) ∧ ∀ c ∈ more, c.Records) ↔ blank workflow.workflowId = false := by
  refine record_iff (fun _ => trivial) store workflow.workflowId ?_ _ _ _ log
  split <;> simp only [List.append_assoc] <;> exact blank_append_left (by decide) _

theorem runUnits_withMemory (engine : WorkflowEngine) (store : MemoryStore)
    (discipline : Discipline) (options : WorkflowExecutionOptions)
    (units : List (List WorkflowStep)) (schedules : List (List GroupAction))
    (context : WorkflowContext) (d : Dict Str ExecutionResult) :
    (engine.withMemory store).runUnits discipline options units schedules context d =
      engine.runUnits discipline options units schedules context d := by
  induction units generalizing schedules context d with
  | nil => rfl
  | cons unit rest ih =>
    have hunit : (engine.withMemory store).runUnit discipline options unit context
        (schedules.headD []) =
      engine.runUnit discipline options unit context (schedules.headD []) := rfl
    simp only [WorkflowEngine.runUnits, hunit, ih]

def WorkflowEngine.close (engine : WorkflowEngine) (workflow : Workflow) (ended : UnitsEnd) :
    Program Exn WorkflowCall WorkflowResult := do
  tell .publish engine.eventBus (closingEvent workflow ended)
  pure (report ended)

theorem finish_eq_close (engine : WorkflowEngine) (workflow : Workflow) (ended : UnitsEnd) :
    engine.finish workflow ended = (do
      let result ← engine.close workflow ended
      engine.remember workflow result
      pure result) := by
  rw [finish_eq]
  simp only [WorkflowEngine.close, bind_assoc, pure_bind]

theorem run_recording_iff {engine : WorkflowEngine} (hnone : engine.memory = none)
    (store : MemoryStore) {discipline : Discipline} {workflow : Workflow}
    {context : WorkflowContext} {options : WorkflowExecutionOptions}
    {schedules : List (List GroupAction)} {result : WorkflowResult} {calls : List WorkflowCall}
    (h : engine.run discipline workflow context options schedules = some (.ok result, calls)) :
    (∃ run, (engine.withMemory store).run discipline workflow context options schedules = some run ∧
      Extends WorkflowCall.Records (.ok result, calls) run) ↔
      blank workflow.workflowId = false := by
  have hopening : (engine.withMemory store).opening workflow options =
      engine.opening workflow options := rfl
  rw [WorkflowEngine.run] at h ⊢
  rw [hopening]
  simp only [runUnits_withMemory]
  rcases hopen : (engine.opening workflow options).exec [] with ⟨exc | u, opened⟩
  · rw [hopen] at h
    cases h
  · rw [hopen] at h
    obtain ⟨⟨exc | ended, more⟩, hunits, h⟩ := Option.map_eq_some_iff.mp h
    · cases h
    · have hclose : (engine.close workflow ended).exec (opened ++ more) = (.ok result, calls) := by
        change (engine.finish workflow ended).exec (opened ++ more) = _ at h
        rw [finish_eq_close] at h
        simpa only [WorkflowEngine.remember, hnone, pure_bind, bind_pure] using h
      simp only [hunits, Option.map_some, Option.some.injEq, exists_eq_left']
      change Extends _ _ (((engine.withMemory store).finish workflow ended).exec _) ↔ _
      rw [finish_eq_close]
      exact (extends_then_iff hclose).trans (workflow_remember_iff engine store workflow result calls)

-- ---------------------------------------------------------------------------
-- Agents
-- ---------------------------------------------------------------------------

def AgentEngine.announce (engine : AgentEngine) (agent : Agent) (context : AgentContext) :
    Program Exn AgentCall AgentResult := do
  tell .publish engine.eventBus (.agentStarted agent.agentId agent.definition.name)
  let workflowResult ← engine.delegate ⟨agent.definition.workflow, engine.newWorkflowId⟩
    context.workflowContext
  tell .publish engine.eventBus (agentEvent agent workflowResult)
  pure (mirror agent.definition workflowResult)

theorem agent_execute_eq (engine : AgentEngine) (agent : Agent) (context : AgentContext) :
    engine.execute agent context = (do
      let result ← engine.announce agent context
      engine.remember agent result
      pure result) := by
  rw [AgentEngine.execute_eq]
  simp only [AgentEngine.announce, bind_assoc, pure_bind]

theorem agent_remember_iff (engine : AgentEngine) (store : MemoryStore) (agent : Agent)
    (result : AgentResult) (log : List AgentCall) :
    (∃ more, ((engine.withMemory store).remember agent result).exec log =
      (.ok (), log ++ more) ∧ ∀ c ∈ more, c.Records) ↔ blank agent.agentId = false := by
  refine record_iff (fun _ => trivial) store agent.agentId ?_ _ _ _ log
  split <;> simp only [List.append_assoc] <;> exact blank_append_left (by decide) _

theorem agent_recording_iff {engine : AgentEngine} (hnone : engine.memory = none)
    (store : MemoryStore) {agent : Agent} {context : AgentContext} {result : AgentResult}
    {log log' : List AgentCall}
    (h : (engine.execute agent context).exec log = (.ok result, log')) :
    Extends AgentCall.Records (.ok result, log')
        (((engine.withMemory store).execute agent context).exec log) ↔
      blank agent.agentId = false := by
  have hannounce : (engine.announce agent context).exec log = (.ok result, log') := by
    rw [agent_execute_eq] at h
    simpa only [AgentEngine.remember, hnone, pure_bind, bind_pure] using h
  have hsame : (engine.withMemory store).announce agent context = engine.announce agent context := rfl
  rw [agent_execute_eq, hsame]
  exact (extends_then_iff hannounce).trans (agent_remember_iff engine store agent result log')

-- ---------------------------------------------------------------------------
-- The three engines
-- ---------------------------------------------------------------------------

/-- A run that returns without a store returns the same with one, whatever the
store does, after the same calls and then calls to the store only, exactly if
the payload of an execution can be printed, the id of a workflow is not blank
and the id of an agent is not blank. -/
theorem recording_harmless_iff (store : MemoryStore) :
    (∀ (engine : ExecutionEngine) (request : ExecutionRequest) (context : ExecutionContext)
        (granted : List Str) (log log' : List Call) (result : ExecutionResult),
      engine.memory = none →
      (engine.execute request context granted).exec log = (.ok result, log') →
      (Extends Call.Records (.ok result, log')
          (((engine.withMemory store).execute request context granted).exec log) ↔
        engine.recordable request context granted = true)) ∧
    (∀ (engine : WorkflowEngine) (discipline : Discipline) (workflow : Workflow)
        (context : WorkflowContext) (options : WorkflowExecutionOptions)
        (schedules : List (List GroupAction)) (result : WorkflowResult) (calls : List WorkflowCall),
      engine.memory = none →
      engine.run discipline workflow context options schedules = some (.ok result, calls) →
      ((∃ run,
          (engine.withMemory store).run discipline workflow context options schedules = some run ∧
          Extends WorkflowCall.Records (.ok result, calls) run) ↔
        blank workflow.workflowId = false)) ∧
    ∀ (engine : AgentEngine) (agent : Agent) (context : AgentContext) (log log' : List AgentCall)
        (result : AgentResult),
      engine.memory = none →
      (engine.execute agent context).exec log = (.ok result, log') →
      (Extends AgentCall.Records (.ok result, log')
          (((engine.withMemory store).execute agent context).exec log) ↔
        blank agent.agentId = false) :=
  ⟨fun _ _ _ _ _ _ _ hnone h => execute_recording_iff hnone store h,
    fun _ _ _ _ _ _ _ _ hnone h => run_recording_iff hnone store h,
    fun _ _ _ _ _ _ hnone h => agent_recording_iff hnone store h⟩

end

-- ---------------------------------------------------------------------------
-- An agent without an id
-- ---------------------------------------------------------------------------

def idleDefinition : AgentDefinition where
  name := lit "idle"
  workflow := ⟨lit "nothing", [], by decide, List.nodup_nil⟩
  name_ok := by decide

def idleEngine : AgentEngine where
  workflowEngine := {
    executionEngine := fun _ _ _ _ => .ok ⟨true, none, none, 0, [], outcomeOk_instant⟩
    memory := none
    eventBus := some fun _ => .ok ()
    maxConcurrency := none
    maxConcurrency_ok := nofun
    clock := fun _ => ZonedDateTime.epoch
    now := DateTime.epoch }
  memory := none
  eventBus := some fun _ => .ok ()
  newWorkflowId := lit "w1"
  newWorkflowId_ok := by decide
  now := DateTime.epoch

def idleContext : AgentContext := ⟨⟨0, 0, 0, 0⟩, Dict.empty⟩

/-- `Agent(definition, agent_id="")` runs, and with a store that takes every
entry it raises. -/
theorem namelessAgent_disturbed : ∃ result log,
    (@AgentEngine.execute plainPrinting idleEngine ⟨idleDefinition, []⟩ idleContext).exec [] =
      (.ok result, log) ∧
    ¬ Extends AgentCall.Records (.ok result, log)
      ((@AgentEngine.execute plainPrinting (idleEngine.withMemory fun _ => .ok ())
        ⟨idleDefinition, []⟩ idleContext).exec []) := by
  obtain ⟨result, log, h⟩ : ∃ result log,
      (@AgentEngine.execute plainPrinting idleEngine ⟨idleDefinition, []⟩ idleContext).exec [] =
        (.ok result, log) := ⟨_, _, rfl⟩
  refine ⟨result, log, h, ?_⟩
  rw [@agent_recording_iff plainPrinting idleEngine rfl _ _ _ _ _ _ h]
  decide

def fullDisk : MemoryStore := fun _ => .error (.raised .sqliteError (lit "disk is full"))

theorem fullDisk_harmless :
    (∃ result log payload,
      (@ExecutionEngine.execute plainPrinting (providerEngine fun _ => .ok [item "n" (.int 7)])
        modelRequest ⟨0, 0, 0, 0⟩ []).exec [] = (.ok result, log) ∧
      delivered result.success result.payload = some payload ∧ payload.length = 1 ∧
      Extends Call.Records (.ok result, log)
        ((@ExecutionEngine.execute plainPrinting
          ((providerEngine fun _ => .ok [item "n" (.int 7)]).withMemory fullDisk)
          modelRequest ⟨0, 0, 0, 0⟩ []).exec [])) ∧
    ∃ result log,
      (@AgentEngine.execute plainPrinting idleEngine ⟨idleDefinition, lit "a1"⟩ idleContext).exec [] =
        (.ok result, log) ∧
      Extends AgentCall.Records (.ok result, log)
        ((@AgentEngine.execute plainPrinting (idleEngine.withMemory fullDisk)
          ⟨idleDefinition, lit "a1"⟩ idleContext).exec []) := by
  constructor
  · obtain ⟨result, log, h, hpayload⟩ : ∃ result log,
        (@ExecutionEngine.execute plainPrinting (providerEngine fun _ => .ok [item "n" (.int 7)])
          modelRequest ⟨0, 0, 0, 0⟩ []).exec [] = (.ok result, log) ∧
        delivered result.success result.payload = some [item "n" (.int 7)] := ⟨_, _, rfl, rfl⟩
    exact ⟨result, log, _, h, hpayload, rfl,
      ((@recording_harmless_iff plainPrinting fullDisk).1 _ _ _ _ _ _ _ rfl h).mpr rfl⟩
  · obtain ⟨result, log, h⟩ : ∃ result log,
        (@AgentEngine.execute plainPrinting idleEngine ⟨idleDefinition, lit "a1"⟩ idleContext).exec
          [] = (.ok result, log) := ⟨_, _, rfl⟩
    exact ⟨result, log, h, ((@recording_harmless_iff plainPrinting fullDisk).2.2 idleEngine
      ⟨idleDefinition, lit "a1"⟩ idleContext [] log result rfl h).mpr (by decide)⟩

end MellivorKernel
