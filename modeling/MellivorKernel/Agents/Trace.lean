import MellivorKernel.Agents.Recording

/-!
# The events of an agent run

What the four engines publish to one bus during an agent run, as a grammar:
`StepTrace` for a step, `StepsTrace` for the steps that were executed and
`AgentTrace` for the run. Every run whose executions return is in it
(`execute_agentTrace`).
-/

namespace MellivorKernel

open Python Foundation Program

-- ---------------------------------------------------------------------------
-- The grammar
-- ---------------------------------------------------------------------------

inductive TerminalOf (request : ExecutionRequest) : Bool → Event → Prop
  | completed (seconds : Rat) : TerminalOf request true
      (.executionCompleted request.requestId request.target request.operation seconds)
  | failed (error : Str) (stage : Option Str) : TerminalOf request false
      (.executionFailed request.requestId request.target request.operation error stage)

/-- The events of one step, by whether an authorizer is configured and whether
the step succeeded. -/
inductive StepTrace (request : ExecutionRequest) : Bool → Bool → List Event → Prop
  | unchecked (h : TerminalOf request success last) : StepTrace request false success
      [.executionStarted request.requestId request.target request.operation, last]
  | granted (permissions : List Str) (h : TerminalOf request success last) :
      StepTrace request true success
        [.executionStarted request.requestId request.target request.operation,
          .authorizationGranted request.requestId request.target request.operation permissions, last]
  | denied (reason error : Str) : StepTrace request true false
      [.executionStarted request.requestId request.target request.operation,
        .authorizationDenied request.requestId request.target request.operation reason,
        .executionFailed request.requestId request.target request.operation error
          (some (lit "authorization"))]

/-- The events of the steps up to the one that stops the workflow, if one does. -/
inductive StepsTrace (authorized : Bool) :
    List WorkflowStep → Option WorkflowStep → List Event → Prop
  | done : StepsTrace authorized [] none []
  | next (h : StepTrace step.request authorized success events)
      (hgo : success = true ∨ step.continueOnFailure = true)
      (hrest : StepsTrace authorized rest stopped more) :
      StepsTrace authorized (step :: rest) stopped (events ++ more)
  | stop (h : StepTrace step.request authorized false events)
      (hstop : step.continueOnFailure = false) :
      StepsTrace authorized (step :: rest) (some step) events

/-- The events of an agent run whose workflow run has the id `workflowId`. -/
inductive AgentTrace (authorized : Bool) (agent : Agent) (workflowId : Str) : List Event → Prop
  | completed (h : StepsTrace authorized agent.definition.workflow.steps none events)
      (stepCount : Nat) : AgentTrace authorized agent workflowId
      ([.agentStarted agent.agentId agent.definition.name,
          .workflowStarted workflowId agent.definition.workflow.name] ++ events ++
        [.workflowCompleted workflowId agent.definition.workflow.name stepCount,
          .agentCompleted agent.agentId agent.definition.name])
  | failed (h : StepsTrace authorized agent.definition.workflow.steps (some step) events)
      (workflowError agentError : Str) : AgentTrace authorized agent workflowId
      ([.agentStarted agent.agentId agent.definition.name,
          .workflowStarted workflowId agent.definition.workflow.name] ++ events ++
        [.workflowFailed workflowId agent.definition.workflow.name workflowError (some step.name),
          .agentFailed agent.agentId agent.definition.name agentError])

-- ---------------------------------------------------------------------------
-- What is published
-- ---------------------------------------------------------------------------

/-- The event a call publishes, to its own bus or to the authorizer's. -/
def Call.event? : Call → Option Event
  | .publish event | .authorizerPublish event => some event
  | _ => none

def executionEvents (calls : List Call) : List Event := calls.filterMap Call.event?

def WorkflowCall.events [Printing] (execution : Str → ExecutionEngine) : WorkflowCall → List Event
  | .publish event => [event]
  | .execute step request context granted =>
    executionEvents (((execution step).execute request context granted).exec []).2
  | _ => []

def AgentCall.events [Printing] (execution : Str → ExecutionEngine) : AgentCall → List Event
  | .publish event => [event]
  | .workflow c => c.events execution
  | .remember _ => []

@[simp] theorem executionEvents_append (xs ys : List Call) :
    executionEvents (xs ++ ys) = executionEvents xs ++ executionEvents ys := List.filterMap_append

theorem executionEvents_eq_nil {calls : List Call} (h : ∀ c ∈ calls, c.event? = none) :
    executionEvents calls = [] := List.filterMap_eq_nil_iff.mpr h

structure ExecutionEngine.On (engine : ExecutionEngine) (bus : EventBus) : Prop where
  own : engine.eventBus = some bus
  authorizer : ∀ a ∈ engine.authorizer, a.eventBus = some bus

section
variable [Printing]

-- ---------------------------------------------------------------------------
-- One execution
-- ---------------------------------------------------------------------------

omit [Printing] in
theorem terminalEvent_of (request : ExecutionRequest) (result : ExecutionResult) :
    TerminalOf request result.success (terminalEvent request result) := by
  unfold terminalEvent
  cases result.success with
  | true => exact .completed _
  | false => exact .failed _ _

theorem denied_stage {request : ExecutionRequest} {outcome : AuthorizationResult}
    {result : ExecutionResult}
    (h : ExecutionResult.new false none (some (denialReason outcome)) 0
      [item "stage" (.str (lit "authorization")), targetItem request.target] = .ok result) :
    result.success = false ∧ stageOf result = some (lit "authorization") := by
  unfold ExecutionResult.new at h
  split at h <;> cases h
  exact ⟨rfl, rfl⟩

theorem dispatch_silent (dispatcher : Dispatcher) (request : ExecutionRequest)
    (context : ExecutionContext) (granted : List Str) :
    (dispatcher.dispatch request context granted).Traces fun _ made => executionEvents made = [] := by
  intro log
  obtain ⟨made, hmade, hall⟩ := dispatch_only (P := fun c => c.event? = none) (fun _ _ => rfl)
    (fun _ _ => rfl) (fun _ _ _ => rfl) request context log
  exact ⟨made, hmade, executionEvents_eq_nil hall⟩

theorem check_published {authorizer : AuthorizationEngine} {bus : EventBus}
    (hbus : authorizer.eventBus = some bus) {request : ExecutionRequest} {granted : List Str}
    {decision : AuthorizationResult} (hd : authorizer.decide request granted = .ok decision) :
    (authorizer.check request granted).Traces fun outcome made => ∀ d, outcome = .ok d →
      d = decision ∧ executionEvents made = [decisionEvent request decision] := by
  unfold AuthorizationEngine.check AuthorizationEngine.recordDecision
  rw [hd, hbus]
  refine .lift_bind (fun _ => nofun) fun d hdecision => ?_
  cases hdecision
  refine .bind_returned (tell_traces (Q := fun _ made =>
    executionEvents made = [decisionEvent request decision]) rfl) ?_
  rintro - published hpublished
  refine .bind_returned (tell_traces (Q := fun _ made => executionEvents made = []) ?_) ?_
  · unfold told
    split <;> rfl
  · rintro - audited haudited
    refine .pure fun d heq => ⟨(Except.ok.inj heq).symm, ?_⟩
    simp [hpublished, haudited]

theorem resolve_stepTrace {engine : ExecutionEngine} {bus : EventBus} (hbus : engine.On bus)
    (request : ExecutionRequest) (context : ExecutionContext) (granted : List Str) :
    (engine.resolve request context granted).Traces fun outcome made => ∀ result,
      outcome = .ok result → StepTrace request engine.authorizer.isSome result.success
        (.executionStarted request.requestId request.target request.operation ::
          (executionEvents made ++ [terminalEvent request result])) := by
  unfold ExecutionEngine.resolve
  cases ha : engine.authorizer with
  | none =>
    refine (dispatch_silent _ _ _ _).mono ?_
    rintro outcome made hmade result -
    rw [hmade]
    exact .unchecked (terminalEvent_of request result)
  | some authorizer =>
    obtain ⟨decision, hd, -⟩ := authorizer.decide_spec request granted
    refine .bind_returned (check_published (hbus.authorizer authorizer ha) hd) ?_
    rintro outcome made hmade
    obtain ⟨rfl, hchecked⟩ := hmade outcome rfl
    cases hg : outcome.granted with
    | true =>
      simp only [if_true]
      refine (dispatch_silent _ _ _ _).mono ?_
      rintro _ dispatched hdispatched result -
      have hevent : decisionEvent request outcome = .authorizationGranted request.requestId
          request.target request.operation (outcome.grantedPermissions.permissions.map _) := if_pos hg
      rw [executionEvents_append, hchecked, hdispatched, hevent]
      exact .granted _ (terminalEvent_of request result)
    | false =>
      simp only [Bool.false_eq_true, if_false]
      refine .lift fun result hresult => ?_
      obtain ⟨hfailed, hstage⟩ := denied_stage hresult
      have hevent : decisionEvent request outcome = .authorizationDenied request.requestId
          request.target request.operation (outcome.reason.getD []) := if_neg (by simp [hg])
      rw [List.append_nil, hchecked, hevent, terminalEvent, hfailed, if_neg Bool.false_ne_true, hstage]
      exact .denied _ _

theorem execute_stepTrace {engine : ExecutionEngine} {bus : EventBus} (hbus : engine.On bus)
    (request : ExecutionRequest) (context : ExecutionContext) (granted : List Str) :
    (engine.execute request context granted).Traces fun outcome made => ∀ result,
      outcome = .ok result →
        StepTrace request engine.authorizer.isSome result.success (executionEvents made) := by
  have hemit (event : StructuredObservationEvent) : (tell Call.emit engine.observability event).Traces
      fun _ made => executionEvents made = [] := tell_traces (by unfold told; split <;> rfl)
  have hpublish (event : Event) : (engine.publish event).Traces
      fun _ made => executionEvents made = [event] := by
    unfold ExecutionEngine.publish
    rw [hbus.own]
    exact tell_traces rfl
  have hremember (result : ExecutionResult) : (engine.remember request result).Traces
      fun _ made => executionEvents made = [] := fun log => by
    obtain ⟨made, hmade, hall⟩ := remember_only (P := fun c => c.event? = none) (fun _ => rfl)
      engine request result log
    exact ⟨made, hmade, executionEvents_eq_nil hall⟩
  rw [ExecutionEngine.execute_eq]
  refine .bind_returned (hpublish _) fun _ started hstarted => ?_
  refine .bind_returned (hemit _) fun _ observed hobserved => ?_
  refine .bind_returned (resolve_stepTrace hbus request context granted)
    fun result resolved hresolved => ?_
  refine .bind_returned (hpublish _) fun _ ended hended => ?_
  refine .bind_returned (hemit _) fun _ observed' hobserved' => ?_
  refine .bind_returned (hremember result) fun _ recorded hrecorded => ?_
  refine .pure fun result' heq => ?_
  cases heq
  simpa [hstarted, hobserved, hended, hobserved', hrecorded] using hresolved result rfl

-- ---------------------------------------------------------------------------
-- The steps
-- ---------------------------------------------------------------------------

/-- The engines of an agent run on one bus, which takes every event. The
execution engine is given as it stands at each step, by the step's name: its
tools and providers may answer differently from one step to the next. -/
structure AgentEngine.On (engine : AgentEngine) (bus : EventBus) (execution : Str → ExecutionEngine)
    (authorized : Bool) : Prop where
  own : engine.eventBus = some bus
  workflow : engine.workflowEngine.eventBus = some bus
  executes : ∀ step request context granted,
    engine.workflowEngine.executionEngine step request context granted =
      (((execution step.name).execute request context granted).exec []).1
  executed : ∀ name, (execution name).On bus
  checked : ∀ name, (execution name).authorizer.isSome = authorized
  quiet : ∀ event, bus event = .ok ()

def ExecutionsReturn (execution : Str → ExecutionEngine) (calls : List WorkflowCall) : Prop :=
  ∀ name request context granted, .execute name request context granted ∈ calls →
    Returns (((execution name).execute request context granted).exec []).1

omit [Printing] in
theorem ExecutionsReturn.subset [Printing] {execution : Str → ExecutionEngine}
    {calls some : List WorkflowCall} (h : ExecutionsReturn execution calls) (hsome : some ⊆ calls) :
    ExecutionsReturn execution some := fun name request context granted hmem =>
  h name request context granted (hsome hmem)

theorem stepRun_default (engine : WorkflowEngine) (context : WorkflowContext) (step : WorkflowStep) :
    engine.stepRun .default context step =
      (engine.executionEngine step step.request context.executionContext step.grantedPermissions,
        [.now step.name, .execute step.name step.request context.executionContext
          step.grantedPermissions]) := rfl

section
variable {engine : AgentEngine} {bus : EventBus} {execution : Str → ExecutionEngine}
  {authorized : Bool}

theorem stepRun_subset {engine : WorkflowEngine} {discipline : Discipline} {step : WorkflowStep}
    {rest : List (List WorkflowStep)} {schedules : List (List GroupAction)}
    {context : WorkflowContext} {d : Dict Str ExecutionResult}
    {run : Except Exn UnitsEnd × List WorkflowCall}
    (h : engine.runUnits discipline .default ([step] :: rest) schedules context d = some run) :
    (engine.stepRun .default context step).2 ⊆ run.2 := by
  rw [runUnits_default_cons] at h
  generalize engine.stepRun .default context step = stepped at h ⊢
  obtain ⟨exc | result, calls⟩ := stepped
  · cases h
    exact List.Subset.refl _
  · simp only at h
    split at h
    · cases h
      exact List.Subset.refl _
    · obtain ⟨⟨ended, more⟩, -, rfl⟩ := Option.map_eq_some_iff.mp h
      exact List.subset_append_left _ _

theorem stepRun_stepTrace (hon : engine.On bus execution authorized) {context : WorkflowContext}
    {step : WorkflowStep}
    (hreturns : ExecutionsReturn execution
      (engine.workflowEngine.stepRun .default context step).2) :
    ∃ result calls, engine.workflowEngine.stepRun .default context step = (.ok result, calls) ∧
      StepTrace step.request authorized result.success
        (calls.flatMap (WorkflowCall.events execution)) := by
  rw [stepRun_default] at hreturns ⊢
  obtain ⟨result, hresult⟩ := hreturns step.name step.request context.executionContext
    step.grantedPermissions (by simp)
  obtain ⟨made, hmade, htrace⟩ := execute_stepTrace (hon.executed step.name) step.request
    context.executionContext step.grantedPermissions []
  rw [List.nil_append] at hmade
  refine ⟨result, _, by rw [hon.executes, hresult], ?_⟩
  rw [← hon.checked step.name]
  simpa [WorkflowCall.events, hmade] using htrace result hresult

theorem runUnits_stepsTrace (hon : engine.On bus execution authorized) {discipline : Discipline}
    {steps : List WorkflowStep} {schedules : List (List GroupAction)} {context : WorkflowContext}
    {d : Dict Str ExecutionResult} {outcome : Except Exn UnitsEnd} {calls : List WorkflowCall}
    (h : engine.workflowEngine.runUnits discipline .default (steps.map ([·])) schedules context d =
      some (outcome, calls)) (hreturns : ExecutionsReturn execution calls) :
    ∃ ended, outcome = .ok ended ∧ StepsTrace authorized steps (ended.2.map Prod.fst)
      (calls.flatMap (WorkflowCall.events execution)) := by
  induction steps generalizing schedules context d calls with
  | nil =>
    cases h
    exact ⟨_, rfl, .done⟩
  | cons step rest ih =>
    rw [List.map_cons] at h
    obtain ⟨result, stepCalls, hstep, htrace⟩ := stepRun_stepTrace hon
      (hreturns.subset (stepRun_subset h))
    simp only [runUnits_default_cons, hstep] at h
    split at h
    · rename_i hstop
      cases h
      rw [hstop.1] at htrace
      exact ⟨_, rfl, .stop htrace hstop.2⟩
    · rename_i hgo
      obtain ⟨⟨ended, more⟩, hrest, h⟩ := Option.map_eq_some_iff.mp h
      cases h
      obtain ⟨units, rfl, htail⟩ := ih hrest (hreturns.subset (List.subset_append_right _ _))
      refine ⟨units, rfl, ?_⟩
      rw [List.flatMap_append]
      refine .next htrace ?_ htail
      cases hs : result.success with
      | true => exact .inl rfl
      | false => exact .inr (by simpa [WorkflowStep.StoppedBy, hs] using hgo)

-- ---------------------------------------------------------------------------
-- The workflow
-- ---------------------------------------------------------------------------

omit [Printing] in
theorem validateOptions_default [Printing] (steps : List WorkflowStep) :
    validateOptions steps .default = .ok () := rfl

omit [Printing] in
theorem events_told [Printing] (event : Event) :
    ([WorkflowCall.publish event].flatMap (WorkflowCall.events execution)) = [event] := rfl

theorem workflow_remember_silent (execution : Str → ExecutionEngine) (engine : WorkflowEngine)
    (workflow : Workflow) (result : WorkflowResult) :
    (engine.remember workflow result).Traces fun _ made =>
      made.flatMap (WorkflowCall.events execution) = [] := by
  unfold WorkflowEngine.remember
  split
  · exact .pure rfl
  · refine .lift_bind (fun _ _ => rfl) fun entry _ => ?_
    exact .attempt_call_bind (.pure rfl)

theorem finish_trace (hon : engine.On bus execution authorized) {workflow : Workflow}
    (hid : blank workflow.workflowId = false) (ended : UnitsEnd) :
    (engine.workflowEngine.finish workflow ended).Traces fun outcome made =>
      outcome = .ok (report ended) ∧
        made.flatMap (WorkflowCall.events execution) = [closingEvent workflow ended] := by
  have hremembers (log : List WorkflowCall) :
      ((engine.workflowEngine.remember workflow (report ended)).exec log).1 = .ok () := by
    rw [remember_fst, WorkflowEngine.recorded, hid]
    simp
  have hpublishes : (tell .publish engine.workflowEngine.eventBus (closingEvent workflow ended)).Traces
      fun outcome made => outcome = .ok () ∧
        made.flatMap (WorkflowCall.events execution) = [closingEvent workflow ended] := by
    refine tell_traces ?_
    rw [hon.workflow]
    exact ⟨hon.quiet _, rfl⟩
  rw [finish_eq]
  refine .bind hpublishes (fun _ _ => nofun) ?_
  rintro - published ⟨-, hpublished⟩
  refine .bind (Q := fun outcome made => outcome = .ok () ∧
    made.flatMap (WorkflowCall.events execution) = []) (fun log => ?_) (fun _ _ => nofun) ?_
  · obtain ⟨made, hmade, hsilent⟩ := workflow_remember_silent execution
      engine.workflowEngine workflow (report ended) log
    exact ⟨made, hmade, hremembers log, hsilent⟩
  · rintro - recorded ⟨-, hrecorded⟩
    refine .pure ⟨rfl, ?_⟩
    simp [hpublished, hrecorded]

theorem runDefault_trace (hon : engine.On bus execution authorized) (workflow : Workflow)
    (hid : blank workflow.workflowId = false) (context : WorkflowContext)
    (hreturns : ExecutionsReturn execution (engine.workflowEngine.runDefault workflow context).2) :
    ∃ ended events,
      (engine.workflowEngine.runDefault workflow context).1 = .ok (report ended) ∧
      (engine.workflowEngine.runDefault workflow context).2.flatMap (WorkflowCall.events execution) =
        .workflowStarted workflow.workflowId workflow.definition.name ::
          (events ++ [closingEvent workflow ended]) ∧
      StepsTrace authorized workflow.definition.steps (ended.2.map Prod.fst) events := by
  have hrun := runDefault_eq engine.workflowEngine workflow context
  generalize engine.workflowEngine.runDefault workflow context = run at hrun hreturns ⊢
  rw [WorkflowEngine.run] at hrun
  have hopening : (engine.workflowEngine.opening workflow .default).exec [] =
      (.ok (), [.publish (.workflowStarted workflow.workflowId workflow.definition.name)]) := by
    rw [WorkflowEngine.opening, exec_bind, exec_lift, validateOptions_default]
    simp only [hon.workflow, tell, exec_call, hon.quiet, List.nil_append]
  rw [hopening] at hrun
  simp only at hrun
  obtain ⟨⟨outcome, unitCalls⟩, hunits, hclose⟩ := Option.map_eq_some_iff.mp hrun
  rw [show groupIntoUnits workflow.definition.steps .default = _ from
    groupIntoUnits_ungrouped workflow.definition.steps .default] at hunits
  have hsub : unitCalls ⊆ run.2 := by
    have honly : Only WorkflowCall.Own (do engine.workflowEngine.finish workflow (← lift outcome)) :=
      .bind (.lift _) fun ended => finish_only_own workflow ended
    obtain ⟨new, hnew, -⟩ := honly
      ([.publish (.workflowStarted workflow.workflowId workflow.definition.name)] ++ unitCalls)
    rw [← hclose, hnew]
    exact fun c hc => List.mem_append_left _ (List.mem_append_right _ hc)
  obtain ⟨ended, rfl, hsteps⟩ := runUnits_stepsTrace hon hunits (hreturns.subset hsub)
  obtain ⟨closing, hclosing, hreport, hclosed⟩ := finish_trace hon hid ended
    ([.publish (.workflowStarted workflow.workflowId workflow.definition.name)] ++ unitCalls)
  rw [exec_bind, exec_lift] at hclose
  simp only at hclose
  rw [hclose] at hclosing hreport
  refine ⟨ended, _, hreport, ?_, hsteps⟩
  rw [hclosing, List.flatMap_append, List.flatMap_append, hclosed, events_told]
  simp

-- ---------------------------------------------------------------------------
-- The agent
-- ---------------------------------------------------------------------------

omit [Printing] in
theorem events_workflow [Printing] (calls : List WorkflowCall) :
    (calls.map AgentCall.workflow).flatMap (AgentCall.events execution) =
      calls.flatMap (WorkflowCall.events execution) := by
  simp [List.flatMap_map, AgentCall.events]

theorem agent_remember_silent (execution : Str → ExecutionEngine) (engine : AgentEngine)
    (agent : Agent) (result : AgentResult) :
    (engine.remember agent result).Traces fun _ made =>
      made.flatMap (AgentCall.events execution) = [] := by
  unfold AgentEngine.remember
  split
  · exact .pure rfl
  · refine .lift_bind (fun _ _ => rfl) fun entry _ => ?_
    exact .attempt_call_bind (.pure rfl)

omit [Printing] in
theorem agent_publish_exec [Printing] (hon : engine.On bus execution authorized) (event : Event)
    (log : List AgentCall) :
    (tell .publish engine.eventBus event).exec log = (.ok (), log ++ [.publish event]) := by
  rw [hon.own, tell_exec, accepted, hon.quiet]
  rfl

theorem agent_publish_trace (hon : engine.On bus execution authorized) (event : Event) :
    (tell .publish engine.eventBus event).Traces fun outcome made => outcome = .ok () ∧
      made.flatMap (AgentCall.events execution) = [event] := fun log => by
  rw [agent_publish_exec hon]
  exact ⟨_, rfl, rfl, rfl⟩

theorem agent_close_trace (hon : engine.On bus execution authorized) (agent : Agent)
    (workflowResult : WorkflowResult) :
    Traces (do
      tell .publish engine.eventBus (agentEvent agent workflowResult)
      engine.remember agent (mirror agent.definition workflowResult)
      pure (mirror agent.definition workflowResult)) fun _ made =>
        made.flatMap (AgentCall.events execution) = [agentEvent agent workflowResult] := by
  refine .bind (agent_publish_trace hon _) (fun _ _ h => h.2) ?_
  rintro - published ⟨-, hpublished⟩
  refine .bind (agent_remember_silent execution _ _ _) (fun _ _ h => ?_)
    fun _ _ h => .pure ?_
  · simp [hpublished, h]
  · simp [hpublished, h]

theorem delegate_exec (engine : AgentEngine) (workflow : Workflow) (context : WorkflowContext)
    (log : List AgentCall) :
    (engine.delegate workflow context).exec log =
      ((engine.workflowEngine.runDefault workflow context).1,
        log ++ (engine.workflowEngine.runDefault workflow context).2.map .workflow) := rfl

theorem execute_delegates (hon : engine.On bus execution authorized) (agent : Agent)
    (context : AgentContext) :
    (engine.workflowEngine.runDefault ⟨agent.definition.workflow, engine.newWorkflowId⟩
      context.workflowContext).2.map .workflow ⊆ ((engine.execute agent context).exec []).2 := by
  rw [AgentEngine.execute_eq, exec_bind_ok (agent_publish_exec hon _ _), exec_bind, delegate_exec]
  generalize engine.workflowEngine.runDefault _ context.workflowContext = run
  obtain ⟨exc | workflowResult, calls⟩ := run
  · exact List.subset_append_right _ _
  · obtain ⟨closing, hclosing, -⟩ := agent_close_trace hon agent workflowResult
      ([] ++ [.publish (.agentStarted agent.agentId agent.definition.name)] ++
        calls.map .workflow)
    simp only [hclosing]
    exact fun c hc => List.mem_append_left _ (List.mem_append_right _ hc)

/-- The events of an agent run whose executions return, whatever they return
and whether the run itself returns. -/
theorem execute_agentTrace (hon : engine.On bus execution authorized) (agent : Agent)
    (context : AgentContext)
    (hreturns : ∀ name request executionContext granted,
      .workflow (.execute name request executionContext granted) ∈
        ((engine.execute agent context).exec []).2 →
      Returns (((execution name).execute request executionContext granted).exec []).1) :
    AgentTrace authorized agent engine.newWorkflowId
      (((engine.execute agent context).exec []).2.flatMap (AgentCall.events execution)) := by
  have hdelegates : ExecutionsReturn execution (engine.workflowEngine.runDefault
      ⟨agent.definition.workflow, engine.newWorkflowId⟩ context.workflowContext).2 :=
    fun name request executionContext granted hmem => hreturns name request executionContext granted
      (execute_delegates hon agent context (List.mem_map_of_mem hmem))
  obtain ⟨ended, events, hok, hevents, hsteps⟩ := runDefault_trace hon
    ⟨agent.definition.workflow, engine.newWorkflowId⟩ engine.newWorkflowId_ok
    context.workflowContext hdelegates
  have hdelegate (log : List AgentCall) : (engine.delegate
      ⟨agent.definition.workflow, engine.newWorkflowId⟩ context.workflowContext).exec log =
      (.ok (report ended), log ++ (engine.workflowEngine.runDefault
        ⟨agent.definition.workflow, engine.newWorkflowId⟩ context.workflowContext).2.map .workflow) := by
    rw [delegate_exec, hok]
  obtain ⟨closing, hclosing, hclosed⟩ := agent_close_trace hon agent (report ended)
    ([] ++ [.publish (.agentStarted agent.agentId agent.definition.name)] ++
      (engine.workflowEngine.runDefault ⟨agent.definition.workflow, engine.newWorkflowId⟩
        context.workflowContext).2.map .workflow)
  rw [AgentEngine.execute_eq, exec_bind_ok (agent_publish_exec hon _ _),
    exec_bind_ok (hdelegate _), hclosing]
  simp only [List.flatMap_append, events_workflow, hevents, hclosed]
  obtain ⟨stepResults, _ | ⟨step, result⟩⟩ := ended
  · have hcompleted : AgentTrace authorized agent engine.newWorkflowId _ :=
      .completed hsteps stepResults.keys.length
    simpa [AgentCall.events, closingEvent, agentEvent, report] using hcompleted
  · have hfailed : AgentTrace authorized agent engine.newWorkflowId _ :=
      .failed hsteps (stoppingError step result)
        (agentError agent.definition (report (stepResults, some (step, result))))
    simpa [AgentCall.events, closingEvent, agentEvent, report] using hfailed

end

end

-- ---------------------------------------------------------------------------
-- An agent that may ask a model and may not write
-- ---------------------------------------------------------------------------

def writeTool : BaseTool where
  id := lit "write"
  description := lit "Write a file."
  inputSchema := [item "type" (.str (lit "object"))]
  permissions := [⟨lit "filesystem.write", by decide⟩]
  validate _ := .ok ()
  execute _ _ := .ok ⟨true, none, none, 0, [], outcomeOk_instant⟩
  elapsed _ := noTime

def writeTools : ToolRegistry :=
  ⟨Dict.empty.set (lit "write") writeTool, by
    rintro p (_ | ⟨_, ⟨⟩⟩)
    rfl⟩

def guardedEngine : ExecutionEngine :=
  { providerEngine .ok with
    dispatcher := { (providerEngine .ok).dispatcher with toolRegistry := writeTools }
    authorizer := some ⟨writeTools, some fun _ => .ok (), none⟩ }

def askStep : WorkflowStep where
  name := lit "ask"
  request := modelRequest
  grantedPermissions := []
  continueOnFailure := false
  name_ok := by decide

/-- It needs a permission that it is not granted. -/
def writeStep : WorkflowStep where
  name := lit "write"
  request := {
    target := .tool
    operation := lit "write"
    payload := []
    requestId := lit "r2"
    operation_ok := by decide
    requestId_ok := by decide }
  grantedPermissions := [lit "filesystem.read"]
  continueOnFailure := false
  name_ok := by decide

def writingAgent : Agent where
  definition := {
    name := lit "writing"
    workflow := ⟨lit "ask and write", [askStep, writeStep], by decide, by decide⟩
    name_ok := by decide }
  agentId := lit "a1"

def guardedAgentEngine : AgentEngine :=
  { idleEngine with workflowEngine := { idleEngine.workflowEngine with
      executionEngine := fun _ request context granted =>
        ((@ExecutionEngine.execute plainPrinting guardedEngine request context granted).exec []).1 } }

theorem guardedAgentEngine_on : @AgentEngine.On plainPrinting guardedAgentEngine
    (fun _ => .ok ()) (fun _ => guardedEngine) true :=
  @AgentEngine.On.mk plainPrinting guardedAgentEngine _ _ _ rfl rfl (fun _ _ _ _ => rfl)
    (fun _ => ⟨rfl, by rintro _ ⟨⟩; rfl⟩) (fun _ => rfl) fun _ => rfl

/-- The calls of the agent's execution: the model is asked, the file is not
written, and the workflow stops there. -/
theorem writingAgent_calls :
    ∃ workflowError error, ((@AgentEngine.execute plainPrinting guardedAgentEngine writingAgent
        idleContext).exec []).2 =
      [.publish (.agentStarted (lit "a1") (lit "writing")),
        .workflow (.publish (.workflowStarted (lit "w1") (lit "ask and write"))),
        .workflow (.now (lit "ask")),
        .workflow (.execute (lit "ask") modelRequest ⟨0, 0, 0, 0⟩ []),
        .workflow (.now (lit "write")),
        .workflow (.execute (lit "write") writeStep.request ⟨0, 0, 0, 0⟩ [lit "filesystem.read"]),
        .workflow (.publish (.workflowFailed (lit "w1") (lit "ask and write") workflowError
          (some (lit "write")))),
        .publish (.agentFailed (lit "a1") (lit "writing") error)] := ⟨_, _, rfl⟩

theorem writingAgent_trace : ∃ events,
    ((@AgentEngine.execute plainPrinting guardedAgentEngine writingAgent idleContext).exec
      []).2.flatMap (@AgentCall.events plainPrinting fun _ => guardedEngine) = events ∧
    (∃ reason, .authorizationDenied (lit "r2") .tool (lit "write") reason ∈ events) ∧
    AgentTrace true writingAgent (lit "w1") events := by
  obtain ⟨reason, hdenied⟩ : ∃ reason, (((@AgentEngine.execute plainPrinting guardedAgentEngine
      writingAgent idleContext).exec []).2.flatMap (@AgentCall.events plainPrinting fun _ =>
        guardedEngine))[6]? = some (.authorizationDenied (lit "r2") .tool (lit "write") reason) :=
    ⟨_, rfl⟩
  refine ⟨_, rfl, ⟨reason, List.mem_of_getElem? hdenied⟩, @execute_agentTrace plainPrinting
    guardedAgentEngine _ _ _ guardedAgentEngine_on writingAgent idleContext ?_⟩
  intro name request context granted hmem
  obtain ⟨workflowError, error, hlog⟩ := writingAgent_calls
  rw [hlog] at hmem
  simp only [List.mem_cons, reduceCtorEq, AgentCall.workflow.injEq, List.not_mem_nil, or_false,
    false_or] at hmem
  rcases hmem with hcall | hcall
  · cases hcall
    exact ⟨_, rfl⟩
  · cases hcall
    exact ⟨_, rfl⟩

end MellivorKernel
