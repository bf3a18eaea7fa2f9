import MellivorKernel.Agents.Engine
import MellivorKernel.Workflow.Enforcement

/-!
# What an agent lets run

An agent's execution is one run of its workflow between calls of the agent
engine's own, and only the tools that the declared steps name run in it, under
the permissions those steps were granted (`execute_stepsPermitted`).
-/

namespace MellivorKernel

open Python Foundation Program

def AgentEngine.over [Printing] (engine : AgentEngine) (execution : Str → ExecutionEngine) :
    AgentEngine :=
  { engine with workflowEngine := engine.workflowEngine.over execution }

section
variable [Printing]

def AgentCall.Own (c : AgentCall) : Prop := ∀ inside, c ≠ .workflow inside

omit [Printing] in
theorem AgentCall.own_publish (event : Event) : (AgentCall.publish event).Own := nofun

theorem agent_remember_only (engine : AgentEngine) (agent : Agent) (result : AgentResult) :
    (engine.remember agent result).Only AgentCall.Own := by
  unfold AgentEngine.remember
  split
  · exact .pure ()
  · exact .bind (.lift _) fun _ => .bind (.attempt (.call (fun _ => nofun) _)) fun _ => .pure ()

/-- The calls of the one workflow run in an execution: none when the
announcement of the agent raises. -/
def AgentEngine.workflowCalls (engine : AgentEngine) (agent : Agent) (context : AgentContext) :
    List WorkflowCall :=
  match accepted engine.eventBus (.agentStarted agent.agentId agent.definition.name) with
  | .error _ => []
  | .ok _ => (engine.workflowEngine.runDefault ⟨agent.definition.workflow, engine.newWorkflowId⟩
      context.workflowContext).2

/-- The executions among the calls are those of declared steps, one each at
most, each with the request that its step declares. -/
structure DeclaredPermitted (execution : Str → ExecutionEngine) (steps : List WorkflowStep)
    (calls : List WorkflowCall) : Prop where
  once : (calls.filterMap WorkflowCall.executedStep?).Nodup
  declared : ∀ name request context granted, .execute name request context granted ∈ calls →
    ∃ step ∈ steps, step.name = name ∧ step.request = request ∧
      step.grantedPermissions = granted ∧ RanPermitted (execution name) request granted
        ((WorkflowCall.execute name request context granted).inner execution)

theorem DeclaredPermitted.nil {execution : Str → ExecutionEngine} {steps : List WorkflowStep} :
    DeclaredPermitted execution steps [] :=
  ⟨List.nodup_nil, fun _ _ _ _ h => (List.not_mem_nil h).elim⟩

/-- Without options no resolver is asked, so a step is executed as declared. -/
theorem StepsPermitted.of_default {execution : Str → ExecutionEngine} {steps : List WorkflowStep}
    {calls : List WorkflowCall} (h : StepsPermitted execution .default steps calls) :
    DeclaredPermitted execution steps calls := by
  refine ⟨h.once, fun name request context granted hmem => ?_⟩
  obtain ⟨step, hstep, hname, hgranted, hrequested, hran⟩ := h.declared _ _ _ _ hmem
  cases hrequested with
  | declared hnone => exact ⟨step, hstep, hname, rfl, hgranted, hran⟩
  | resolved hresolver hasked hanswer => cases hresolver

theorem workflowCalls_permitted (engine : AgentEngine) (execution : Str → ExecutionEngine)
    (agent : Agent) (context : AgentContext) :
    DeclaredPermitted execution agent.definition.workflow.steps
      ((engine.over execution).workflowCalls agent context) := by
  unfold AgentEngine.workflowCalls
  split
  · exact .nil
  · exact (run_stepsPermitted (runDefault_eq (engine.workflowEngine.over execution)
      ⟨agent.definition.workflow, engine.newWorkflowId⟩ context.workflowContext)).of_default

/-- An execution is its workflow run between calls of its own, however it ends. -/
theorem execute_calls (engine : AgentEngine) (agent : Agent) (context : AgentContext) :
    ∃ outcome opening closing, (engine.execute agent context).exec [] =
        (outcome, opening ++ (engine.workflowCalls agent context).map .workflow ++ closing) ∧
      ∀ c ∈ opening ++ closing, c.Own := by
  let workflow : Workflow := ⟨agent.definition.workflow, engine.newWorkflowId⟩
  let started : Event := .agentStarted agent.agentId agent.definition.name
  have hown : ∀ c ∈ told .publish engine.eventBus started, AgentCall.Own c := by
    intro c hc
    unfold told at hc
    split at hc
    · rw [List.mem_singleton.mp hc]
      exact AgentCall.own_publish started
    · cases hc
  have hstarted := tell_exec AgentCall.publish engine.eventBus started []
  rw [AgentEngine.execute_eq, AgentEngine.workflowCalls]
  cases haccepted : accepted engine.eventBus started with
  | error exc =>
    rw [haccepted] at hstarted
    refine ⟨.error exc, told .publish engine.eventBus started, [], ?_, by simpa using hown⟩
    rw [exec_bind_error hstarted]
    simp
  | ok u =>
    rw [haccepted] at hstarted
    rw [exec_bind_ok hstarted]
    obtain ⟨run, hrun⟩ : ∃ run,
        engine.workflowEngine.runDefault workflow context.workflowContext = run := ⟨_, rfl⟩
    have hdelegate (log : List AgentCall) :
        (engine.delegate workflow context.workflowContext).exec log =
          (run.1, log ++ run.2.map .workflow) := hrun ▸ rfl
    simp only [workflow] at hrun
    simp only [hrun]
    obtain ⟨exc | result, calls⟩ := run
    · refine ⟨.error exc, told .publish engine.eventBus started, [], ?_, by simpa using hown⟩
      exact (exec_bind_error (hdelegate _) _).trans (by simp)
    · have hclose : Only AgentCall.Own (do
          tell .publish engine.eventBus (agentEvent agent result)
          engine.remember agent (mirror agent.definition result)
          pure (mirror agent.definition result)) :=
        .bind (tell_only (AgentCall.own_publish _) _) fun _ =>
          .bind (agent_remember_only _ _ _) fun _ => .pure _
      obtain ⟨closing, hclosing, hown'⟩ := hclose (told .publish engine.eventBus started ++
        calls.map .workflow)
      refine ⟨_, told .publish engine.eventBus started, closing,
        (exec_bind_ok (hdelegate _) _).trans (Prod.ext rfl hclosing),
        fun c hc => (List.mem_append.mp hc).elim (hown c) (hown' c)⟩

/-- What an agent lets run: its calls are those of one run of its workflow,
between its own, and that run executes the declared steps as they are declared. -/
theorem execute_stepsPermitted (engine : AgentEngine) (execution : Str → ExecutionEngine)
    (agent : Agent) (context : AgentContext) :
    ∃ outcome opening calls closing, ((engine.over execution).execute agent context).exec [] =
        (outcome, opening ++ calls.map .workflow ++ closing) ∧
      (∀ c ∈ opening ++ closing, c.Own) ∧
      calls = (engine.over execution).workflowCalls agent context ∧
      DeclaredPermitted execution agent.definition.workflow.steps calls := by
  obtain ⟨outcome, opening, closing, hexec, hown⟩ :=
    execute_calls (engine.over execution) agent context
  exact ⟨outcome, opening, _, closing, hexec, hown, rfl, workflowCalls_permitted ..⟩

end

end MellivorKernel
