import MellivorKernel.Agents.Enforcement
import MellivorKernel.Agents.Trace
import MellivorKernel.Workflow.Filing

/-!
# What an agent's execution makes known

The books of an execution that returns agree with its result (`execute_ledger`),
and a SQLite store that all its engines record to keeps every reported step, the
workflow run and the execution, in this order (`execute_filed`): the run has no
options, so nothing is turned away or run in a pool.
-/

namespace MellivorKernel

open Python Foundation Program

def AgentCall.inside? : AgentCall → Option WorkflowCall
  | .workflow c => some c
  | _ => none

section
variable [Printing]

def AgentEngine.entryOf (engine : AgentEngine) (agent : Agent) (result : AgentResult) :
    Except Exn MemoryEntry :=
  MemoryEntry.new agent.agentId
    (if result.success then
      lit "Agent " ++ pyRepr agent.definition.name ++ lit " completed successfully."
    else lit "Agent " ++ pyRepr agent.definition.name ++ lit " failed: " ++
      result.error.getD (lit "None"))
    {lit "agent"}
    [item "name" (.str agent.definition.name), item "success" (.bool result.success)] engine.now

inductive AgentEngine.Keeps (engine : AgentEngine) (agent : Agent) (result : AgentResult) :
    List AgentCall → Prop
  | nothing (hmemory : engine.memory = none) : Keeps engine agent result []
  | entry {entry : MemoryEntry} (hmemory : engine.memory.isSome)
      (hentry : engine.entryOf agent result = .ok entry) :
      Keeps engine agent result [.remember entry]

def AgentCall.filings (execution : Str → ExecutionEngine) (threads : Threads) :
    AgentCall → List Filing
  | .workflow c => c.filings execution threads .default
  | .remember entry => [⟨threads.caller, entry⟩]
  | .publish _ => []

/-- The books of an execution: its own announcements and entry around the calls
of its workflow run, whose books are those of the result it mirrors. -/
structure AgentLedger (execution : Str → ExecutionEngine) (engine : AgentEngine) (agent : Agent)
    (context : AgentContext) (result : AgentResult) (calls : List AgentCall) : Prop where
  run : (engine.over execution).workflowEngine.run .any
    ⟨agent.definition.workflow, engine.newWorkflowId⟩ context.workflowContext .default [] =
      some (.ok result.workflowResult, calls.filterMap AgentCall.inside?)
  mirrored : result = mirror agent.definition result.workflowResult
  own : ∃ kept, engine.Keeps agent result kept ∧ calls =
    told .publish engine.eventBus (.agentStarted agent.agentId agent.definition.name) ++
      (calls.filterMap AgentCall.inside?).map .workflow ++
      told .publish engine.eventBus (agentEvent agent result.workflowResult) ++ kept
  inside : Ledger execution engine.workflowEngine
    ⟨agent.definition.workflow, engine.newWorkflowId⟩ result.workflowResult
    (calls.filterMap AgentCall.inside?)

-- ---------------------------------------------------------------------------
-- The parts of an execution
-- ---------------------------------------------------------------------------

section
variable {engine : AgentEngine} {agent : Agent} {context : AgentContext} {result : AgentResult}
  {calls : List AgentCall}

theorem agent_remember_keeps (agent : Agent) (result : AgentResult) :
    (engine.remember agent result).Traces fun outcome made =>
      outcome = .ok () → engine.Keeps agent result made := by
  unfold AgentEngine.remember
  cases hmemory : engine.memory with
  | none => exact .pure fun _ => .nothing hmemory
  | some store =>
    exact .lift_bind (fun _ _ => nofun) fun entry hentry =>
      .attempt_call_bind (.pure fun _ => .entry (by rw [hmemory]; rfl) hentry)

omit [Printing] in
theorem told_inside (sink : Option EventBus) (event : Event) :
    (told AgentCall.publish sink event).filterMap AgentCall.inside? = [] := by
  unfold told
  split <;> rfl

theorem AgentEngine.Keeps.inside {kept : List AgentCall} (h : engine.Keeps agent result kept) :
    kept.filterMap AgentCall.inside? = [] := by
  cases h <;> rfl

omit [Printing] in
theorem inside_workflow (inside : List WorkflowCall) :
    (inside.map AgentCall.workflow).filterMap AgentCall.inside? = inside := by
  simp [List.filterMap_map, Function.comp_def, AgentCall.inside?]

structure AgentParts (engine : AgentEngine) (agent : Agent) (context : AgentContext)
    (result : AgentResult) (calls : List AgentCall) (inside : List WorkflowCall)
    (kept : List AgentCall) : Prop where
  run : engine.workflowEngine.run .any ⟨agent.definition.workflow, engine.newWorkflowId⟩
    context.workflowContext .default [] = some (.ok result.workflowResult, inside)
  mirrored : result = mirror agent.definition result.workflowResult
  keeps : engine.Keeps agent result kept
  calls : calls =
    told .publish engine.eventBus (.agentStarted agent.agentId agent.definition.name) ++
      inside.map .workflow ++
      told .publish engine.eventBus (agentEvent agent result.workflowResult) ++ kept

theorem execute_parts (h : (engine.execute agent context).exec [] = (.ok result, calls)) :
    ∃ inside kept, AgentParts engine agent context result calls inside kept := by
  have htraces : (engine.execute agent context).Traces fun outcome made => ∀ result,
      outcome = .ok result → ∃ inside kept,
        AgentParts engine agent context result made inside kept := by
    rw [AgentEngine.execute_eq]
    refine .bind_returned (tell_traces (Q := fun _ made => made = told .publish engine.eventBus
      (.agentStarted agent.agentId agent.definition.name)) rfl) ?_
    rintro - started rfl
    have hdelegate : (engine.delegate ⟨agent.definition.workflow, engine.newWorkflowId⟩
        context.workflowContext).Traces fun outcome made => ∃ inside,
          engine.workflowEngine.run .any ⟨agent.definition.workflow, engine.newWorkflowId⟩
            context.workflowContext .default [] = some (outcome, inside) ∧
          made = inside.map .workflow :=
      fun log => ⟨_, rfl, _, runDefault_eq _ _ _, rfl⟩
    refine .bind_returned hdelegate ?_
    rintro workflowResult - ⟨inside, hrun, rfl⟩
    refine .bind_returned (tell_traces (Q := fun _ made => made = told .publish engine.eventBus
      (agentEvent agent workflowResult)) rfl) ?_
    rintro - ended rfl
    refine .bind_returned (agent_remember_keeps agent (mirror agent.definition workflowResult))
      fun _ kept hkept => .pure ?_
    rintro _ ⟨⟩
    refine ⟨inside, kept, hrun, rfl, hkept rfl, ?_⟩
    simp only [List.append_assoc, List.append_nil]
    rfl
  obtain ⟨made, hmade, hparts⟩ := htraces []
  rw [h] at hmade hparts
  obtain rfl : calls = made := hmade
  exact hparts result rfl

theorem AgentParts.inside_eq {inside : List WorkflowCall} {kept : List AgentCall}
    (h : AgentParts engine agent context result calls inside kept) :
    calls.filterMap AgentCall.inside? = inside := by
  rw [h.calls]
  simp only [List.filterMap_append, told_inside, h.keeps.inside, inside_workflow, List.nil_append,
    List.append_nil]

end

-- ---------------------------------------------------------------------------
-- The books of an execution
-- ---------------------------------------------------------------------------

section
variable {execution : Str → ExecutionEngine} {engine : AgentEngine} {agent : Agent}
  {context : AgentContext} {result : AgentResult} {calls : List AgentCall}

theorem AgentEngine.Keeps.of_over {kept : List AgentCall}
    (h : (engine.over execution).Keeps agent result kept) : engine.Keeps agent result kept := by
  cases h with
  | nothing hmemory => exact .nothing hmemory
  | entry hmemory hentry => exact .entry hmemory hentry

theorem AgentParts.runParts {inside : List WorkflowCall} {kept : List AgentCall}
    (h : AgentParts (engine.over execution) agent context result calls inside kept) :
    ∃ opened unitCalls closed, RunParts (engine.workflowEngine.over execution) .any .default
      context.workflowContext ⟨agent.definition.workflow, engine.newWorkflowId⟩
      result.workflowResult inside opened unitCalls closed :=
  run_parts h.run

/-- The books of every execution that returns agree with its result, whatever
the tools and the providers do. -/
theorem execute_ledger
    (h : ((engine.over execution).execute agent context).exec [] = (.ok result, calls)) :
    AgentLedger execution engine agent context result calls := by
  obtain ⟨inside, kept, hparts⟩ := execute_parts h
  obtain ⟨opened, unitCalls, closed, hrun⟩ := hparts.runParts
  have hinside := hparts.inside_eq
  refine ⟨?_, hparts.mirrored, ⟨kept, hparts.keeps.of_over, ?_⟩, ?_⟩
  · rw [hinside]
    exact hparts.run
  · rw [hinside]
    exact hparts.calls
  · rw [hinside]
    exact hrun.ledger

-- ---------------------------------------------------------------------------
-- What it leaves in a file
-- ---------------------------------------------------------------------------

/-- The entry of a reported step, of the request the step was declared with. -/
def StepFiled (execution : Str → ExecutionEngine) (steps : List WorkflowStep)
    (reported : Str × ExecutionResult) (entry : MemoryEntry) : Prop :=
  ∃ step ∈ steps, step.name = reported.1 ∧
    (execution step.name).entryOf step.request reported.2 = .ok entry

omit [Printing] in
theorem forall₂_reduceOption {α β : Type*} {R : α → Option β → Prop} {S : α → β → Prop}
    {l : List α} {left : List (Option β)} (h : List.Forall₂ R l left)
    (hfull : ∀ x ∈ l, ∀ o, R x o → ∃ y, o = some y ∧ S x y) :
    List.Forall₂ S l left.reduceOption := by
  induction h with
  | nil => exact .nil
  | @cons x o l left hx hrest ih =>
    obtain ⟨y, rfl, hy⟩ := hfull x List.mem_cons_self o hx
    exact .cons hy (ih fun z hz => hfull z (List.mem_cons_of_mem _ hz))

/-- In a run without options every reported step leaves an entry. -/
theorem RunParts.filed_default {engine : WorkflowEngine} {discipline : Discipline}
    {context : WorkflowContext} {workflow : Workflow} {result : WorkflowResult}
    {calls opened unitCalls closed : List WorkflowCall} (threads : Threads)
    (h : RunParts (engine.over execution) discipline .default context workflow result calls
      opened unitCalls closed)
    (hsteps : ∀ step, (execution step).memory.isSome) (hmemory : engine.memory.isSome) :
    ∃ entries last, List.Forall₂ (StepFiled execution workflow.definition.steps)
        result.stepResults.entries entries ∧
      engine.entryOf workflow result = .ok last ∧
      entriesOf threads.caller (calls.flatMap (WorkflowCall.filings execution threads .default)) =
        entries ++ [last] := by
  obtain ⟨left, last, hnames, hleft, hlast, hfiled⟩ := h.filed threads hsteps hmemory
  refine ⟨left.reduceOption, last, forall₂_reduceOption hleft ?_, hlast, hfiled⟩
  rintro ⟨name, outcome⟩ hreported o hleaves
  have hname : name ∈ result.stepResults.keys := List.mem_map_of_mem hreported
  obtain ⟨step, hstep, rfl⟩ := List.mem_map.mp (hnames.subset hname)
  obtain ⟨seen, hperformed⟩ := h.performed hstep (Dict.get?_eq_some.mpr hreported)
  have hexecuted : (calls.filter (·.step? = some step.name)).filter WorkflowCall.executes =
      [.execute step.name step.request seen.executionContext step.grantedPermissions] := by
    rw [stepRun_default] at hperformed
    rw [← (Prod.mk.inj hperformed).2]
    rfl
  cases hleaves with
  | pooled hparallel => cases hparallel
  | refused _ _ hcalls =>
    rw [hexecuted] at hcalls
    cases hcalls
  | @filed _ _ request _ _ entry _ hcalls hentry =>
    rw [hexecuted] at hcalls
    cases hcalls
    exact ⟨entry, rfl, step, hstep, rfl, hentry⟩

theorem filings_told (threads : Threads) (sink : Option EventBus) (event : Event) :
    (told AgentCall.publish sink event).flatMap (AgentCall.filings execution threads) = [] := by
  unfold told
  split <;> rfl

/-- The file after an execution that returns: what it held, the reported steps
in the declared order, the workflow run and the execution. -/
theorem execute_filed (threads : Threads)
    (h : ((engine.over execution).execute agent context).exec [] = (.ok result, calls))
    (hsteps : ∀ step, (execution step).memory.isSome)
    (hworkflow : engine.workflowEngine.memory.isSome) (hmemory : engine.memory.isSome)
    {store : SQLiteMemoryStore} {memory : InMemoryStore} (hstore : Represents store memory) :
    ∃ entries last own,
      List.Forall₂ (StepFiled execution agent.definition.workflow.steps)
        result.workflowResult.stepResults.entries entries ∧
      engine.workflowEngine.entryOf ⟨agent.definition.workflow, engine.newWorkflowId⟩
        result.workflowResult = .ok last ∧
      engine.entryOf agent result = .ok own ∧
      Represents (store.file threads.caller (calls.flatMap (AgentCall.filings execution threads)))
        (memory.keep (entries ++ [last, own])) := by
  obtain ⟨inside, kept, hparts⟩ := execute_parts h
  obtain ⟨opened, unitCalls, closed, hrun⟩ := hparts.runParts
  obtain ⟨entries, last, hentries, hlast, hfiled⟩ := hrun.filed_default threads hsteps hworkflow
  cases hparts.keeps.of_over with
  | nothing hnone =>
    rw [hnone] at hmemory
    cases hmemory
  | @entry own _ hown =>
    have hkept : entriesOf threads.caller (calls.flatMap (AgentCall.filings execution threads)) =
        entries ++ [last, own] := by
      have hinside : (inside.map AgentCall.workflow).flatMap (AgentCall.filings execution threads) =
          inside.flatMap (WorkflowCall.filings execution threads .default) := by
        rw [List.flatMap_map]
        rfl
      rw [hparts.calls]
      simp only [List.flatMap_append, filings_told, hinside, entriesOf_append, hfiled,
        List.nil_append, List.append_nil]
      have hown' : [AgentCall.remember own].flatMap (AgentCall.filings execution threads) =
          [own].map (Filing.mk threads.caller) := rfl
      rw [hown', entriesOf_mk, List.append_assoc]
      rfl
    refine ⟨entries, last, own, hentries, hlast, hown, ?_⟩
    rw [← hkept]
    exact file_represents hstore _

end

end

-- ---------------------------------------------------------------------------
-- An agent of two steps
-- ---------------------------------------------------------------------------

def ledgerAgentEngine : AgentEngine :=
  { idleEngine with workflowEngine := ledgerEngine, memory := some fun _ => .ok () }

def pairAgent : Agent := ⟨⟨lit "both tools", pairWorkflow.definition, by decide⟩, lit "a1"⟩

def PairAgentRun (result : AgentResult) (calls : List AgentCall) : Prop :=
  (@AgentEngine.execute plainPrinting
    (@AgentEngine.over plainPrinting ledgerAgentEngine recordingEngine) pairAgent idleContext).exec
      [] = (.ok result, calls) ∧
  result.workflowResult.stepResults.keys = [lit "first", lit "second"]

theorem pairAgent_returns : ∃ result calls, PairAgentRun result calls := ⟨_, _, rfl, rfl⟩

theorem pairAgent_ledger : ∃ result calls, PairAgentRun result calls ∧
    @AgentLedger plainPrinting recordingEngine ledgerAgentEngine pairAgent idleContext result calls := by
  obtain ⟨result, calls, hrun, hkeys⟩ := pairAgent_returns
  exact ⟨result, calls, ⟨hrun, hkeys⟩, @execute_ledger plainPrinting _ _ _ _ _ _ hrun⟩

theorem pairAgent_filed : ∃ result calls, PairAgentRun result calls ∧ ∃ entries last own,
    List.Forall₂ (@StepFiled plainPrinting recordingEngine pairAgent.definition.workflow.steps)
      result.workflowResult.stepResults.entries entries ∧
    @WorkflowEngine.entryOf plainPrinting ledgerEngine
      ⟨pairAgent.definition.workflow, lit "w1"⟩ result.workflowResult = .ok last ∧
    @AgentEngine.entryOf plainPrinting ledgerAgentEngine pairAgent result = .ok own ∧
    @Represents plainPrinting
      (@SQLiteMemoryStore.file plainPrinting 1 ⟨RowTable.empty, RowTable.empty⟩
        (calls.flatMap (@AgentCall.filings plainPrinting recordingEngine twoThreads)))
      (@InMemoryStore.keep plainPrinting InMemoryStore.new (entries ++ [last, own])) := by
  obtain ⟨result, calls, hrun, hkeys⟩ := pairAgent_returns
  exact ⟨result, calls, ⟨hrun, hkeys⟩, @execute_filed plainPrinting _ _ _ _ _ _ twoThreads hrun
    (fun _ => rfl) rfl rfl _ _ (@Represents.empty plainPrinting)⟩

end MellivorKernel
