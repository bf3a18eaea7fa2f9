import MellivorKernel.Workflow.Enforcement
import MellivorKernel.Execution.Ledger

/-!
# What a workflow run makes known

The books of a run that returns agree with its result. A step that is reported
was either turned away before it was executed or executed once, and then what
was published, observed and recorded of that execution is what is reported of
the step; no other step was turned to; and the run as a whole is announced and
recorded as it is reported (`run_ledger`).
-/

namespace MellivorKernel

open Python Foundation Program

def WorkflowCall.executes : WorkflowCall → Bool
  | .execute .. => true
  | _ => false

def WorkflowResult.event (workflow : Workflow) (result : WorkflowResult) : Event :=
  if result.success then .workflowCompleted workflow.workflowId workflow.definition.name
    result.stepResults.keys.length
  else .workflowFailed workflow.workflowId workflow.definition.name (result.error.getD [])
    result.stoppedAt

theorem filter_flatMap_key {α β κ : Type} [DecidableEq κ] {f : α → List β} {key : β → Option κ}
    {name : α → κ} {l : List α} (hn : (l.map name).Nodup)
    (hkey : ∀ x ∈ l, ∀ b ∈ f x, key b = some (name x)) {x : α} (hx : x ∈ l) :
    (l.flatMap f).filter (fun b => key b = some (name x)) = f x := by
  induction l with
  | nil => cases hx
  | cons y rest ih =>
    rw [List.map_cons, List.nodup_cons] at hn
    rw [List.flatMap_cons, List.filter_append]
    have hrest := fun z hz => hkey z (List.mem_cons_of_mem _ hz)
    rcases List.mem_cons.mp hx with rfl | hx
    · rw [List.filter_eq_self.mpr, List.filter_eq_nil_iff.mpr, List.append_nil]
      · intro b hb
        obtain ⟨z, hz, hb⟩ := List.mem_flatMap.mp hb
        rw [hrest z hz b hb, decide_eq_true_eq, Option.some.injEq]
        exact fun heq => hn.1 (heq ▸ List.mem_map_of_mem hz)
      · intro b hb
        simp [hkey x List.mem_cons_self b hb]
    · rw [List.filter_eq_nil_iff.mpr, List.nil_append, ih hn.2 hrest hx]
      intro b hb
      rw [hkey y List.mem_cons_self b hb, decide_eq_true_eq, Option.some.injEq]
      exact fun heq => hn.1 (heq ▸ List.mem_map_of_mem hx)

section
variable [Printing]

/-- How a step came to what is reported of it, with the calls made for it. -/
inductive StepLedger (execution : Str → ExecutionEngine) (step : WorkflowStep)
    (outcome : ExecutionResult) (calls : List WorkflowCall) : Prop
  | executed {request : ExecutionRequest} {seen : ExecutionContext} {made : List Call}
      (hcalls : calls.filter WorkflowCall.executes =
        [.execute step.name request seen step.grantedPermissions])
      (hreturned : ((execution step.name).execute request seen step.grantedPermissions).exec [] =
        (.ok outcome, made))
      (hbooked : Booked (execution step.name) request outcome made)
  | refused {stage : Str} (hcalls : calls.filter WorkflowCall.executes = [])
      (hfailed : outcome.success = false) (hstage : stageOf outcome = some stage)
      (hnamed : stage = lit "scheduling" ∨ stage = lit "dynamic_request")

def WorkflowEngine.entryOf (engine : WorkflowEngine) (workflow : Workflow)
    (result : WorkflowResult) : Except Exn MemoryEntry :=
  MemoryEntry.new workflow.workflowId
    (if result.success then
      lit "Workflow " ++ pyRepr workflow.definition.name ++ lit " succeeded with " ++
        decimal result.stepResults.keys.length ++ lit " step(s)."
    else lit "Workflow " ++ pyRepr workflow.definition.name ++ lit " failed: " ++
      result.error.getD (lit "None"))
    {lit "workflow"}
    [item "name" (.str workflow.definition.name), item "success" (.bool result.success),
      item "step_count" (.int result.stepResults.keys.length)] engine.now

inductive WorkflowEngine.Keeps (engine : WorkflowEngine) (workflow : Workflow)
    (result : WorkflowResult) : List WorkflowCall → Prop
  | nothing (hmemory : engine.memory = none) : Keeps engine workflow result []
  | entry {entry : MemoryEntry} (hmemory : engine.memory.isSome)
      (hentry : engine.entryOf workflow result = .ok entry) :
      Keeps engine workflow result [.remember entry]

structure Ledger (execution : Str → ExecutionEngine) (engine : WorkflowEngine) (workflow : Workflow)
    (result : WorkflowResult) (calls : List WorkflowCall) : Prop where
  own : ∃ kept, engine.Keeps workflow result kept ∧ calls.filter (·.step? = none) =
    told .publish engine.eventBus
        (.workflowStarted workflow.workflowId workflow.definition.name) ++
      told .publish engine.eventBus (result.event workflow) ++ kept
  reported : ∀ step ∈ workflow.definition.steps, ∀ outcome,
    result.stepResults.get? step.name = some outcome →
      StepLedger execution step outcome (calls.filter (·.step? = some step.name))
  unreported : ∀ c ∈ calls, ∀ name, c.step? = some name → name ∈ result.stepResults.keys

-- ---------------------------------------------------------------------------
-- One step
-- ---------------------------------------------------------------------------

section
variable {engine : WorkflowEngine} {execution : Str → ExecutionEngine} {step : WorkflowStep}
  {options : WorkflowExecutionOptions} {context : WorkflowContext}

theorem StepLedger.cons {outcome : ExecutionResult} {c : WorkflowCall} {calls : List WorkflowCall}
    (hc : c.executes = false) (h : StepLedger execution step outcome calls) :
    StepLedger execution step outcome (c :: calls) := by
  have hfilter : (c :: calls).filter WorkflowCall.executes = calls.filter WorkflowCall.executes :=
    List.filter_cons_of_neg (by simp [hc])
  cases h with
  | executed hcalls hreturned hbooked => exact .executed (hfilter.trans hcalls) hreturned hbooked
  | refused hcalls hfailed hstage hnamed =>
    exact .refused (hfilter.trans hcalls) hfailed hstage hnamed

theorem executeStep_ledger (request : ExecutionRequest) :
    ((engine.over execution).executeStep step context request).Traces fun r made =>
      ∀ outcome, r = .ok outcome → StepLedger execution step outcome made := by
  refine .call fun outcome houtcome => ?_
  obtain ⟨made, hmade, hbooked⟩ := execute_booked (execution step.name) request
    context.executionContext step.grantedPermissions []
  exact .executed rfl (Prod.ext houtcome hmade) (hbooked outcome houtcome)

/-- A step that is turned away fails in a stage of the workflow's own. -/
theorem refused_ledger {stage : String} (hstage : stage = "scheduling" ∨ stage = "dynamic_request")
    (message : Str) :
    (lift (ExecutionResult.new false none (some message) 0 [item "stage" (.str (lit stage))]) :
      Program Exn WorkflowCall ExecutionResult).Traces fun r made =>
        ∀ outcome, r = .ok outcome → StepLedger execution step outcome made := by
  refine .lift fun outcome houtcome => ?_
  unfold ExecutionResult.new at houtcome
  split at houtcome
  · cases houtcome
    have hstageOf : (some (lit stage) : Option Str) = some (lit stage) := rfl
    exact .refused rfl rfl hstageOf (hstage.imp (congrArg lit) (congrArg lit))
  · cases houtcome

theorem resolveAndExecuteDue_ledger :
    ((engine.over execution).resolveAndExecuteDue step context options).Traces fun r made =>
      ∀ outcome, r = .ok outcome → StepLedger execution step outcome made := by
  unfold WorkflowEngine.resolveAndExecuteDue
  split
  · rename_i resolver _
    refine .attempt_call_bind ?_
    split
    · exact (refused_ledger (.inr rfl) _).mono fun _ _ h outcome ho => (h outcome ho).cons rfl
    · exact (refused_ledger (.inr rfl) _).mono fun _ _ h outcome ho => (h outcome ho).cons rfl
    · exact (executeStep_ledger _).mono fun _ _ h outcome ho => (h outcome ho).cons rfl
  · exact executeStep_ledger _

theorem stepRun_ledger {outcome : ExecutionResult} {calls : List WorkflowCall}
    (h : (engine.over execution).stepRun options context step = (.ok outcome, calls)) :
    StepLedger execution step outcome calls := by
  have htraces : ((engine.over execution).resolveAndExecuteStep step context options).Traces
      fun r made => ∀ outcome, r = .ok outcome → StepLedger execution step outcome made := by
    unfold WorkflowEngine.resolveAndExecuteStep
    refine .bind_returned (.call (Q := fun _ made => made = [.now step.name]) rfl) ?_
    rintro - made rfl
    have hdue : ((engine.over execution).resolveAndExecuteDue step context options).Traces
        fun r more => ∀ outcome, r = .ok outcome →
          StepLedger execution step outcome (.now step.name :: more) :=
      resolveAndExecuteDue_ledger.mono fun _ _ h outcome ho => (h outcome ho).cons rfl
    split
    · refine .lift_bind_returned fun early _ => ?_
      split
      · exact (refused_ledger (.inl rfl) _).mono fun _ _ h outcome ho => (h outcome ho).cons rfl
      · exact hdue
    · exact hdue
  obtain ⟨made, hmade, hledger⟩ := htraces []
  unfold WorkflowEngine.stepRun at h
  rw [h] at hmade hledger
  obtain rfl : calls = made := hmade
  exact hledger outcome rfl

end

-- ---------------------------------------------------------------------------
-- The steps of a run
-- ---------------------------------------------------------------------------

section
variable {engine : WorkflowEngine} {discipline : Discipline} {options : WorkflowExecutionOptions}
  {context : WorkflowContext} {units : List (List WorkflowStep)} {d : Dict Str ExecutionResult}
  {ended : UnitsEnd} {begun : List WorkflowStep} {calls : List WorkflowCall}

theorem UnitRun.callsOf {unit : List WorkflowStep} {results : Dict Str ExecutionResult}
    (h : UnitRun engine options discipline context unit begun results calls) {step : WorkflowStep}
    (hstep : step ∈ begun) : calls.filter (·.step? = some step.name) =
      (engine.stepRun options context step).2 := by
  rw [h.calls]
  exact filter_flatMap_key h.nodup
    (fun other _ c hc => ((stepRun_calls engine options context other).mem hc).1) hstep

theorem UnitRun.callsOf_other {unit : List WorkflowStep} {results : Dict Str ExecutionResult}
    (h : UnitRun engine options discipline context unit begun results calls) {name : Str}
    (hname : name ∉ unit.map WorkflowStep.name) : calls.filter (·.step? = some name) = [] := by
  refine List.filter_eq_nil_iff.mpr fun c hc hstep => hname ?_
  obtain ⟨other, hother, hmem⟩ := h.call hc
  rw [((stepRun_calls engine options context other).mem hmem).1, decide_eq_true_eq,
    Option.some.injEq] at hstep
  exact hstep ▸ List.mem_map_of_mem (h.subset other hother)

theorem UnitsRun.callsOf_other
    (h : UnitsRun engine options discipline context d units ended begun calls) {name : Str}
    (hname : name ∉ units.flatten.map WorkflowStep.name) :
    calls.filter (·.step? = some name) = [] := by
  refine List.filter_eq_nil_iff.mpr fun c hc hstep => hname ?_
  obtain ⟨other, hother, seen, hmem⟩ := h.call hc
  rw [((stepRun_calls engine options seen other).mem hmem).1, decide_eq_true_eq,
    Option.some.injEq] at hstep
  exact hstep ▸ List.mem_map_of_mem (h.begun_subset hother)

theorem UnitsRun.performed
    (h : UnitsRun engine options discipline context d units ended begun calls)
    (hn : (d.keys ++ units.flatten.map WorkflowStep.name).Nodup) {step : WorkflowStep}
    (hstep : step ∈ units.flatten) {result : ExecutionResult}
    (hr : ended.1.get? step.name = some result) :
    ∃ seen, engine.stepRun options seen step =
      (.ok result, calls.filter (·.step? = some step.name)) := by
  induction h with
  | nil => cases hstep
  | @stop context d unit rest begun results calls stopping hunit hstop =>
    have hu := nodup_unit hn
    have hmem : step ∈ unit := hunit.subset step <|
      (UnitsRun.mem_keys (.stop hunit hstop) hn hstep).mp (Dict.mem_keys.mpr ⟨result, hr⟩)
    rw [List.flatten_cons, List.map_append] at hn
    rw [hunit.get?_update hn hmem] at hr
    obtain ⟨hb, hreturned⟩ := hunit.lookup hu hmem hr
    exact ⟨context, Prod.ext hreturned (hunit.callsOf hb).symm⟩
  | @next context d unit rest begun results calls ended more moreCalls hunit hgo hrest ih =>
    obtain ⟨added, hadded, hsub⟩ := UnitsRun.entries_later hunit hn hrest
    have hu := nodup_unit hn
    rw [List.flatten_cons, List.map_append] at hn
    have hdisjoint := (List.nodup_append.mp (List.nodup_append.mp hn).2.1).2.2
    rw [List.flatten_cons] at hstep
    rw [List.filter_append]
    rcases List.mem_append.mp hstep with hmem | hmem
    · rw [hunit.get?_final hn hadded hsub hmem] at hr
      obtain ⟨hb, hreturned⟩ := hunit.lookup hu hmem hr
      have hnone := hrest.callsOf_other fun hlater =>
        hdisjoint _ (List.mem_map_of_mem hmem) _ hlater rfl
      exact ⟨context, Prod.ext hreturned (by rw [hunit.callsOf hb, hnone, List.append_nil])⟩
    · have hnone := hunit.callsOf_other fun hearlier =>
        hdisjoint _ hearlier _ (List.mem_map_of_mem hmem) rfl
      rw [hnone, List.nil_append]
      exact ih (hunit.later_nodup hn) hmem hr

-- ---------------------------------------------------------------------------
-- Whole runs
-- ---------------------------------------------------------------------------

theorem report_event (workflow : Workflow) (ended : UnitsEnd) :
    (report ended).event workflow = closingEvent workflow ended := by
  obtain ⟨stepResults, _ | ⟨step, result⟩⟩ := ended <;> rfl

theorem workflow_remember_keeps (workflow : Workflow) (result : WorkflowResult) :
    (engine.remember workflow result).Traces fun outcome made =>
      outcome = .ok () → engine.Keeps workflow result made := by
  unfold WorkflowEngine.remember
  cases hmemory : engine.memory with
  | none => exact .pure fun _ => .nothing hmemory
  | some store =>
    exact .lift_bind (fun _ _ => nofun) fun entry hentry =>
      .attempt_call_bind (.pure fun _ => .entry (by rw [hmemory]; rfl) hentry)

variable (engine) in
theorem opening_told (workflow : Workflow) :
    (engine.opening workflow options).Traces fun outcome made => outcome = .ok () →
      made = told .publish engine.eventBus
        (.workflowStarted workflow.workflowId workflow.definition.name) :=
  .lift_bind (fun _ _ => nofun) fun _ _ => tell_traces fun _ => rfl

variable (engine) in
theorem finish_keeps (workflow : Workflow) (ended : UnitsEnd) :
    (engine.finish workflow ended).Traces fun outcome made => ∀ result, outcome = .ok result →
      result = report ended ∧ ∃ kept, engine.Keeps workflow result kept ∧
        made = told .publish engine.eventBus (result.event workflow) ++ kept := by
  rw [finish_eq]
  refine .bind_returned (tell_traces (Q := fun _ made =>
    made = told .publish engine.eventBus (closingEvent workflow ended)) rfl) ?_
  rintro - made rfl
  refine .bind_returned (workflow_remember_keeps workflow (report ended))
    fun _ kept hkept => .pure ?_
  rintro _ ⟨⟩
  exact ⟨rfl, kept, hkept rfl, by rw [List.append_nil, report_event]⟩

theorem WorkflowEngine.Keeps.own {workflow : Workflow} {result : WorkflowResult}
    {kept : List WorkflowCall} (h : engine.Keeps workflow result kept) : ∀ c ∈ kept, c.Own := by
  cases h with
  | nothing => nofun
  | entry => simp [WorkflowCall.own_remember]

theorem WorkflowEngine.Keeps.of_over {execution : Str → ExecutionEngine} {workflow : Workflow}
    {result : WorkflowResult} {kept : List WorkflowCall}
    (h : (engine.over execution).Keeps workflow result kept) :
    engine.Keeps workflow result kept := by
  cases h with
  | nothing hmemory => exact .nothing hmemory
  | entry hmemory hentry => exact .entry hmemory hentry

omit [Printing] in
theorem told_own (sink : Option EventBus) (event : Event) :
    ∀ c ∈ told WorkflowCall.publish sink event, c.Own := by
  unfold told
  split <;> simp [WorkflowCall.own_publish]

omit [Printing] in
theorem own_filter {made : List WorkflowCall} (h : ∀ c ∈ made, c.Own) :
    made.filter (·.step? = none) = made :=
  List.filter_eq_self.mpr fun c hc => decide_eq_true (h c hc)

omit [Printing] in
theorem own_filter_step {made : List WorkflowCall} (h : ∀ c ∈ made, c.Own) (name : Str) :
    made.filter (·.step? = some name) = [] :=
  List.filter_eq_nil_iff.mpr fun c hc => by
    have hnone : c.step? = none := h c hc
    simp [hnone]

end

structure RunParts (engine : WorkflowEngine) (discipline : Discipline)
    (options : WorkflowExecutionOptions) (context : WorkflowContext) (workflow : Workflow)
    (result : WorkflowResult) (calls opened unitCalls closed : List WorkflowCall) : Prop where
  valid : validateOptions workflow.definition.steps options = .ok ()
  calls : calls = opened ++ unitCalls ++ closed
  opened : opened = told .publish engine.eventBus
    (.workflowStarted workflow.workflowId workflow.definition.name)
  units : ∃ ended begun, result = report ended ∧
    UnitsRun engine options discipline context Dict.empty
      (groupIntoUnits workflow.definition.steps options) ended begun unitCalls
  closed : ∃ kept, engine.Keeps workflow result kept ∧
    closed = told .publish engine.eventBus (result.event workflow) ++ kept

section
variable {engine : WorkflowEngine} {discipline : Discipline} {options : WorkflowExecutionOptions}
  {context : WorkflowContext} {workflow : Workflow} {schedules : List (List GroupAction)}
  {result : WorkflowResult} {calls : List WorkflowCall}

theorem units_nodup (workflow : Workflow) (options : WorkflowExecutionOptions) :
    ((groupIntoUnits workflow.definition.steps options).flatten.map WorkflowStep.name).Nodup := by
  rw [groupIntoUnits_flatten]
  exact workflow.definition.steps_nodup

theorem run_parts (h : engine.run discipline workflow context options schedules =
    some (.ok result, calls)) : ∃ opened unitCalls closed,
      RunParts engine discipline options context workflow result calls opened unitCalls closed := by
  rw [WorkflowEngine.run] at h
  obtain ⟨opened, hopened, htold⟩ := opening_told engine workflow []
  split at h
  · cases h
  rename_i calls' hexec
  rw [hexec] at hopened htold
  obtain rfl : calls' = opened := hopened
  have hvalid : validateOptions workflow.definition.steps options = .ok () := by
    cases hvalidate : validateOptions workflow.definition.steps options with
    | ok u => rfl
    | error exc =>
      simp only [WorkflowEngine.opening, exec_bind, exec_lift, hvalidate] at hexec
      cases hexec
  obtain ⟨⟨exc | ended, unitCalls⟩, hunits, hclose⟩ := Option.map_eq_some_iff.mp h
  · simp only [exec_bind, exec_lift] at hclose
    cases hclose
  obtain ⟨begun, hrun⟩ := runUnits_unitsRun (units_nodup workflow options) hunits
  obtain ⟨closing, hclosing, hkeeps⟩ := finish_keeps engine workflow ended (calls' ++ unitCalls)
  simp only [exec_bind, exec_lift] at hclose
  rw [hclose] at hclosing hkeeps
  obtain ⟨hreport, hclosed⟩ := hkeeps result rfl
  exact ⟨calls', unitCalls, closing, hvalid, hclosing, htold rfl, ⟨ended, begun, hreport, hrun⟩,
    hclosed⟩

theorem RunParts.performed {opened unitCalls closed : List WorkflowCall}
    (h : RunParts engine discipline options context workflow result calls opened unitCalls closed)
    {step : WorkflowStep} (hstep : step ∈ workflow.definition.steps) {outcome : ExecutionResult}
    (houtcome : result.stepResults.get? step.name = some outcome) :
    ∃ seen, engine.stepRun options seen step =
      (.ok outcome, calls.filter (·.step? = some step.name)) := by
  obtain ⟨-, rfl, rfl, ⟨ended, begun, rfl, hrun⟩, kept, hkept, rfl⟩ := h
  rw [report_stepResults] at houtcome
  rw [← groupIntoUnits_flatten workflow.definition.steps options] at hstep
  obtain ⟨seen, hperformed⟩ := hrun.performed (units_nodup workflow options) hstep houtcome
  refine ⟨seen, ?_⟩
  simp only [List.filter_append, own_filter_step (told_own _ _), own_filter_step hkept.own,
    List.nil_append, List.append_nil]
  exact hperformed

end

theorem RunParts.ledger {engine : WorkflowEngine} {discipline : Discipline}
    {options : WorkflowExecutionOptions} {context : WorkflowContext}
    {execution : Str → ExecutionEngine} {workflow : Workflow} {result : WorkflowResult}
    {calls opened unitCalls closed : List WorkflowCall}
    (h : RunParts (engine.over execution) discipline options context workflow result calls opened
      unitCalls closed) : Ledger execution engine workflow result calls := by
  have hreported : ∀ step ∈ workflow.definition.steps, ∀ outcome,
      result.stepResults.get? step.name = some outcome →
        StepLedger execution step outcome (calls.filter (·.step? = some step.name)) := by
    intro step hstep outcome houtcome
    obtain ⟨seen, hperformed⟩ := h.performed hstep houtcome
    exact stepRun_ledger hperformed
  obtain ⟨-, rfl, htold, ⟨ended, begun, rfl, hrun⟩, kept, hkept, rfl⟩ := h
  have hopenedOwn : ∀ c ∈ opened, c.Own := htold ▸ told_own _ _
  have hclosedOwn : ∀ c ∈ told .publish (engine.over execution).eventBus
      ((report ended).event workflow) ++ kept, c.Own := fun c hc =>
    (List.mem_append.mp hc).elim (told_own _ _ c) (hkept.own c)
  refine ⟨⟨kept, hkept.of_over, ?_⟩, hreported, fun c hc name hname => ?_⟩
  · have hsteps : unitCalls.filter (·.step? = none) = [] := by
      refine List.filter_eq_nil_iff.mpr fun c hc => ?_
      obtain ⟨step, -, seen, hmem⟩ := hrun.call hc
      simp [((stepRun_calls _ _ seen step).mem hmem).1]
    rw [List.filter_append, List.filter_append, own_filter hopenedOwn, own_filter hclosedOwn,
      hsteps, htold, List.append_nil, List.append_assoc]
    rfl
  · have hmem : c ∈ unitCalls := mem_of_step (fun c hc => (List.mem_append.mp hc).elim
      (hopenedOwn c) (hclosedOwn c)) hc hname
    obtain ⟨step, hb, seen, hcall⟩ := hrun.call hmem
    have hstep := ((stepRun_calls _ _ seen step).mem hcall).1
    obtain rfl := Option.some.inj (hstep.symm.trans hname)
    rw [report_stepResults]
    exact (hrun.mem_keys (units_nodup workflow options) (hrun.begun_subset hb)).mpr hb

/-- The books of every run that returns agree with its result, whatever the
options, the schedule, the resolvers and the tools. -/
theorem run_ledger {engine : WorkflowEngine} {discipline : Discipline}
    {options : WorkflowExecutionOptions} {context : WorkflowContext}
    {execution : Str → ExecutionEngine} {workflow : Workflow}
    {schedules : List (List GroupAction)} {result : WorkflowResult} {calls : List WorkflowCall}
    (h : (engine.over execution).run discipline workflow context options schedules =
      some (.ok result, calls)) :
    Ledger execution engine workflow result calls := by
  obtain ⟨opened, unitCalls, closed, hparts⟩ := run_parts h
  exact hparts.ledger

end

-- ---------------------------------------------------------------------------
-- Two steps at once, announced and recorded
-- ---------------------------------------------------------------------------

def ledgerEngine : WorkflowEngine :=
  { pairEngine with eventBus := some fun _ => .ok (), memory := some fun _ => .ok () }

theorem ledgerEngine_ledger : ∃ result calls,
    @WorkflowEngine.run plainPrinting (@WorkflowEngine.over plainPrinting ledgerEngine workEngine)
      .any pairWorkflow pairContext pairOptions [workSchedule] = some (.ok result, calls) ∧
    result.stepResults.keys = [lit "first", lit "second"] ∧
    @Ledger plainPrinting workEngine ledgerEngine pairWorkflow result calls := by
  obtain ⟨result, calls, hrun, hkeys⟩ : ∃ result calls,
      @WorkflowEngine.run plainPrinting (@WorkflowEngine.over plainPrinting ledgerEngine workEngine)
        .any pairWorkflow pairContext pairOptions [workSchedule] = some (.ok result, calls) ∧
      result.stepResults.keys = [lit "first", lit "second"] := ⟨_, _, rfl, rfl⟩
  exact ⟨result, calls, hrun, hkeys, @run_ledger plainPrinting _ _ _ _ _ _ _ _ _ hrun⟩

end MellivorKernel
