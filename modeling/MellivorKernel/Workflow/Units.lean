import MellivorKernel.Workflow.Run

/-!
# How the units of a run unfold

`UnitsRun` describes what the loop over the units did, unit by unit, with the
steps that were begun on the way. Every returning run is one
(`run_unitsRun`); what follows is read off it by induction.
-/

namespace MellivorKernel

open Python Foundation Program

section
variable [Printing] {engine : WorkflowEngine} {discipline : Discipline}
  {options : WorkflowExecutionOptions} {context : WorkflowContext}

-- ---------------------------------------------------------------------------
-- Units
-- ---------------------------------------------------------------------------

theorem stepRun_unitRun {step : WorkflowStep} {result : ExecutionResult} {calls : List WorkflowCall}
    (h : engine.stepRun options context step = (.ok result, calls)) :
    UnitRun engine options discipline context [step] [step] (Dict.empty.set step.name result)
      calls where
  nodup := List.nodup_singleton _
  subset _ := id
  calls := by simp [h]
  keys := by simp [Dict.keys_set]
  returned := by simp [h]
  left := by simp

theorem runUnit_unitRun {unit : List WorkflowStep} {schedule : List GroupAction}
    (hn : (unit.map WorkflowStep.name).Nodup) {results : Dict Str ExecutionResult}
    {calls : List WorkflowCall}
    (h : engine.runUnit discipline options unit context schedule = some (.ok results, calls)) :
    ∃ begun, UnitRun engine options discipline context unit begun results calls := by
  unfold WorkflowEngine.runUnit at h
  split at h
  · rename_i step
    split at h
    · exact runParallelGroup_unitRun hn h
    · cases hrun : engine.stepRun options context step with
      | mk outcome calls' =>
        rw [hrun] at h
        cases outcome with
        | error exc => cases h
        | ok result =>
          cases h
          exact ⟨[step], stepRun_unitRun hrun⟩
  · exact runParallelGroup_unitRun hn h

omit [Printing] in
theorem firstStoppingFailure_eq_some {unit : List WorkflowStep} {results : Dict Str ExecutionResult}
    {step : WorkflowStep} {result : ExecutionResult}
    (h : firstStoppingFailure unit results = some (step, result)) :
    ∃ before after, unit = before ++ step :: after ∧ results.get? step.name = some result ∧
      step.StoppedBy result ∧
      ∀ earlier ∈ before, ∀ r, results.get? earlier.name = some r → ¬ earlier.StoppedBy r := by
  induction unit with
  | nil => cases h
  | cons first rest ih =>
    have hskip (hrest : firstStoppingFailure rest results = some (step, result))
        (hfirst : ∀ r, results.get? first.name = some r → ¬ first.StoppedBy r) :
        ∃ before after, first :: rest = before ++ step :: after ∧
          results.get? step.name = some result ∧ step.StoppedBy result ∧
          ∀ earlier ∈ before, ∀ r, results.get? earlier.name = some r → ¬ earlier.StoppedBy r := by
      obtain ⟨before, after, rfl, hget, hstop, hbefore⟩ := ih hrest
      refine ⟨first :: before, after, rfl, hget, hstop, ?_⟩
      rintro earlier (_ | ⟨_, hmem⟩)
      · exact hfirst
      · exact hbefore earlier hmem
    unfold firstStoppingFailure at h
    split at h
    · rename_i r hr
      split at h
      · rename_i hstop
        cases h
        exact ⟨[], rest, rfl, hr, hstop, by simp⟩
      · rename_i hgo
        exact hskip h fun r' hr' => by rwa [← Option.some.inj (hr.symm.trans hr')]
    · rename_i hnone
      exact hskip h fun r' hr' => by rw [hnone] at hr'; cases hr'

omit [Printing] in
theorem firstStoppingFailure_eq_none {unit : List WorkflowStep} {results : Dict Str ExecutionResult}
    (h : firstStoppingFailure unit results = none) :
    ∀ step ∈ unit, ∀ r, results.get? step.name = some r → ¬ step.StoppedBy r := by
  induction unit with
  | nil => nofun
  | cons first rest ih =>
    unfold firstStoppingFailure at h
    split at h
    · rename_i r hr
      split at h
      · cases h
      · rename_i hgo
        rintro step (_ | ⟨_, hmem⟩)
        · intro r' hr'
          rwa [← Option.some.inj (hr.symm.trans hr')]
        · exact ih h step hmem
    · rename_i hnone
      rintro step (_ | ⟨_, hmem⟩)
      · intro r' hr'
        rw [hnone] at hr'
        cases hr'
      · exact ih h step hmem

-- ---------------------------------------------------------------------------
-- The loop
-- ---------------------------------------------------------------------------

/-- The loop over the units from a context and the results recorded so far:
how it ended, which steps were begun and what was called. -/
inductive UnitsRun [Printing] (engine : WorkflowEngine) (options : WorkflowExecutionOptions)
    (discipline : Discipline) : WorkflowContext → Dict Str ExecutionResult →
      List (List WorkflowStep) → UnitsEnd → List WorkflowStep → List WorkflowCall → Prop
  | nil {context d} : UnitsRun engine options discipline context d [] (d, none) [] []
  | stop {context d unit rest begun results calls stopping}
      (hunit : UnitRun engine options discipline context unit begun results calls)
      (hstop : firstStoppingFailure unit results = some stopping) :
      UnitsRun engine options discipline context d (unit :: rest) (d.update results, some stopping)
        begun calls
  | next {context d unit rest begun results calls ended more moreCalls}
      (hunit : UnitRun engine options discipline context unit begun results calls)
      (hgo : firstStoppingFailure unit results = none)
      (hrest : UnitsRun engine options discipline
        { context with stepResults := d.update results } (d.update results) rest ended more
        moreCalls) :
      UnitsRun engine options discipline context d (unit :: rest) ended (begun ++ more)
        (calls ++ moreCalls)

theorem runUnits_unitsRun {units : List (List WorkflowStep)} {schedules : List (List GroupAction)}
    {d : Dict Str ExecutionResult} (hn : (units.flatten.map WorkflowStep.name).Nodup)
    {ended : UnitsEnd} {calls : List WorkflowCall}
    (h : engine.runUnits discipline options units schedules context d = some (.ok ended, calls)) :
    ∃ begun, UnitsRun engine options discipline context d units ended begun calls := by
  induction units generalizing schedules context d ended calls with
  | nil =>
    cases h
    exact ⟨[], .nil⟩
  | cons unit rest ih =>
    rw [List.flatten_cons, List.map_append, List.nodup_append] at hn
    unfold WorkflowEngine.runUnits at h
    split at h
    · cases h
    · cases h
    · rename_i results unitCalls hrun
      obtain ⟨begun, hunit⟩ := runUnit_unitRun hn.1 hrun
      simp only at h
      split at h
      · rename_i stopping hstop
        cases h
        exact ⟨begun, .stop hunit hstop⟩
      · rename_i hgo
        obtain ⟨⟨ended', more⟩, hrest, heq⟩ := Option.map_eq_some_iff.mp h
        cases heq
        obtain ⟨begun', hrest'⟩ := ih hn.2.1 hrest
        exact ⟨begun ++ begun', .next hunit hgo hrest'⟩

-- ---------------------------------------------------------------------------
-- The report
-- ---------------------------------------------------------------------------

def stoppingError (step : WorkflowStep) (result : ExecutionResult) : Str :=
  lit "Step " ++ pyRepr step.name ++ lit " failed: " ++ result.error.getD (lit "None")

theorem stoppingError_ok (step : WorkflowStep) (result : ExecutionResult) :
    blank (stoppingError step result) = false := by
  unfold stoppingError
  simp only [List.append_assoc]
  exact blank_append_left (by decide) _

def report : UnitsEnd → WorkflowResult
  | (stepResults, some (step, result)) =>
    ⟨false, stepResults, some (stoppingError step result), some step.name,
      fun _ => stoppingError_ok step result, nofun, nofun⟩
  | (stepResults, none) =>
    ⟨true, stepResults, none, none, nofun, fun _ => rfl, fun _ => rfl⟩

def closingEvent (workflow : Workflow) : UnitsEnd → Event
  | (_, some (step, result)) => .workflowFailed workflow.workflowId workflow.definition.name
    (stoppingError step result) (some step.name)
  | (stepResults, none) => .workflowCompleted workflow.workflowId workflow.definition.name
    stepResults.keys.length

theorem finish_eq (workflow : Workflow) (ended : UnitsEnd) :
    engine.finish workflow ended = (do
      tell .publish engine.eventBus (closingEvent workflow ended)
      engine.remember workflow (report ended)
      pure (report ended)) := by
  obtain ⟨stepResults, _ | ⟨step, result⟩⟩ := ended
  · simp only [WorkflowEngine.finish, WorkflowResult.new_completed]
    rfl
  · have hnew := WorkflowResult.new_stopped stepResults step.name (stoppingError_ok step result)
    simp only [stoppingError] at hnew
    simp only [WorkflowEngine.finish, hnew]
    rfl

theorem remember_only_own (workflow : Workflow) (result : WorkflowResult) :
    (engine.remember workflow result).Only WorkflowCall.Own := by
  unfold WorkflowEngine.remember
  split
  · exact .pure ()
  · exact .bind (.lift _) fun entry =>
      .bind (.attempt (.call (WorkflowCall.own_remember entry) _)) fun _ => .pure ()

theorem finish_only_own (workflow : Workflow) (ended : UnitsEnd) :
    (engine.finish workflow ended).Only WorkflowCall.Own := by
  rw [finish_eq]
  exact .bind (tell_only (WorkflowCall.own_publish _) _) fun _ =>
    .bind (remember_only_own workflow _) fun _ => .pure _

variable (engine) in
theorem finish_spec (workflow : Workflow) (ended : UnitsEnd) (log : List WorkflowCall) :
    ∃ new, ((engine.finish workflow ended).exec log).2 = log ++ new ∧
      (∀ c ∈ new, c.Own) ∧
      ∀ result, ((engine.finish workflow ended).exec log).1 = .ok result →
        result = report ended := by
  obtain ⟨new, hnew, hown⟩ := finish_only_own workflow ended log
  refine ⟨new, hnew, hown, fun result hresult => ?_⟩
  rw [finish_eq, exec_bind] at hresult
  split at hresult
  · rw [exec_bind] at hresult
    split at hresult
    · simpa [eq_comm] using hresult
    · cases hresult
  · cases hresult

def WorkflowEngine.recorded (engine : WorkflowEngine) (workflow : Workflow) : Except Exn Unit :=
  if engine.memory.isSome ∧ blank workflow.workflowId = true then
    .error (.raised .memoryError (lit "MemoryEntry.id must not be blank."))
  else .ok ()

theorem remember_fst (workflow : Workflow) (result : WorkflowResult) (log : List WorkflowCall) :
    ((engine.remember workflow result).exec log).1 = engine.recorded workflow := by
  unfold WorkflowEngine.recorded
  unfold WorkflowEngine.remember
  cases engine.memory with
  | none => rfl
  | some store =>
    simp only [Option.isSome_some, true_and]
    generalize hcontent : (if result.success = true then _ else _ : Str) = content
    have hc : blank content = false := by
      rw [← hcontent]
      split <;> simp only [List.append_assoc] <;> exact blank_append_left (by decide) _
    cases hid : blank workflow.workflowId with
    | true =>
      rw [exec_bind, exec_lift]
      simp [MemoryEntry.new, hid]
    | false =>
      rw [MemoryEntry.new_ok hid hc, exec_bind, exec_lift]
      rfl

/-- How a run closes depends on the event it closes with. -/
theorem finish_fst (workflow : Workflow) (ended : UnitsEnd) (log : List WorkflowCall) :
    ((engine.finish workflow ended).exec log).1 =
      (accepted engine.eventBus (closingEvent workflow ended)).bind fun _ =>
        (engine.recorded workflow).bind fun _ => .ok (report ended) := by
  have hrest (h : List WorkflowCall) :
      ((do engine.remember workflow (report ended); pure (report ended) :
        Program Exn WorkflowCall WorkflowResult).exec h).1 =
        (engine.recorded workflow).bind fun _ => .ok (report ended) := by
    rw [fst_bind (r := fun _ => .ok (report ended)) (fun _ _ => rfl), remember_fst]
  rw [finish_eq, fst_bind fun _ => hrest, tell_exec]

theorem opening_only (engine : WorkflowEngine) (workflow : Workflow)
    (options : WorkflowExecutionOptions) :
    Only WorkflowCall.Own (engine.opening workflow options) :=
  .bind (.lift _) fun _ => tell_only (WorkflowCall.own_publish _) _

/-- A returning run is a run of its units between calls of its own. -/
theorem run_unitsRun {workflow : Workflow} {schedules : List (List GroupAction)}
    {result : WorkflowResult} {calls : List WorkflowCall}
    (h : engine.run discipline workflow context options schedules = some (.ok result, calls)) :
    ∃ ended begun unitCalls opening closing,
      UnitsRun engine options discipline context Dict.empty
        (groupIntoUnits workflow.definition.steps options) ended begun unitCalls ∧
      result = report ended ∧ calls = opening ++ unitCalls ++ closing ∧
      ∀ c ∈ opening ++ closing, c.Own := by
  unfold WorkflowEngine.run at h
  obtain ⟨opening, hopening, hown⟩ := opening_only engine workflow options []
  split at h
  · cases h
  · rename_i calls' hexec
    rw [hexec] at hopening
    obtain rfl : calls' = opening := hopening
    obtain ⟨⟨outcome, unitCalls⟩, hunits, hclose⟩ := Option.map_eq_some_iff.mp h
    simp only at hclose
    cases outcome with
    | error exc =>
      rw [exec_bind, exec_lift] at hclose
      cases hclose
    | ok ended =>
      have hn : ((groupIntoUnits workflow.definition.steps options).flatten.map
          WorkflowStep.name).Nodup := by
        rw [groupIntoUnits_flatten]
        exact workflow.definition.steps_nodup
      obtain ⟨begun, hrun⟩ := runUnits_unitsRun hn hunits
      obtain ⟨closing, hclosing, hown', hreport⟩ :=
        finish_spec engine workflow ended (calls' ++ unitCalls)
      rw [exec_bind, exec_lift] at hclose
      simp only at hclose
      rw [hclose] at hclosing hreport
      refine ⟨ended, begun, unitCalls, calls', closing, hrun, hreport result rfl, hclosing, ?_⟩
      intro c hc
      exact (List.mem_append.mp hc).elim (hown c) (hown' c)

end

end MellivorKernel
