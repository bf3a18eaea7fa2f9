import MellivorKernel.Workflow.RunLaw

/-!
# Steps of a group that raise

Whatever the schedule and whatever the other steps of the group come to, what
the begun steps raised is raised by the run, in declared order, once they have
all finished (`raising_siblings`). Nothing of a later unit is called, and the
run is neither reported nor remembered.
-/

namespace MellivorKernel

open Python Foundation Program

-- ---------------------------------------------------------------------------
-- The end of a group
-- ---------------------------------------------------------------------------

/-- What the begun steps of a unit raised, in declared order. -/
def raisedIn (outcome : WorkflowStep → Except Exn ExecutionResult)
    (begun unit : List WorkflowStep) : List Exn :=
  unit.filterMap fun step =>
    if step.name ∈ begun.map WorkflowStep.name then raisedBy (outcome step) else none

section
variable {discipline : Discipline} {group : List WorkflowStep}
  {outcome : WorkflowStep → Except Exn ExecutionResult} {s : GroupState}

theorem mem_begunNames (hn : (group.map WorkflowStep.name).Nodup) {step : WorkflowStep}
    (hstep : step ∈ group) :
    step.name ∈ (s.begunSteps group).map WorkflowStep.name ↔ step ∈ s.begunSteps group := by
  constructor
  · intro hname
    obtain ⟨other, hother, hname⟩ := List.mem_map.mp hname
    rwa [← List.inj_on_of_nodup_map hn (begunSteps_subset other hother) hstep hname]
  · exact fun hb => List.mem_map_of_mem hb

theorem GroupInv.begun_finished (h : GroupInv discipline group outcome s) (hf : s.Final group)
    {i : Nat} (hi : i ∈ s.begun) : s.pool.phase i = .finished := by
  have hlt : i < group.length := by
    rw [← hf.1]
    by_contra hge
    rw [h.begun i, (h.idle i).mpr (not_lt.mp hge)] at hi
    cases hi
  exact (h.begun_iff_finished hf hlt).mp hi

theorem GroupInv.raised_final (h : GroupInv discipline group outcome s)
    (hn : (group.map WorkflowStep.name).Nodup) (hf : s.Final group) {step : WorkflowStep}
    (hstep : step ∈ group) : s.raised.get? step.name =
      if step.name ∈ (s.begunSteps group).map WorkflowStep.name then raisedBy (outcome step)
      else none := by
  obtain ⟨i, hi⟩ := List.mem_iff_getElem?.mp hstep
  have hlt : i < group.length := (List.getElem?_eq_some_iff.mp hi).1
  rw [h.raised i step hi]
  simp only [mem_begunNames hn hstep, mem_begunSteps hn hi, h.begun_iff_finished hf hlt,
    hf.2.2 i hlt, true_and]

theorem GroupInv.raised_eq_nil (h : GroupInv discipline group outcome s)
    (hn : (group.map WorkflowStep.name).Nodup) (hf : s.Final group) :
    s.raised.entries = [] ↔ raisedIn outcome (s.begunSteps group) group = [] := by
  constructor
  · intro hempty
    refine List.filterMap_eq_nil_iff.mpr fun step hstep => ?_
    rw [← h.raised_final hn hf hstep]
    exact Dict.get?_eq_none.mpr (by simp [Dict.keys, hempty])
  · intro hempty
    by_contra hentries
    obtain ⟨entry, hentry⟩ := List.exists_mem_of_ne_nil _ hentries
    obtain ⟨step, hstep, hname⟩ := h.raised_keys entry.1 (List.mem_map_of_mem hentry)
    have hget := List.filterMap_eq_nil_iff.mp hempty step hstep
    rw [← h.raised_final hn hf hstep, hname, Dict.get?_eq_some.mpr hentry] at hget
    cases hget

theorem GroupInv.results_eq (h : GroupInv discipline group outcome s)
    (hn : (group.map WorkflowStep.name).Nodup) (hf : s.Final group) :
    s.results group = match raisedIn outcome (s.begunSteps group) group with
      | [] => .ok (Dict.collect WorkflowStep.name (fun step => s.completed.get? step.name) group)
      | [exc] => .error exc
      | raised => .error (.group
          (decimal raised.length ++ lit " step(s) in a parallel group raised.") raised) := by
  have hdeclared : group.filterMap (fun step => s.raised.get? step.name) =
      raisedIn outcome (s.begunSteps group) group :=
    List.filterMap_congr fun step hstep => h.raised_final hn hf hstep
  have hnone := h.raised_eq_nil hn hf
  unfold GroupState.results
  rw [hdeclared]
  cases hraised : raisedIn outcome (s.begunSteps group) group with
  | nil => rw [if_neg (not_not.mpr (hnone.mpr hraised))]
  | cons exc more =>
    rw [if_pos fun hentries => by simp [hnone.mp hentries] at hraised]
    cases more <;> rfl

end

-- ---------------------------------------------------------------------------
-- A run that comes to a unit
-- ---------------------------------------------------------------------------

/-- The unit of one step that `_run_unit` runs without a pool. -/
def ranInline [Printing] (options : WorkflowExecutionOptions) : List WorkflowStep → Bool
  | [step] => !isExplicitlyParallel step.name options
  | _ => false

def WorkflowCall.closing : WorkflowCall → Bool
  | .publish (.workflowCompleted ..) | .publish (.workflowFailed ..) | .remember _ => true
  | _ => false

theorem closing_of_step {c : WorkflowCall} {name : Str} (h : c.step? = some name) :
    c.closing = false := by
  cases c with
  | publish | remember => cases h
  | _ => rfl

section
variable [Printing] {engine : WorkflowEngine} {discipline : Discipline}
  {options : WorkflowExecutionOptions} {context : WorkflowContext}

theorem opening_calls {workflow : Workflow} {opened : List WorkflowCall}
    (h : (engine.opening workflow options).exec [] = (.ok (), opened)) :
    ∀ c ∈ opened, c.closing = false ∧ c.step? = none := by
  unfold WorkflowEngine.opening at h
  rw [exec_bind, exec_lift] at h
  split at h
  · rename_i hvalid
    obtain ⟨-, rfl⟩ := Prod.mk.inj hvalid
    rw [tell_exec] at h
    obtain ⟨-, rfl⟩ := Prod.mk.inj h
    unfold told
    split <;> simp [WorkflowCall.closing, WorkflowCall.step?]
  · cases h

theorem runUnit_parallel {unit : List WorkflowStep} (h : ranInline options unit = false)
    (schedule : List GroupAction) :
    engine.runUnit discipline options unit context schedule =
      engine.runParallelGroup discipline options unit context schedule := by
  unfold WorkflowEngine.runUnit
  split
  · rename_i step
    have hparallel : isExplicitlyParallel step.name options = true := by simpa [ranInline] using h
    rw [if_pos hparallel]
  · rfl

/-- The context a unit runs in: the first has that of the run. -/
def contextAfter (context : WorkflowContext) (earlier : List (List WorkflowStep))
    (stepResults : Dict Str ExecutionResult) : WorkflowContext :=
  if earlier = [] then context else { context with stepResults }

theorem runUnits_append {earlier rest : List (List WorkflowStep)}
    {schedules : List (List GroupAction)} {d d' : Dict Str ExecutionResult}
    {made : List WorkflowCall}
    (h : engine.runUnits discipline options earlier schedules context d =
      some (.ok (d', none), made)) :
    engine.runUnits discipline options (earlier ++ rest) schedules context d =
      (engine.runUnits discipline options rest (schedules.drop earlier.length)
        (contextAfter context earlier d') d').map fun (ended, more) => (ended, made ++ more) := by
  induction earlier generalizing schedules context d made with
  | nil =>
    cases h
    simp [contextAfter]
  | cons unit earlier ih =>
    rw [List.cons_append, WorkflowEngine.runUnits]
    rw [WorkflowEngine.runUnits] at h
    split at h
    · cases h
    · cases h
    · rename_i results unitCalls hunit
      simp only at h ⊢
      split at h
      · cases h
      · rename_i hgo
        obtain ⟨⟨ended, more⟩, hrest, heq⟩ := Option.map_eq_some_iff.mp h
        cases heq
        have hcontext : contextAfter { context with stepResults := d.update results } earlier d' =
            contextAfter context (unit :: earlier) d' := by
          cases earlier with
          | nil =>
            cases hrest
            rfl
          | cons => rfl
        simp [ih hrest, hcontext, Function.comp_def]

/-- The run comes to a unit: what is before it is called, and neither raises
nor stops the run. -/
structure Reached (engine : WorkflowEngine) (discipline : Discipline) (workflow : Workflow)
    (context : WorkflowContext) (options : WorkflowExecutionOptions)
    (schedules : List (List GroupAction)) (earlier : List (List WorkflowStep))
    (unit : List WorkflowStep) (later : List (List WorkflowStep)) (d : Dict Str ExecutionResult)
    (before : List WorkflowCall) : Prop where
  units : groupIntoUnits workflow.definition.steps options = earlier ++ unit :: later
  run : ∃ opened made, (engine.opening workflow options).exec [] = (.ok (), opened) ∧
    engine.runUnits discipline options earlier schedules context Dict.empty =
      some (.ok (d, none), made) ∧ before = opened ++ made

section
variable {workflow : Workflow} {schedules : List (List GroupAction)}
  {earlier later : List (List WorkflowStep)} {unit : List WorkflowStep}
  {d : Dict Str ExecutionResult} {before calls : List WorkflowCall}

theorem Reached.nodup
    (h : Reached engine discipline workflow context options schedules earlier unit later d before) :
    (earlier.flatten.map WorkflowStep.name ++
      (unit.map WorkflowStep.name ++ later.flatten.map WorkflowStep.name)).Nodup := by
  have hall := workflow.definition.steps_nodup
  rw [← groupIntoUnits_flatten workflow.definition.steps options, h.units] at hall
  simpa using hall

theorem Reached.run_raises
    (h : Reached engine discipline workflow context options schedules earlier unit later d before)
    {exc : Exn} (hunit : engine.runUnit discipline options unit (contextAfter context earlier d)
      ((schedules.drop earlier.length).headD []) = some (.error exc, calls)) :
    engine.run discipline workflow context options schedules =
      some (.error exc, before ++ calls) := by
  obtain ⟨opened, made, hopened, hearlier, rfl⟩ := h.run
  rw [WorkflowEngine.run, hopened, h.units]
  simp only
  rw [runUnits_append hearlier, WorkflowEngine.runUnits, hunit]
  simp [exec_bind]

theorem Reached.calls_before
    (h : Reached engine discipline workflow context options schedules earlier unit later d before)
    {c : WorkflowCall} (hc : c ∈ before) : c.closing = false ∧
      ∀ name, c.step? = some name → name ∈ earlier.flatten.map WorkflowStep.name := by
  obtain ⟨opened, made, hopened, hearlier, rfl⟩ := h.run
  rcases List.mem_append.mp hc with hc | hc
  · obtain ⟨hclosing, hstep⟩ := opening_calls hopened c hc
    exact ⟨hclosing, by simp [hstep]⟩
  · obtain ⟨begun, hunits⟩ := runUnits_unitsRun (List.nodup_append.mp h.nodup).1 hearlier
    obtain ⟨step, hb, seen, hmem⟩ := hunits.call hc
    have hstep := ((stepRun_calls engine options seen step).mem hmem).1
    refine ⟨closing_of_step hstep, fun name hname => ?_⟩
    obtain rfl := Option.some.inj (hstep.symm.trans hname)
    exact List.mem_map_of_mem (hunits.begun_subset hb)

/-- What becomes of the begun steps of a parallel unit that the run comes to,
at the end of the unit's schedule. -/
structure Surfaced (engine : WorkflowEngine) (discipline : Discipline) (workflow : Workflow)
    (context : WorkflowContext) (options : WorkflowExecutionOptions)
    (schedules : List (List GroupAction)) (earlier : List (List WorkflowStep))
    (unit : List WorkflowStep) (later : List (List WorkflowStep)) (seen : WorkflowContext)
    (before : List WorkflowCall) (s : GroupState) (raised : List Exn) (calls : List WorkflowCall) :
    Prop where
  finished : ∀ i ∈ s.begun, s.pool.phase i = .finished
  one : ∀ exc, raised = [exc] →
    engine.run discipline workflow context options schedules = some (.error exc, before ++ calls)
  more : 2 ≤ raised.length → ∃ message,
    engine.run discipline workflow context options schedules =
      some (.error (.group message raised), before ++ calls)
  unreported : ∀ c ∈ before ++ calls, c.closing = false
  later : ∀ c ∈ before ++ calls, ∀ step ∈ later.flatten, c.step? ≠ some step.name
  returned : raised = [] → ∃ results,
    engine.runUnit discipline options unit seen ((schedules.drop earlier.length).headD []) =
      some (.ok results, calls) ∧
    results.keys = (unit.map WorkflowStep.name).filter
      (· ∈ (s.begunSteps unit).map WorkflowStep.name) ∧
    ∀ step ∈ s.begunSteps unit, ∃ result,
      (engine.stepRun options seen step).1 = .ok result ∧ results.get? step.name = some result

/-- Whatever the schedule, what the begun steps of a parallel unit raise is
raised by the run: one exception as it is, several as a group in declared
order. Where none raises, the unit returns what the begun steps returned. -/
theorem raising_siblings
    (h : Reached engine discipline workflow context options schedules earlier unit later d before)
    (hparallel : ranInline options unit = false) {s : GroupState}
    (hrun : runSteps (GroupState.step discipline (engine.maxWorkers unit) unit
        fun step => (engine.stepRun options (contextAfter context earlier d) step).1)
      GroupState.start ((schedules.drop earlier.length).headD []) = some s)
    (hfinal : s.Final unit) :
    Surfaced engine discipline workflow context options schedules earlier unit later
      (contextAfter context earlier d) before s
      (raisedIn (fun step => (engine.stepRun options (contextAfter context earlier d) step).1)
        (s.begunSteps unit) unit)
      ((s.begunSteps unit).flatMap fun step =>
        (engine.stepRun options (contextAfter context earlier d) step).2) := by
  obtain ⟨-, hn, hdisjoint⟩ := List.nodup_append.mp h.nodup
  obtain ⟨hunit, -, hlater⟩ := List.nodup_append.mp hn
  have hinv := GroupInv.run hunit hrun
  have hresults : engine.runUnit discipline options unit (contextAfter context earlier d)
      ((schedules.drop earlier.length).headD []) = some (s.results unit,
        (s.begunSteps unit).flatMap fun step =>
          (engine.stepRun options (contextAfter context earlier d) step).2) := by
    rw [runUnit_parallel hparallel]
    unfold WorkflowEngine.runParallelGroup
    simp only [hrun, hfinal, if_true]
  rw [hinv.results_eq hunit hfinal] at hresults
  have hcall {c : WorkflowCall} (hc : c ∈ (s.begunSteps unit).flatMap fun step =>
      (engine.stepRun options (contextAfter context earlier d) step).2) :
      ∃ step ∈ unit, c.step? = some step.name := by
    obtain ⟨step, hb, hmem⟩ := List.mem_flatMap.mp hc
    exact ⟨step, begunSteps_subset step hb, ((stepRun_calls engine options _ step).mem hmem).1⟩
  refine ⟨fun i hi => ?_, fun exc hraised => ?_, fun hraised => ?_, fun c hc => ?_,
    fun c hc step hstep hname => ?_, fun hraised => ?_⟩
  · exact hinv.begun_finished hfinal hi
  · rw [hraised] at hresults
    exact h.run_raises hresults
  · generalize raisedIn _ _ unit = raised at hraised hresults ⊢
    match raised, hraised with
    | _ :: _ :: _, _ => exact ⟨_, h.run_raises hresults⟩
  · rcases List.mem_append.mp hc with hc | hc
    · exact (h.calls_before hc).1
    · obtain ⟨step, -, hstep⟩ := hcall hc
      exact closing_of_step hstep
  · have hmem : step.name ∈ later.flatten.map WorkflowStep.name := List.mem_map_of_mem hstep
    rcases List.mem_append.mp hc with hc | hc
    · exact hdisjoint _ ((h.calls_before hc).2 _ hname) _ (List.mem_append_right _ hmem) rfl
    · obtain ⟨other, hother, hstep⟩ := hcall hc
      rw [hname] at hstep
      exact hlater _ (List.mem_map_of_mem hother) _ hmem (Option.some.inj hstep).symm
  · rw [hraised] at hresults
    have hends := hinv.unitRun hunit hfinal ((hinv.raised_eq_nil hunit hfinal).mpr hraised)
    exact ⟨_, hresults, hends.keys, hends.returned⟩

end

end

-- ---------------------------------------------------------------------------
-- Two steps that raise, the second first
-- ---------------------------------------------------------------------------

def thirdStep : WorkflowStep := { firstStep with name := lit "third", name_ok := by decide }

def clashWorkflow : Workflow where
  definition := {
    name := lit "clash"
    steps := [firstStep, secondStep, thirdStep]
    name_ok := by decide
    steps_nodup := by decide }
  workflowId := lit "w1"

def crash (name : String) : Exn := .raised .executionError (lit name)

theorem two_workers : ∀ m ∈ some 2, 0 < m := by simp

/-- An engine whose steps raise, the one named `third` excepted. -/
def clashEngine : WorkflowEngine where
  executionEngine step _ _ _ :=
    if step.name = lit "first" then .error (crash "first")
    else if step.name = lit "second" then .error (crash "second")
    else .ok ⟨true, some [], none, 0, [], outcomeOk_instant⟩
  memory := none
  eventBus := some fun _ => .ok ()
  maxConcurrency := some 2
  maxConcurrency_ok := two_workers
  clock _ := ZonedDateTime.epoch
  now := DateTime.epoch

def clashSchedule : List GroupAction :=
  [.submit, .submit, .take 0, .take 1, .finish 1, .yield 1, .finish 0, .yield 0]

theorem clash_reached : @Reached plainPrinting clashEngine .any clashWorkflow pairContext pairOptions
    [clashSchedule] [] [firstStep, secondStep] [[thirdStep]] Dict.empty
    [.publish (.workflowStarted (lit "w1") (lit "clash"))] :=
  @Reached.mk plainPrinting _ _ _ _ _ _ _ _ _ _ _ rfl ⟨_, _, rfl, rfl, rfl⟩

theorem clash_surfaces : ∃ message calls,
    @WorkflowEngine.run plainPrinting clashEngine .any clashWorkflow pairContext pairOptions
      [clashSchedule] = some (.error (.group message [crash "first", crash "second"]), calls) := by
  let _ : Printing := plainPrinting
  obtain ⟨message, hmore⟩ := (@raising_siblings plainPrinting clashEngine .any pairOptions
    pairContext clashWorkflow [clashSchedule] [] [[thirdStep]] [firstStep, secondStep] Dict.empty
    [.publish (.workflowStarted (lit "w1") (lit "clash"))] clash_reached rfl _ rfl (by decide)).more
      (by decide)
  exact ⟨message, _, hmore⟩

end MellivorKernel
