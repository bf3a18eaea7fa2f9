import MellivorKernel.Workflow.RunLaw

/-!
# Parallel runs refine sequential ones

When workers take tasks first in, first out and a step's result depends only
on the results of earlier units, emptying `parallel_groups` does not change
how a run ends (`parallel_refines_sequential`): whatever is cancelled in a
group was declared after a step that stops the sequential run too.
-/

namespace MellivorKernel

open Python Foundation Program

/-- How a parallel run's end relates to the sequential run's. -/
structure EndRefines (steps : List WorkflowStep) (parallel sequential : UnitsEnd) : Prop where
  stop : parallel.2 = sequential.2
  contains : ∀ name r, sequential.1.get? name = some r → parallel.1.get? name = some r
  equal : parallel.2 = none → parallel.1 = sequential.1
  earlier : ∀ step r, parallel.2 = some (step, r) → ∃ before after,
    steps = before ++ step :: after ∧ ∀ t ∈ before, ∃ r', parallel.1.get? t.name = some r'

/-- The results of steps run one after the other, on top of `d`. -/
def record (value : WorkflowStep → ExecutionResult) (d : Dict Str ExecutionResult)
    (steps : List WorkflowStep) : Dict Str ExecutionResult :=
  steps.foldl (fun d step => d.set step.name (value step)) d

theorem record_entries {value : WorkflowStep → ExecutionResult} {d : Dict Str ExecutionResult}
    {steps : List WorkflowStep} (hn : (d.keys ++ steps.map WorkflowStep.name).Nodup) :
    (record value d steps).entries =
      d.entries ++ steps.map fun step => (step.name, value step) := by
  have hkeys : (steps.map fun step => (step.name, value step)).map Prod.fst =
      steps.map WorkflowStep.name := by
    rw [List.map_map]
    rfl
  have h := Dict.foldl_set_entries (steps.map fun step => (step.name, value step)) d (by rwa [hkeys])
  rwa [List.foldl_map] at h

section
variable [Printing] {engine : WorkflowEngine} {discipline : Discipline}
  {options : WorkflowExecutionOptions}

-- ---------------------------------------------------------------------------
-- The sequential run
-- ---------------------------------------------------------------------------

theorem runUnits_single (step : WorkflowStep) (rest : List (List WorkflowStep))
    (schedules : List (List GroupAction)) (context : WorkflowContext)
    (d : Dict Str ExecutionResult) {result : ExecutionResult}
    (h : (engine.stepRun options context step).1 = .ok result) :
    engine.runUnits discipline options.ungrouped ([step] :: rest) schedules context d =
      if step.StoppedBy result then
        some (.ok (d.set step.name result, some (step, result)),
          (engine.stepRun options context step).2)
      else
        (engine.runUnits discipline options.ungrouped rest schedules.tail
          { context with stepResults := d.set step.name result } (d.set step.name result)).map
          fun (ended, more) => (ended, (engine.stepRun options context step).2 ++ more) := by
  have hpair : engine.stepRun options.ungrouped context step =
      (.ok result, (engine.stepRun options context step).2) := Prod.ext h rfl
  rw [runUnits_inline, hpair]

/-- What the steps of a unit give in every context that agrees with `d₀` on
the steps of earlier units. -/
def Gives (engine : WorkflowEngine) (options : WorkflowExecutionOptions) (E : ExecutionContext)
    (earlier : List Str) (d₀ : Dict Str ExecutionResult) (unit : List WorkflowStep)
    (value : WorkflowStep → ExecutionResult) : Prop :=
  ∀ step ∈ unit, ∀ context : WorkflowContext, context.executionContext = E →
    (∀ name ∈ earlier, context.stepResults.get? name = d₀.get? name) →
    (engine.stepRun options context step).1 = .ok (value step)

section
variable {E : ExecutionContext} {earlier : List Str} {d₀ : Dict Str ExecutionResult}
  {value : WorkflowStep → ExecutionResult}

variable (discipline) in
theorem runUnits_pass {unit : List WorkflowStep} (rest : List WorkflowStep)
    (hgives : Gives engine options E earlier d₀ unit value)
    (hgo : ∀ step ∈ unit, ¬ step.StoppedBy (value step))
    (hunit : ∀ step ∈ unit, step.name ∉ earlier) (schedules : List (List GroupAction))
    (context : WorkflowContext) (d : Dict Str ExecutionResult)
    (hE : context.executionContext = E)
    (hc : ∀ name ∈ earlier, context.stepResults.get? name = d₀.get? name)
    (hd : ∀ name ∈ earlier, d.get? name = d₀.get? name) :
    ∃ schedules' context' calls,
      engine.runUnits discipline options.ungrouped ((unit ++ rest).map ([·])) schedules context d =
        (engine.runUnits discipline options.ungrouped (rest.map ([·])) schedules' context'
          (record value d unit)).map (fun (ended, more) => (ended, calls ++ more)) ∧
      context'.executionContext = E ∧
      (∀ name ∈ earlier, context'.stepResults.get? name = d₀.get? name) ∧
      (∀ name ∈ earlier, (record value d unit).get? name = d₀.get? name) ∧
      (unit = [] ∧ context' = context ∨ context'.stepResults = record value d unit) := by
  induction unit generalizing schedules context d with
  | nil =>
    refine ⟨schedules, context, [], ?_, hE, hc, hd, .inl ⟨rfl, rfl⟩⟩
    simp only [List.nil_append, record, List.foldl_nil]
    exact (Option.map_id' ..).symm
  | cons step unit ih =>
    have hset : ∀ name ∈ earlier, (d.set step.name (value step)).get? name = d₀.get? name := by
      intro name hname
      have hne : name ≠ step.name := by
        rintro rfl
        exact hunit step (by simp) hname
      rw [Dict.get?_set_ne _ hne, hd name hname]
    obtain ⟨schedules', context', calls, hrun, hE', hc', hd', hlast⟩ :=
      ih (fun s hs => hgives s (List.mem_cons_of_mem _ hs))
        (fun s hs => hgo s (List.mem_cons_of_mem _ hs))
        (fun s hs => hunit s (List.mem_cons_of_mem _ hs)) schedules.tail
        { context with stepResults := d.set step.name (value step) } (d.set step.name (value step))
        hE hset hset
    refine ⟨schedules', context', (engine.stepRun options context step).2 ++ calls, ?_, hE', hc',
      hd', ?_⟩
    · rw [List.cons_append, List.map_cons,
        runUnits_single step _ _ _ _ (hgives step (by simp) context hE hc),
        if_neg (hgo step (by simp)), hrun, Option.map_map]
      congr 1
      funext p
      simp
    · rcases hlast with ⟨rfl, rfl⟩ | hlast
      · exact .inr rfl
      · exact .inr hlast

variable (discipline) in
theorem runUnits_stop {before : List WorkflowStep} {step : WorkflowStep}
    (after rest : List WorkflowStep)
    (hgives : Gives engine options E earlier d₀ (before ++ [step]) value)
    (hgo : ∀ s ∈ before, ¬ s.StoppedBy (value s)) (hstop : step.StoppedBy (value step))
    (hunit : ∀ s ∈ before, s.name ∉ earlier) (schedules : List (List GroupAction))
    (context : WorkflowContext) (d : Dict Str ExecutionResult)
    (hE : context.executionContext = E)
    (hc : ∀ name ∈ earlier, context.stepResults.get? name = d₀.get? name)
    (hd : ∀ name ∈ earlier, d.get? name = d₀.get? name) :
    ∃ calls, engine.runUnits discipline options.ungrouped
        ((before ++ step :: after ++ rest).map ([·])) schedules context d =
      some (.ok (record value d (before ++ [step]), some (step, value step)), calls) := by
  obtain ⟨schedules', context', calls, hrun, hE', hc', hd', -⟩ :=
    runUnits_pass discipline (step :: after ++ rest)
      (fun s hs => hgives s (List.mem_append_left _ hs)) hgo hunit schedules context d hE hc hd
  rw [List.append_assoc, hrun, List.cons_append, List.map_cons,
    runUnits_single step _ _ _ _ (hgives step (by simp) context' hE' hc'), if_pos hstop]
  exact ⟨calls ++ (engine.stepRun options context' step).2, by simp [record]⟩

end

-- ---------------------------------------------------------------------------
-- The simulation
-- ---------------------------------------------------------------------------

/-- Every step returns, and what it returns is a function of the step and of
the results of earlier units. `earlier` names the steps of units before the
ones at hand. -/
structure Determined (engine : WorkflowEngine) (options : WorkflowExecutionOptions)
    (E : ExecutionContext) (earlier : List Str) (units : List (List WorkflowStep)) : Prop where
  returns : ∀ step ∈ units.flatten, ∀ context : WorkflowContext, context.executionContext = E →
    ∃ r, (engine.stepRun options context step).1 = .ok r
  depends : ∀ before unit after, units = before ++ unit :: after → ∀ step ∈ unit,
    ∀ c c' : WorkflowContext, c.executionContext = E → c'.executionContext = E →
      (∀ name ∈ earlier ++ before.flatten.map WorkflowStep.name,
        c.stepResults.get? name = c'.stepResults.get? name) →
      (engine.stepRun options c step).1 = (engine.stepRun options c' step).1

section
variable {E : ExecutionContext} {earlier : List Str} {units : List (List WorkflowStep)}

theorem Determined.tail {unit : List WorkflowStep}
    (h : Determined engine options E earlier (unit :: units)) :
    Determined engine options E (earlier ++ unit.map WorkflowStep.name) units where
  returns step hstep := h.returns step (by simp [List.mem_flatten.mp hstep])
  depends before unit' after hsplit step hstep c c' hc hc' hagree :=
    h.depends (unit :: before) unit' after (by rw [hsplit]; rfl) step hstep c c' hc hc'
      (by simpa [List.append_assoc] using hagree)

theorem Determined.gives {unit : List WorkflowStep}
    (h : Determined engine options E earlier (unit :: units)) {context : WorkflowContext}
    (hE : context.executionContext = E) {d : Dict Str ExecutionResult}
    (hc : ∀ name ∈ earlier, context.stepResults.get? name = d.get? name) :
    ∃ value, Gives engine options E earlier d unit value ∧
      ∀ step ∈ unit, (engine.stepRun options context step).1 = .ok (value step) := by
  have hall : ∀ step, ∃ r, step ∈ unit → (engine.stepRun options context step).1 = .ok r := by
    intro step
    by_cases hstep : step ∈ unit
    · obtain ⟨r, hr⟩ := h.returns step (by simp [hstep]) context hE
      exact ⟨r, fun _ => hr⟩
    · exact ⟨⟨true, none, none, 0, [], outcomeOk_instant⟩, fun h => absurd h hstep⟩
  choose value hvalue using hall
  refine ⟨value, fun step hstep c hcE hcd => ?_, hvalue⟩
  rw [← hvalue step hstep]
  refine h.depends [] unit units rfl step hstep c context hcE hE fun name hname => ?_
  have hname : name ∈ earlier := by simpa using hname
  rw [hcd name hname, hc name hname]

/-- Up to the first recorded stopping failure of a unit every step was begun:
a cancelled step would be behind an earlier one. -/
theorem UnitRun.begun_before {context : WorkflowContext} {unit begun : List WorkflowStep}
    {results : Dict Str ExecutionResult} {calls : List WorkflowCall}
    (h : UnitRun engine options .fifo context unit begun results calls)
    {before after : List WorkflowStep} {step : WorkflowStep} (hsplit : unit = before ++ step :: after)
    (hbefore : ∀ s ∈ before, ∀ r, results.get? s.name = some r → ¬ s.StoppedBy r) :
    ∀ s ∈ before, s ∈ begun := by
  intro s hs
  by_contra hnot
  obtain ⟨first, stopping, last, r, hsplit', hb, ho, hstop, hfirst⟩ :=
    h.left s (by rw [hsplit]; exact List.mem_append_left _ hs) hnot
  obtain ⟨r', ho', hget⟩ := h.returned stopping hb
  obtain rfl := Except.ok.inj (ho.symm.trans ho')
  have hout : stopping ∉ before := fun hmem => hbefore stopping hmem r hget hstop
  rcases List.append_eq_append_iff.mp (hsplit.symm.trans hsplit') with ⟨as, rfl, -⟩ | ⟨bs, rfl, hbs⟩
  · exact hnot (hfirst rfl s (List.mem_append_left _ hs))
  · cases bs with
    | nil => exact hnot (hfirst rfl s (by simpa using hs))
    | cons b bs =>
      obtain ⟨rfl, -⟩ := List.cons.inj hbs
      exact hout (by simp)

theorem UnitRun.update_eq_record {context : WorkflowContext} {unit begun : List WorkflowStep}
    {results d : Dict Str ExecutionResult} {calls : List WorkflowCall} {later : List Str}
    (h : UnitRun engine options discipline context unit begun results calls)
    (hn : (d.keys ++ (unit.map WorkflowStep.name ++ later)).Nodup)
    (hall : ∀ step ∈ unit, step ∈ begun) {value : WorkflowStep → ExecutionResult}
    (hvalue : ∀ step ∈ unit, results.get? step.name = some (value step)) :
    d.update results = record value d unit := by
  have hkeys : results.keys = unit.map WorkflowStep.name := by
    rw [h.keys]
    refine List.filter_eq_self.mpr fun name hname => ?_
    obtain ⟨step, hstep, rfl⟩ := List.mem_map.mp hname
    exact decide_eq_true (List.mem_map_of_mem (hall step hstep))
  refine Dict.ext ?_
  rw [Dict.entries_update d results (h.fresh hn), Dict.entries_eq_map hkeys hvalue, record_entries]
  rw [← List.append_assoc] at hn
  exact (List.nodup_append.mp hn).1

theorem UnitRun.recorded {context : WorkflowContext} {unit begun : List WorkflowStep}
    {results : Dict Str ExecutionResult} {calls : List WorkflowCall}
    (h : UnitRun engine options discipline context unit begun results calls)
    {value : WorkflowStep → ExecutionResult} {step : WorkflowStep}
    (hvalue : (engine.stepRun options context step).1 = .ok (value step)) (hstep : step ∈ begun) :
    results.get? step.name = some (value step) := by
  obtain ⟨r, ho, hr⟩ := h.returned step hstep
  rw [hr, Except.ok.inj (hvalue.symm.trans ho)]

section
variable {context context' : WorkflowContext} {d results : Dict Str ExecutionResult}
  {unit begun : List WorkflowStep} {calls : List WorkflowCall}
  {value : WorkflowStep → ExecutionResult}

variable (discipline) in
theorem UnitRun.sequential_stop {stopping : WorkflowStep × ExecutionResult}
    (hunit : UnitRun engine options .fifo context unit begun results calls)
    (hstop : firstStoppingFailure unit results = some stopping)
    (hgives : Gives engine options E earlier d unit value)
    (hvalue : ∀ step ∈ unit, (engine.stepRun options context step).1 = .ok (value step))
    (rest : List WorkflowStep)
    (hn : (d.keys ++ (unit.map WorkflowStep.name ++ rest.map WorkflowStep.name)).Nodup)
    (hfresh : ∀ step ∈ unit, step.name ∉ earlier) (schedules : List (List GroupAction))
    (hE' : context'.executionContext = E)
    (hc' : ∀ name ∈ earlier, context'.stepResults.get? name = d.get? name) :
    ∃ ended' calls',
      engine.runUnits discipline options.ungrouped ((unit ++ rest).map ([·])) schedules context' d =
        some (.ok ended', calls') ∧
      EndRefines (unit ++ rest) (d.update results, some stopping) ended' := by
  obtain ⟨step, result⟩ := stopping
  obtain ⟨before, after, rfl, hget, hfail, hbefore⟩ := firstStoppingFailure_eq_some hstop
  obtain ⟨-, hrun⟩ :=
    hunit.lookup (List.nodup_append.mp (List.nodup_append.mp hn).2.1).1 (by simp) hget
  obtain rfl : value step = result :=
    Except.ok.inj ((hvalue step (by simp)).symm.trans hrun)
  have hrecorded : ∀ s ∈ before, results.get? s.name = some (value s) := fun s hs =>
    hunit.recorded (hvalue s (by simp [hs])) (hunit.begun_before rfl hbefore s hs)
  have hfinal {s : WorkflowStep} (hs : s ∈ before ++ step :: after) :
      (d.update results).get? s.name = results.get? s.name :=
    hunit.get?_update hn hs
  obtain ⟨calls', hseq⟩ := runUnits_stop discipline after rest
    (fun s hs => hgives s (by simp at hs ⊢; tauto))
    (fun s hs => hbefore s hs _ (hrecorded s hs)) hfail
    (fun s hs => hfresh s (by simp [hs])) schedules context' d hE' hc' fun _ _ => rfl
  refine ⟨(record value d (before ++ [step]), some (step, value step)), calls', hseq, rfl, ?_,
    nofun, ?_⟩
  · intro name r hr
    have hsub : (d.keys ++ (before ++ [step]).map WorkflowStep.name).Nodup := by
      refine hn.sublist ((List.Sublist.refl _).append ?_)
      simp
    rw [Dict.get?_eq_some, record_entries hsub, List.mem_append] at hr
    rcases hr with hr | hr
    · rw [Dict.get?_update _ _ (hunit.fresh hn), Dict.get?_eq_some.mpr hr]
      rfl
    · obtain ⟨s, hs, hpair⟩ := List.mem_map.mp hr
      cases hpair
      rcases List.mem_append.mp hs with hs | hs
      · rw [hfinal (by simp [hs]), hrecorded s hs]
      · obtain rfl := List.mem_singleton.mp hs
        rw [hfinal (by simp), hget]
  · rintro s r heq
    cases heq
    refine ⟨before, after ++ rest, by simp, fun t ht => ⟨value t, ?_⟩⟩
    rw [hfinal (by simp [ht]), hrecorded t ht]

variable (discipline) in
/-- The sequential loop runs through a unit that the grouped one ran through,
and to a context that shows what the unit recorded. -/
theorem UnitRun.sequential_next
    (hunit : UnitRun engine options .fifo context unit begun results calls)
    (hgo : firstStoppingFailure unit results = none)
    (hgives : Gives engine options E earlier d unit value)
    (hvalue : ∀ step ∈ unit, (engine.stepRun options context step).1 = .ok (value step))
    (rest : List WorkflowStep)
    (hn : (d.keys ++ (unit.map WorkflowStep.name ++ rest.map WorkflowStep.name)).Nodup)
    (hfresh : ∀ step ∈ unit, step.name ∉ earlier) (schedules : List (List GroupAction))
    (hE' : context'.executionContext = E)
    (hc' : ∀ name ∈ earlier, context'.stepResults.get? name = d.get? name) :
    ∃ schedules' context'' passed,
      engine.runUnits discipline options.ungrouped ((unit ++ rest).map ([·])) schedules context' d =
        (engine.runUnits discipline options.ungrouped (rest.map ([·])) schedules' context''
          (d.update results)).map (fun (ended, more) => (ended, passed ++ more)) ∧
      context''.executionContext = E ∧
      ∀ name ∈ earlier ++ unit.map WorkflowStep.name,
        context''.stepResults.get? name = (d.update results).get? name := by
  have hall := hunit.all_begun hgo
  have hrecorded : ∀ s ∈ unit, results.get? s.name = some (value s) := fun s hs =>
    hunit.recorded (hvalue s hs) (hall s hs)
  rw [hunit.update_eq_record hn hall hrecorded]
  obtain ⟨schedules', context'', passed, hpass, hE'', hc'', hd'', hlast⟩ :=
    runUnits_pass discipline rest hgives
      (fun s hs => firstStoppingFailure_eq_none hgo s hs _ (hrecorded s hs)) hfresh schedules
      context' d hE' hc' fun _ _ => rfl
  refine ⟨schedules', context'', passed, hpass, hE'', fun name hname => ?_⟩
  rcases hlast with ⟨rfl, -⟩ | hlast
  · have hname : name ∈ earlier := by simpa using hname
    rw [hc'' name hname, hd'' name hname]
  · rw [hlast]

omit [Printing] in
theorem EndRefines.after {steps : List WorkflowStep} {parallel sequential : UnitsEnd}
    (h : EndRefines steps parallel sequential)
    (hunit : ∀ t ∈ unit, ∃ r, parallel.1.get? t.name = some r) :
    EndRefines (unit ++ steps) parallel sequential := by
  refine ⟨h.stop, h.contains, h.equal, fun step r heq => ?_⟩
  obtain ⟨before, after, hsplit, hb⟩ := h.earlier step r heq
  refine ⟨unit ++ before, after, by simp [hsplit], fun t ht => ?_⟩
  exact (List.mem_append.mp ht).elim (hunit t) (hb t)

end

variable (discipline) in
/-- Where the grouped loop ended, the sequential loop ends too. -/
theorem UnitsRun.sequential {context : WorkflowContext} {d : Dict Str ExecutionResult}
    {ended : UnitsEnd} {begun : List WorkflowStep} {calls : List WorkflowCall}
    (h : UnitsRun engine options .fifo context d units ended begun calls)
    (hdet : Determined engine options E earlier units)
    (hn : (d.keys ++ units.flatten.map WorkflowStep.name).Nodup)
    (hfresh : ∀ step ∈ units.flatten, step.name ∉ earlier)
    (hE : context.executionContext = E)
    (hc : ∀ name ∈ earlier, context.stepResults.get? name = d.get? name)
    (schedules : List (List GroupAction)) (context' : WorkflowContext)
    (hE' : context'.executionContext = E)
    (hc' : ∀ name ∈ earlier, context'.stepResults.get? name = d.get? name) :
    ∃ ended' calls',
      engine.runUnits discipline options.ungrouped (units.flatten.map ([·])) schedules context' d =
        some (.ok ended', calls') ∧ EndRefines units.flatten ended ended' := by
  induction h generalizing earlier context' schedules with
  | nil =>
    exact ⟨_, _, rfl, rfl, fun _ _ => id, fun _ => rfl, nofun⟩
  | @stop context d unit rest begun results calls stopping hunit hstop =>
    obtain ⟨value, hgives, hvalue⟩ := hdet.gives hE hc
    rw [List.flatten_cons, List.map_append] at hn
    exact hunit.sequential_stop discipline hstop hgives hvalue rest.flatten hn
      (fun s hs => hfresh s (by simp [hs])) schedules hE' hc'
  | @next context d unit rest begun results calls ended more moreCalls hunit hgo hrest ih =>
    obtain ⟨value, hgives, hvalue⟩ := hdet.gives hE hc
    obtain ⟨added, hadded, hsub⟩ := UnitsRun.entries_later hunit hn hrest
    have hother : ∀ s ∈ rest.flatten, s.name ∉ earlier ++ unit.map WorkflowStep.name := by
      intro s hs hmem
      rcases List.mem_append.mp hmem with hmem | hmem
      · exact hfresh s (by simp [List.mem_flatten.mp hs]) hmem
      · exact not_mem_unit hn hs hmem
    rw [List.flatten_cons, List.map_append] at hn
    obtain ⟨schedules', context'', passed, hpass, hE'', hseen⟩ :=
      hunit.sequential_next discipline hgo hgives hvalue rest.flatten hn
        (fun s hs => hfresh s (by simp [hs])) schedules hE' hc'
    obtain ⟨ended', calls', hseq, hrefines⟩ := ih hdet.tail (hunit.later_nodup hn) hother hE
      (fun _ _ => rfl) schedules' context'' hE'' hseen
    refine ⟨ended', passed ++ calls', ?_, hrefines.after fun t ht => ⟨value t, ?_⟩⟩
    · rw [List.flatten_cons, hpass, hseq]
      rfl
    · rw [hunit.get?_final hn hadded hsub ht,
        hunit.recorded (hvalue t ht) (hunit.all_begun hgo t ht)]

end

-- ---------------------------------------------------------------------------
-- Whole runs
-- ---------------------------------------------------------------------------

theorem runUnit_returns {context : WorkflowContext} {unit : List WorkflowStep}
    {schedule : List GroupAction} (hn : (unit.map WorkflowStep.name).Nodup)
    (hok : ∀ step ∈ unit, ∃ r, (engine.stepRun options context step).1 = .ok r)
    {outcome : Except Exn (Dict Str ExecutionResult)} {calls : List WorkflowCall}
    (h : engine.runUnit discipline options unit context schedule = some (outcome, calls)) :
    ∃ results, outcome = .ok results := by
  unfold WorkflowEngine.runUnit at h
  split at h
  · rename_i step
    split at h
    · exact runParallelGroup_returns hn hok h
    · obtain ⟨r, hr⟩ := hok step (by simp)
      have hpair : engine.stepRun options context step =
          (.ok r, (engine.stepRun options context step).2) := Prod.ext hr rfl
      rw [hpair] at h
      cases h
      exact ⟨_, rfl⟩
  · exact runParallelGroup_returns hn hok h

theorem runUnits_returns {E : ExecutionContext} {units : List (List WorkflowStep)}
    {schedules : List (List GroupAction)} {context : WorkflowContext}
    {d : Dict Str ExecutionResult} (hn : (units.flatten.map WorkflowStep.name).Nodup)
    (hE : context.executionContext = E)
    (hok : ∀ step ∈ units.flatten, ∀ c : WorkflowContext, c.executionContext = E →
      ∃ r, (engine.stepRun options c step).1 = .ok r)
    {outcome : Except Exn UnitsEnd} {calls : List WorkflowCall}
    (h : engine.runUnits discipline options units schedules context d = some (outcome, calls)) :
    ∃ ended, outcome = .ok ended := by
  induction units generalizing schedules context d outcome calls with
  | nil =>
    cases h
    exact ⟨_, rfl⟩
  | cons unit rest ih =>
    rw [List.flatten_cons, List.map_append, List.nodup_append] at hn
    unfold WorkflowEngine.runUnits at h
    split at h
    · cases h
    · rename_i exc unitCalls hrun
      obtain ⟨results, hres⟩ :=
        runUnit_returns hn.1 (fun step hs => hok step (by simp [hs]) context hE) hrun
      cases hres
    · simp only at h
      split at h
      · cases h
        exact ⟨_, rfl⟩
      · obtain ⟨⟨outcome', more⟩, hrest, heq⟩ := Option.map_eq_some_iff.mp h
        cases heq
        refine ih hn.2.1 ?_ (fun step hs => hok step ?_) hrest
        · exact hE
        · rw [List.flatten_cons]
          exact List.mem_append_right _ hs

theorem run_accepted {workflow : Workflow} {context : WorkflowContext}
    (hvalid : validateOptions workflow.definition.steps options = .ok ())
    (schedules : List (List GroupAction)) :
    engine.run discipline workflow context options schedules =
      let started := Event.workflowStarted workflow.workflowId workflow.definition.name
      let opening := told .publish engine.eventBus started
      match accepted engine.eventBus started with
      | .error exc => some (.error exc, opening)
      | .ok () => (engine.runUnits discipline options
          (groupIntoUnits workflow.definition.steps options) schedules context Dict.empty).map
            fun (ended, more) => (do engine.finish workflow (← lift ended)).exec (opening ++ more) := by
  unfold WorkflowEngine.run WorkflowEngine.opening
  simp only [hvalid]
  rw [exec_bind, exec_lift]
  cases hb : engine.eventBus with
  | none => rfl
  | some bus =>
    simp only [tell, accepted, told, exec_call, List.nil_append, Option.isSome_some, if_true]
    cases bus (.workflowStarted workflow.workflowId workflow.definition.name) <;> rfl

theorem validateOptions_eq_ok {steps : List WorkflowStep} {options : WorkflowExecutionOptions} :
    validateOptions steps options = .ok () ↔
      (∀ name ∈ options.requestResolvers.keys ++ options.notBefore.keys ++
        options.parallelGroups.flatten, name ∈ steps.map WorkflowStep.name) ∧
      ∀ group ∈ options.parallelGroups, contiguous (steps.map WorkflowStep.name) group = true := by
  unfold validateOptions
  simp only
  split
  · rename_i hsome
    rw [ne_eq, sorted_eq_nil, List.dedup_eq_nil, List.filter_eq_nil_iff] at hsome
    simp only [reduceCtorEq, false_iff]
    rintro ⟨hknown, -⟩
    exact hsome fun name hname => by simpa using hknown name hname
  · rename_i hnone
    rw [not_not, sorted_eq_nil, List.dedup_eq_nil, List.filter_eq_nil_iff] at hnone
    have hknown : ∀ name ∈ options.requestResolvers.keys ++ options.notBefore.keys ++
        options.parallelGroups.flatten, name ∈ steps.map WorkflowStep.name :=
      fun name hname => by simpa using hnone name hname
    rw [and_iff_right hknown, ← List.all_eq_true]
    split
    · rename_i hall
      exact iff_of_true rfl hall
    · rename_i hall
      simp [hall]

theorem validateOptions_ungrouped {steps : List WorkflowStep}
    (h : validateOptions steps options = .ok ()) :
    validateOptions steps options.ungrouped = .ok () := by
  refine validateOptions_eq_ok.mpr ⟨fun name hname => ?_, by simp [WorkflowExecutionOptions.ungrouped]⟩
  refine (validateOptions_eq_ok.mp h).1 name (List.mem_append_left _ ?_)
  simpa [WorkflowExecutionOptions.ungrouped] using hname

structure ResultRefines (steps : List WorkflowStep) (parallel sequential : WorkflowResult) : Prop where
  success : parallel.success = sequential.success
  error : parallel.error = sequential.error
  stoppedAt : parallel.stoppedAt = sequential.stoppedAt
  contains : ∀ name r, sequential.stepResults.get? name = some r →
    parallel.stepResults.get? name = some r
  earlier : ∀ name, parallel.stoppedAt = some name → ∃ before step after,
    steps = before ++ step :: after ∧ step.name = name ∧
    ∀ t ∈ before ++ [step], ∃ r, parallel.stepResults.get? t.name = some r
  equal : (∀ step ∈ steps, ∀ r, sequential.stepResults.get? step.name = some r →
    ¬ step.StoppedBy r) → parallel.stepResults = sequential.stepResults

theorem EndRefines.result {steps : List WorkflowStep} {parallel sequential : UnitsEnd}
    (h : EndRefines steps parallel sequential)
    (hstopped : ∀ step r, sequential.2 = some (step, r) → step ∈ steps ∧
      sequential.1.get? step.name = some r ∧ step.StoppedBy r) :
    ResultRefines steps (report parallel) (report sequential) := by
  have hstop := h.stop
  obtain ⟨results, stopping⟩ := parallel
  obtain ⟨results', stopping'⟩ := sequential
  cases hstop
  cases stopping with
  | none =>
    exact ⟨rfl, rfl, rfl, h.contains, nofun, fun _ => h.equal rfl⟩
  | some stopping =>
    obtain ⟨step, r⟩ := stopping
    obtain ⟨hmem, hget, hfail⟩ := hstopped step r rfl
    refine ⟨rfl, rfl, rfl, h.contains, ?_, fun hnone => absurd hfail (hnone step hmem r hget)⟩
    rintro name heq
    cases heq
    obtain ⟨before, after, hsplit, hb⟩ := h.earlier step r rfl
    refine ⟨before, step, after, hsplit, rfl, fun t ht => ?_⟩
    rcases List.mem_append.mp ht with ht | ht
    · exact hb t ht
    · obtain rfl := List.mem_singleton.mp ht
      exact ⟨r, h.contains _ _ hget⟩

theorem EndRefines.closes {workflow : Workflow} {steps : List WorkflowStep}
    {parallel sequential : UnitsEnd} (h : EndRefines steps parallel sequential) :
    closingEvent workflow parallel = closingEvent workflow sequential := by
  have hstop := h.stop
  have hequal := h.equal
  obtain ⟨results, stopping⟩ := parallel
  obtain ⟨results', stopping'⟩ := sequential
  cases hstop
  cases stopping with
  | none => rw [show results = results' from hequal rfl]
  | some stopping => rfl

theorem EndRefines.close {workflow : Workflow} {steps : List WorkflowStep}
    {parallel sequential : UnitsEnd} (h : EndRefines steps parallel sequential)
    (hstopped : ∀ step r, sequential.2 = some (step, r) → step ∈ steps ∧
      sequential.1.get? step.name = some r ∧ step.StoppedBy r) (log log' : List WorkflowCall) :
    let outcome := ((do engine.finish workflow (← lift (.ok parallel))).exec log).1
    let outcome' := ((do engine.finish workflow (← lift (.ok sequential))).exec log').1
    (∀ result, outcome = .ok result → ∃ result', outcome' = .ok result' ∧
      ResultRefines steps result result') ∧ ∀ exc, outcome = .error exc → outcome' = .error exc := by
  have hresult := h.result hstopped
  intro outcome outcome'
  have houtcome : outcome = _ := finish_fst workflow parallel log
  have houtcome' : outcome' = _ := finish_fst workflow sequential log'
  rw [houtcome, houtcome', ← h.closes]
  rcases accepted engine.eventBus (closingEvent workflow parallel) with exc | -
  · exact ⟨nofun, fun _ => id⟩
  · rcases engine.recorded workflow with exc | -
    · exact ⟨nofun, fun _ => id⟩
    · exact ⟨fun result heq => ⟨_, rfl, Except.ok.inj heq ▸ hresult⟩, nofun⟩

/-- Under first-in-first-out workers, for every schedule and concurrency limit,
a run with parallel groups ends as the run without them does, if every step's
result is a function of the step and of the results of earlier units. -/
theorem parallel_refines_sequential {workflow : Workflow} {context : WorkflowContext}
    (hvalid : validateOptions workflow.definition.steps options = .ok ())
    (hclock : ∀ step ∈ workflow.definition.steps, ∀ notBefore,
      options.notBefore.get? step.name = some notBefore →
        ∃ later, (engine.clock step).lessThan notBefore = .ok later)
    (hexecute : ∀ step ∈ workflow.definition.steps, ∀ request, ∃ r, engine.executionEngine step
      request context.executionContext step.grantedPermissions = .ok r)
    (hdepends : ∀ before unit after,
      groupIntoUnits workflow.definition.steps options = before ++ unit :: after → ∀ step ∈ unit,
        ∀ c c' : WorkflowContext, c.executionContext = context.executionContext →
          c'.executionContext = context.executionContext →
          (∀ earlier ∈ before.flatten,
            c.stepResults.get? earlier.name = c'.stepResults.get? earlier.name) →
          (engine.stepRun options c step).1 = (engine.stepRun options c' step).1)
    {schedules : List (List GroupAction)} {outcome : Except Exn WorkflowResult}
    {calls : List WorkflowCall}
    (h : engine.run .fifo workflow context options schedules = some (outcome, calls))
    (schedules' : List (List GroupAction)) :
    ∃ outcome' calls',
      engine.run discipline workflow context options.ungrouped schedules' =
        some (outcome', calls') ∧
      (∀ parallel, outcome = .ok parallel → ∃ sequential, outcome' = .ok sequential ∧
        ResultRefines workflow.definition.steps parallel sequential) ∧
      (∀ exc, outcome = .error exc → outcome' = .error exc) := by
  have hflat := groupIntoUnits_flatten workflow.definition.steps options
  have hn := workflow.definition.steps_nodup
  have hdet : Determined engine options context.executionContext []
      (groupIntoUnits workflow.definition.steps options) := by
    constructor
    · intro step hstep c hc
      rw [hflat] at hstep
      exact stepRun_returns engine options c step (hclock step hstep) (hc ▸ hexecute step hstep)
    · intro before unit after hsplit step hstep c c' hc hc' hagree
      exact hdepends before unit after hsplit step hstep c c' hc hc' fun earlier hmem =>
        hagree _ (List.mem_append_right _ (List.mem_map_of_mem hmem))
  rw [run_accepted hvalid] at h
  rw [run_accepted (validateOptions_ungrouped hvalid), groupIntoUnits_ungrouped]
  simp only at h ⊢
  cases haccepted : accepted engine.eventBus
      (.workflowStarted workflow.workflowId workflow.definition.name) with
  | error exc =>
    rw [haccepted] at h
    cases h
    exact ⟨_, _, rfl, nofun, fun _ => id⟩
  | ok =>
    rw [haccepted] at h
    obtain ⟨⟨loop, more⟩, hunits, hclose⟩ := Option.map_eq_some_iff.mp h
    obtain ⟨ended, rfl⟩ := runUnits_returns (by rwa [hflat]) rfl hdet.returns hunits
    obtain ⟨begun, hrun⟩ := runUnits_unitsRun (by rwa [hflat]) hunits
    obtain ⟨ended', more', hseq, hrefines⟩ := hrun.sequential discipline hdet
      (by rwa [hflat]) (fun _ _ => List.not_mem_nil) rfl nofun schedules' context rfl nofun
    rw [hflat] at hseq hrefines
    have hstopped : ∀ step r, ended'.2 = some (step, r) → step ∈ workflow.definition.steps ∧
        ended'.1.get? step.name = some r ∧ step.StoppedBy r := by
      intro step r hend
      have hsingle : ((workflow.definition.steps.map ([·])).flatten) = workflow.definition.steps := by
        rw [← List.flatMap_def, List.flatMap_singleton']
      obtain ⟨begun', hrun'⟩ := runUnits_unitsRun (by rwa [hsingle]) hseq
      obtain ⟨before, after, hsplit, hget, hfail, -⟩ := hrun'.stopped (by rwa [hsingle]) hend
      rw [hsingle] at hsplit
      exact ⟨by simp [hsplit], hget, hfail⟩
    obtain rfl : outcome = _ := (congrArg Prod.fst hclose).symm
    rw [hseq]
    exact ⟨_, _, rfl, hrefines.close hstopped _ _⟩

end

theorem pairEngine_refines : ∃ parallel calls sequential calls',
    @WorkflowEngine.run plainPrinting pairEngine .fifo pairWorkflow pairContext pairOptions
      [pairSchedule] = some (.ok parallel, calls) ∧
    @WorkflowEngine.run plainPrinting pairEngine .fifo pairWorkflow pairContext
      (@WorkflowExecutionOptions.ungrouped plainPrinting pairOptions) [] =
        some (.ok sequential, calls') ∧
    ResultRefines pairWorkflow.definition.steps parallel sequential := by
  obtain ⟨parallel, calls, hrun⟩ : ∃ parallel calls, @WorkflowEngine.run plainPrinting pairEngine
      .fifo pairWorkflow pairContext pairOptions [pairSchedule] = some (.ok parallel, calls) :=
    ⟨_, _, rfl⟩
  obtain ⟨outcome', calls', hrun', hok, -⟩ := @parallel_refines_sequential plainPrinting pairEngine
    .fifo pairOptions pairWorkflow pairContext rfl nofun (fun _ _ _ => ⟨_, rfl⟩)
    (fun _ _ _ _ _ _ _ _ _ _ _ => rfl) [pairSchedule] _ _ hrun []
  obtain ⟨sequential, rfl, hrefines⟩ := hok parallel rfl
  exact ⟨parallel, calls, sequential, calls', hrun, hrun', hrefines⟩

end MellivorKernel
