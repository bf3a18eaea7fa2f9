import Mathlib.Algebra.Order.BigOperators.Group.Finset
import MellivorKernel.Foundation.PoolProgress
import MellivorKernel.Foundation.Progress
import MellivorKernel.Workflow.RaisingSiblings

/-!
# Workflow runs come to an end

However far a run has come (some units behind it, a parallel group in the middle
of any interleaving), it is not stuck before the group's end, cannot go on for
ever, and can be carried through to an outcome (`run_unstuck`).
-/

namespace MellivorKernel

open Python Foundation Program

-- ---------------------------------------------------------------------------
-- One group
-- ---------------------------------------------------------------------------

def GroupState.ahead (s : GroupState) (i : Nat) : Nat :=
  (s.pool.phase i).remaining + if i ∈ s.yielded then 0 else 1

/-- How many actions the group can still take at most: those of the futures, and
the cancelling loop's. -/
def GroupState.rank (group : List WorkflowStep) (s : GroupState) : Nat :=
  (Finset.range group.length).sum s.ahead + s.cancelling.length +
    if s.stopped then 0 else group.length

section
variable {discipline : Discipline} {workers : Nat} {group : List WorkflowStep}
  {outcome : WorkflowStep → Except Exn ExecutionResult} {s s' : GroupState}

theorem rank_start (group : List WorkflowStep) : GroupState.start.rank group = 5 * group.length := by
  have hahead (i : Nat) : GroupState.start.ahead i = 4 := rfl
  simp only [GroupState.rank, hahead, Finset.sum_const, Finset.card_range]
  simp [GroupState.start]
  omega

theorem GroupInv.lt_length (h : GroupInv discipline group outcome s) {i : Nat}
    (hi : s.pool.phase i ≠ .idle) : i < group.length :=
  lt_of_lt_of_le (not_le.mp fun hle => hi ((h.idle i).mpr hle)) h.submitted_le

theorem sum_ahead_lt (s s' : GroupState) {i : Nat} {ph : Phase} (hi : i < group.length)
    (hphase : s'.pool.phase = Function.update s.pool.phase i ph)
    (hlt : ph.remaining < (s.pool.phase i).remaining) (hyielded : s'.yielded = s.yielded) :
    (Finset.range group.length).sum s'.ahead < (Finset.range group.length).sum s.ahead := by
  refine Finset.sum_lt_sum (fun j _ => ?_) ⟨i, Finset.mem_range.mpr hi, ?_⟩
  · unfold GroupState.ahead
    rw [hphase, hyielded]
    by_cases hj : j = i
    · subst hj
      rw [Function.update_self]
      omega
    · rw [Function.update_of_ne hj]
  · unfold GroupState.ahead
    rw [hphase, hyielded, Function.update_self]
    omega

theorem cancel_remaining (p : Pool) (i j : Nat) :
    ((p.cancel i).phase j).remaining ≤ (p.phase j).remaining := by
  unfold Pool.cancel
  split
  · rename_i hp
    by_cases hj : j = i
    · subst hj
      simp [hp, Phase.remaining]
    · simp [hj]
  · exact le_rfl

theorem observe_spec (s : GroupState) (size i : Nat) (step : WorkflowStep)
    (outcome : Except Exn ExecutionResult) :
    (s.observe size i step outcome).pool = s.pool ∧
      (s.observe size i step outcome).yielded = i :: s.yielded ∧
      ((s.observe size i step outcome).cancelling = s.cancelling ∧
          (s.observe size i step outcome).stopped = s.stopped ∨
        s.stopped = false ∧ (s.observe size i step outcome).stopped = true ∧
          (s.observe size i step outcome).cancelling.length ≤ size) := by
  unfold GroupState.observe
  simp only
  split
  · exact ⟨rfl, rfl, .inl ⟨rfl, rfl⟩⟩
  · split
    · exact ⟨rfl, rfl, .inl ⟨rfl, rfl⟩⟩
    · split
      · rename_i hstop
        have hlength : ((List.range size).filter (· ≠ i)).length ≤ size :=
          (List.length_filter_le _ _).trans_eq List.length_range
        exact ⟨rfl, rfl, .inr ⟨hstop.1, rfl, hlength⟩⟩
      · exact ⟨rfl, rfl, .inl ⟨rfl, rfl⟩⟩

theorem observe_rank {i : Nat} (step : WorkflowStep) (outcome : Except Exn ExecutionResult)
    (hi : i < group.length) (hnew : i ∉ s.yielded) (hcancelling : s.cancelling = []) :
    (s.observe group.length i step outcome).rank group < s.rank group := by
  obtain ⟨hpool, hyielded, hloop⟩ := observe_spec s group.length i step outcome
  have hsum : (Finset.range group.length).sum (s.observe group.length i step outcome).ahead <
      (Finset.range group.length).sum s.ahead := by
    refine Finset.sum_lt_sum (fun j _ => ?_) ⟨i, Finset.mem_range.mpr hi, ?_⟩
    · unfold GroupState.ahead
      rw [hpool, hyielded]
      by_cases hj : j ∈ s.yielded
      · simp [hj]
      · rw [if_neg hj]
        split <;> omega
    · unfold GroupState.ahead
      rw [hpool, hyielded, if_pos List.mem_cons_self, if_neg hnew]
      omega
  unfold GroupState.rank
  rcases hloop with ⟨hsame, hstopped⟩ | ⟨hgoing, hstopped, hlength⟩
  · rw [hsame, hstopped]
    omega
  · simp only [hgoing, hstopped, hcancelling, Bool.false_eq_true, if_true, if_false, List.length_nil]
    omega

/-- Every action leaves less to do. -/
theorem step_rank (h : GroupInv discipline group outcome s) {a : GroupAction}
    (hs : GroupState.step discipline workers group outcome s a = some s') :
    s'.rank group < s.rank group := by
  cases a with
  | submit =>
    simp only [GroupState.step, Option.ite_none_right_eq_some, Option.some.injEq] at hs
    obtain ⟨hlt, rfl⟩ := hs
    have hidle : s.pool.phase s.submitted = .idle := (h.idle _).mpr le_rfl
    have hsum := sum_ahead_lt s
      { s with pool := s.pool.submit s.submitted, submitted := s.submitted + 1 }
      hlt rfl (by rw [hidle]; decide) rfl
    unfold GroupState.rank
    simp only
    omega
  | take i =>
    obtain ⟨p, hp, rfl⟩ := Option.map_eq_some_iff.mp hs
    obtain ⟨-, -, -, hphase⟩ := Pool.take_eq_some hp
    obtain ⟨ph, hph, hlt, hi⟩ : ∃ ph, p.phase = Function.update s.pool.phase i ph ∧
        ph.remaining < (s.pool.phase i).remaining ∧ s.pool.phase i ≠ .idle := by
      rcases hphase with ⟨hold, hph, -⟩ | ⟨hold, hph, -⟩
      · exact ⟨_, hph, by rw [hold]; decide, by rw [hold]; decide⟩
      · exact ⟨_, hph, by rw [hold]; decide, by rw [hold]; decide⟩
    have hsum := sum_ahead_lt s
      { s with pool := p, begun := if s.pool.phase i = .pending then s.begun ++ [i] else s.begun }
      (h.lt_length hi) hph hlt rfl
    unfold GroupState.rank
    simp only
    omega
  | finish i =>
    obtain ⟨p, hp, rfl⟩ := Option.map_eq_some_iff.mp hs
    obtain ⟨hold, hph, -, -⟩ := Pool.finish_eq_some hp
    have hsum := sum_ahead_lt s { s with pool := p } (h.lt_length (by rw [hold]; decide)) hph
      (by rw [hold]; decide) rfl
    unfold GroupState.rank
    simp only
    omega
  | yield i =>
    simp only [GroupState.step, Option.ite_none_right_eq_some, Option.map_eq_some_iff] at hs
    obtain ⟨⟨-, hcancelling, -, hnew⟩, step, hstep, rfl⟩ := hs
    exact observe_rank step _ (List.getElem?_eq_some_iff.mp hstep).1 hnew hcancelling
  | cancel =>
    simp only [GroupState.step] at hs
    split at hs
    · cases hs
    · rename_i i rest hc
      cases hs
      have hsum : (Finset.range group.length).sum
          (GroupState.ahead { s with pool := s.pool.cancel i, cancelling := rest }) ≤
          (Finset.range group.length).sum s.ahead :=
        Finset.sum_le_sum fun j _ => Nat.add_le_add_right (cancel_remaining s.pool i j) _
      unfold GroupState.rank
      simp only [hc, List.length_cons]
      omega

theorem step_manned (h : GroupInv discipline group outcome s) (hm : s.pool.Manned) {a : GroupAction}
    (hs : GroupState.step discipline workers group outcome s a = some s') : s'.pool.Manned := by
  cases a with
  | submit =>
    simp only [GroupState.step, Option.ite_none_right_eq_some, Option.some.injEq] at hs
    obtain ⟨-, rfl⟩ := hs
    exact hm.submit ((h.idle _).mpr le_rfl)
  | take i =>
    obtain ⟨p, hp, rfl⟩ := Option.map_eq_some_iff.mp hs
    exact hm.take hp
  | finish i =>
    obtain ⟨p, hp, rfl⟩ := Option.map_eq_some_iff.mp hs
    exact hm.finish hp
  | yield i =>
    simp only [GroupState.step, Option.ite_none_right_eq_some, Option.map_eq_some_iff] at hs
    obtain ⟨-, step, -, rfl⟩ := hs
    rwa [(observe_spec _ _ _ _ _).1]
  | cancel =>
    simp only [GroupState.step] at hs
    split at hs
    · cases hs
    · cases hs
      exact hm.cancel

/-- A group that has not ended has an action: a step to submit, a future to
cancel, one to yield, a body to finish or a task to take. -/
theorem step_enabled (h : GroupInv discipline group outcome s) (hm : s.pool.Manned)
    (hworkers : 0 < group.length → 0 < workers) (hfinal : ¬ s.Final group) :
    ∃ a s', GroupState.step discipline workers group outcome s a = some s' := by
  rcases h.submitted_le.lt_or_eq with hlt | hsubmitted
  · exact ⟨.submit, _, by simp only [GroupState.step, hlt, if_true]; rfl⟩
  cases hc : s.cancelling with
  | cons i rest => exact ⟨.cancel, _, by simp only [GroupState.step, hc]; rfl⟩
  | nil => ?_
  obtain ⟨i, hi, hyielded⟩ : ∃ i < group.length, i ∉ s.yielded := by
    by_contra hnone
    push Not at hnone
    exact hfinal ⟨hsubmitted, hc, hnone⟩
  by_cases hdone : (s.pool.phase i).done = true
  · refine ⟨.yield i, s.observe group.length i group[i] (outcome group[i]), ?_⟩
    simp only [GroupState.step, hsubmitted, hc, hdone, hyielded, not_false_eq_true, and_self,
      if_true, List.getElem?_eq_getElem hi, Option.map_some]
  by_cases hrunning : ∃ j, s.pool.phase j = .running
  · obtain ⟨j, hj⟩ := hrunning
    exact ⟨.finish j, _, by simp only [GroupState.step, Pool.finish, hj, if_true]; rfl⟩
  · push Not at hrunning
    have hwaits : i ∈ s.pool.queue := by
      have hidle : s.pool.phase i ≠ .idle := fun hp => by
        have hle := (h.idle i).mp hp
        omega
      rw [hm.queued i]
      have hnot := hrunning i
      revert hidle hdone hnot
      cases s.pool.phase i <;> simp [Phase.done]
    obtain ⟨j, p, hp⟩ := hm.takes (hworkers (by omega)) hrunning (List.ne_nil_of_mem hwaits) discipline
    exact ⟨.take j, _, by simp only [GroupState.step, hp]; rfl⟩

theorem step_final (h : GroupInv discipline group outcome s) (hfinal : s.Final group)
    (a : GroupAction) :
    GroupState.step discipline workers group outcome s a = none := by
  obtain ⟨hsubmitted, hcancelling, hall⟩ := hfinal
  have hphase (i : Nat) : s.pool.phase i = .idle ∨ (s.pool.phase i).done = true := by
    rw [h.idle i, hsubmitted]
    rcases Nat.lt_or_ge i group.length with hi | hi
    · exact .inr (h.yielded i (hall i hi))
    · exact .inl hi
  cases a with
  | submit => simp [GroupState.step, hsubmitted]
  | take i =>
    rw [GroupState.step, Option.map_eq_none_iff, Option.eq_none_iff_forall_ne_some]
    intro p hp
    obtain ⟨-, -, -, ⟨hold, -⟩ | ⟨hold, -⟩⟩ := Pool.take_eq_some hp
    · simpa [hold, Phase.done] using hphase i
    · simpa [hold, Phase.done] using hphase i
  | finish i =>
    rw [GroupState.step, Option.map_eq_none_iff, Option.eq_none_iff_forall_ne_some]
    intro p hp
    simpa [(Pool.finish_eq_some hp).1, Phase.done] using hphase i
  | yield i =>
    rw [GroupState.step]
    refine if_neg fun hc => hc.2.2.2 (hall i (h.lt_length fun hidle => ?_))
    simpa [hidle, Phase.done] using hc.2.2.1
  | cancel => simp [GroupState.step, hcancelling]

theorem group_ending (discipline : Discipline)
    (outcome : WorkflowStep → Except Exn ExecutionResult)
    (hn : (group.map WorkflowStep.name).Nodup) (hworkers : 0 < group.length → 0 < workers) :
    Ending (GroupState.step discipline workers group outcome)
      (fun s => GroupInv discipline group outcome s ∧ s.pool.Manned) (GroupState.Final group)
      (GroupState.rank group) where
  keeps _ a _ h hs := ⟨h.1.step hn a hs, step_manned h.1 h.2 hs⟩
  falls _ _ _ h hs := step_rank h.1 hs
  moves _ h hfinal := step_enabled h.1 h.2 hworkers hfinal
  rests _ h hfinal := step_final h.1 hfinal

end

-- ---------------------------------------------------------------------------
-- Units
-- ---------------------------------------------------------------------------

theorem maxWorkers_pos (engine : WorkflowEngine) (group : List WorkflowStep)
    (h : 0 < group.length) : 0 < engine.maxWorkers group := by
  unfold WorkflowEngine.maxWorkers
  cases hm : engine.maxConcurrency with
  | none => exact h
  | some m => exact engine.maxConcurrency_ok m hm

section
variable [Printing] {engine : WorkflowEngine} {discipline : Discipline}
  {options : WorkflowExecutionOptions} {context : WorkflowContext}

/-- Whatever a group's threads have done so far, they can bring it to its end. -/
theorem runParallelGroup_ends {group : List WorkflowStep} (hn : (group.map WorkflowStep.name).Nodup)
    {actions : List GroupAction} {s : GroupState}
    (h : runSteps (GroupState.step discipline (engine.maxWorkers group) group
      fun step => (engine.stepRun options context step).1) GroupState.start actions = some s) :
    ∃ more outcome, engine.runParallelGroup discipline options group context (actions ++ more) =
      some outcome := by
  have hending := group_ending discipline (fun step => (engine.stepRun options context step).1) hn
    (maxWorkers_pos engine group)
  have hs := runSteps_invariant (fun s a s' h => hending.keeps s a s' h)
    ⟨GroupInv.start, Pool.Manned.start⟩ h
  obtain ⟨more, t, hmore, hfinal⟩ := hending.ends hs
  refine ⟨more, (t.results group,
    (t.begunSteps group).flatMap fun step => (engine.stepRun options context step).2), ?_⟩
  unfold WorkflowEngine.runParallelGroup
  simp only [runSteps_append h hmore, hfinal, if_true]

theorem runUnit_ends {unit : List WorkflowStep} (hn : (unit.map WorkflowStep.name).Nodup) :
    ∃ schedule outcome, engine.runUnit discipline options unit context schedule = some outcome := by
  cases hinline : ranInline options unit with
  | false =>
    obtain ⟨more, outcome, hends⟩ : ∃ more outcome,
        engine.runParallelGroup discipline options unit context ([] ++ more) = some outcome :=
      runParallelGroup_ends hn rfl
    exact ⟨more, outcome, by rwa [runUnit_parallel hinline]⟩
  | true =>
    unfold ranInline at hinline
    split at hinline
    · rename_i step
      refine ⟨[], ((engine.stepRun options context step).1.map fun result =>
        Dict.empty.set step.name result, (engine.stepRun options context step).2), ?_⟩
      have hparallel : isExplicitlyParallel step.name options = false := by simpa using hinline
      simp only [WorkflowEngine.runUnit, hparallel, Bool.false_eq_true, if_false]
    · cases hinline

theorem runUnits_cons_ends {unit : List WorkflowStep} {later : List (List WorkflowStep)}
    {schedule : List GroupAction} {d : Dict Str ExecutionResult}
    {outcome : Except Exn (Dict Str ExecutionResult) × List WorkflowCall}
    (hunit : engine.runUnit discipline options unit context schedule = some outcome)
    (hlater : ∀ seen d, ∃ schedules outcome,
      engine.runUnits discipline options later schedules seen d = some outcome) :
    ∃ schedules outcome,
      engine.runUnits discipline options (unit :: later) (schedule :: schedules) context d =
        some outcome := by
  obtain ⟨exc | results, calls⟩ := outcome
  · exact ⟨[], (.error exc, calls), by simp [WorkflowEngine.runUnits, hunit]⟩
  · cases hstop : firstStoppingFailure unit results with
    | some stopping =>
      exact ⟨[], (.ok (d.update results, some stopping), calls),
        by simp [WorkflowEngine.runUnits, hunit, hstop]⟩
    | none =>
      obtain ⟨schedules, outcome, hrest⟩ :=
        hlater { context with stepResults := d.update results } (d.update results)
      exact ⟨schedules, (outcome.1, calls ++ outcome.2),
        by simp [WorkflowEngine.runUnits, hunit, hstop, hrest]⟩

theorem runUnits_ends {units : List (List WorkflowStep)}
    (hn : (units.flatten.map WorkflowStep.name).Nodup) (context : WorkflowContext)
    (d : Dict Str ExecutionResult) : ∃ schedules outcome,
      engine.runUnits discipline options units schedules context d = some outcome := by
  induction units generalizing context d with
  | nil => exact ⟨[], _, rfl⟩
  | cons unit rest ih =>
    rw [List.flatten_cons, List.map_append, List.nodup_append] at hn
    obtain ⟨schedule, outcome, hunit⟩ : ∃ schedule outcome,
        engine.runUnit discipline options unit context schedule = some outcome := runUnit_ends hn.1
    obtain ⟨schedules, hrest⟩ := runUnits_cons_ends (d := d) hunit fun seen d => ih hn.2.1 seen d
    exact ⟨schedule :: schedules, hrest⟩

def firstSchedules : Nat → List (List GroupAction) → List (List GroupAction)
  | 0, _ => []
  | n + 1, schedules => schedules.headD [] :: firstSchedules n schedules.tail

omit [Printing] in
theorem firstSchedules_drop (n : Nat) (schedules more : List (List GroupAction)) :
    (firstSchedules n schedules ++ more).drop n = more := by
  induction n generalizing schedules with
  | zero => rfl
  | succ n ih => exact ih schedules.tail

theorem runUnits_first (units : List (List WorkflowStep)) (schedules more : List (List GroupAction))
    (context : WorkflowContext) (d : Dict Str ExecutionResult) :
    engine.runUnits discipline options units (firstSchedules units.length schedules ++ more) context
      d = engine.runUnits discipline options units schedules context d := by
  induction units generalizing schedules context d with
  | nil => rfl
  | cons unit rest ih =>
    have hrest (results : Dict Str ExecutionResult) := ih schedules.tail
      { context with stepResults := d.update results } (d.update results)
    simp only [WorkflowEngine.runUnits, List.length_cons, firstSchedules, List.cons_append,
      List.headD_cons, List.tail_cons, hrest]

-- ---------------------------------------------------------------------------
-- Whole runs
-- ---------------------------------------------------------------------------

/-- Where a run stands that has come to a parallel unit, after some actions of
its threads: they are no more than five for each step, the group has an action
left unless it has ended, and the run can be carried through from there. -/
structure Unstuck (engine : WorkflowEngine) (discipline : Discipline) (workflow : Workflow)
    (context : WorkflowContext) (options : WorkflowExecutionOptions)
    (earlier : List (List WorkflowStep)) (unit : List WorkflowStep)
    (later : List (List WorkflowStep)) (d : Dict Str ExecutionResult) (before : List WorkflowCall)
    (actions : List GroupAction) (s : GroupState) : Prop where
  bounded : actions.length ≤ 5 * unit.length
  ended_iff : s.Final unit ↔ ∀ action,
    GroupState.step discipline (engine.maxWorkers unit) unit
      (fun step => (engine.stepRun options (contextAfter context earlier d) step).1) s action = none
  ends : ∃ schedules more outcome,
    Reached engine discipline workflow context options schedules earlier unit later d before ∧
    (schedules.drop earlier.length).headD [] = actions ++ more ∧
    engine.run discipline workflow context options schedules = some outcome

variable {workflow : Workflow} {schedules : List (List GroupAction)}
  {earlier later : List (List WorkflowStep)} {unit : List WorkflowStep}
  {d : Dict Str ExecutionResult} {before : List WorkflowCall}

theorem Reached.run_ends
    (h : Reached engine discipline workflow context options schedules earlier unit later d before)
    {outcome : Except Exn UnitsEnd × List WorkflowCall}
    (hrest : engine.runUnits discipline options (unit :: later) (schedules.drop earlier.length)
      (contextAfter context earlier d) d = some outcome) :
    ∃ outcome, engine.run discipline workflow context options schedules = some outcome := by
  obtain ⟨opened, made, hopened, hearlier, -⟩ := h.run
  refine ⟨(do engine.finish workflow (← lift outcome.1)).exec (opened ++ (made ++ outcome.2)), ?_⟩
  rw [WorkflowEngine.run, hopened, h.units]
  simp only
  rw [runUnits_append hearlier, hrest]
  rfl

/-- No run gets stuck or goes on for ever. -/
theorem run_unstuck
    (h : Reached engine discipline workflow context options schedules earlier unit later d before)
    (hparallel : ranInline options unit = false) {actions : List GroupAction} {s : GroupState}
    (hactions : runSteps (GroupState.step discipline (engine.maxWorkers unit) unit
        fun step => (engine.stepRun options (contextAfter context earlier d) step).1)
      GroupState.start actions = some s) :
    Unstuck engine discipline workflow context options earlier unit later d before actions s := by
  obtain ⟨-, hn, -⟩ := List.nodup_append.mp h.nodup
  obtain ⟨hunit, hlater, -⟩ := List.nodup_append.mp hn
  have hending := group_ending discipline
    (fun step => (engine.stepRun options (contextAfter context earlier d) step).1) hunit
    (maxWorkers_pos engine unit)
  have hs := runSteps_invariant (fun s a s' h => hending.keeps s a s' h)
    ⟨GroupInv.start, Pool.Manned.start⟩ hactions
  refine ⟨?_, hending.final_iff hs, ?_⟩
  · have hle := hending.length_le ⟨GroupInv.start, Pool.Manned.start⟩ hactions
    rw [rank_start] at hle
    omega
  · obtain ⟨more, outcome, hends⟩ := runParallelGroup_ends hunit hactions
    rw [← runUnit_parallel hparallel] at hends
    obtain ⟨rest, outcome', hrest⟩ :=
      runUnits_cons_ends (d := d) hends fun seen d => runUnits_ends hlater seen d
    obtain ⟨opened, made, hopened, hearlier, rfl⟩ := h.run
    have hfirst := (runUnits_first earlier schedules ((actions ++ more) :: rest) context Dict.empty).trans
      hearlier
    have hdrop := firstSchedules_drop earlier.length schedules ((actions ++ more) :: rest)
    have hreached : Reached engine discipline workflow context options
        (firstSchedules earlier.length schedules ++ (actions ++ more) :: rest) earlier unit later d
        (opened ++ made) := ⟨h.units, opened, made, hopened, hfirst, rfl⟩
    obtain ⟨outcome'', hrun⟩ := hreached.run_ends (by rw [hdrop]; exact hrest)
    exact ⟨_, more, outcome'', hreached, by rw [hdrop]; rfl, hrun⟩

end

-- ---------------------------------------------------------------------------
-- A worker has taken the second step
-- ---------------------------------------------------------------------------

theorem clash_unstuck : ∃ s, @Unstuck plainPrinting clashEngine .any clashWorkflow pairContext
    pairOptions [] [firstStep, secondStep] [[thirdStep]] Dict.empty
    [.publish (.workflowStarted (lit "w1") (lit "clash"))] [.submit, .submit, .take 1] s :=
  ⟨_, @run_unstuck plainPrinting clashEngine .any pairOptions pairContext clashWorkflow
    [clashSchedule] [] [[thirdStep]] [firstStep, secondStep] Dict.empty
    [.publish (.workflowStarted (lit "w1") (lit "clash"))] clash_reached rfl _ _ rfl⟩

end MellivorKernel
