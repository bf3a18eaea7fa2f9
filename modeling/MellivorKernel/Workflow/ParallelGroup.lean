import MellivorKernel.Foundation.TaskPool
import MellivorKernel.Foundation.Transition
import MellivorKernel.Workflow.Step

/-!
# Parallel groups

`WorkflowEngine._run_parallel_group` as a transition system. The coordinating
thread submits every step, then takes futures as `as_completed` yields them
and, at the first stopping failure, cancels the others one by one; the workers
take and finish tasks in between. A schedule is a list of actions. The future
of the `i`th step is the number `i`, and what a task computes becomes visible
when it finishes.
-/

namespace MellivorKernel

open Python Foundation

structure GroupState where
  pool : Pool
  /-- How many futures there are. -/
  submitted : Nat
  /-- What `as_completed` has yielded. -/
  yielded : List Nat
  completed : Dict Str ExecutionResult
  raised : Dict Str Exn
  stopped : Bool
  /-- The futures the cancelling loop has not reached. -/
  cancelling : List Nat
  /-- The tasks whose body was entered, in order. -/
  begun : List Nat

inductive GroupAction
  | submit
  | take (i : Nat)
  | finish (i : Nat)
  | yield (i : Nat)
  | cancel

def GroupState.start : GroupState where
  pool := Pool.start
  submitted := 0
  yielded := []
  completed := Dict.empty
  raised := Dict.empty
  stopped := false
  cancelling := []
  begun := []

/-- The body of the `as_completed` loop, for the future `i` of `step`. -/
def GroupState.observe (s : GroupState) (size i : Nat) (step : WorkflowStep)
    (outcome : Except Exn ExecutionResult) : GroupState :=
  let s := { s with yielded := i :: s.yielded }
  if s.pool.phase i = .notified then s
  else match outcome with
    | .error exc => { s with raised := s.raised.set step.name exc }
    | .ok result =>
      let s := { s with completed := s.completed.set step.name result }
      if s.stopped = false ∧ step.StoppedBy result then
        { s with stopped := true, cancelling := (List.range size).filter (· ≠ i) }
      else s

section
variable (discipline : Discipline) (workers : Nat) (group : List WorkflowStep)
  (outcome : WorkflowStep → Except Exn ExecutionResult)

def GroupState.step (s : GroupState) : GroupAction → Option GroupState
  | .submit =>
    if s.submitted < group.length then
      some { s with pool := s.pool.submit s.submitted, submitted := s.submitted + 1 }
    else none
  | .take i => (s.pool.take discipline workers i).map fun pool =>
      { s with pool, begun := if s.pool.phase i = .pending then s.begun ++ [i] else s.begun }
  | .finish i => (s.pool.finish i).map fun pool => { s with pool }
  | .yield i =>
    -- the futures are all there before `as_completed` is called
    if s.submitted = group.length ∧ s.cancelling = [] ∧ (s.pool.phase i).done = true ∧
        i ∉ s.yielded then
      (group[i]?).map fun step => s.observe group.length i step (outcome step)
    else none
  | .cancel => match s.cancelling with
    | [] => none
    | i :: rest => some { s with pool := s.pool.cancel i, cancelling := rest }

/-- The loop has ended: every future was yielded. -/
def GroupState.Final (s : GroupState) : Prop :=
  s.submitted = group.length ∧ s.cancelling = [] ∧ ∀ i < group.length, i ∈ s.yielded

instance (s : GroupState) : Decidable (s.Final group) := inferInstanceAs (Decidable (_ ∧ _ ∧ _))

/-- The `if raised:` block and the returned dictionary. -/
def GroupState.results (s : GroupState) : Except Exn (Dict Str ExecutionResult) :=
  if s.raised.entries ≠ [] then
    let declaredOrder := group.filterMap fun step => s.raised.get? step.name
    match declaredOrder with
    | [exc] => .error exc
    | _ => .error (.group
        (decimal declaredOrder.length ++ lit " step(s) in a parallel group raised.") declaredOrder)
  else .ok (Dict.collect WorkflowStep.name (fun step => s.completed.get? step.name) group)

def GroupState.begunSteps (s : GroupState) : List WorkflowStep := s.begun.filterMap (group[·]?)

end

section
variable [Printing]

def WorkflowEngine.maxWorkers (engine : WorkflowEngine) (group : List WorkflowStep) : Nat :=
  engine.maxConcurrency.getD group.length

/-- `_run_parallel_group` under a schedule; `none` when the schedule stops
short or takes an action that is not enabled. -/
def WorkflowEngine.runParallelGroup (engine : WorkflowEngine) (discipline : Discipline)
    (options : WorkflowExecutionOptions) (group : List WorkflowStep) (context : WorkflowContext)
    (schedule : List GroupAction) :
    Option (Except Exn (Dict Str ExecutionResult) × List WorkflowCall) :=
  let run := engine.stepRun options context
  match runSteps (GroupState.step discipline (engine.maxWorkers group) group fun s => (run s).1)
      GroupState.start schedule with
  | some s =>
    if s.Final group then some (s.results group, (s.begunSteps group).flatMap fun s => (run s).2)
    else none
  | none => none

end

/-- The run of one unit in one context: the steps in `begun` ran, in that
order, and made `calls`; each returned, and `results` holds what they returned
in declared order. A step is left out only behind a stopping failure, and
under first-in-first-out only one declared later. -/
structure UnitRun [Printing] (engine : WorkflowEngine) (options : WorkflowExecutionOptions)
    (discipline : Discipline) (context : WorkflowContext) (unit begun : List WorkflowStep)
    (results : Dict Str ExecutionResult) (calls : List WorkflowCall) : Prop where
  nodup : (begun.map WorkflowStep.name).Nodup
  subset : ∀ step ∈ begun, step ∈ unit
  calls : calls = begun.flatMap fun step => (engine.stepRun options context step).2
  keys : results.keys = (unit.map WorkflowStep.name).filter (· ∈ begun.map WorkflowStep.name)
  returned : ∀ step ∈ begun, ∃ result, (engine.stepRun options context step).1 = .ok result ∧
    results.get? step.name = some result
  left : ∀ step ∈ unit, step ∉ begun → ∃ before stopping after result,
    unit = before ++ stopping :: after ∧ stopping ∈ begun ∧
      (engine.stepRun options context stopping).1 = .ok result ∧ stopping.StoppedBy result ∧
      (discipline = .fifo → ∀ earlier ∈ before, earlier ∈ begun)

-- ---------------------------------------------------------------------------
-- The invariant
-- ---------------------------------------------------------------------------

def raisedBy : Except Exn α → Option Exn
  | .ok _ => none
  | .error e => some e

/-- Task `i` was seen to stop the group; under first-in-first-out it and every
task before it were begun. -/
def GroupState.StoppedAt (discipline : Discipline) (group : List WorkflowStep)
    (outcome : WorkflowStep → Except Exn ExecutionResult) (s : GroupState) (i : Nat) : Prop :=
  s.pool.phase i = .finished ∧
    (∃ step result, group[i]? = some step ∧ outcome step = .ok result ∧ step.StoppedBy result) ∧
    (discipline = .fifo → ∀ j ≤ i, (s.pool.phase j).begun = true)

/-- What holds in every reachable state of a group. -/
structure GroupInv (discipline : Discipline) (group : List WorkflowStep)
    (outcome : WorkflowStep → Except Exn ExecutionResult) (s : GroupState) : Prop where
  submitted_le : s.submitted ≤ group.length
  idle : ∀ i, s.pool.phase i = .idle ↔ s.submitted ≤ i
  fifo : discipline = .fifo → s.pool.Fifo s.submitted
  yielded : ∀ i ∈ s.yielded, (s.pool.phase i).done = true
  completed : ∀ i step, group[i]? = some step → s.completed.get? step.name =
    if i ∈ s.yielded ∧ s.pool.phase i = .finished then (outcome step).toOption else none
  raised : ∀ i step, group[i]? = some step → s.raised.get? step.name =
    if i ∈ s.yielded ∧ s.pool.phase i = .finished then raisedBy (outcome step) else none
  raised_keys : ∀ k ∈ s.raised.keys, ∃ step ∈ group, step.name = k
  dropped : ∀ i, (s.pool.phase i).dropped = true → s.stopped = true
  stopped : s.stopped = true → ∃ i, s.StoppedAt discipline group outcome i
  cancelling : s.cancelling ≠ [] → s.stopped = true
  begun : ∀ i, i ∈ s.begun ↔ (s.pool.phase i).begun = true
  begun_nodup : s.begun.Nodup

section
variable {discipline : Discipline} {workers : Nat} {group : List WorkflowStep}
  {outcome : WorkflowStep → Except Exn ExecutionResult} {s s' : GroupState}

theorem GroupInv.start : GroupInv discipline group outcome GroupState.start where
  submitted_le := Nat.zero_le _
  idle _ := iff_of_true rfl (Nat.zero_le _)
  fifo _ := Pool.Fifo.start
  yielded := nofun
  completed _ _ _ := rfl
  raised _ _ _ := rfl
  raised_keys := nofun
  dropped := nofun
  stopped := nofun
  cancelling := fun h => absurd rfl h
  begun _ := iff_of_false nofun nofun
  begun_nodup := List.nodup_nil

/-- What the pool does moves tasks on and touches no result: tasks that are
done stay as they are, and begun tasks stay begun. -/
theorem GroupInv.pool (h : GroupInv discipline group outcome s) {p : Pool} {n : Nat}
    {begun cancelling : List Nat}
    (hn : n ≤ group.length) (hidle : ∀ i, p.phase i = .idle ↔ n ≤ i)
    (hfifo : discipline = .fifo → p.Fifo n)
    (hdone : ∀ i, (s.pool.phase i).done = true → p.phase i = s.pool.phase i)
    (hmono : ∀ i, (s.pool.phase i).begun = true → (p.phase i).begun = true)
    (hdropped : ∀ i, (p.phase i).dropped = true → s.stopped = true)
    (hcancelling : cancelling ≠ [] → s.cancelling ≠ [])
    (hbegun : ∀ i, i ∈ begun ↔ (p.phase i).begun = true) (hnodup : begun.Nodup) :
    GroupInv discipline group outcome { s with pool := p, submitted := n, begun, cancelling } := by
  have hseen : ∀ i, (i ∈ s.yielded ∧ p.phase i = .finished) ↔
      (i ∈ s.yielded ∧ s.pool.phase i = .finished) := by
    intro i
    refine and_congr_right fun hi => ?_
    rw [hdone i (h.yielded i hi)]
  refine ⟨hn, hidle, hfifo, ?_, ?_, ?_, h.raised_keys, hdropped, ?_, ?_, hbegun, hnodup⟩
  · intro i hi
    rw [hdone i (h.yielded i hi)]
    exact h.yielded i hi
  · intro i step hi
    simp only [hseen]
    exact h.completed i step hi
  · intro i step hi
    simp only [hseen]
    exact h.raised i step hi
  · intro hs
    obtain ⟨i, hphase, hstep, hbelow⟩ := h.stopped hs
    refine ⟨i, ?_, hstep, fun hd j hj => hmono j (hbelow hd j hj)⟩
    rw [hdone i (by rw [hphase]; rfl)]
    exact hphase
  · exact fun hc => h.cancelling (hcancelling hc)

theorem GroupInv.move (h : GroupInv discipline group outcome s) {p : Pool} {i n : Nat} {ph : Phase}
    {cancelling : List Nat} (hphase : p.phase = Function.update s.pool.phase i ph)
    (hdone : (s.pool.phase i).done = false) (hbegun : ph.begun = (s.pool.phase i).begun)
    (hdropped : ph.dropped = true → s.stopped = true)
    (hn : n ≤ group.length) (hidle : ∀ j, p.phase j = .idle ↔ n ≤ j)
    (hfifo : discipline = .fifo → p.Fifo n) (hcancelling : cancelling ≠ [] → s.cancelling ≠ []) :
    GroupInv discipline group outcome { s with pool := p, submitted := n, cancelling } := by
  have hb (j : Nat) : (p.phase j).begun = (s.pool.phase j).begun := by
    rw [hphase, Pool.update_phase_eq hbegun]
  refine h.pool hn hidle hfifo ?_ ?_ ?_ hcancelling ?_ h.begun_nodup
  · intro j hd
    rw [hphase]
    refine Function.update_of_ne ?_ _ _
    rintro rfl
    rw [hdone] at hd
    cases hd
  · intro j
    rw [hb]
    exact id
  · intro j hd
    by_cases hj : j = i
    · subst hj
      rw [hphase, Function.update_self] at hd
      exact hdropped hd
    · rw [hphase, Function.update_of_ne hj] at hd
      exact h.dropped j hd
  · intro j
    rw [hb]
    exact h.begun j

theorem GroupInv.idle_update (h : GroupInv discipline group outcome s) {i : Nat} {ph : Phase}
    (hold : s.pool.phase i ≠ .idle) (hnew : ph ≠ .idle) (j : Nat) :
    Function.update s.pool.phase i ph j = .idle ↔ s.submitted ≤ j := by
  rw [← h.idle j]
  by_cases hj : j = i
  · subst hj; simp [hold, hnew]
  · rw [Function.update_of_ne hj]

theorem GroupInv.submit (h : GroupInv discipline group outcome s)
    (hs : s.submitted < group.length) :
    GroupInv discipline group outcome
      { s with pool := s.pool.submit s.submitted, submitted := s.submitted + 1 } := by
  have hidle : s.pool.phase s.submitted = .idle := (h.idle _).mpr le_rfl
  refine h.move rfl (by rw [hidle]; rfl) (by rw [hidle]; rfl) nofun hs ?_ ?_ id
  · intro i
    by_cases hi : i = s.submitted
    · subst hi; simp [Pool.submit]
    · simp only [Pool.submit, Function.update_of_ne hi, h.idle i]
      omega
  · exact fun hd => (h.fifo hd).submit (by rw [hidle]; rfl)

theorem GroupInv.take (h : GroupInv discipline group outcome s) {p : Pool} {i : Nat}
    (ht : s.pool.take discipline workers i = some p) :
    GroupInv discipline group outcome
      { s with pool := p, begun := if s.pool.phase i = .pending then s.begun ++ [i] else s.begun } := by
  have hfifo : discipline = .fifo → p.Fifo s.submitted := by
    rintro rfl
    exact (h.fifo rfl).take ht
  obtain ⟨-, -, -, ⟨hp, hphase, -⟩ | ⟨hp, hphase, -⟩⟩ := Pool.take_eq_some ht
  · -- a pending task begins
    have hnew : i ∉ s.begun := fun hi => by rw [h.begun i, hp] at hi; cases hi
    rw [if_pos hp]
    refine h.pool h.submitted_le ?_ hfifo ?_ ?_ ?_ id ?_ ?_
    · rw [hphase]
      exact h.idle_update (by rw [hp]; nofun) nofun
    · intro j hd
      rw [hphase]
      refine Function.update_of_ne ?_ _ _
      rintro rfl
      rw [hp] at hd
      cases hd
    · intro j hb
      rw [hphase]
      by_cases hj : j = i
      · subst hj; simp [Phase.begun]
      · rwa [Function.update_of_ne hj]
    · intro j hd
      rw [hphase, Pool.update_phase_eq (f := Phase.dropped) (by rw [hp]; rfl)] at hd
      exact h.dropped j hd
    · intro j
      rw [hphase, List.mem_append, List.mem_singleton, h.begun j]
      by_cases hj : j = i
      · subst hj; simp [Phase.begun]
      · simp [hj]
    · exact h.begun_nodup.append (List.nodup_singleton i) (by simpa using hnew)
  · -- a worker passes on that a task was cancelled
    rw [if_neg (by rw [hp]; decide)]
    refine h.move hphase (by rw [hp]; rfl) (by rw [hp]; rfl)
      (fun _ => h.dropped i (by rw [hp]; rfl)) h.submitted_le ?_ hfifo id
    rw [hphase]
    exact h.idle_update (by rw [hp]; nofun) nofun

theorem GroupInv.finish (h : GroupInv discipline group outcome s) {p : Pool} {i : Nat}
    (hf : s.pool.finish i = some p) : GroupInv discipline group outcome { s with pool := p } := by
  obtain ⟨hp, hphase, -, -⟩ := Pool.finish_eq_some hf
  refine h.move hphase (by rw [hp]; rfl) (by rw [hp]; rfl) nofun h.submitted_le ?_
    (fun hd => (h.fifo hd).finish hf) id
  rw [hphase]
  exact h.idle_update (by rw [hp]; nofun) nofun

theorem GroupInv.cancel (h : GroupInv discipline group outcome s) {i : Nat} {rest : List Nat}
    (hc : s.cancelling = i :: rest) :
    GroupInv discipline group outcome { s with pool := s.pool.cancel i, cancelling := rest } := by
  have hstopped : s.stopped = true := h.cancelling (by rw [hc]; nofun)
  have hfifo : discipline = .fifo → (s.pool.cancel i).Fifo s.submitted :=
    fun hd => (h.fifo hd).cancel
  unfold Pool.cancel at hfifo ⊢
  by_cases hp : s.pool.phase i = .pending
  · rw [if_pos hp] at hfifo ⊢
    exact h.move rfl (by rw [hp]; rfl) (by rw [hp]; rfl) (fun _ => hstopped) h.submitted_le
      (h.idle_update (by rw [hp]; nofun) nofun) hfifo (fun _ => by rw [hc]; nofun)
  · rw [if_neg hp] at hfifo ⊢
    exact h.pool h.submitted_le h.idle hfifo (fun _ _ => rfl) (fun _ => id) h.dropped
      (fun _ => by rw [hc]; nofun) h.begun h.begun_nodup

-- ---------------------------------------------------------------------------
-- The coordinator's loop body
-- ---------------------------------------------------------------------------

theorem name_inj (hn : (group.map WorkflowStep.name).Nodup) {i j : Nat} {a b : WorkflowStep}
    (ha : group[i]? = some a) (hb : group[j]? = some b) (h : a.name = b.name) : i = j := by
  obtain ⟨hi, -⟩ := List.getElem?_eq_some_iff.mp ha
  refine (List.getElem?_inj (by rwa [List.length_map]) hn).mp ?_
  rw [List.getElem?_map, List.getElem?_map, ha, hb, Option.map_some, Option.map_some, h]

theorem recorded_set {α : Type} (hn : (group.map WorkflowStep.name).Nodup) {d : Dict Str α}
    {yielded : List Nat} {phase : Nat → Phase} {value : WorkflowStep → Option α}
    (hd : ∀ j step, group[j]? = some step → d.get? step.name =
      if j ∈ yielded ∧ phase j = .finished then value step else none)
    {i : Nat} {step : WorkflowStep} {a : α} (hi : group[i]? = some step)
    (hphase : phase i = .finished) (ha : value step = some a) (j : Nat) (other : WorkflowStep)
    (hj : group[j]? = some other) : (d.set step.name a).get? other.name =
      if j ∈ i :: yielded ∧ phase j = .finished then value other else none := by
  by_cases hij : j = i
  · subst hij
    obtain rfl : step = other := Option.some.inj (hi.symm.trans hj)
    simp [hphase, ha]
  · rw [Dict.get?_set_ne _ (fun h => hij (name_inj hn hj hi h)), hd j other hj]
    simp [hij]

theorem recorded_skip {α : Type} {d : Dict Str α} {yielded : List Nat} {phase : Nat → Phase}
    {value : WorkflowStep → Option α}
    (hd : ∀ j step, group[j]? = some step → d.get? step.name =
      if j ∈ yielded ∧ phase j = .finished then value step else none)
    {i : Nat} {step : WorkflowStep} (hi : group[i]? = some step) (hnew : i ∉ yielded)
    (ha : phase i ≠ .finished ∨ value step = none) (j : Nat) (other : WorkflowStep)
    (hj : group[j]? = some other) : d.get? other.name =
      if j ∈ i :: yielded ∧ phase j = .finished then value other else none := by
  rw [hd j other hj]
  by_cases hij : j = i
  · subst hij
    obtain rfl : step = other := Option.some.inj (hi.symm.trans hj)
    rcases ha with ha | ha
    · simp [ha]
    · simp [ha]
  · simp [hij]

theorem GroupInv.observe (h : GroupInv discipline group outcome s)
    (hn : (group.map WorkflowStep.name).Nodup) {i : Nat} {step : WorkflowStep}
    (hi : group[i]? = some step) (hdone : (s.pool.phase i).done = true) (hnew : i ∉ s.yielded) :
    GroupInv discipline group outcome (s.observe group.length i step (outcome step)) := by
  have hyielded : ∀ j ∈ i :: s.yielded, (s.pool.phase j).done = true := by
    rintro j (_ | ⟨_, hj⟩)
    · exact hdone
    · exact h.yielded j hj
  unfold GroupState.observe
  by_cases hnotified : s.pool.phase i = .notified
  · simp only [hnotified, if_true]
    have hne : s.pool.phase i ≠ .finished := by rw [hnotified]; nofun
    exact { h with
      yielded := hyielded
      completed := recorded_skip h.completed hi hnew (.inl hne)
      raised := recorded_skip h.raised hi hnew (.inl hne) }
  have hfinished : s.pool.phase i = .finished := by
    revert hdone hnotified
    cases s.pool.phase i <;> simp [Phase.done]
  simp only [hnotified, if_false]
  cases ho : outcome step with
  | error exc =>
    refine { h with
      yielded := hyielded
      completed := recorded_skip h.completed hi hnew (.inr (by rw [ho]; rfl))
      raised := recorded_set hn h.raised hi hfinished (by rw [ho]; rfl)
      raised_keys := ?_ }
    intro k hk
    rw [Dict.keys_set] at hk
    split at hk
    · exact h.raised_keys k hk
    · rcases List.mem_append.mp hk with hk | hk
      · exact h.raised_keys k hk
      · exact ⟨step, List.mem_of_getElem? hi, (List.mem_singleton.mp hk).symm⟩
  | ok result =>
    have hcompleted := recorded_set hn h.completed hi hfinished (by rw [ho]; rfl)
    have hraised := recorded_skip h.raised hi hnew (.inr (by rw [ho]; rfl))
    simp only
    split
    · -- the first stopping failure: everything taken so far was begun
      rename_i hstop
      have hbelow : discipline = .fifo → ∀ j ≤ i, (s.pool.phase j).begun = true := by
        intro hd j hj
        refine Phase.begun_of_taken ((h.fifo hd).taken_below (by rw [hfinished]; rfl) hj) ?_
        refine Bool.eq_false_iff.mpr fun hdropped => ?_
        have hs := h.dropped j hdropped
        rw [hstop.1] at hs
        cases hs
      exact { h with
        yielded := hyielded
        completed := hcompleted
        raised := hraised
        dropped := fun _ _ => rfl
        stopped := fun _ => ⟨i, hfinished, ⟨step, result, hi, ho, hstop.2⟩, hbelow⟩
        cancelling := fun _ => rfl }
    · exact { h with
        yielded := hyielded
        completed := hcompleted
        raised := hraised }

theorem GroupInv.step (hn : (group.map WorkflowStep.name).Nodup) (a : GroupAction)
    (h : GroupInv discipline group outcome s)
    (ha : s.step discipline workers group outcome a = some s') :
    GroupInv discipline group outcome s' := by
  cases a with
  | submit =>
    simp only [GroupState.step, Option.ite_none_right_eq_some, Option.some.injEq] at ha
    obtain ⟨hs, rfl⟩ := ha
    exact h.submit hs
  | take i =>
    simp only [GroupState.step, Option.map_eq_some_iff] at ha
    obtain ⟨p, hp, rfl⟩ := ha
    exact h.take hp
  | finish i =>
    simp only [GroupState.step, Option.map_eq_some_iff] at ha
    obtain ⟨p, hp, rfl⟩ := ha
    exact h.finish hp
  | yield i =>
    simp only [GroupState.step, Option.ite_none_right_eq_some, Option.map_eq_some_iff] at ha
    obtain ⟨⟨-, -, hdone, hnew⟩, step, hi, rfl⟩ := ha
    exact h.observe hn hi hdone hnew
  | cancel =>
    simp only [GroupState.step] at ha
    split at ha
    · cases ha
    · rename_i i rest hc
      cases ha
      exact h.cancel hc

/-- The invariant holds wherever a schedule leads. -/
theorem GroupInv.run (hn : (group.map WorkflowStep.name).Nodup) {schedule : List GroupAction}
    (hr : runSteps (GroupState.step discipline workers group outcome) GroupState.start schedule =
      some s) : GroupInv discipline group outcome s :=
  runSteps_invariant (fun _ a _ h => h.step hn a) GroupInv.start hr

-- ---------------------------------------------------------------------------
-- The end of a group
-- ---------------------------------------------------------------------------

theorem begunSteps_subset : ∀ step ∈ s.begunSteps group, step ∈ group := by
  intro step hstep
  obtain ⟨i, -, hi⟩ := List.mem_filterMap.mp hstep
  exact List.mem_of_getElem? hi

theorem mem_begunSteps {i : Nat} {step : WorkflowStep}
    (hn : (group.map WorkflowStep.name).Nodup) (hi : group[i]? = some step) :
    step ∈ s.begunSteps group ↔ i ∈ s.begun := by
  rw [GroupState.begunSteps, List.mem_filterMap]
  constructor
  · rintro ⟨j, hj, hstep⟩
    rwa [name_inj hn hi hstep rfl]
  · exact fun h => ⟨i, h, hi⟩

theorem GroupInv.begunSteps_nodup (h : GroupInv discipline group outcome s)
    (hn : (group.map WorkflowStep.name).Nodup) :
    ((s.begunSteps group).map WorkflowStep.name).Nodup := by
  rw [GroupState.begunSteps, List.map_filterMap]
  refine h.begun_nodup.filterMap fun i j name hi hj => ?_
  obtain ⟨a, ha, rfl⟩ := Option.map_eq_some_iff.mp hi
  obtain ⟨b, hb, hab⟩ := Option.map_eq_some_iff.mp hj
  exact name_inj hn ha hb hab.symm

theorem GroupInv.begun_iff_finished (h : GroupInv discipline group outcome s) (hf : s.Final group)
    {i : Nat} (hi : i < group.length) : i ∈ s.begun ↔ s.pool.phase i = .finished := by
  rw [h.begun i]
  have hdone := h.yielded i (hf.2.2 i hi)
  revert hdone
  cases s.pool.phase i <;> simp [Phase.done, Phase.begun]

theorem GroupInv.completed_iff (h : GroupInv discipline group outcome s)
    (hn : (group.map WorkflowStep.name).Nodup) (hf : s.Final group) {step : WorkflowStep}
    (hstep : step ∈ group) (result : ExecutionResult) : s.completed.get? step.name = some result ↔
      step ∈ s.begunSteps group ∧ outcome step = .ok result := by
  obtain ⟨i, hi⟩ := List.mem_iff_getElem?.mp hstep
  have hlt : i < group.length := (List.getElem?_eq_some_iff.mp hi).1
  rw [mem_begunSteps hn hi, h.begun_iff_finished hf hlt, h.completed i step hi]
  by_cases hphase : s.pool.phase i = .finished
  · simp only [hf.2.2 i hlt, hphase, and_self, if_true, true_and]
    cases outcome step <;> simp [Except.toOption]
  · simp [hphase]

theorem GroupInv.returned (h : GroupInv discipline group outcome s)
    (hn : (group.map WorkflowStep.name).Nodup) (hf : s.Final group)
    (hraised : s.raised.entries = []) {step : WorkflowStep} (hstep : step ∈ group)
    (hb : step ∈ s.begunSteps group) : ∃ result, outcome step = .ok result := by
  obtain ⟨i, hi⟩ := List.mem_iff_getElem?.mp hstep
  have hlt : i < group.length := (List.getElem?_eq_some_iff.mp hi).1
  rw [mem_begunSteps hn hi, h.begun_iff_finished hf hlt] at hb
  have hget := h.raised i step hi
  have hempty : s.raised.get? step.name = none :=
    Dict.get?_eq_none.mpr (by rw [Dict.keys, hraised]; exact List.not_mem_nil)
  rw [hempty, if_pos ⟨hf.2.2 i hlt, hb⟩] at hget
  cases ho : outcome step with
  | ok result => exact ⟨result, rfl⟩
  | error exc => rw [ho] at hget; cases hget

/-- A step that never began was cancelled, so some step stopped the group. -/
theorem GroupInv.left (h : GroupInv discipline group outcome s)
    (hn : (group.map WorkflowStep.name).Nodup) (hf : s.Final group) {step : WorkflowStep}
    (hstep : step ∈ group) (hb : step ∉ s.begunSteps group) :
    ∃ before stopping after result, group = before ++ stopping :: after ∧
      stopping ∈ s.begunSteps group ∧ outcome stopping = .ok result ∧ stopping.StoppedBy result ∧
      (discipline = .fifo → ∀ earlier ∈ before, earlier ∈ s.begunSteps group) := by
  obtain ⟨i, hi⟩ := List.mem_iff_getElem?.mp hstep
  have hlt : i < group.length := (List.getElem?_eq_some_iff.mp hi).1
  rw [mem_begunSteps hn hi, h.begun i] at hb
  have hstopped : s.stopped = true := by
    refine h.dropped i ?_
    have hdone := h.yielded i (hf.2.2 i hlt)
    revert hdone hb
    cases s.pool.phase i <;> simp [Phase.done, Phase.begun, Phase.dropped]
  obtain ⟨j, hphase, ⟨stopping, result, hj, ho, hstop⟩, hbelow⟩ := h.stopped hstopped
  obtain ⟨hjlt, rfl⟩ := List.getElem?_eq_some_iff.mp hj
  refine ⟨group.take j, group[j], group.drop (j + 1), result, ?_, ?_, ho, hstop, ?_⟩
  · rw [List.cons_getElem_drop_succ, List.take_append_drop]
  · rw [mem_begunSteps hn hj, h.begun j, hphase]
    rfl
  · intro hd earlier hearlier
    obtain ⟨k, hk⟩ := List.mem_iff_getElem?.mp hearlier
    rw [List.getElem?_take] at hk
    split at hk
    · rename_i hkj
      rw [mem_begunSteps hn hk, h.begun k]
      exact hbelow hd k hkj.le
    · cases hk

end

section
variable [Printing] {engine : WorkflowEngine} {discipline : Discipline}
  {options : WorkflowExecutionOptions} {group : List WorkflowStep} {context : WorkflowContext}
  {schedule : List GroupAction}

theorem runParallelGroup_eq_some {outcome : Except Exn (Dict Str ExecutionResult)}
    {calls : List WorkflowCall}
    (h : engine.runParallelGroup discipline options group context schedule = some (outcome, calls)) :
    ∃ s, runSteps (GroupState.step discipline (engine.maxWorkers group) group
        fun step => (engine.stepRun options context step).1) GroupState.start schedule = some s ∧
      s.Final group ∧ outcome = s.results group ∧
      calls = (s.begunSteps group).flatMap fun step => (engine.stepRun options context step).2 := by
  unfold WorkflowEngine.runParallelGroup at h
  simp only at h
  split at h
  · rename_i s hs
    split at h
    · rename_i hf
      cases h
      exact ⟨s, hs, hf, rfl, rfl⟩
    · cases h
  · cases h

theorem GroupInv.unitRun {s : GroupState}
    (h : GroupInv discipline group (fun step => (engine.stepRun options context step).1) s)
    (hn : (group.map WorkflowStep.name).Nodup) (hf : s.Final group)
    (hraised : s.raised.entries = []) :
    UnitRun engine options discipline context group (s.begunSteps group)
      (Dict.collect WorkflowStep.name (fun step => s.completed.get? step.name) group)
      ((s.begunSteps group).flatMap fun step => (engine.stepRun options context step).2) := by
  refine ⟨h.begunSteps_nodup hn, begunSteps_subset, rfl, ?_, ?_, ?_⟩
  · rw [Dict.keys_collect hn, List.filter_map]
    congr 1
    refine List.filter_congr fun step hstep => ?_
    rw [Bool.eq_iff_iff, Option.isSome_iff_exists]
    simp only [h.completed_iff hn hf hstep, Function.comp_apply, decide_eq_true_eq,
      List.mem_map]
    constructor
    · rintro ⟨result, hb, -⟩
      exact ⟨step, hb, rfl⟩
    · rintro ⟨other, hb, hname⟩
      obtain rfl := List.inj_on_of_nodup_map hn (begunSteps_subset other hb) hstep hname
      obtain ⟨result, ho⟩ := h.returned hn hf hraised hstep hb
      exact ⟨result, hb, ho⟩
  · intro step hb
    obtain ⟨result, ho⟩ := h.returned hn hf hraised (begunSteps_subset step hb) hb
    refine ⟨result, ho, ?_⟩
    rw [Dict.get?_collect hn (begunSteps_subset step hb)]
    exact (h.completed_iff hn hf (begunSteps_subset step hb) result).mpr ⟨hb, ho⟩
  · exact fun step hstep hb => h.left hn hf hstep hb

/-- A group that returns ran as a unit does, whatever the schedule. -/
theorem runParallelGroup_unitRun (hn : (group.map WorkflowStep.name).Nodup)
    {results : Dict Str ExecutionResult} {calls : List WorkflowCall}
    (h : engine.runParallelGroup discipline options group context schedule =
      some (.ok results, calls)) :
    ∃ begun, UnitRun engine options discipline context group begun results calls := by
  obtain ⟨s, hr, hf, hres, hcalls⟩ := runParallelGroup_eq_some h
  unfold GroupState.results at hres
  split at hres
  · simp only at hres
    split at hres <;> cases hres
  rename_i hraised
  obtain rfl := Except.ok.inj hres
  exact ⟨s.begunSteps group, hcalls ▸ (GroupInv.run hn hr).unitRun hn hf (not_not.mp hraised)⟩

theorem runParallelGroup_returns (hn : (group.map WorkflowStep.name).Nodup)
    (hok : ∀ step ∈ group, ∃ result, (engine.stepRun options context step).1 = .ok result)
    {outcome : Except Exn (Dict Str ExecutionResult)} {calls : List WorkflowCall}
    (h : engine.runParallelGroup discipline options group context schedule = some (outcome, calls)) :
    ∃ results, outcome = .ok results := by
  obtain ⟨s, hr, -, hres, -⟩ := runParallelGroup_eq_some h
  have hinv := GroupInv.run hn hr
  have hraised : s.raised.entries = [] := by
    have hkeys : s.raised.keys = [] := by
      refine List.eq_nil_iff_forall_not_mem.mpr fun k hk => ?_
      obtain ⟨step, hstep, rfl⟩ := hinv.raised_keys k hk
      obtain ⟨i, hi⟩ := List.mem_iff_getElem?.mp hstep
      obtain ⟨exc, hexc⟩ := Dict.mem_keys.mp hk
      obtain ⟨result, ho⟩ := hok step hstep
      rw [hinv.raised i step hi, ho] at hexc
      split at hexc <;> cases hexc
    exact List.map_eq_nil_iff.mp hkeys
  exact ⟨_, by rw [hres, GroupState.results, if_neg (by simpa using hraised)]⟩

end

end MellivorKernel
