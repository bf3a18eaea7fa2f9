import MellivorKernel.Memory.SameThread
import MellivorKernel.Workflow.Ledger
import MellivorKernel.Workflow.OptionsLaw
import Mathlib.Data.List.ReduceOption

/-!
# What a workflow run leaves in a file

The engines of a run record to one SQLite store, opened in the thread that calls
`run`. The steps of the parallel groups are executed in the threads of a pool,
and there the store only raises, which the engines swallow. So the file keeps
the run and the steps that ran inline, in the declared order, and of a group
nothing (`run_filed`). What the store answers does not matter to the run, and
is left open.
-/

namespace MellivorKernel

open Python Foundation Program

/-- The thread that runs the workflow, and those in which the pools execute the
steps. -/
structure Threads where
  caller : Nat
  pool : Str → Nat
  pool_ne : ∀ step, pool step ≠ caller

def Call.recordedEntry : Call → Option MemoryEntry
  | .remember entry => some entry
  | _ => none

theorem told_entries {α : Type} {entry : α → Call} (h : ∀ a, (entry a).recordedEntry = none)
    (sink : Option (α → Except Exn Unit)) (a : α) :
    (told entry sink a).filterMap Call.recordedEntry = [] := by
  unfold told
  split <;> simp [h]

section
variable [Printing]

def Threads.ofStep (threads : Threads) (options : WorkflowExecutionOptions) (step : Str) : Nat :=
  if isExplicitlyParallel step options then threads.pool step else threads.caller

def WorkflowCall.filings (execution : Str → ExecutionEngine) (threads : Threads)
    (options : WorkflowExecutionOptions) : WorkflowCall → List Filing
  | .execute step request context granted =>
    ((((execution step).execute request context granted).exec []).2.filterMap Call.recordedEntry).map
      fun entry => ⟨threads.ofStep options step, entry⟩
  | .remember entry => [⟨threads.caller, entry⟩]
  | _ => []

/-- What a reported step leaves in the file: nothing if it ran in a pool or was
turned away, else the entry of its result. -/
inductive Leaves (execution : Str → ExecutionEngine) (options : WorkflowExecutionOptions)
    (calls : List WorkflowCall) : Str × ExecutionResult → Option MemoryEntry → Prop
  | pooled {name : Str} {outcome : ExecutionResult}
      (hparallel : isExplicitlyParallel name options = true) :
      Leaves execution options calls (name, outcome) none
  | refused {name : Str} {outcome : ExecutionResult}
      (hinline : isExplicitlyParallel name options = false)
      (hfailed : outcome.success = false)
      (hcalls : (calls.filter (·.step? = some name)).filter WorkflowCall.executes = []) :
      Leaves execution options calls (name, outcome) none
  | filed {name : Str} {outcome : ExecutionResult} {request : ExecutionRequest}
      {context : ExecutionContext} {granted : List Str} {entry : MemoryEntry}
      (hinline : isExplicitlyParallel name options = false)
      (hcalls : (calls.filter (·.step? = some name)).filter WorkflowCall.executes =
        [.execute name request context granted])
      (hentry : (execution name).entryOf request outcome = .ok entry) :
      Leaves execution options calls (name, outcome) (some entry)

/-- A unit is a group of the options, or one step that none of them names. -/
def Uniform (options : WorkflowExecutionOptions) (unit : List WorkflowStep) : Prop :=
  (∀ step ∈ unit, isExplicitlyParallel step.name options = true) ∨
    ∃ step, unit = [step] ∧ isExplicitlyParallel step.name options = false

-- ---------------------------------------------------------------------------
-- One step
-- ---------------------------------------------------------------------------

section
variable {execution : Str → ExecutionEngine} {threads : Threads}
  {options : WorkflowExecutionOptions}

theorem booked_entries {engine : ExecutionEngine} {request : ExecutionRequest}
    {result : ExecutionResult} {made : List Call} (h : Booked engine request result made)
    (hmemory : engine.memory.isSome) :
    ∃ entry, engine.entryOf request result = .ok entry ∧
      made.filterMap Call.recordedEntry = [entry] := by
  obtain ⟨kept, hkept, hnotices⟩ := h.told
  have hsame : made.filterMap Call.recordedEntry = (notices made).filterMap Call.recordedEntry := by
    rw [notices, List.filterMap_filter]
    refine List.filterMap_congr fun c _ => ?_
    cases c <;> rfl
  cases hkept with
  | nothing hnone =>
    rw [hnone] at hmemory
    cases hmemory
  | entry _ hentry =>
    refine ⟨_, hentry, ?_⟩
    rw [hsame, hnotices]
    simp only [List.filterMap_append, @told_entries _ Call.publish fun _ => rfl,
      @told_entries _ Call.emit fun _ => rfl, List.nil_append]
    rfl

/-- Of the calls made for a step only its execution hands something over. -/
theorem filings_step {calls : List WorkflowCall} (h : ∀ c ∈ calls, ∃ name, c.step? = some name) :
    calls.flatMap (WorkflowCall.filings execution threads options) =
      (calls.filter WorkflowCall.executes).flatMap
        (WorkflowCall.filings execution threads options) := by
  induction calls with
  | nil => rfl
  | cons c calls ih =>
    obtain ⟨⟨name, hname⟩, hrest⟩ := List.forall_mem_cons.mp h
    rw [List.flatMap_cons, ih hrest]
    cases c with
    | execute => rfl
    | now | resolve => rfl
    | publish | remember => cases hname

theorem filings_own (sink : Option EventBus) (event : Event) :
    (told .publish sink event).flatMap (WorkflowCall.filings execution threads options) = [] := by
  unfold told
  split <;> rfl

variable {engine : WorkflowEngine} {context : WorkflowContext}

theorem filter_stepRun (step : WorkflowStep) :
    (engine.stepRun options context step).2.filter (·.step? = some step.name) =
      (engine.stepRun options context step).2 :=
  List.filter_eq_self.mpr fun _ hc =>
    decide_eq_true ((stepRun_calls engine options context step).mem hc).1

theorem stepRun_leaves {step : WorkflowStep} {outcome : ExecutionResult} {calls : List WorkflowCall}
    (h : (engine.over execution).stepRun options context step = (.ok outcome, calls))
    (hmemory : (execution step.name).memory.isSome)
    (hinline : isExplicitlyParallel step.name options = false) :
    ∃ left, Leaves execution options calls (step.name, outcome) left ∧
      calls.flatMap (WorkflowCall.filings execution threads options) =
        left.toList.map (Filing.mk threads.caller) := by
  have hall : ∀ c ∈ calls, ∃ name, c.step? = some name := fun c hc =>
    ⟨step.name, ((stepRun_calls (engine.over execution) options context step).mem (h ▸ hc)).1⟩
  have hfilter : calls.filter (·.step? = some step.name) = calls := by
    have hrun := @filter_stepRun _ options (engine.over execution) context step
    rwa [h] at hrun
  have hthread : threads.ofStep options step.name = threads.caller := by
    unfold Threads.ofStep
    rw [hinline]
    rfl
  rw [filings_step hall]
  cases stepRun_ledger h with
  | executed hcalls hreturned hbooked =>
    obtain ⟨entry, hentry, hmade⟩ := booked_entries hbooked hmemory
    refine ⟨some entry, .filed hinline (hfilter.symm ▸ hcalls) hentry, ?_⟩
    rw [hcalls, List.flatMap_singleton, WorkflowCall.filings, hreturned, hmade, hthread]
    rfl
  | refused hcalls hfailed =>
    refine ⟨none, .refused hinline hfailed (hfilter.symm ▸ hcalls), ?_⟩
    rw [hcalls]
    rfl

-- ---------------------------------------------------------------------------
-- Units
-- ---------------------------------------------------------------------------

variable {discipline : Discipline} {unit begun : List WorkflowStep}
  {results : Dict Str ExecutionResult} {calls : List WorkflowCall}

omit [Printing] in
theorem entriesOf_eq_nil {thread : Nat} {filings : List Filing}
    (h : ∀ filing ∈ filings, filing.thread ≠ thread) : entriesOf thread filings = [] := by
  unfold entriesOf
  rw [List.filter_eq_nil_iff.mpr fun filing hmem => by simpa using h filing hmem, List.map_nil]

omit [Printing] in
theorem entriesOf_mk (thread : Nat) (entries : List MemoryEntry) :
    entriesOf thread (entries.map (Filing.mk thread)) = entries := by
  unfold entriesOf
  rw [List.filter_eq_self.mpr (by simp), List.map_map]
  simp [Function.comp_def]

theorem UnitRun.leaves_pooled
    (h : UnitRun engine options discipline context unit begun results calls)
    (hparallel : ∀ step ∈ unit, isExplicitlyParallel step.name options = true) :
    List.Forall₂ (Leaves execution options calls) results.entries
        (results.entries.map fun _ => none) ∧
      entriesOf threads.caller (calls.flatMap (WorkflowCall.filings execution threads options)) =
        [] := by
  refine ⟨?_, entriesOf_eq_nil fun filing hfiling => ?_⟩
  · rw [List.forall₂_map_right_iff, List.forall₂_same]
    rintro ⟨name, outcome⟩ hmem
    have hkey : name ∈ results.keys := List.mem_map_of_mem (f := Prod.fst) hmem
    rw [h.keys] at hkey
    obtain ⟨step, hstep, rfl⟩ := List.mem_map.mp (List.mem_filter.mp hkey).1
    exact .pooled (hparallel step hstep)
  · obtain ⟨c, hc, hfiling⟩ := List.mem_flatMap.mp hfiling
    obtain ⟨step, hb, hmem⟩ := h.call hc
    have hname := ((stepRun_calls engine options context step).mem hmem).1
    cases c with
    | execute name request context granted =>
      obtain rfl : name = step.name := Option.some.inj hname
      obtain ⟨entry, -, rfl⟩ := List.mem_map.mp hfiling
      simp only [Threads.ofStep, hparallel step (h.subset step hb), if_true]
      exact threads.pool_ne step.name
    | now | resolve => cases hfiling
    | publish | remember => cases hname

theorem UnitRun.leaves_inline {step : WorkflowStep}
    (h : UnitRun (engine.over execution) options discipline context [step] begun results calls)
    (hmemory : (execution step.name).memory.isSome)
    (hinline : isExplicitlyParallel step.name options = false) :
    ∃ left, List.Forall₂ (Leaves execution options calls) results.entries left ∧
      entriesOf threads.caller (calls.flatMap (WorkflowCall.filings execution threads options)) =
        left.reduceOption := by
  have hbegun : begun = [step] := by
    have hmem : step ∈ begun := by
      by_contra hnot
      obtain ⟨before, stopping, after, result, heq, hs, -⟩ :=
        h.left step (List.mem_singleton_self step) hnot
      exact hnot (List.mem_singleton.mp (h.subset stopping hs) ▸ hs)
    exact List.perm_singleton.mp <| (List.perm_ext_iff_of_nodup (h.nodup.of_map _)
      (List.nodup_singleton step)).mpr fun other => ⟨h.subset other, fun hother =>
        List.mem_singleton.mp hother ▸ hmem⟩
  subst hbegun
  obtain ⟨outcome, houtcome, hget⟩ := h.returned step (List.mem_singleton_self step)
  have hcalls : calls = ((engine.over execution).stepRun options context step).2 := by
    rw [h.calls, List.flatMap_singleton]
  have hentries : results.entries = [(step.name, outcome)] := by
    have hkeys : results.entries.map Prod.fst = [step.name] := h.keys.trans (by simp)
    obtain ⟨entry, hentry, -⟩ := List.map_eq_singleton_iff.mp hkeys
    have hmem := Dict.get?_eq_some.mp hget
    rw [hentry] at hmem
    rw [hentry, ← List.mem_singleton.mp hmem]
  obtain ⟨left, hleft, hfilings⟩ :=
    @stepRun_leaves _ execution threads options engine context step outcome calls
      (Prod.ext houtcome hcalls.symm) hmemory hinline
  refine ⟨[left], ?_, ?_⟩
  · rw [hentries]
    exact .cons hleft .nil
  · rw [hfilings, entriesOf_mk]
    cases left <;> rfl

theorem UnitRun.keys_subset
    (h : UnitRun engine options discipline context unit begun results calls) :
    results.entries.map Prod.fst ⊆ unit.map WorkflowStep.name := by
  have hkeys : results.entries.map Prod.fst = _ := h.keys
  rw [hkeys]
  exact List.filter_subset_self _

theorem UnitRun.leaves
    (h : UnitRun (engine.over execution) options discipline context unit begun results calls)
    (hmemory : ∀ step, (execution step).memory.isSome) (hunit : Uniform options unit) :
    ∃ left, List.Forall₂ (Leaves execution options calls) results.entries left ∧
      entriesOf threads.caller (calls.flatMap (WorkflowCall.filings execution threads options)) =
        left.reduceOption := by
  rcases hunit with hparallel | ⟨step, rfl, hinline⟩
  · obtain ⟨hleft, hnone⟩ := h.leaves_pooled hparallel
    refine ⟨_, hleft, hnone.trans ?_⟩
    simp [List.reduceOption]
  · exact h.leaves_inline (hmemory step.name) hinline

-- ---------------------------------------------------------------------------
-- The loop
-- ---------------------------------------------------------------------------

theorem Leaves.congr {more : List WorkflowCall} {reported : Str × ExecutionResult}
    {left : Option MemoryEntry} (h : Leaves execution options calls reported left)
    (hcalls : more.filter (·.step? = some reported.1) = calls.filter (·.step? = some reported.1)) :
    Leaves execution options more reported left := by
  cases h with
  | pooled hparallel => exact .pooled hparallel
  | refused hinline hfailed hnone => exact .refused hinline hfailed (hcalls.symm ▸ hnone)
  | filed hinline honce hentry => exact .filed hinline (hcalls.symm ▸ honce) hentry

theorem leaves_congr {more : List WorkflowCall} {reported : List (Str × ExecutionResult)}
    {left : List (Option MemoryEntry)}
    (h : List.Forall₂ (Leaves execution options calls) reported left)
    (hcalls : ∀ entry ∈ reported,
      more.filter (·.step? = some entry.1) = calls.filter (·.step? = some entry.1)) :
    List.Forall₂ (Leaves execution options more) reported left :=
  ((List.forall₂_and_left reported left).mpr ⟨hcalls, h⟩).imp fun _ _ hboth => hboth.2.congr hboth.1

theorem UnitsRun.leaves {d : Dict Str ExecutionResult} {units : List (List WorkflowStep)}
    {ended : UnitsEnd}
    (h : UnitsRun (engine.over execution) options discipline context d units ended begun calls)
    (hn : (d.keys ++ units.flatten.map WorkflowStep.name).Nodup)
    (hmemory : ∀ step, (execution step).memory.isSome)
    (hunits : ∀ unit ∈ units, Uniform options unit) :
    ∃ added left, ended.1.entries = d.entries ++ added ∧
      added.map Prod.fst ⊆ units.flatten.map WorkflowStep.name ∧
      List.Forall₂ (Leaves execution options calls) added left ∧
      entriesOf threads.caller (calls.flatMap (WorkflowCall.filings execution threads options)) =
        left.reduceOption := by
  induction h with
  | nil => exact ⟨[], [], by simp, by simp, .nil, rfl⟩
  | @stop context d unit rest begun results calls stopping hunit hstop =>
    rw [List.flatten_cons, List.map_append] at hn ⊢
    obtain ⟨left, hleft, hfiled⟩ :=
      hunit.leaves hmemory (hunits unit List.mem_cons_self)
    refine ⟨results.entries, left, Dict.entries_update d results (hunit.fresh hn), ?_, hleft,
      hfiled⟩
    exact List.subset_append_of_subset_left _ hunit.keys_subset
  | @next context d unit rest begun results calls ended more moreCalls hunit hgo hrest ih =>
    rw [List.flatten_cons, List.map_append] at hn ⊢
    have hdisjoint := (List.nodup_append.mp (List.nodup_append.mp hn).2.1).2.2
    obtain ⟨hfirst, hlater⟩ := List.forall_mem_cons.mp hunits
    obtain ⟨left, hleft, hfiled⟩ := hunit.leaves hmemory hfirst
    obtain ⟨added, left', hadded, hsub, hleft', hfiled'⟩ := ih (hunit.later_nodup hn) hlater
    refine ⟨results.entries ++ added, left ++ left', ?_, ?_, ?_, ?_⟩
    · rw [hadded, Dict.entries_update d results (hunit.fresh hn), List.append_assoc]
    · rw [List.map_append]
      exact List.append_subset.mpr ⟨List.subset_append_of_subset_left _ hunit.keys_subset,
        List.subset_append_of_subset_right _ hsub⟩
    · refine List.rel_append (leaves_congr hleft fun entry hentry => ?_)
        (leaves_congr hleft' fun entry hentry => ?_)
      · have hname := hunit.keys_subset (List.mem_map_of_mem (f := Prod.fst) hentry)
        rw [List.filter_append, hrest.callsOf_other fun hmem => hdisjoint _ hname _ hmem rfl,
          List.append_nil]
      · have hname := hsub (List.mem_map_of_mem (f := Prod.fst) hentry)
        rw [List.filter_append, hunit.callsOf_other fun hmem => hdisjoint _ hmem _ hname rfl,
          List.nil_append]
    · rw [List.flatMap_append, entriesOf_append, hfiled, hfiled', List.reduceOption_append]

end

-- ---------------------------------------------------------------------------
-- Whole runs
-- ---------------------------------------------------------------------------

section
variable {engine : WorkflowEngine} {discipline : Discipline} {options : WorkflowExecutionOptions}
  {context : WorkflowContext} {execution : Str → ExecutionEngine} {workflow : Workflow}
  {schedules : List (List GroupAction)} {result : WorkflowResult} {calls : List WorkflowCall}

theorem RunParts.filed {opened unitCalls closed : List WorkflowCall} (threads : Threads)
    (h : RunParts (engine.over execution) discipline options context workflow result calls opened
      unitCalls closed)
    (hsteps : ∀ step, (execution step).memory.isSome) (hmemory : engine.memory.isSome) :
    ∃ left last, result.stepResults.keys.Sublist (workflow.definition.steps.map WorkflowStep.name) ∧
      List.Forall₂ (Leaves execution options calls) result.stepResults.entries left ∧
      engine.entryOf workflow result = .ok last ∧
      entriesOf threads.caller (calls.flatMap (WorkflowCall.filings execution threads options)) =
        left.reduceOption ++ [last] := by
  obtain ⟨hvalid, rfl, rfl, ⟨ended, begun, rfl, hrun⟩, kept, hkept, rfl⟩ := h
  have huniform : ∀ unit ∈ groupIntoUnits workflow.definition.steps options,
      Uniform options unit := by
    intro unit hunit
    rcases (units_partitioned hvalid).only unit hunit with hgroup | ⟨step, rfl, hnone⟩
    · refine .inl fun step hstep => isExplicitlyParallel_iff.mpr ?_
      exact List.mem_flatten.mpr ⟨_, hgroup, List.mem_map_of_mem hstep⟩
    · exact .inr ⟨step, rfl, Bool.eq_false_iff.mpr (mt isExplicitlyParallel_iff.mp hnone)⟩
  obtain ⟨added, left, hadded, -, hleft, hfiled⟩ :=
    @UnitsRun.leaves _ execution threads options engine context discipline begun unitCalls
      Dict.empty _ ended hrun (units_nodup workflow options) hsteps huniform
  have hentries : (report ended).stepResults.entries = added := by
    rw [report_stepResults, hadded]
    rfl
  have hown := hkept.own
  cases hkept with
  | nothing hnone =>
    rw [show engine.memory = none from hnone] at hmemory
    cases hmemory
  | @entry last _ hlast =>
    refine ⟨left, last, ?_, ?_, hlast, ?_⟩
    · rw [report_stepResults, hrun.keys_eq (units_nodup workflow options), groupIntoUnits_flatten]
      exact List.filter_sublist
    · rw [hentries]
      refine leaves_congr hleft fun reported _ => ?_
      simp only [List.filter_append, own_filter_step (told_own _ _), own_filter_step hown,
        List.nil_append, List.append_nil]
    · simp only [List.flatMap_append, filings_own, List.nil_append, entriesOf_append, hfiled]
      exact congrArg (left.reduceOption ++ ·) (entriesOf_mk threads.caller [last])

/-- The file after a run that returns: what it held, the steps that ran inline in
the declared order, and the run. -/
theorem run_filed (threads : Threads)
    (h : (engine.over execution).run discipline workflow context options schedules =
      some (.ok result, calls))
    (hsteps : ∀ step, (execution step).memory.isSome) (hmemory : engine.memory.isSome)
    {store : SQLiteMemoryStore} {memory : InMemoryStore} (hstore : Represents store memory) :
    ∃ left last, result.stepResults.keys.Sublist (workflow.definition.steps.map WorkflowStep.name) ∧
      List.Forall₂ (Leaves execution options calls) result.stepResults.entries left ∧
      engine.entryOf workflow result = .ok last ∧
      Represents (store.file threads.caller
        (calls.flatMap (WorkflowCall.filings execution threads options)))
        (memory.keep (left.reduceOption ++ [last])) := by
  obtain ⟨opened, unitCalls, closed, hparts⟩ := run_parts h
  obtain ⟨left, last, hnames, hleft, hlast, hfilings⟩ := hparts.filed threads hsteps hmemory
  refine ⟨left, last, hnames, hleft, hlast, ?_⟩
  rw [← hfilings]
  exact file_represents hstore _

end

end

-- ---------------------------------------------------------------------------
-- One step inline, one in a group
-- ---------------------------------------------------------------------------

def secondOptions : @WorkflowExecutionOptions plainPrinting :=
  @WorkflowExecutionOptions.mk plainPrinting Dict.empty [[lit "second"]] Dict.empty rfl

def recordingEngine (step : Str) : ExecutionEngine :=
  { workEngine step with memory := some fun _ => .ok () }

def twoThreads : Threads := ⟨1, fun _ => 2, fun _ => by decide⟩

theorem ledgerEngine_filed : ∃ result calls,
    @WorkflowEngine.run plainPrinting
        (@WorkflowEngine.over plainPrinting ledgerEngine recordingEngine) .any pairWorkflow
        pairContext secondOptions [[], [.submit, .take 0, .finish 0, .yield 0]] =
      some (.ok result, calls) ∧
    result.stepResults.keys = [lit "first", lit "second"] ∧
    ∃ left last, result.stepResults.keys.Sublist
        (pairWorkflow.definition.steps.map WorkflowStep.name) ∧
      List.Forall₂ (@Leaves plainPrinting recordingEngine secondOptions calls)
        result.stepResults.entries left ∧
      @WorkflowEngine.entryOf plainPrinting ledgerEngine pairWorkflow result = .ok last ∧
      @Represents plainPrinting
        (@SQLiteMemoryStore.file plainPrinting 1 ⟨RowTable.empty, RowTable.empty⟩
          (calls.flatMap
            (@WorkflowCall.filings plainPrinting recordingEngine twoThreads secondOptions)))
        (@InMemoryStore.keep plainPrinting InMemoryStore.new (left.reduceOption ++ [last])) := by
  obtain ⟨result, calls, hrun, hkeys⟩ : ∃ result calls,
      @WorkflowEngine.run plainPrinting
          (@WorkflowEngine.over plainPrinting ledgerEngine recordingEngine) .any pairWorkflow
          pairContext secondOptions [[], [.submit, .take 0, .finish 0, .yield 0]] =
        some (.ok result, calls) ∧
      result.stepResults.keys = [lit "first", lit "second"] := ⟨_, _, rfl, rfl⟩
  exact ⟨result, calls, hrun, hkeys, @run_filed plainPrinting _ _ _ _ _ _ _ _ _ twoThreads hrun
    (fun _ => rfl) rfl _ _ (@Represents.empty plainPrinting)⟩

end MellivorKernel
