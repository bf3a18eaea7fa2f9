import MellivorKernel.Workflow.Units

/-!
# The law of a workflow run

What holds of every returning run, whatever the steps answer and however the
pools are scheduled (`run_law`): each step is resolved and executed at most
once, a resolver sees the results of the earlier units and nothing else, and
the result records what was run, in declared order, up to the first failure
that stops the workflow.
-/

namespace MellivorKernel

open Python Foundation Program

def WorkflowCall.nowStep? : WorkflowCall → Option Str
  | .now step => some step
  | _ => none

def WorkflowCall.resolvedStep? : WorkflowCall → Option Str
  | .resolve step .. => some step
  | _ => none

def WorkflowCall.executedStep? : WorkflowCall → Option Str
  | .execute step .. => some step
  | _ => none

theorem filter_mem_append {xs ys picked more : List Str}
    (hn : (xs ++ ys).Nodup) (hp : picked ⊆ xs) (hm : more ⊆ ys) :
    (xs ++ ys).filter (· ∈ picked ++ more) = xs.filter (· ∈ picked) ++ ys.filter (· ∈ more) := by
  have hdisjoint := (List.nodup_append.mp hn).2.2
  rw [List.filter_append]
  congr 1
  · refine List.filter_congr fun x hx => ?_
    have : x ∉ more := fun h => hdisjoint x hx x (hm h) rfl
    simp [this]
  · refine List.filter_congr fun y hy => ?_
    have : y ∉ picked := fun h => hdisjoint y (hp h) y hy rfl
    simp [this]

theorem filterMap_flatMap_sublist {α β γ : Type} {f : α → List β} {g : β → Option γ} {name : α → γ}
    {l : List α} (h : ∀ x ∈ l, ((f x).filterMap g).Sublist [name x]) :
    ((l.flatMap f).filterMap g).Sublist (l.map name) := by
  induction l with
  | nil => simp
  | cons x rest ih =>
    rw [List.flatMap_cons, List.filterMap_append, List.map_cons, ← List.singleton_append]
    exact (h x (by simp)).append (ih fun y hy => h y (List.mem_cons_of_mem _ hy))

theorem nodup_unit {d : Dict Str ExecutionResult} {unit : List WorkflowStep} {later : List (List WorkflowStep)}
    (hn : (d.keys ++ (unit :: later).flatten.map WorkflowStep.name).Nodup) :
    (unit.map WorkflowStep.name).Nodup := by
  rw [List.flatten_cons, List.map_append] at hn
  exact (List.nodup_append.mp (List.nodup_append.mp hn).2.1).1

theorem not_mem_unit {d : Dict Str ExecutionResult} {unit : List WorkflowStep}
    {later : List (List WorkflowStep)}
    (hn : (d.keys ++ (unit :: later).flatten.map WorkflowStep.name).Nodup) {step : WorkflowStep}
    (hstep : step ∈ later.flatten) : step.name ∉ unit.map WorkflowStep.name := by
  rw [List.flatten_cons, List.map_append] at hn
  exact fun hmem => (List.nodup_append.mp (List.nodup_append.mp hn).2.1).2.2 _ hmem _
    (List.mem_map_of_mem hstep) rfl

theorem WorkflowCall.step?_of_resolved {c : WorkflowCall} {name : Str}
    (h : c.resolvedStep? = some name) : c.step? = some name := by
  cases c <;> first | exact h | cases h

theorem WorkflowCall.step?_of_executed {c : WorkflowCall} {name : Str}
    (h : c.executedStep? = some name) : c.step? = some name := by
  cases c <;> first | exact h | cases h

theorem mem_of_step {opening closing unitCalls : List WorkflowCall}
    (hown : ∀ c ∈ opening ++ closing, c.Own) {c : WorkflowCall} {name : Str}
    (hc : c ∈ opening ++ unitCalls ++ closing) (hname : c.step? = some name) : c ∈ unitCalls := by
  have hnot : c ∉ opening ++ closing := fun hmem => by
    have := hown c hmem
    rw [WorkflowCall.Own, hname] at this
    cases this
  simp only [List.mem_append, not_or] at hc hnot
  exact (hc.resolve_right hnot.2).resolve_left hnot.1

/-- Picking calls for steps sees only what the units called. -/
theorem filterMap_own {opening closing unitCalls : List WorkflowCall}
    (hown : ∀ c ∈ opening ++ closing, c.Own) {pick : WorkflowCall → Option Str}
    (hpick : ∀ {c : WorkflowCall} {name : Str}, pick c = some name → c.step? = some name) :
    (opening ++ unitCalls ++ closing).filterMap pick = unitCalls.filterMap pick := by
  have hnil {l : List WorkflowCall} (hl : l ⊆ opening ++ closing) : l.filterMap pick = [] := by
    refine List.filterMap_eq_nil_iff.mpr fun c hc => Option.eq_none_iff_forall_ne_some.mpr ?_
    intro name hname
    have := hown c (hl hc)
    rw [WorkflowCall.Own, hpick hname] at this
    cases this
  simp only [List.filterMap_append]
  rw [hnil (List.subset_append_left _ _), hnil (List.subset_append_right _ _), List.nil_append,
    List.append_nil]

section
variable [Printing] {engine : WorkflowEngine} {discipline : Discipline}
  {options : WorkflowExecutionOptions} {context : WorkflowContext}

-- ---------------------------------------------------------------------------
-- The calls of one step
-- ---------------------------------------------------------------------------

theorem StepCalls.sublists {step : WorkflowStep} {calls : List WorkflowCall}
    (h : StepCalls engine options context step calls) :
    (calls.filterMap WorkflowCall.nowStep?).Sublist [step.name] ∧
      (calls.filterMap WorkflowCall.resolvedStep?).Sublist [step.name] ∧
      (calls.filterMap WorkflowCall.executedStep?).Sublist [step.name] := by
  obtain ⟨resolves, executes, rfl, hr, he⟩ := h.shape
  rcases hr with rfl | rfl <;> rcases he with rfl | ⟨request, rfl⟩ <;> refine ⟨?_, ?_, ?_⟩ <;>
    first | exact List.Sublist.refl _ | exact List.nil_sublist _

theorem StepCalls.mem {step : WorkflowStep} {calls : List WorkflowCall}
    (h : StepCalls engine options context step calls) {c : WorkflowCall} (hc : c ∈ calls) :
    c.step? = some step.name ∧
      ∀ name seen request, c = .resolve name seen request → seen = context := by
  obtain ⟨resolves, executes, rfl, hr, he⟩ := h.shape
  simp only [List.mem_cons, List.mem_append] at hc
  rcases hc with rfl | hc | hc
  · exact ⟨rfl, nofun⟩
  · rcases hr with rfl | rfl
    · cases hc
    · obtain rfl := List.mem_singleton.mp hc
      refine ⟨rfl, fun _ _ _ heq => ?_⟩
      cases heq
      rfl
  · rcases he with rfl | ⟨request, rfl⟩
    · cases hc
    · obtain rfl := List.mem_singleton.mp hc
      exact ⟨rfl, nofun⟩

-- ---------------------------------------------------------------------------
-- One unit
-- ---------------------------------------------------------------------------

section
variable {unit begun : List WorkflowStep} {results : Dict Str ExecutionResult}
  {calls : List WorkflowCall}

theorem UnitRun.names_subset (h : UnitRun engine options discipline context unit begun results calls) :
    begun.map WorkflowStep.name ⊆ unit.map WorkflowStep.name :=
  List.map_subset _ h.subset

/-- A unit without a recorded stopping failure ran every step. -/
theorem UnitRun.all_begun (h : UnitRun engine options discipline context unit begun results calls)
    (hgo : firstStoppingFailure unit results = none) : ∀ step ∈ unit, step ∈ begun := by
  intro step hstep
  by_contra hb
  obtain ⟨before, stopping, after, result, rfl, hs, ho, hstop, -⟩ := h.left step hstep hb
  obtain ⟨r, hr, hget⟩ := h.returned stopping hs
  obtain rfl := Except.ok.inj (ho.symm.trans hr)
  exact firstStoppingFailure_eq_none hgo stopping (by simp) result hget hstop

theorem UnitRun.call (h : UnitRun engine options discipline context unit begun results calls)
    {c : WorkflowCall} (hc : c ∈ calls) :
    ∃ step ∈ begun, c ∈ (engine.stepRun options context step).2 := by
  rw [h.calls] at hc
  exact List.mem_flatMap.mp hc

theorem UnitRun.lookup (h : UnitRun engine options discipline context unit begun results calls)
    {step : WorkflowStep} (hn : (unit.map WorkflowStep.name).Nodup) (hstep : step ∈ unit)
    {result : ExecutionResult} (hr : results.get? step.name = some result) :
    step ∈ begun ∧ (engine.stepRun options context step).1 = .ok result := by
  have hk : step.name ∈ results.keys := Dict.mem_keys.mpr ⟨result, hr⟩
  rw [h.keys, List.mem_filter, decide_eq_true_eq] at hk
  obtain ⟨other, hother, hname⟩ := List.mem_map.mp hk.2
  obtain rfl := List.inj_on_of_nodup_map hn (h.subset other hother) hstep hname
  obtain ⟨r, ho, hget⟩ := h.returned other hother
  rw [hr] at hget
  exact ⟨hother, by rw [ho, Option.some.inj hget]⟩

theorem UnitRun.fresh (h : UnitRun engine options discipline context unit begun results calls)
    {d : Dict Str ExecutionResult} {later : List Str}
    (hn : (d.keys ++ (unit.map WorkflowStep.name ++ later)).Nodup) :
    ∀ k ∈ results.keys, k ∉ d.keys := by
  intro k hk hd
  rw [h.keys] at hk
  exact (List.nodup_append.mp hn).2.2 k hd k (List.mem_append_left _ (List.mem_filter.mp hk).1) rfl

theorem UnitRun.update_keys (h : UnitRun engine options discipline context unit begun results calls)
    {d : Dict Str ExecutionResult} {later : List Str}
    (hn : (d.keys ++ (unit.map WorkflowStep.name ++ later)).Nodup) :
    (d.update results).keys = d.keys ++ results.keys := by
  rw [Dict.keys, Dict.entries_update d results (h.fresh hn), List.map_append]
  rfl

theorem UnitRun.later_nodup (h : UnitRun engine options discipline context unit begun results calls)
    {d : Dict Str ExecutionResult} {later : List Str}
    (hn : (d.keys ++ (unit.map WorkflowStep.name ++ later)).Nodup) :
    ((d.update results).keys ++ later).Nodup := by
  rw [h.update_keys hn, h.keys]
  rw [← List.append_assoc] at hn
  exact hn.sublist (((List.Sublist.refl _).append List.filter_sublist).append (List.Sublist.refl _))

/-- Nothing recorded later changes what a unit recorded. -/
theorem UnitRun.get?_final (h : UnitRun engine options discipline context unit begun results calls)
    {d final : Dict Str ExecutionResult} {later : List Str} {added : List (Str × ExecutionResult)}
    (hn : (d.keys ++ (unit.map WorkflowStep.name ++ later)).Nodup)
    (hentries : final.entries = (d.update results).entries ++ added)
    (hadded : added.map Prod.fst ⊆ later) {step : WorkflowStep} (hstep : step ∈ unit) :
    final.get? step.name = results.get? step.name := by
  have hname : step.name ∈ unit.map WorkflowStep.name := List.mem_map_of_mem hstep
  obtain ⟨-, hnames, hd⟩ := List.nodup_append.mp hn
  rw [Dict.entries_update d results (h.fresh hn), List.append_assoc] at hentries
  refine Dict.get?_middle hentries ?_ ?_
  · exact fun hk => hd _ hk _ (List.mem_append_left _ hname) rfl
  · exact fun hk => (List.nodup_append.mp hnames).2.2 _ hname _ (hadded hk) rfl

theorem UnitRun.get?_update (h : UnitRun engine options discipline context unit begun results calls)
    {d : Dict Str ExecutionResult} {later : List Str}
    (hn : (d.keys ++ (unit.map WorkflowStep.name ++ later)).Nodup) {step : WorkflowStep}
    (hstep : step ∈ unit) : (d.update results).get? step.name = results.get? step.name :=
  h.get?_final hn (List.append_nil _).symm (List.nil_subset later) hstep

end

-- ---------------------------------------------------------------------------
-- The loop
-- ---------------------------------------------------------------------------

section
variable {d : Dict Str ExecutionResult} {units : List (List WorkflowStep)} {ended : UnitsEnd}
  {begun : List WorkflowStep} {calls : List WorkflowCall}

theorem UnitsRun.begun_subset (h : UnitsRun engine options discipline context d units ended begun calls) :
    begun ⊆ units.flatten := by
  induction h with
  | nil => simp
  | stop hunit hstop =>
    exact fun step hs => List.mem_flatten.mpr ⟨_, by simp, hunit.subset step hs⟩
  | next hunit hgo hrest ih =>
    rw [List.flatten_cons]
    exact List.append_subset.mpr
      ⟨fun step hs => List.mem_append_left _ (hunit.subset step hs),
        fun step hs => List.mem_append_right _ (ih hs)⟩

theorem UnitsRun.begun_nodup (h : UnitsRun engine options discipline context d units ended begun calls)
    (hn : (units.flatten.map WorkflowStep.name).Nodup) : (begun.map WorkflowStep.name).Nodup := by
  induction h with
  | nil => simp
  | stop hunit hstop => exact hunit.nodup
  | next hunit hgo hrest ih =>
    rw [List.flatten_cons, List.map_append, List.nodup_append] at hn
    rw [List.map_append, List.nodup_append]
    refine ⟨hunit.nodup, ih hn.2.1, fun a ha b hb => ?_⟩
    exact hn.2.2 a (hunit.names_subset ha) b (List.map_subset _ hrest.begun_subset hb)

/-- The loop appends the results of the begun steps, in declared order. -/
theorem UnitsRun.entries (h : UnitsRun engine options discipline context d units ended begun calls)
    (hn : (d.keys ++ units.flatten.map WorkflowStep.name).Nodup) :
    ∃ added, ended.1.entries = d.entries ++ added ∧ added.map Prod.fst =
      (units.flatten.map WorkflowStep.name).filter (· ∈ begun.map WorkflowStep.name) := by
  induction h with
  | nil => exact ⟨[], by simp, by simp⟩
  | @stop context d unit rest begun results calls stopping hunit hstop =>
    rw [List.flatten_cons, List.map_append] at hn ⊢
    refine ⟨results.entries, Dict.entries_update d results (hunit.fresh hn), ?_⟩
    have hpicked := filter_mem_append (List.nodup_append.mp hn).2.1
      hunit.names_subset (List.nil_subset _)
    rw [List.append_nil] at hpicked
    rw [hpicked, ← hunit.keys]
    simp [Dict.keys]
  | @next context d unit rest begun results calls ended more moreCalls hunit hgo hrest ih =>
    rw [List.flatten_cons, List.map_append] at hn ⊢
    obtain ⟨added, hadded, hk⟩ := ih (hunit.later_nodup hn)
    refine ⟨results.entries ++ added, ?_, ?_⟩
    · rw [hadded, Dict.entries_update d results (hunit.fresh hn), List.append_assoc]
    · rw [List.map_append, hk, List.map_append, filter_mem_append (List.nodup_append.mp hn).2.1
        hunit.names_subset (List.map_subset _ hrest.begun_subset), ← hunit.keys]
      rfl

theorem UnitsRun.keys_eq
    (h : UnitsRun engine options discipline context Dict.empty units ended begun calls)
    (hn : (units.flatten.map WorkflowStep.name).Nodup) : ended.1.keys =
      (units.flatten.map WorkflowStep.name).filter (· ∈ begun.map WorkflowStep.name) := by
  obtain ⟨added, hadded, hkeys⟩ := h.entries (by simpa using hn)
  rw [← hkeys, Dict.keys, hadded]
  rfl

theorem UnitsRun.call (h : UnitsRun engine options discipline context d units ended begun calls)
    {c : WorkflowCall} (hc : c ∈ calls) : ∃ step ∈ begun, ∃ seen,
      c ∈ (engine.stepRun options seen step).2 := by
  induction h with
  | nil => cases hc
  | stop hunit hstop =>
    obtain ⟨step, hs, hmem⟩ := hunit.call hc
    exact ⟨step, hs, _, hmem⟩
  | next hunit hgo hrest ih =>
    rcases List.mem_append.mp hc with hc | hc
    · obtain ⟨step, hs, hmem⟩ := hunit.call hc
      exact ⟨step, List.mem_append_left _ hs, _, hmem⟩
    · obtain ⟨step, hs, seen, hmem⟩ := ih hc
      exact ⟨step, List.mem_append_right _ hs, seen, hmem⟩

theorem UnitsRun.sublist (h : UnitsRun engine options discipline context d units ended begun calls)
    {pick : WorkflowCall → Option Str}
    (hpick : ∀ seen step,
      ((engine.stepRun options seen step).2.filterMap pick).Sublist [step.name]) :
    (calls.filterMap pick).Sublist (begun.map WorkflowStep.name) := by
  induction h with
  | nil => simp
  | stop hunit hstop =>
    rw [hunit.calls]
    exact filterMap_flatMap_sublist fun step _ => hpick _ step
  | next hunit hgo hrest ih =>
    rw [hunit.calls, List.filterMap_append, List.map_append]
    exact (filterMap_flatMap_sublist fun step _ => hpick _ step).append ih

theorem UnitsRun.entries_later {later : List (List WorkflowStep)} {unit begun₁ : List WorkflowStep}
    {results : Dict Str ExecutionResult} {calls₁ : List WorkflowCall}
    (hunit : UnitRun engine options discipline context unit begun₁ results calls₁)
    (hn : (d.keys ++ (unit :: later).flatten.map WorkflowStep.name).Nodup)
    (hrest : UnitsRun engine options discipline
      { context with stepResults := d.update results } (d.update results) later ended begun calls) :
    ∃ added, ended.1.entries = (d.update results).entries ++ added ∧
      added.map Prod.fst ⊆ later.flatten.map WorkflowStep.name := by
  rw [List.flatten_cons, List.map_append] at hn
  obtain ⟨added, hadded, hk⟩ := hrest.entries (hunit.later_nodup hn)
  exact ⟨added, hadded, hk ▸ List.filter_subset_self _⟩

theorem UnitsRun.mem_keys (h : UnitsRun engine options discipline context d units ended begun calls)
    (hn : (d.keys ++ units.flatten.map WorkflowStep.name).Nodup) {step : WorkflowStep}
    (hstep : step ∈ units.flatten) : step.name ∈ ended.1.keys ↔ step ∈ begun := by
  obtain ⟨added, hadded, hk⟩ := h.entries hn
  obtain ⟨-, hnames, hd⟩ := List.nodup_append.mp hn
  have hname := List.mem_map_of_mem (f := WorkflowStep.name) hstep
  have hfresh : step.name ∉ d.keys := fun hmem => hd _ hmem _ hname rfl
  have hkeys : ended.1.keys = d.keys ++ added.map Prod.fst := by
    rw [Dict.keys, hadded, List.map_append]
    rfl
  rw [hkeys, hk, List.mem_append, List.mem_filter, decide_eq_true_eq]
  constructor
  · rintro (hmem | ⟨-, hmem⟩)
    · exact absurd hmem hfresh
    · obtain ⟨other, hother, heq⟩ := List.mem_map.mp hmem
      rwa [← List.inj_on_of_nodup_map hnames (h.begun_subset hother) hstep heq]
  · exact fun hmem => .inr ⟨hname, List.mem_map_of_mem hmem⟩

theorem UnitsRun.returned (h : UnitsRun engine options discipline context d units ended begun calls)
    (hn : (d.keys ++ units.flatten.map WorkflowStep.name).Nodup) {step : WorkflowStep}
    (hstep : step ∈ units.flatten) {result : ExecutionResult}
    (hr : ended.1.get? step.name = some result) :
    ∃ seen, (engine.stepRun options seen step).1 = .ok result := by
  induction h with
  | nil => cases hstep
  | @stop context d unit rest begun results calls stopping hunit hstop =>
    have hu := nodup_unit hn
    have hmem : step ∈ unit := hunit.subset step <|
      (UnitsRun.mem_keys (.stop hunit hstop) hn hstep).mp (Dict.mem_keys.mpr ⟨result, hr⟩)
    rw [List.flatten_cons, List.map_append] at hn
    rw [hunit.get?_update hn hmem] at hr
    exact ⟨context, (hunit.lookup hu hmem hr).2⟩
  | @next context d unit rest begun results calls ended more moreCalls hunit hgo hrest ih =>
    obtain ⟨added, hadded, hsub⟩ := UnitsRun.entries_later hunit hn hrest
    have hu := nodup_unit hn
    rw [List.flatten_cons, List.map_append] at hn
    rw [List.flatten_cons] at hstep
    rcases List.mem_append.mp hstep with hmem | hmem
    · rw [hunit.get?_final hn hadded hsub hmem] at hr
      exact ⟨context, (hunit.lookup hu hmem hr).2⟩
    · exact ih (hunit.later_nodup hn) hmem hr

theorem UnitsRun.completed (h : UnitsRun engine options discipline context d units ended begun calls)
    (hn : (d.keys ++ units.flatten.map WorkflowStep.name).Nodup) (hend : ended.2 = none) :
    ∀ step ∈ units.flatten, step ∈ begun ∧
      ∀ r, ended.1.get? step.name = some r → ¬ step.StoppedBy r := by
  induction h with
  | nil => simp
  | stop => cases hend
  | @next context d unit rest begun results calls ended more moreCalls hunit hgo hrest ih =>
    obtain ⟨added, hadded, hsub⟩ := UnitsRun.entries_later hunit hn hrest
    rw [List.flatten_cons, List.map_append] at hn
    intro step hstep
    rw [List.flatten_cons] at hstep
    rcases List.mem_append.mp hstep with hmem | hmem
    · refine ⟨List.mem_append_left _ (hunit.all_begun hgo step hmem), fun r hr => ?_⟩
      rw [hunit.get?_final hn hadded hsub hmem] at hr
      exact firstStoppingFailure_eq_none hgo step hmem r hr
    · obtain ⟨hb, hr⟩ := ih (hunit.later_nodup hn) hend step hmem
      exact ⟨List.mem_append_right _ hb, hr⟩

/-- A loop that stopped names the first recorded stopping failure in declared
order. -/
theorem UnitsRun.stopped (h : UnitsRun engine options discipline context d units ended begun calls)
    (hn : (d.keys ++ units.flatten.map WorkflowStep.name).Nodup) {stopping : WorkflowStep}
    {result : ExecutionResult} (hend : ended.2 = some (stopping, result)) :
    ∃ before after, units.flatten = before ++ stopping :: after ∧
      ended.1.get? stopping.name = some result ∧ stopping.StoppedBy result ∧
      ∀ earlier ∈ before, ∀ r, ended.1.get? earlier.name = some r → ¬ earlier.StoppedBy r := by
  induction h with
  | nil => cases hend
  | @stop context d unit rest begun results calls stopping hunit hstop =>
    cases hend
    obtain ⟨before, after, hsplit, hget, hfail, hbefore⟩ := firstStoppingFailure_eq_some hstop
    rw [List.flatten_cons, List.map_append] at hn
    refine ⟨before, after ++ rest.flatten, by simp [hsplit], ?_, hfail, fun earlier hmem r hr => ?_⟩
    · rw [hunit.get?_update hn (by simp [hsplit]), hget]
    · rw [hunit.get?_update hn (by simp [hsplit, hmem])] at hr
      exact hbefore earlier hmem r hr
  | @next context d unit rest begun results calls ended more moreCalls hunit hgo hrest ih =>
    obtain ⟨added, hadded, hsub⟩ := UnitsRun.entries_later hunit hn hrest
    rw [List.flatten_cons, List.map_append] at hn
    obtain ⟨before, after, hsplit, hget, hfail, hbefore⟩ := ih (hunit.later_nodup hn) hend
    refine ⟨unit ++ before, after, by simp [hsplit], hget, hfail, fun earlier hmem r hr => ?_⟩
    rcases List.mem_append.mp hmem with hmem | hmem
    · rw [hunit.get?_final hn hadded hsub hmem] at hr
      exact firstStoppingFailure_eq_none hgo earlier hmem r hr
    · exact hbefore earlier hmem r hr

theorem UnitRun.resolve_mem {unit : List WorkflowStep} {results : Dict Str ExecutionResult}
    (h : UnitRun engine options discipline context unit begun results calls) {name : Str}
    {seen : WorkflowContext} {request : ExecutionRequest}
    (hc : WorkflowCall.resolve name seen request ∈ calls) :
    name ∈ unit.map WorkflowStep.name ∧ seen = context := by
  obtain ⟨step, hs, hmem⟩ := h.call hc
  obtain ⟨hname, hseen⟩ := (stepRun_calls engine options context step).mem hmem
  refine ⟨?_, hseen _ _ _ rfl⟩
  rw [Option.some.inj hname]
  exact List.mem_map_of_mem (h.subset step hs)

theorem UnitsRun.resolve_mem (h : UnitsRun engine options discipline context d units ended begun calls)
    {name : Str} {seen : WorkflowContext} {request : ExecutionRequest}
    (hc : WorkflowCall.resolve name seen request ∈ calls) :
    ∃ step ∈ units.flatten, step.name = name := by
  obtain ⟨step, hs, seen', hmem⟩ := h.call hc
  exact ⟨step, h.begun_subset hs,
    (Option.some.inj ((stepRun_calls engine options seen' step).mem hmem).1).symm⟩

/-- What the resolver of a step in `unit` sees: the results of the units before
it, or for the first unit the context the loop started in. -/
theorem UnitsRun.resolved (h : UnitsRun engine options discipline context d units ended begun calls)
    (hn : (d.keys ++ units.flatten.map WorkflowStep.name).Nodup)
    {before after : List (List WorkflowStep)} {unit : List WorkflowStep}
    (hunits : units = before ++ unit :: after) {step : WorkflowStep} (hstep : step ∈ unit)
    {seen : WorkflowContext} {request : ExecutionRequest}
    (hc : WorkflowCall.resolve step.name seen request ∈ calls) :
    (before = [] → seen = context) ∧
    (before ≠ [] → seen.executionContext = context.executionContext ∧
      seen.stepResults.entries = ended.1.entries.filter
        fun p => p.1 ∉ (unit :: after).flatten.map WorkflowStep.name) := by
  induction h generalizing before with
  | nil => cases hc
  | @stop context d unit' rest begun results calls stopping hunit hstop =>
    obtain ⟨hname, hseen⟩ := hunit.resolve_mem hc
    cases before with
    | nil => exact ⟨fun _ => hseen, fun h => absurd rfl h⟩
    | cons first before =>
      obtain ⟨rfl, rfl⟩ := List.cons.inj hunits
      exact absurd hname (not_mem_unit hn (by simp [hstep]))
  | @next context d unit' rest begun results calls ended more moreCalls hunit hgo hrest ih =>
    obtain ⟨added, hadded, hsub⟩ := UnitsRun.entries_later hunit hn hrest
    have hlater := hn
    rw [List.flatten_cons, List.map_append] at hlater
    have hlater := hunit.later_nodup hlater
    rcases List.mem_append.mp hc with hc | hc
    · obtain ⟨hname, hseen⟩ := hunit.resolve_mem hc
      cases before with
      | nil => exact ⟨fun _ => hseen, fun h => absurd rfl h⟩
      | cons first before =>
        obtain ⟨rfl, rfl⟩ := List.cons.inj hunits
        exact absurd hname (not_mem_unit hn (by simp [hstep]))
    · cases before with
      | nil =>
        obtain ⟨rfl, rfl⟩ := List.cons.inj hunits
        obtain ⟨other, hother, hname⟩ := hrest.resolve_mem hc
        exact absurd (List.mem_map_of_mem hstep) (hname ▸ not_mem_unit hn hother)
      | cons first before =>
        obtain ⟨rfl, rfl⟩ := List.cons.inj hunits
        refine ⟨nofun, fun _ => ?_⟩
        obtain ⟨hnil, hcons⟩ := ih hlater rfl hc
        cases before with
        | cons second before => exact hcons nofun
        | nil =>
          rw [hnil rfl]
          refine ⟨rfl, ?_⟩
          rw [hadded, List.filter_append, List.filter_eq_self.mpr, List.filter_eq_nil_iff.mpr,
            List.append_nil]
          · intro p hp
            rw [decide_eq_true_eq, not_not]
            exact hsub (List.mem_map_of_mem hp)
          · intro p hp
            rw [decide_eq_true_eq]
            exact fun hmem => (List.nodup_append.mp hlater).2.2 p.1 (List.mem_map_of_mem hp) p.1
              hmem rfl

theorem UnitsRun.mem_begun_of_call
    (h : UnitsRun engine options discipline context d units ended begun calls)
    (hn : (units.flatten.map WorkflowStep.name).Nodup) {step : WorkflowStep}
    (hstep : step ∈ units.flatten) {c : WorkflowCall} (hc : c ∈ calls)
    (hname : c.step? = some step.name) :
    step ∈ begun ∧ ∃ seen, c ∈ (engine.stepRun options seen step).2 := by
  obtain ⟨other, hb, seen, hmem⟩ := h.call hc
  have heq := ((stepRun_calls engine options seen other).mem hmem).1
  rw [hname] at heq
  obtain rfl := List.inj_on_of_nodup_map hn hstep (h.begun_subset hb) (Option.some.inj heq)
  exact ⟨hb, seen, hmem⟩

theorem UnitsRun.notDue (h : UnitsRun engine options discipline context d units ended begun calls)
    (hn : (units.flatten.map WorkflowStep.name).Nodup) {step : WorkflowStep}
    (hstep : step ∈ units.flatten) {notBefore : ZonedDateTime}
    (hb : options.notBefore.get? step.name = some notBefore)
    (ht : (engine.clock step).lessThan notBefore = .ok true) {c : WorkflowCall} (hc : c ∈ calls)
    (hname : c.step? = some step.name) : c = .now step.name := by
  obtain ⟨-, seen, hmem⟩ := h.mem_begun_of_call hn hstep hc hname
  rw [(stepRun_calls engine options seen step).due notBefore hb ht] at hmem
  exact List.mem_singleton.mp hmem

end

-- ---------------------------------------------------------------------------
-- The run law
-- ---------------------------------------------------------------------------

structure RunLaw [Printing] (engine : WorkflowEngine) (steps : List WorkflowStep)
    (context : WorkflowContext) (options : WorkflowExecutionOptions) (result : WorkflowResult)
    (calls : List WorkflowCall) : Prop where
  executedOnce : (calls.filterMap WorkflowCall.executedStep?).Nodup
  resolvedOnce : (calls.filterMap WorkflowCall.resolvedStep?).Nodup
  resolverContext : ∀ before unit after,
    groupIntoUnits steps options = before ++ unit :: after → ∀ step ∈ unit, ∀ seen request,
    .resolve step.name seen request ∈ calls →
      (before = [] → seen = context) ∧
      (before ≠ [] → seen.executionContext = context.executionContext ∧
        seen.stepResults.entries = result.stepResults.entries.filter
          fun p => p.1 ∈ before.flatten.map WorkflowStep.name)
  /-- Later by Python's `<` on the two values. -/
  notDue : ∀ step ∈ steps, ∀ notBefore, options.notBefore.get? step.name = some notBefore →
    (engine.clock step).lessThan notBefore = .ok true →
      step.name ∉ calls.filterMap WorkflowCall.resolvedStep? ∧
      step.name ∉ calls.filterMap WorkflowCall.executedStep?
  declaredOrder : result.stepResults.keys.Sublist (steps.map WorkflowStep.name)
  recorded : ∀ step ∈ steps, (∃ c ∈ calls, c.step? = some step.name) →
    ∃ r, result.stepResults.get? step.name = some r
  returned : ∀ step ∈ steps, ∀ r, result.stepResults.get? step.name = some r →
    ∃ seen, (engine.stepRun options seen step).1 = .ok r
  success_iff : result.success = true ↔
    ∀ step ∈ steps, ∀ r, result.stepResults.get? step.name = some r → ¬ step.StoppedBy r
  complete : result.success = true → result.stepResults.keys = steps.map WorkflowStep.name
  stopped : result.success = false → ∃ before step after r, steps = before ++ step :: after ∧
    result.stoppedAt = some step.name ∧ result.error = some (stoppingError step r) ∧
    result.stepResults.get? step.name = some r ∧ step.StoppedBy r ∧
    ∀ earlier ∈ before, ∀ r', result.stepResults.get? earlier.name = some r' →
      ¬ earlier.StoppedBy r'

theorem report_stepResults (ended : UnitsEnd) : (report ended).stepResults = ended.1 := by
  obtain ⟨d, _ | ⟨step, r⟩⟩ := ended <;> rfl

theorem report_success {ended : UnitsEnd} : (report ended).success = true ↔ ended.2 = none := by
  obtain ⟨d, _ | ⟨step, r⟩⟩ := ended
  · exact iff_of_true rfl rfl
  · exact iff_of_false nofun nofun

theorem report_stoppedAt {ended : UnitsEnd} {step : WorkflowStep} {r : ExecutionResult}
    (h : ended.2 = some (step, r)) : (report ended).stoppedAt = some step.name := by
  obtain ⟨d, stopping⟩ := ended
  cases h
  rfl

theorem report_error {ended : UnitsEnd} {step : WorkflowStep} {r : ExecutionResult}
    (h : ended.2 = some (step, r)) : (report ended).error = some (stoppingError step r) := by
  obtain ⟨d, stopping⟩ := ended
  cases h
  rfl

/-- Every returning run keeps the law, for any accepted options, any answers
and any schedules. -/
theorem run_law {workflow : Workflow} {schedules : List (List GroupAction)}
    {result : WorkflowResult} {calls : List WorkflowCall}
    (h : engine.run discipline workflow context options schedules = some (.ok result, calls)) :
    RunLaw engine workflow.definition.steps context options result calls := by
  obtain ⟨ended, begun, unitCalls, opening, closing, hrun, rfl, rfl, hown⟩ := run_unitsRun h
  have hflat := groupIntoUnits_flatten workflow.definition.steps options
  have hn := workflow.definition.steps_nodup
  rw [← hflat] at hn
  have hfresh : ((Dict.empty : Dict Str ExecutionResult).keys ++
    (groupIntoUnits workflow.definition.steps options).flatten.map WorkflowStep.name).Nodup := hn
  have hunit {c : WorkflowCall} {name : Str} (hc : c ∈ opening ++ unitCalls ++ closing)
      (hname : c.step? = some name) : c ∈ unitCalls := mem_of_step hown hc hname
  have hdue : ∀ step ∈ workflow.definition.steps, ∀ notBefore,
      options.notBefore.get? step.name = some notBefore →
      (engine.clock step).lessThan notBefore = .ok true → ∀ c ∈ opening ++ unitCalls ++ closing,
        c.step? = some step.name → c = .now step.name := by
    intro step hstep notBefore hb ht c hc hname
    exact hrun.notDue hn (by rwa [hflat]) hb ht (hunit hc hname) hname
  constructor
  case executedOnce =>
    rw [filterMap_own hown WorkflowCall.step?_of_executed]
    refine (hrun.sublist fun seen step => ?_).nodup (hrun.begun_nodup hn)
    exact (stepRun_calls engine options seen step).sublists.2.2
  case resolvedOnce =>
    rw [filterMap_own hown WorkflowCall.step?_of_resolved]
    refine (hrun.sublist fun seen step => ?_).nodup (hrun.begun_nodup hn)
    exact (stepRun_calls engine options seen step).sublists.2.1
  case resolverContext =>
    intro before unit after hsplit step hstep seen request hc
    obtain ⟨hfirst, hlater⟩ := hrun.resolved hfresh hsplit hstep (hunit hc rfl)
    refine ⟨hfirst, fun hne => ⟨(hlater hne).1, ?_⟩⟩
    rw [(hlater hne).2, report_stepResults]
    -- a recorded step is in an earlier unit or in this one or a later one, not in both
    refine List.filter_congr fun p hp => decide_eq_decide.mpr ?_
    have hp' : p.1 ∈ ended.1.keys := List.mem_map_of_mem hp
    rw [hrun.keys_eq hn, List.mem_filter] at hp'
    rw [hsplit, List.flatten_append, List.map_append] at hn hp'
    constructor
    · exact fun hnot => (List.mem_append.mp hp'.1).resolve_right hnot
    · exact fun hb ha => (List.nodup_append.mp hn).2.2 _ hb _ ha rfl
  case notDue =>
    intro step hstep notBefore hb ht
    constructor <;> intro hmem <;> obtain ⟨c, hc, hpick⟩ := List.mem_filterMap.mp hmem
    · have := hdue step hstep notBefore hb ht c hc (WorkflowCall.step?_of_resolved hpick)
      subst this
      cases hpick
    · have := hdue step hstep notBefore hb ht c hc (WorkflowCall.step?_of_executed hpick)
      subst this
      cases hpick
  case declaredOrder =>
    rw [report_stepResults, hrun.keys_eq hn, hflat]
    exact List.filter_sublist
  case recorded =>
    rintro step hstep ⟨c, hc, hname⟩
    rw [← hflat] at hstep
    rw [report_stepResults]
    have hb := (hrun.mem_begun_of_call hn hstep (hunit hc hname) hname).1
    exact Dict.mem_keys.mp ((hrun.mem_keys hfresh hstep).mpr hb)
  case returned =>
    intro step hstep r hr
    rw [report_stepResults] at hr
    exact hrun.returned hfresh (by rwa [hflat]) hr
  case success_iff =>
    rw [report_stepResults, ← hflat]
    constructor
    · exact fun hs step hstep => (hrun.completed hfresh (report_success.mp hs) step hstep).2
    · intro hall
      refine report_success.mpr ?_
      cases hend : ended.2 with
      | none => rfl
      | some stopping =>
        obtain ⟨before, after, hsplit, hget, hstop, -⟩ := hrun.stopped hfresh hend
        exact absurd hstop (hall _ (by rw [hsplit]; simp) _ hget)
  case complete =>
    intro hs
    rw [report_stepResults, hrun.keys_eq hn, hflat]
    refine List.filter_eq_self.mpr fun name hname => ?_
    obtain ⟨step, hstep, rfl⟩ := List.mem_map.mp hname
    rw [← hflat] at hstep
    exact decide_eq_true (List.mem_map_of_mem
      (hrun.completed hfresh (report_success.mp hs) step hstep).1)
  case stopped =>
    intro hs
    cases hend : ended.2 with
    | none => exact absurd (report_success.mpr hend) (by simp [hs])
    | some stopping =>
      obtain ⟨step, r⟩ := stopping
      obtain ⟨before, after, hsplit, hget, hstop, hbefore⟩ := hrun.stopped hfresh hend
      rw [report_stepResults, ← hflat]
      exact ⟨before, step, after, r, hsplit, report_stoppedAt hend, report_error hend, hget, hstop,
        hbefore⟩

end

-- ---------------------------------------------------------------------------
-- Two steps in a group, the second of which fails
-- ---------------------------------------------------------------------------

def firstStep : WorkflowStep where
  name := lit "first"
  request := {
    target := .tool
    operation := lit "work"
    payload := []
    requestId := lit "first request"
    operation_ok := by decide
    requestId_ok := by decide }
  grantedPermissions := []
  continueOnFailure := false
  name_ok := by decide

def secondStep : WorkflowStep := { firstStep with name := lit "second", name_ok := by decide }

def pairWorkflow : Workflow where
  definition := {
    name := lit "pair"
    steps := [firstStep, secondStep]
    name_ok := by decide
    steps_nodup := by decide }
  workflowId := lit "w1"

def pairOptions : @WorkflowExecutionOptions plainPrinting :=
  @WorkflowExecutionOptions.mk plainPrinting Dict.empty [[lit "first", lit "second"]] Dict.empty rfl

def pairEngine : WorkflowEngine where
  executionEngine step _ _ _ := .ok <|
    if step.name = lit "second" then
      ⟨false, none, some (lit "refused"), 0, [], (outcomeOk_failed Rat.le_refl).mpr (by decide)⟩
    else ⟨true, some [], none, 0, [], outcomeOk_instant⟩
  memory := none
  eventBus := some fun _ => .ok ()
  maxConcurrency := some 2
  maxConcurrency_ok := by decide
  clock _ := ZonedDateTime.epoch
  now := DateTime.epoch

def pairContext : WorkflowContext := ⟨⟨0, 0, 0, 0⟩, Dict.empty⟩

def pairSchedule : List GroupAction :=
  [.submit, .submit, .take 0, .take 1, .finish 1, .yield 1, .cancel, .finish 0, .yield 0]

theorem pairEngine_runLaw : ∃ result calls,
    @WorkflowEngine.run plainPrinting pairEngine .any pairWorkflow pairContext pairOptions
      [pairSchedule] = some (.ok result, calls) ∧
    @RunLaw plainPrinting pairEngine pairWorkflow.definition.steps pairContext pairOptions result
      calls :=
  ⟨_, _, rfl, @run_law plainPrinting pairEngine .any pairOptions pairContext pairWorkflow
    [pairSchedule] _ _ rfl⟩

end MellivorKernel
