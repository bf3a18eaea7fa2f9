import MellivorKernel.Foundation.Runs
import MellivorKernel.Workflow.Refinement
import MellivorKernel.Workflow.RaisingSiblings

/-!
# Options and the units they make

What `WorkflowExecutionOptions` and `_validate_options` together accept
(`options_accepted_iff`), and the partition accepted options make of the
declared steps: each group is one unit and runs in a pool, every other step is
a unit of its own and runs inline. A `not_before` must be timezone-aware, but
the constructor only asks whether it has a `tzinfo`, and that may have no
offset; apart from this the options are validated exactly (`optionsLaw_iff`).
-/

namespace MellivorKernel

open Python Foundation

section
variable [Printing]

-- ---------------------------------------------------------------------------
-- Construction
-- ---------------------------------------------------------------------------

/-- What the constructor is given; `none` stands for a resolver that is not
callable. -/
structure OptionsInput where
  requestResolvers : Dict Str (Option RequestResolver)
  parallelGroups : List (List Str)
  notBefore : Dict Str ZonedDateTime

def checkResolver (entry : Str × Option RequestResolver) : Except Exn (Str × RequestResolver) := do
  validateStepName entry.1 "request_resolvers"
  match entry.2 with
  | some resolver => .ok (entry.1, resolver)
  | none => .error (.raised .workflowError
      (lit "WorkflowExecutionOptions.request_resolvers[" ++ pyRepr entry.1 ++
        lit "] must be callable."))

/-- `WorkflowExecutionOptions(...)`; the names of the resolvers are then good,
so that `checkOptions` does not stop at them. -/
def WorkflowExecutionOptions.new (input : OptionsInput) : Except Exn WorkflowExecutionOptions := do
  let resolvers ← input.requestResolvers.entries.mapM checkResolver
  match h : checkOptions (Dict.ofList resolvers) input.parallelGroups input.notBefore with
  | .ok () => .ok ⟨Dict.ofList resolvers, input.parallelGroups, input.notBefore, h⟩
  | .error exc => .error exc

omit [Printing] in
theorem validateStepName_bind_eq_ok {stepName : Str} {fieldName : String} {m : Unit → Except Exn α}
    {a : α} : (validateStepName stepName fieldName >>= m) = .ok a ↔
      blank stepName = false ∧ m () = .ok a := by
  unfold validateStepName
  split
  · rename_i h
    simp [h, bind, Except.bind]
  · rename_i h
    simp [h, bind, Except.bind]

theorem checkResolver_eq_ok {entry : Str × Option RequestResolver} {r : Str × RequestResolver} :
    checkResolver entry = .ok r ↔ blank entry.1 = false ∧ entry.1 = r.1 ∧ entry.2 = some r.2 := by
  obtain ⟨name, resolver⟩ := entry
  obtain ⟨name', resolver'⟩ := r
  rw [checkResolver, validateStepName_bind_eq_ok]
  cases resolver <;> simp

theorem checkGroup_eq_ok {groupedNames names group : List Str} :
    checkGroup groupedNames group = .ok names ↔ (∀ name ∈ group, blank name = false) ∧
      group.Nodup ∧ (∀ name ∈ group, name ∉ groupedNames) ∧ group.reverse ++ groupedNames = names := by
  induction group generalizing groupedNames with
  | nil => simp [checkGroup]
  | cons name rest ih =>
    rw [checkGroup, validateStepName_bind_eq_ok]
    by_cases hname : name ∈ groupedNames
    · simp [hname]
    · simp only [if_neg hname, ih, List.nodup_cons, List.mem_cons, not_or,
        List.reverse_cons, List.append_assoc, List.singleton_append]
      grind

theorem checkGroups_eq_ok {groupedNames names : List Str} {groups : List (List Str)} :
    checkGroups groupedNames groups = .ok names ↔
      (∀ group ∈ groups, group ≠ [] ∧ ∀ name ∈ group, blank name = false) ∧
        groups.flatten.Nodup ∧ (∀ name ∈ groups.flatten, name ∉ groupedNames) ∧
        groups.flatten.reverse ++ groupedNames = names := by
  induction groups generalizing groupedNames with
  | nil => simp [checkGroups]
  | cons group rest ih =>
    rw [checkGroups]
    by_cases hempty : group = []
    · simp [hempty]
    · rw [if_neg hempty, bind_eq_ok]
      simp only [checkGroup_eq_ok, ih, List.forall_mem_cons, List.flatten_cons, List.nodup_append]
      constructor
      · rintro ⟨_, ⟨hnames, hn, hfresh, rfl⟩, hgroups, hrest, hdisjoint, rfl⟩
        refine ⟨⟨⟨hempty, hnames⟩, hgroups⟩, ⟨hn, hrest, ?_⟩, ?_, by simp⟩
        · rintro name hname _ hother rfl
          exact hdisjoint name hother (by simp [hname])
        · intro name hname
          rcases List.mem_append.mp hname with hname | hname
          · exact hfresh name hname
          · exact fun hseen => hdisjoint name hname (by simp [hseen])
      · rintro ⟨⟨⟨-, hnames⟩, hgroups⟩, ⟨hn, hrest, hdisjoint⟩, hfresh, rfl⟩
        refine ⟨_, ⟨hnames, hn, fun name hname => hfresh name (by simp [hname]), rfl⟩, hgroups,
          hrest, ?_, by simp⟩
        intro name hname hseen
        rcases List.mem_append.mp hseen with hseen | hseen
        · exact hdisjoint name (List.mem_reverse.mp hseen) name hname rfl
        · exact hfresh name (List.mem_append_right _ hname) hseen

theorem checkNotBefore_eq_ok {entries : List (Str × ZonedDateTime)} : checkNotBefore entries = .ok () ↔
    ∀ entry ∈ entries, blank entry.1 = false ∧ entry.2.Attached := by
  induction entries with
  | nil => simp [checkNotBefore]
  | cons entry rest ih =>
    obtain ⟨stepName, scheduledAt⟩ := entry
    rw [checkNotBefore, validateStepName_bind_eq_ok, List.forall_mem_cons, ← ih]
    unfold ZonedDateTime.Attached
    cases scheduledAt.tzinfo <;> simp

theorem checkOptions_eq_ok {requestResolvers : Dict Str RequestResolver}
    {parallelGroups : List (List Str)} {notBefore : Dict Str ZonedDateTime} :
    checkOptions requestResolvers parallelGroups notBefore = .ok () ↔
      (∀ name ∈ requestResolvers.keys, blank name = false) ∧
      ((∀ group ∈ parallelGroups, group ≠ [] ∧ ∀ name ∈ group, blank name = false) ∧
        parallelGroups.flatten.Nodup) ∧
      ∀ entry ∈ notBefore.entries, blank entry.1 = false ∧ entry.2.Attached := by
  have hnames (names : List Str) :
      names.forM (fun stepName => validateStepName stepName "request_resolvers") = .ok () ↔
        ∀ name ∈ names, blank name = false := by
    induction names with
    | nil => simp [pure, Except.pure]
    | cons name rest ih =>
      rw [List.forall_mem_cons, ← ih]
      exact validateStepName_bind_eq_ok
  have hbind {m : Except Exn Unit} {f : Unit → Except Exn Unit} :
      m >>= f = .ok () ↔ m = .ok () ∧ f () = .ok () := by
    cases m <;> simp [bind, Except.bind]
  unfold checkOptions
  rw [hbind, hnames, bind_eq_ok]
  simp only [checkGroups_eq_ok, checkNotBefore_eq_ok]
  simp [and_assoc]

-- ---------------------------------------------------------------------------
-- Against the declared steps
-- ---------------------------------------------------------------------------

omit [Printing] in
/-- The index arithmetic of `_validate_options` tells the parts of the declared
order. -/
theorem contiguous_iff {declaredNames group : List Str} (hn : declaredNames.Nodup)
    (hne : group ≠ []) (hgroup : group.Nodup) (hknown : ∀ name ∈ group, name ∈ declaredNames) :
    contiguous declaredNames group = true ↔ group <:+: declaredNames := by
  unfold contiguous
  simp only [Bool.and_eq_true, decide_eq_true_eq]
  constructor
  · rintro ⟨horder, hspan⟩
    have hindexes : (group.map (declaredNames.idxOf ·)).Nodup :=
      (List.nodup_map_iff_inj_on hgroup).mpr fun a ha b _ h =>
        (List.idxOf_inj (hknown a ha)).mp h
    have hsorted := List.pairwise_insertionSort (· ≤ ·) (group.map (declaredNames.idxOf ·))
    have hvalid : ∀ i ∈ (group.map (declaredNames.idxOf ·)).insertionSort (· ≤ ·),
        i < declaredNames.length := by
      intro i hi
      obtain ⟨name, hname, rfl⟩ := List.mem_map.mp ((List.perm_insertionSort _ _).mem_iff.mp hi)
      exact List.idxOf_lt_length_iff.mpr (hknown name hname)
    generalize (group.map (declaredNames.idxOf ·)).insertionSort (· ≤ ·) = indexes
      at horder hsorted hvalid
    -- the group in declared order has the indexes in order
    have hsame : group.map (declaredNames.idxOf ·) = indexes := by
      rw [horder, List.map_filterMap]
      refine (List.filterMap_congr fun i hi => ?_).trans List.filterMap_some
      rw [List.getElem?_eq_getElem (hvalid i hi), Option.map_some, hn.idxOf_getElem]
    rw [hsame] at hspan hindexes
    have hinhabited : indexes ≠ [] := by
      rw [← hsame]
      simpa using hne
    obtain ⟨low, hlow⟩ := Option.ne_none_iff_exists'.mp (mt List.min?_eq_none_iff.mp hinhabited)
    obtain ⟨high, hhigh⟩ := Option.ne_none_iff_exists'.mp (mt List.max?_eq_none_iff.mp hinhabited)
    rw [hlow, hhigh] at hspan
    rw [horder, eq_range'_of_span hsorted hindexes hlow hhigh hspan, filterMap_range']
    exact (List.take_prefix _ _).isInfix.trans (List.drop_suffix _ _).isInfix
  · rintro ⟨before, after, rfl⟩
    have hindexes : group.map ((before ++ group ++ after).idxOf ·) =
        List.range' before.length group.length := by
      refine List.ext_getElem (by simp) fun i hi _ => ?_
      rw [List.length_map] at hi
      have hbound : before.length + i < (before ++ group ++ after).length := by
        simp only [List.length_append]
        omega
      have hat : group[i] = (before ++ group ++ after)[before.length + i] := by simp [hi]
      rw [List.getElem_map, hat, hn.idxOf_getElem]
      simp
    have hlength : 0 < group.length := List.length_pos_iff.mpr hne
    have hlow : (List.range' before.length group.length).min? = some before.length := by
      rw [List.min?_eq_some_iff]
      simp only [List.mem_range'_1]
      exact ⟨by omega, fun i hi => by omega⟩
    have hhigh : (List.range' before.length group.length).max? =
        some (before.length + group.length - 1) := by
      rw [List.max?_eq_some_iff]
      simp only [List.mem_range'_1]
      exact ⟨by omega, fun i hi => by omega⟩
    rw [hindexes, List.Pairwise.insertionSort_eq (List.pairwise_le_range' _), filterMap_range', hlow,
      hhigh]
    constructor
    · simp
    · simp only [Option.getD_some, List.length_range']
      omega

/-- The options name declared steps only, what they schedule at is `timed`, and
their groups are disjoint parts of the declared order. -/
structure Accepted (timed : ZonedDateTime → Prop) (definition : WorkflowDefinition)
    (input : OptionsInput) : Prop where
  resolvers : ∀ entry ∈ input.requestResolvers.entries, blank entry.1 = false ∧
    entry.2.isSome = true ∧ entry.1 ∈ definition.steps.map WorkflowStep.name
  notBefore : ∀ entry ∈ input.notBefore.entries, blank entry.1 = false ∧
    timed entry.2 ∧ entry.1 ∈ definition.steps.map WorkflowStep.name
  groups : ∀ group ∈ input.parallelGroups, group ≠ [] ∧ (∀ name ∈ group, blank name = false) ∧
    group <:+: definition.steps.map WorkflowStep.name
  disjoint : input.parallelGroups.Pairwise List.Disjoint

theorem new_eq_ok {input : OptionsInput} {options : WorkflowExecutionOptions} :
    WorkflowExecutionOptions.new input = .ok options ↔
      ∃ resolvers, input.requestResolvers.entries.mapM checkResolver = .ok resolvers ∧
        options.requestResolvers = Dict.ofList resolvers ∧
        options.parallelGroups = input.parallelGroups ∧ options.notBefore = input.notBefore := by
  unfold WorkflowExecutionOptions.new
  rw [bind_eq_ok]
  refine exists_congr fun resolvers => and_congr_right fun _ => ?_
  constructor
  · intro h
    split at h
    · cases h
      exact ⟨rfl, rfl, rfl⟩
    · cases h
  · obtain ⟨_, _, _, hchecked⟩ := options
    rintro ⟨rfl, rfl, rfl⟩
    split
    · rfl
    · rename_i exc h
      cases hchecked.symm.trans h

theorem map_fst_of_checked {entries : List (Str × Option RequestResolver)}
    {resolvers : List (Str × RequestResolver)} (h : entries.mapM checkResolver = .ok resolvers) :
    entries.map Prod.fst = resolvers.map Prod.fst ∧
      ∀ entry ∈ entries, blank entry.1 = false ∧ entry.2.isSome = true := by
  rw [mapM_eq_ok] at h
  induction entries generalizing resolvers with
  | nil =>
    cases resolvers with
    | nil => simp
    | cons => cases h
  | cons entry entries ih =>
    cases resolvers with
    | nil => cases h
    | cons resolver resolvers =>
      obtain ⟨hentry, hrest⟩ := List.cons.inj h
      obtain ⟨hblank, hname, hsome⟩ := checkResolver_eq_ok.mp hentry
      obtain ⟨hnames, hall⟩ := ih hrest
      refine ⟨by simp [hname, hnames], List.forall_mem_cons.mpr ⟨⟨hblank, by simp [hsome]⟩, hall⟩⟩

theorem accepted_of_new {definition : WorkflowDefinition} {input : OptionsInput}
    {options : WorkflowExecutionOptions} (hnew : WorkflowExecutionOptions.new input = .ok options)
    (hvalid : validateOptions definition.steps options = .ok ()) :
    Accepted ZonedDateTime.Attached definition input := by
  have hdeclared := definition.steps_nodup
  obtain ⟨resolvers, hresolvers, hnames, hgroups, hnotBefore⟩ := new_eq_ok.mp hnew
  obtain ⟨hsame, hcallable⟩ := map_fst_of_checked hresolvers
  have hkeys : options.requestResolvers.keys = input.requestResolvers.keys := by
    rw [hnames, Dict.keys_ofList (hsame ▸ Dict.nodup _), ← hsame]
    rfl
  obtain ⟨-, ⟨hall, hn⟩, haware⟩ := checkOptions_eq_ok.mp options.checked
  obtain ⟨hknown, hcontiguous⟩ := validateOptions_eq_ok.mp hvalid
  rw [hkeys] at hknown
  rw [hgroups] at hall hn hknown hcontiguous
  rw [hnotBefore] at haware hknown
  constructor
  · intro entry hentry
    obtain ⟨hblank, hsome⟩ := hcallable entry hentry
    refine ⟨hblank, hsome, hknown _ ?_⟩
    simp [Dict.keys, List.mem_map_of_mem hentry]
  · intro entry hentry
    obtain ⟨hblank, hsome⟩ := haware entry hentry
    refine ⟨hblank, hsome, hknown _ ?_⟩
    simp [Dict.keys, List.mem_map_of_mem hentry]
  · intro group hgroup
    refine ⟨(hall group hgroup).1, (hall group hgroup).2, ?_⟩
    refine (contiguous_iff hdeclared (hall group hgroup).1
      ((List.nodup_flatten.mp hn).1 group hgroup) fun name hname => hknown _ ?_).mp
        (hcontiguous group hgroup)
    exact List.mem_append_right _ (List.mem_flatten.mpr ⟨group, hgroup, hname⟩)
  · exact (List.nodup_flatten.mp hn).2

theorem Accepted.new {definition : WorkflowDefinition} {input : OptionsInput}
    (h : Accepted ZonedDateTime.Attached definition input) :
    ∃ options, WorkflowExecutionOptions.new input = .ok options ∧
      validateOptions definition.steps options = .ok () := by
  have hdeclared := definition.steps_nodup
  have hgroup : ∀ group ∈ input.parallelGroups, group.Nodup := fun group hgroup =>
    (h.groups group hgroup).2.2.sublist.nodup hdeclared
  have hreturns : Returns (input.requestResolvers.entries.mapM checkResolver) := by
    refine returns_mapM.mpr fun entry hentry => ?_
    obtain ⟨hblank, hsome, -⟩ := h.resolvers entry hentry
    obtain ⟨resolver, hresolver⟩ := Option.isSome_iff_exists.mp hsome
    exact ⟨(entry.1, resolver), checkResolver_eq_ok.mpr ⟨hblank, rfl, hresolver⟩⟩
  obtain ⟨resolvers, hresolvers⟩ := hreturns
  obtain ⟨hsame, -⟩ := map_fst_of_checked hresolvers
  have hkeys : (Dict.ofList resolvers).keys = input.requestResolvers.entries.map Prod.fst := by
    rw [Dict.keys_ofList (hsame ▸ input.requestResolvers.nodup), hsame]
  have hchecked : checkOptions (Dict.ofList resolvers) input.parallelGroups input.notBefore =
      .ok () := by
    refine checkOptions_eq_ok.mpr ⟨fun name hname => ?_, ⟨fun group hgroup => ?_, ?_⟩,
      fun entry hentry => ?_⟩
    · rw [hkeys] at hname
      obtain ⟨entry, hentry, rfl⟩ := List.mem_map.mp hname
      exact (h.resolvers entry hentry).1
    · exact ⟨(h.groups group hgroup).1, (h.groups group hgroup).2.1⟩
    · exact List.nodup_flatten.mpr ⟨hgroup, h.disjoint⟩
    · exact ⟨(h.notBefore entry hentry).1, (h.notBefore entry hentry).2.1⟩
  refine ⟨⟨_, _, _, hchecked⟩, new_eq_ok.mpr ⟨resolvers, hresolvers, rfl, rfl, rfl⟩,
    validateOptions_eq_ok.mpr ⟨fun name hname => ?_, fun group hmem => ?_⟩⟩
  · simp only [hkeys, List.mem_append] at hname
    rcases hname with (hname | hname) | hname
    · obtain ⟨entry, hentry, rfl⟩ := List.mem_map.mp hname
      exact (h.resolvers entry hentry).2.2
    · obtain ⟨entry, hentry, rfl⟩ := List.mem_map.mp hname
      exact (h.notBefore entry hentry).2.2
    · obtain ⟨group, hmem, hname⟩ := List.mem_flatten.mp hname
      exact (h.groups group hmem).2.2.subset hname
  · exact (contiguous_iff hdeclared (h.groups group hmem).1 (hgroup group hmem)
      (h.groups group hmem).2.2.subset).mpr (h.groups group hmem).2.2

theorem options_accepted_iff (definition : WorkflowDefinition) (input : OptionsInput) :
    (∃ options, WorkflowExecutionOptions.new input = .ok options ∧
      validateOptions definition.steps options = .ok ()) ↔
        Accepted ZonedDateTime.Attached definition input :=
  ⟨fun ⟨_, hnew, hvalid⟩ => accepted_of_new hnew hvalid, Accepted.new⟩

-- ---------------------------------------------------------------------------
-- Units
-- ---------------------------------------------------------------------------

/-- The units are the declared steps in order, one unit for each group and one
for each other step; only the latter run inline. -/
structure Partitioned (definition : WorkflowDefinition) (options : WorkflowExecutionOptions)
    (units : List (List WorkflowStep)) : Prop where
  flatten : units.flatten = definition.steps
  group : ∀ group ∈ options.parallelGroups, ∃! unit, unit ∈ units ∧
    unit.map WorkflowStep.name = group
  alone : ∀ step ∈ definition.steps, step.name ∉ options.parallelGroups.flatten → [step] ∈ units
  only : ∀ unit ∈ units, unit.map WorkflowStep.name ∈ options.parallelGroups ∨
    ∃ step, unit = [step] ∧ step.name ∉ options.parallelGroups.flatten
  pooled : ∀ unit ∈ units, unit.map WorkflowStep.name ∈ options.parallelGroups →
    ∀ (engine : WorkflowEngine) discipline context schedule,
      engine.runUnit discipline options unit context schedule =
        engine.runParallelGroup discipline options unit context schedule
  inline : ∀ step, step.name ∉ options.parallelGroups.flatten →
    ∀ (engine : WorkflowEngine) discipline context schedule,
      engine.runUnit discipline options [step] context schedule =
        some ((engine.stepRun options context step).1.map fun result =>
          Dict.empty.set step.name result, (engine.stepRun options context step).2)

theorem isExplicitlyParallel_iff {stepName : Str} {options : WorkflowExecutionOptions} :
    isExplicitlyParallel stepName options = true ↔ stepName ∈ options.parallelGroups.flatten := by
  simp [isExplicitlyParallel, List.mem_flatten]

theorem groupIntoUnits_eq_splitBy (steps : List WorkflowStep) (options : WorkflowExecutionOptions) :
    groupIntoUnits steps options =
      steps.splitBy (sameKey fun step => (groupByName options).get? step.name) := by
  have hadd : addToUnits (groupByName options) =
      addToRuns fun step : WorkflowStep => (groupByName options).get? step.name := by
    funext units step
    unfold addToUnits addToRuns
    rcases units.getLast? with _ | _ | _ <;> rfl
  rw [groupIntoUnits, hadd, foldl_addToRuns]

theorem groupByName_eq_some {options : WorkflowExecutionOptions}
    (hn : options.parallelGroups.flatten.Nodup) {stepName : Str} {index : Nat} :
    (groupByName options).get? stepName = some index ↔
      ∃ group, options.parallelGroups[index]? = some group ∧ stepName ∈ group := by
  have hkeys : (options.parallelGroups.zipIdx.flatMap fun entry =>
      entry.1.map fun stepName => (stepName, entry.2)).map Prod.fst =
        options.parallelGroups.flatten := by
    simp [Function.comp_def, List.flatMap_def, List.zipIdx_map_fst]
  rw [Dict.get?_eq_some, groupByName, Dict.entries_ofList (hkeys ▸ hn)]
  simp only [List.mem_flatMap, List.mem_map, Prod.mk.injEq, Prod.exists,
    List.mem_zipIdx_iff_getElem?]
  constructor
  · rintro ⟨group, _, hgroup, _, hname, rfl, rfl⟩
    exact ⟨group, hgroup, hname⟩
  · rintro ⟨group, hgroup, hname⟩
    exact ⟨group, index, hgroup, stepName, hname, rfl, rfl⟩

theorem groupByName_eq_none {options : WorkflowExecutionOptions}
    (hn : options.parallelGroups.flatten.Nodup) {stepName : Str} :
    (groupByName options).get? stepName = none ↔ stepName ∉ options.parallelGroups.flatten := by
  rw [← not_iff_not, not_not, ← ne_eq, Option.ne_none_iff_exists']
  simp only [groupByName_eq_some hn, List.mem_flatten]
  constructor
  · rintro ⟨index, group, hgroup, hname⟩
    exact ⟨group, List.mem_of_getElem? hgroup, hname⟩
  · rintro ⟨group, hgroup, hname⟩
    obtain ⟨index, hindex⟩ := List.mem_iff_getElem?.mp hgroup
    exact ⟨index, group, hindex, hname⟩

theorem exists_unit_of_group {steps : List WorkflowStep} {options : WorkflowExecutionOptions}
    (hsteps : (steps.map WorkflowStep.name).Nodup) (hn : options.parallelGroups.flatten.Nodup)
    {group : List Str} (hgroup : group ∈ options.parallelGroups) (hne : group ≠ [])
    (hwithin : group <:+: steps.map WorkflowStep.name) :
    ∃ unit ∈ groupIntoUnits steps options, unit.map WorkflowStep.name = group := by
  obtain ⟨index, hindex⟩ := List.mem_iff_getElem?.mp hgroup
  obtain ⟨before, after, hsplit⟩ := hwithin
  obtain ⟨rest, afterSteps, rfl, hrest, rfl⟩ := List.map_eq_append_iff.mp hsplit.symm
  obtain ⟨beforeSteps, unit, rfl, rfl, rfl⟩ := List.map_eq_append_iff.mp hrest
  rw [List.map_append, List.map_append, List.nodup_append, List.nodup_append] at hsteps
  have hindexed {step : WorkflowStep} (h : (groupByName options).get? step.name = some index) :
      step.name ∈ unit.map WorkflowStep.name := by
    obtain ⟨_, hsame, hmem⟩ := (groupByName_eq_some hn).mp h
    rwa [← Option.some.inj (hindex.symm.trans hsame)] at hmem
  refine ⟨unit, ?_, rfl⟩
  rw [groupIntoUnits_eq_splitBy, List.append_assoc]
  refine mem_splitBy_of_key (by simpa using hne) (k := index) (fun step hstep => ?_)
    (fun step hstep hkey => ?_) fun step hstep hkey => ?_
  · exact (groupByName_eq_some hn).mpr ⟨_, hindex, List.mem_map_of_mem hstep⟩
  · exact hsteps.1.2.2 _ (List.mem_map_of_mem hstep) _ (hindexed hkey) rfl
  · exact hsteps.2.2 _ (List.mem_append_right _ (hindexed hkey)) _ (List.mem_map_of_mem hstep) rfl

theorem singleton_mem_units {steps : List WorkflowStep} {options : WorkflowExecutionOptions}
    (hn : options.parallelGroups.flatten.Nodup) {step : WorkflowStep} (hstep : step ∈ steps)
    (hungrouped : step.name ∉ options.parallelGroups.flatten) :
    [step] ∈ groupIntoUnits steps options := by
  obtain ⟨before, after, rfl⟩ := List.append_of_mem hstep
  rw [groupIntoUnits_eq_splitBy]
  exact singleton_mem_splitBy ((groupByName_eq_none hn).mpr hungrouped)

theorem units_partitioned {definition : WorkflowDefinition} {options : WorkflowExecutionOptions}
    (hvalid : validateOptions definition.steps options = .ok ()) :
    Partitioned definition options (groupIntoUnits definition.steps options) := by
  have hsteps := definition.steps_nodup
  obtain ⟨-, ⟨hall, hn⟩, -⟩ := checkOptions_eq_ok.mp options.checked
  obtain ⟨hknown, hcontiguous⟩ := validateOptions_eq_ok.mp hvalid
  have hgroup {group : List Str} (hmem : group ∈ options.parallelGroups) :
      ∃ unit ∈ groupIntoUnits definition.steps options, unit.map WorkflowStep.name = group := by
    refine exists_unit_of_group hsteps hn hmem (hall group hmem).1 ?_
    refine (contiguous_iff hsteps (hall group hmem).1 ((List.nodup_flatten.mp hn).1 group hmem)
      fun name hname => hknown _ ?_).mp (hcontiguous group hmem)
    exact List.mem_append_right _ (List.mem_flatten.mpr ⟨group, hmem, hname⟩)
  have hflatten := groupIntoUnits_flatten definition.steps options
  have hmember {unit : List WorkflowStep} (hunit : unit ∈ groupIntoUnits definition.steps options)
      {step : WorkflowStep} (hstep : step ∈ unit) : step ∈ definition.steps := by
    rw [← hflatten]
    exact List.mem_flatten.mpr ⟨unit, hunit, hstep⟩
  have hmeet {unit unit' : List WorkflowStep}
      (hunit : unit ∈ groupIntoUnits definition.steps options)
      (hunit' : unit' ∈ groupIntoUnits definition.steps options) {step step' : WorkflowStep}
      (hstep : step ∈ unit) (hstep' : step' ∈ unit') (hname : step.name = step'.name) :
      unit = unit' := by
    obtain rfl := List.inj_on_of_nodup_map hsteps (hmember hunit hstep) (hmember hunit' hstep') hname
    rw [groupIntoUnits_eq_splitBy] at hunit hunit'
    exact eq_of_mem_splitBy (hsteps.of_map _) hunit hunit' hstep hstep'
  -- a unit with a step of a group is that group
  have howned {unit : List WorkflowStep} (hunit : unit ∈ groupIntoUnits definition.steps options)
      {step : WorkflowStep} (hstep : step ∈ unit)
      (hgrouped : step.name ∈ options.parallelGroups.flatten) :
      unit.map WorkflowStep.name ∈ options.parallelGroups := by
    obtain ⟨group, hmem, hname⟩ := List.mem_flatten.mp hgrouped
    obtain ⟨unit', hunit', rfl⟩ := hgroup hmem
    obtain ⟨step', hstep', hsame⟩ := List.mem_map.mp hname
    obtain rfl := hmeet hunit hunit' hstep hstep' hsame.symm
    exact hmem
  constructor
  · exact hflatten
  · intro group hmem
    obtain ⟨unit, hunit, rfl⟩ := hgroup hmem
    refine ⟨unit, ⟨hunit, rfl⟩, ?_⟩
    rintro unit' ⟨hunit', hnames⟩
    obtain ⟨step, hstep⟩ := List.exists_mem_of_ne_nil unit (by simpa using (hall _ hmem).1)
    have hname := List.mem_map_of_mem (f := WorkflowStep.name) hstep
    rw [← hnames] at hname
    obtain ⟨step', hstep', hsame⟩ := List.mem_map.mp hname
    exact hmeet hunit' hunit hstep' hstep hsame
  · intro step hstep hungrouped
    exact singleton_mem_units hn hstep hungrouped
  · intro unit hunit
    have hne : unit ≠ [] := by
      rintro rfl
      rw [groupIntoUnits_eq_splitBy] at hunit
      exact List.nil_notMem_splitBy _ _ hunit
    obtain ⟨step, hstep⟩ := List.exists_mem_of_ne_nil unit hne
    by_cases hgrouped : step.name ∈ options.parallelGroups.flatten
    · exact .inl (howned hunit hstep hgrouped)
    · have halone := singleton_mem_units hn (hmember hunit hstep) hgrouped
      exact .inr ⟨step, hmeet hunit halone hstep (List.mem_singleton_self step) rfl, hgrouped⟩
  · intro unit _ hgrouped engine discipline context schedule
    refine runUnit_parallel ?_ schedule
    unfold ranInline
    split
    · rename_i step _
      have hparallel : isExplicitlyParallel step.name options = true :=
        isExplicitlyParallel_iff.mpr (List.mem_flatten.mpr ⟨_, hgrouped, by simp⟩)
      simp [hparallel]
    · rfl
  · intro step hungrouped engine discipline context schedule
    unfold WorkflowEngine.runUnit
    rw [← isExplicitlyParallel_iff] at hungrouped
    simp [hungrouped]

/-- Validation is exact, and the units accepted options make are those they
declare. -/
structure OptionsLaw (definition : WorkflowDefinition) (input : OptionsInput) : Prop where
  exact_iff : (∃ options, WorkflowExecutionOptions.new input = .ok options ∧
    validateOptions definition.steps options = .ok ()) ↔
      Accepted ZonedDateTime.Aware definition input
  faithful : ∀ options, WorkflowExecutionOptions.new input = .ok options →
    validateOptions definition.steps options = .ok () →
      options.parallelGroups = input.parallelGroups ∧
        Partitioned definition options (groupIntoUnits definition.steps options)

omit [Printing] in
theorem Accepted.attached {definition : WorkflowDefinition} {input : OptionsInput}
    (h : Accepted ZonedDateTime.Aware definition input) :
    Accepted ZonedDateTime.Attached definition input where
  resolvers := h.resolvers
  notBefore entry hentry :=
    have ⟨hblank, haware, hdeclared⟩ := h.notBefore entry hentry
    ⟨hblank, entry.2.attached haware, hdeclared⟩
  groups := h.groups
  disjoint := h.disjoint

/-- The law holds of all options but those that are accepted with a `not_before`
whose `tzinfo` has no offset. -/
theorem optionsLaw_iff (definition : WorkflowDefinition) (input : OptionsInput) :
    OptionsLaw definition input ↔
      (Accepted ZonedDateTime.Attached definition input →
        ∀ entry ∈ input.notBefore.entries, entry.2.Aware) := by
  constructor
  · intro h haccepted entry hentry
    have haware := h.exact_iff.mp ((options_accepted_iff definition input).mpr haccepted)
    exact (haware.notBefore entry hentry).2.1
  · intro h
    refine ⟨?_, fun options hnew hvalid => ?_⟩
    · rw [options_accepted_iff]
      refine ⟨fun haccepted => ⟨haccepted.resolvers, fun entry hentry => ?_, haccepted.groups,
        haccepted.disjoint⟩, Accepted.attached⟩
      obtain ⟨hblank, -, hdeclared⟩ := haccepted.notBefore entry hentry
      exact ⟨hblank, h haccepted entry hentry, hdeclared⟩
    · obtain ⟨_, -, -, hgroups, -⟩ := new_eq_ok.mp hnew
      exact ⟨hgroups, units_partitioned hvalid⟩

end

/-- A `tzinfo` whose `utcoffset` answers `None`. -/
def offsetless : ZonedDateTime where
  toDateTime := ⟨{ DateTime.epoch.toDateFields with utcoffset := none }, by decide⟩
  tzinfo := some 0
  attached := nofun

/-- Accepted, though it is not timezone-aware. -/
theorem offsetless_accepted : ¬ @OptionsLaw plainPrinting pairWorkflow.definition
    (OptionsInput.mk Dict.empty [] (Dict.empty.set (lit "first") offsetless)) := by
  intro h
  have haccepted := (@OptionsLaw.exact_iff plainPrinting _ _ h).mp
    ⟨@WorkflowExecutionOptions.mk plainPrinting Dict.empty []
      (Dict.empty.set (lit "first") offsetless) rfl, rfl, rfl⟩
  cases (Accepted.notBefore haccepted (lit "first", offsetless)
    (List.mem_singleton_self _)).2.1

end MellivorKernel
