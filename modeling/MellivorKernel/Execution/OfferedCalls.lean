import MellivorKernel.Execution.Transcript

/-!
# What a tool loop executes

Which of the calls a model asks for reach the hook and the engine, and what
the loop announces about each (`run_offeredCalls`). A run that raises is a
run of this kind cut short.
-/

namespace MellivorKernel

open Python Foundation Program

-- ---------------------------------------------------------------------------
-- Reading a log
-- ---------------------------------------------------------------------------

def LoopCall.consulted? : LoopCall → Option (ToolCall × Except Exn ToolCallDecision)
  | .consult call answer => some (call, answer)
  | .publish _ | .execute .. => none

def LoopCall.submitted? : LoopCall → Option (Str × Mapping × List Str)
  | .execute request _ granted _ =>
    if request.target = .tool then some (request.operation, request.payload, granted) else none
  | .publish _ | .consult .. => none

def LoopCall.event? : LoopCall → Option Event
  | .publish event => some event
  | .consult .. | .execute .. => none

def requestedCalls (log : List LoopCall) : List ToolCall :=
  ((providerAnswers log).filterMap roundOf).flatMap Prod.snd

def Fate.answer? : Fate → Option (Except Exn ToolCallDecision)
  | .unoffered => none
  | .consulted answer => some answer
  | .executed decision .. => some (.ok decision)

-- ---------------------------------------------------------------------------
-- The law
-- ---------------------------------------------------------------------------

/-- A log in which `handled` are the calls the loop turned to, each with its
iteration. -/
structure CallsLaw (loop : ToolCallLoop) (offered granted : List Str) (log : List LoopCall)
    (handled : List (Nat × Handled)) : Prop where
  requested : handled.map (fun p => p.2.call) = requestedCalls log
  consulted : log.filterMap LoopCall.consulted? =
    handled.filterMap fun p => p.2.fate.answer?.map (p.2.call, ·)
  offered : ∀ p ∈ handled, p.2.fate.answer?.isSome ↔ p.2.call.name ∈ offered
  submitted : log.filterMap LoopCall.submitted? = (handled.filter (·.2.fate.isExecuted)).map
    fun p => (p.2.call.name, p.2.call.arguments, granted)
  approved : ∀ p ∈ handled, p.2.fate.isExecuted = true ↔
    ∃ decision, p.2.fate.answer? = some (.ok decision) ∧ decision.allowed = true
  ungranted : ∀ request context permissions answer,
    .execute request context permissions answer ∈ log → request.target = .provider →
      permissions = []
  events : loop.eventBus.isSome → log.filterMap LoopCall.event? = handled.flatMap fun p =>
    .toolCallRequested loop.loopId p.2.call.id p.2.call.name p.1 :: (p.2.closing loop).toList
  completed : ∀ p ∈ handled, p.2.fate.isExecuted = true → ∀ event ∈ p.2.closing loop,
    ∃ success, event = .toolCallCompleted loop.loopId p.2.call.id p.2.call.name success
  rejected : ∀ p ∈ handled, p.2.fate.isExecuted = false → ∀ event ∈ p.2.closing loop,
    ∃ reason, event = .toolCallRejected loop.loopId p.2.call.id p.2.call.name reason

section
variable {loop : ToolCallLoop} {setup : LoopSetup}

-- ---------------------------------------------------------------------------
-- One call
-- ---------------------------------------------------------------------------

theorem told_consulted (event : Event) :
    (told LoopCall.publish loop.eventBus event).filterMap LoopCall.consulted? = [] :=
  List.filterMap_eq_nil_iff.mpr fun c hc => by rw [mem_told hc]; rfl

theorem told_submitted (event : Event) :
    (told LoopCall.publish loop.eventBus event).filterMap LoopCall.submitted? = [] :=
  List.filterMap_eq_nil_iff.mpr fun c hc => by rw [mem_told hc]; rfl

theorem told_event (hbus : loop.eventBus.isSome) (event : Event) :
    (told LoopCall.publish loop.eventBus event).filterMap LoopCall.event? = [event] := by
  rw [told, if_pos hbus]
  rfl

theorem Handled.calls_consulted (iteration : Nat) (x : Handled) :
    (x.calls loop setup iteration).filterMap LoopCall.consulted? =
      (x.fate.answer?.map (x.call, ·)).toList := by
  have hclosing : ((x.closing loop).toList.flatMap (told .publish loop.eventBus)).filterMap
      LoopCall.consulted? = [] := by
    cases x.closing loop <;> simp [told_consulted]
  rw [Handled.calls, List.filterMap_append, List.filterMap_append, told_consulted, hclosing]
  obtain ⟨call, fate⟩ := x
  cases fate <;> rfl

theorem Handled.calls_submitted (iteration : Nat) {x : Handled} (hfits : x.Fits setup) :
    (x.calls loop setup iteration).filterMap LoopCall.submitted? =
      if x.fate.isExecuted then [(x.call.name, x.call.arguments, setup.grantedPermissions)]
      else [] := by
  have hclosing : ((x.closing loop).toList.flatMap (told .publish loop.eventBus)).filterMap
      LoopCall.submitted? = [] := by
    cases x.closing loop <;> simp [told_submitted]
  rw [Handled.calls, List.filterMap_append, List.filterMap_append, told_submitted, hclosing]
  obtain ⟨call, fate⟩ := x
  cases fate with
  | unoffered | consulted => rfl
  | executed decision request answer =>
    obtain ⟨-, -, htarget, hoperation, hpayload⟩ := hfits
    simp [Handled.outside, List.filterMap_cons, LoopCall.submitted?, Fate.isExecuted, htarget,
      hoperation, hpayload]

theorem Handled.calls_event (hbus : loop.eventBus.isSome) (iteration : Nat) (x : Handled) :
    (x.calls loop setup iteration).filterMap LoopCall.event? =
      .toolCallRequested loop.loopId x.call.id x.call.name iteration :: (x.closing loop).toList := by
  have hclosing : ((x.closing loop).toList.flatMap (told .publish loop.eventBus)).filterMap
      LoopCall.event? = (x.closing loop).toList := by
    cases x.closing loop <;> simp [told_event hbus]
  have houtside : (x.outside setup).filterMap LoopCall.event? = [] := by
    obtain ⟨call, fate⟩ := x
    cases fate <;> rfl
  rw [Handled.calls, List.filterMap_append, List.filterMap_append, told_event hbus, hclosing,
    houtside]
  rfl

theorem requestedCalls_round {iteration : Nat} {history : List PyValue} {request : ExecutionRequest}
    {response : ExecutionResult} {text : Str} {calls : List ToolCall} {handled : List Handled}
    {rest : List LoopCall} (hasked : Asked setup history request)
    (hanswer : answered? response = some (text, calls)) (hfits : ∀ x ∈ handled, x.Fits setup) :
    requestedCalls (.execute request setup.context [] (.ok response) ::
      (handled.flatMap (Handled.calls loop setup iteration) ++ rest)) =
        calls ++ requestedCalls rest := by
  have hround : roundOf (.ok response) = some (text, calls) := hanswer
  rw [requestedCalls, hasked.providerAnswers, providerAnswers_append,
    providerAnswers_handled hfits List.prefix_rfl]
  simp [hround, requestedCalls]

theorem flatMap_ite_singleton {α β : Type} (p : α → Bool) (f : α → β) (xs : List α) :
    (xs.flatMap fun x => if p x then [f x] else []) = (xs.filter p).map f := by
  induction xs with
  | nil => rfl
  | cons x xs ih => cases hp : p x <;> simp [hp, ih]

-- ---------------------------------------------------------------------------
-- One round
-- ---------------------------------------------------------------------------

theorem CallsLaw.nil {offered granted : List Str} : CallsLaw loop offered granted [] [] :=
  ⟨rfl, rfl, by simp, rfl, by simp, by simp, fun _ => rfl, by simp, by simp⟩

theorem CallsLaw.append {offered granted : List Str} {xs ys : List LoopCall}
    {hs ks : List (Nat × Handled)} (hx : CallsLaw loop offered granted xs hs)
    (hy : CallsLaw loop offered granted ys ks) :
    CallsLaw loop offered granted (xs ++ ys) (hs ++ ks) where
  requested := by
    rw [List.map_append, hx.requested, hy.requested]
    simp [requestedCalls, providerAnswers]
  consulted := by simp [hx.consulted, hy.consulted]
  offered := List.forall_mem_append.mpr ⟨hx.offered, hy.offered⟩
  submitted := by simp [hx.submitted, hy.submitted]
  approved := List.forall_mem_append.mpr ⟨hx.approved, hy.approved⟩
  ungranted request context permissions answer hmem := (List.mem_append.mp hmem).elim
    (hx.ungranted request context permissions answer)
    (hy.ungranted request context permissions answer)
  events hbus := by simp [hx.events hbus, hy.events hbus]
  completed := List.forall_mem_append.mpr ⟨hx.completed, hy.completed⟩
  rejected := List.forall_mem_append.mpr ⟨hx.rejected, hy.rejected⟩

theorem Handled.not_asks_provider {iteration : Nat} {x : Handled} (hfits : x.Fits setup)
    {request : ExecutionRequest} {context : ExecutionContext} {permissions : List Str}
    {answer : Except Exn ExecutionResult}
    (h : .execute request context permissions answer ∈ x.calls loop setup iteration) :
    request.target ≠ .provider := by
  intro htarget
  have hnone := Handled.calls_providerAnswer hfits h
  rw [LoopCall.providerAnswer?, if_pos htarget] at hnone
  cases hnone

theorem Handled.fate_offered {x : Handled} (hfits : x.Fits setup) :
    x.fate.answer?.isSome ↔ x.call.name ∈ setup.allowed := by
  obtain ⟨call, fate⟩ := x
  cases fate with
  | unoffered => exact iff_of_false nofun hfits
  | consulted answer => exact iff_of_true rfl hfits.1
  | executed decision request answer => exact iff_of_true rfl hfits.1

theorem Handled.fate_approved {x : Handled} (hfits : x.Fits setup) :
    x.fate.isExecuted = true ↔
      ∃ decision, x.fate.answer? = some (.ok decision) ∧ decision.allowed = true := by
  obtain ⟨call, fate⟩ := x
  cases fate with
  | unoffered => exact iff_of_false nofun nofun
  | consulted answer =>
    refine iff_of_false nofun ?_
    rintro ⟨decision, heq, hallowed⟩
    rw [hfits.2 decision (Option.some.inj heq)] at hallowed
    cases hallowed
  | executed decision request answer => exact iff_of_true rfl ⟨decision, rfl, hfits.2.1⟩

theorem callsLaw_round (iteration : Nat) {history : List PyValue} {request : ExecutionRequest}
    {answer : Except Exn ExecutionResult} (hasked : Asked setup history request)
    (handled : List Handled) (hround : handled.map Handled.call =
      ((roundOf answer).map Prod.snd).getD []) (hfits : ∀ x ∈ handled, x.Fits setup) :
    CallsLaw loop setup.allowed setup.grantedPermissions
      (.execute request setup.context [] answer ::
        handled.flatMap (Handled.calls loop setup iteration))
      (handled.map (iteration, ·)) where
  requested := by
    rw [requestedCalls, hasked.providerAnswers, providerAnswers_handled hfits List.prefix_rfl,
      List.map_map]
    refine hround.trans ?_
    cases hanswer : roundOf answer <;> simp [hanswer]
  consulted := by
    rw [List.filterMap_cons_none rfl, List.filterMap_flatMap, List.filterMap_map,
      List.filterMap_eq_flatMap_toList]
    simp only [Handled.calls_consulted]
    rfl
  offered := by
    rintro p hp
    obtain ⟨x, hx, rfl⟩ := List.mem_map.mp hp
    exact Handled.fate_offered (hfits x hx)
  submitted := by
    have htarget : LoopCall.submitted? (.execute request setup.context [] answer) = none := by
      simp [LoopCall.submitted?, hasked.target]
    rw [List.filterMap_cons_none htarget, List.filterMap_flatMap,
      List.flatMap_congr fun x hx => Handled.calls_submitted iteration (hfits x hx),
      flatMap_ite_singleton, List.filter_map, List.map_map]
    rfl
  approved := by
    rintro p hp
    obtain ⟨x, hx, rfl⟩ := List.mem_map.mp hp
    exact Handled.fate_approved (hfits x hx)
  ungranted := by
    intro r context permissions a hmem htarget
    rcases List.mem_cons.mp hmem with heq | hmem
    · cases heq
      rfl
    · obtain ⟨x, hx, hmem⟩ := List.mem_flatMap.mp hmem
      exact absurd htarget (Handled.not_asks_provider (hfits x hx) hmem)
  events hbus := by
    rw [List.filterMap_cons_none rfl, List.filterMap_flatMap, List.flatMap_map]
    simp only [Handled.calls_event hbus]
  completed := by
    rintro p hp hexecuted event hevent
    obtain ⟨⟨call, fate⟩, hx, rfl⟩ := List.mem_map.mp hp
    cases fate with
    | unoffered => cases hexecuted
    | consulted => cases hexecuted
    | executed _ _ answer =>
      cases answer with
      | ok outcome => exact ⟨_, (Option.some.inj hevent).symm⟩
      | error exc => cases hevent
  rejected := by
    rintro p hp hexecuted event hevent
    obtain ⟨⟨call, fate⟩, hx, rfl⟩ := List.mem_map.mp hp
    cases fate with
    | unoffered => exact ⟨_, (Option.some.inj hevent).symm⟩
    | consulted decision =>
      cases decision with
      | ok decision => exact ⟨_, (Option.some.inj hevent).symm⟩
      | error exc => cases hevent
    | executed => cases hexecuted

-- ---------------------------------------------------------------------------
-- A whole run
-- ---------------------------------------------------------------------------

theorem Handled.closing_isSome {x : Handled} (h : x.fate.answered = true) :
    (x.closing loop).isSome := by
  obtain ⟨call, fate⟩ := x
  match fate with
  | .unoffered | .consulted (.ok _) | .executed _ _ (.ok _) => rfl

theorem callsLaw_asked {history : List PyValue} {request : ExecutionRequest}
    {answer : Except Exn ExecutionResult} (hasked : Asked setup history request)
    (hround : ((roundOf answer).map Prod.snd).getD [] = []) :
    CallsLaw loop setup.allowed setup.grantedPermissions
      [.execute request setup.context [] answer] [] :=
  callsLaw_round 0 hasked [] hround.symm (by simp)

/-- Calls the loop did not get to can be given a fate. -/
theorem handled_extend {handled : List Handled} {calls : List ToolCall} (e : Exn)
    (hcalls : handled.map Handled.call <+: calls) (hfits : ∀ x ∈ handled, x.Fits setup) :
    ∃ all, handled <+: all ∧ all.map Handled.call = calls ∧ ∀ x ∈ all, x.Fits setup := by
  obtain ⟨rest, rfl⟩ := hcalls
  let fate (call : ToolCall) : Handled :=
    ⟨call, if call.name ∈ setup.allowed then .consulted (.error e) else .unoffered⟩
  refine ⟨handled ++ rest.map fate, List.prefix_append .., ?_, ?_⟩
  · rw [List.map_append, List.map_map]
    exact congrArg _ (List.map_id _)
  · refine List.forall_mem_append.mpr ⟨hfits, fun x hx => ?_⟩
    obtain ⟨call, -, rfl⟩ := List.mem_map.mp hx
    by_cases hname : call.name ∈ setup.allowed
    · simp only [fate, if_pos hname]
      exact ⟨hname, nofun⟩
    · simp only [fate, if_neg hname]
      exact hname

theorem LoopRun.offeredCalls {remaining iteration : Nat} {history : List PyValue}
    {records : List ToolCallRecord} {outcome : Except Exn ToolLoopResult} {log : List LoopCall}
    (h : LoopRun loop setup remaining iteration history records outcome log) :
    ∃ whole handled, log <+: whole ∧
      CallsLaw loop setup.allowed setup.grantedPermissions whole handled ∧
      ∀ result, outcome = .ok result → log = whole ∧ ∀ p ∈ handled, (p.2.closing loop).isSome := by
  induction h with
  | spent => exact ⟨[], [], List.prefix_rfl, .nil, fun _ _ => ⟨rfl, by simp⟩⟩
  | unasked => exact ⟨[], [], List.prefix_rfl, .nil, nofun⟩
  | raised hasked => exact ⟨_, [], List.prefix_rfl, callsLaw_asked hasked rfl, nofun⟩
  | @failed _ _ _ _ _ response hasked hanswer =>
    have hround : roundOf (.ok response) = none := hanswer
    exact ⟨_, [], List.prefix_rfl, callsLaw_asked hasked (by rw [hround]; rfl),
      fun _ _ => ⟨rfl, by simp⟩⟩
  | @answered _ _ _ _ _ response _ hasked hanswer =>
    have hround : roundOf (.ok response) = some (_, []) := hanswer
    exact ⟨_, [], List.prefix_rfl, callsLaw_asked hasked (by rw [hround]; rfl),
      fun _ _ => ⟨rfl, by simp⟩⟩
  | @cut _ iteration _ _ _ response _ _ _ e _ hasked hanswer hcalls hfits hmade =>
    have hround : roundOf (.ok response) = some (_, _) := hanswer
    obtain ⟨all, ⟨rest, rfl⟩, hmap, hall⟩ := handled_extend e hcalls hfits
    refine ⟨_, _, ?_, callsLaw_round (iteration + 1) hasked _ (by rw [hround]; exact hmap) hall,
      nofun⟩
    rw [List.flatMap_append]
    exact List.cons_prefix_cons.mpr ⟨rfl, hmade.trans (List.prefix_append _ _)⟩
  | @next _ iteration _ _ _ response _ _ _ handled _ hasked hanswer hne hfits hrecords hrest ih =>
    have hround : roundOf (.ok response) = some (_, _) := hanswer
    obtain ⟨whole, more, hprefix, hlaw, hok⟩ := ih
    refine ⟨_, _, ?_, (callsLaw_round (iteration + 1) hasked handled (by rw [hround]; rfl) hfits).append hlaw,
      fun result hresult => ⟨?_, List.forall_mem_append.mpr ⟨fun p hp => ?_, (hok result hresult).2⟩⟩⟩
    · rw [List.cons_append]
      exact List.cons_prefix_cons.mpr ⟨rfl, List.prefix_append_right_inj _ |>.mpr hprefix⟩
    · rw [(hok result hresult).1, List.cons_append]
    · obtain ⟨x, hx, rfl⟩ := List.mem_map.mp hp
      exact Handled.closing_isSome ((forall₂_recorded hrecords).2.2 x hx)

def ToolCallLoop.offered [Printing] (loop : ToolCallLoop) (toolIds : List Str) : List Str :=
  match loop.describe toolIds with
  | .ok specs => specs.map ToolSpec.name
  | .error _ => []

variable [Printing] in
/-- The log of a run keeps the law of its calls; that of a run that raises is
an initial part of a log that does. -/
theorem run_offeredCalls {providerName : Str} {messages : List PyValue} {toolIds : List Str}
    {context : ExecutionContext} {options : ToolLoopOptions} {granted : List Str}
    {outcome : Except Exn ToolLoopResult} {log : List LoopCall}
    (h : (loop.run providerName messages toolIds context options granted).exec [] =
      (outcome, log)) :
    ∃ whole handled, log <+: whole ∧ CallsLaw loop (loop.offered toolIds) granted whole handled ∧
      ∀ result, outcome = .ok result → log = whole ∧
        ∀ p ∈ handled, (p.2.closing loop).isSome := by
  obtain ⟨⟨e, rfl⟩, rfl⟩ | ⟨specs, hspecs, hrun⟩ := run_loopRun loop h
  · exact ⟨[], [], List.prefix_rfl, .nil, nofun⟩
  · rw [ToolCallLoop.offered, hspecs]
    exact hrun.offeredCalls

end

theorem echoLoop_offeredCalls : ∃ result log handled,
    @echoRun plainPrinting echoRequest [item "text" (.str (lit "Done."))] = (.ok result, log) ∧
    CallsLaw (echoLoop echoRequest [item "text" (.str (lit "Done."))])
      (@ToolCallLoop.offered plainPrinting
        (echoLoop echoRequest [item "text" (.str (lit "Done."))]) [lit "echo"]) [] log handled := by
  obtain ⟨result, log, hrun⟩ : ∃ result log,
      @echoRun plainPrinting echoRequest [item "text" (.str (lit "Done."))] = (.ok result, log) :=
    ⟨_, _, rfl⟩
  obtain ⟨whole, handled, -, hlaw, hok⟩ := @run_offeredCalls _ plainPrinting _ _ _ _ _ _ _ _ hrun
  obtain ⟨rfl, -⟩ := hok result rfl
  exact ⟨result, log, handled, hrun, hlaw⟩

end MellivorKernel
