import MellivorKernel.Execution.Recording

/-!
# The event that ends an execution

A failed result must carry a message, and the message of a caught exception
is its text: an exception whose text is blank, caught at a tool or a provider,
becomes an exception of the engine instead of a result. Neither does the
pipeline catch what `validate` raises outside `ToolValidationError`. Beside a
payload that is to be recorded and cannot be printed, and a sink that raises at
what it is handed, these are the only ways to leave a started execution without
its result (`execute_announces_iff`).
-/

namespace MellivorKernel

open Python Foundation Program

def published (calls : List Call) : List Event :=
  calls.filterMap fun
    | .publish event => some event
    | _ => none

@[simp] theorem published_append (xs ys : List Call) :
    published (xs ++ ys) = published xs ++ published ys := List.filterMap_append

@[simp] theorem published_told_emit (sink : Option StructuredEventSink)
    (event : StructuredObservationEvent) : published (told .emit sink event) = [] := by
  unfold told
  split <;> rfl

theorem published_of_only {α : Type} {m : Kernel α} (h : m.Only fun c => published [c] = []) :
    m.Traces fun _ made => published made = [] := fun log => by
  obtain ⟨new, hnew, hall⟩ := h log
  refine ⟨new, hnew, ?_⟩
  clear hnew
  induction new with
  | nil => rfl
  | cons c rest ih =>
    rw [← List.singleton_append, published_append, hall c (by simp),
      ih fun c hc => hall c (List.mem_cons_of_mem _ hc), List.append_nil]

-- ---------------------------------------------------------------------------
-- Where an exception leaves
-- ---------------------------------------------------------------------------

/-- The hook of the tool that the pipeline reaches raises something it cannot
turn into a `ToolResult`. -/
def BaseTool.escapes (tool : BaseTool) (context : ToolContext) (request : Mapping)
    (granted : List Permission) : Bool :=
  match tool.validate request with
  | .error exc => !exc.isA .toolValidationError || blank exc.text
  | .ok () => missingPermissions tool.permissions granted = [] &&
    match tool.execute context request with
    | .error exc => blank exc.text
    | .ok _ => false

theorem denialReason_ok {outcome : AuthorizationResult} (h : outcome.granted = false) :
    blank (denialReason outcome) = false := by
  have hr := outcome.denied_reason h
  unfold denialReason
  cases he : outcome.reason with
  | none => decide
  | some reason =>
    rw [he] at hr
    simp only [if_neg (ne_nil_of_not_blank hr)]
    exact hr

section
variable [Printing]

def Dispatcher.escapes (dispatcher : Dispatcher) (request : ExecutionRequest)
    (context : ExecutionContext) (granted : List Str) : Bool :=
  match request.target with
  | .tool => match dispatcher.toolRegistry.lookup request.operation, parsePermissions granted with
    | .ok tool, .ok resolved => tool.escapes
        { configuration := context.configuration, logger := context.logger
          runtime := context.runtime, services := context.services } request.payload resolved
    | _, _ => false
  | .provider => match dispatcher.providerRegistry.get request.operation with
    | .ok provider => match provider.invoke request.payload with
      | .error exc => blank exc.text
      | .ok _ => false
    | .error _ => false

/-- The request is authorized, if that is asked, and what it reaches raises
something no result can carry. -/
def ExecutionEngine.escapes (engine : ExecutionEngine) (request : ExecutionRequest)
    (context : ExecutionContext) (granted : List Str) : Bool :=
  match engine.authorizer with
  | some authorizer => Authorized authorizer.toolRegistry request granted &&
      engine.dispatcher.escapes request context granted
  | none => engine.dispatcher.escapes request context []

-- ---------------------------------------------------------------------------
-- Whether a result comes back
-- ---------------------------------------------------------------------------

theorem runPipeline_returns (toolId : Str) (tool : BaseTool) (context : ToolContext)
    (request : Mapping) (granted : List Permission) (log : List Call) :
    (∃ result, ((runPipeline toolId tool context request granted).exec log).1 = .ok result) ↔
      tool.escapes context request granted = false := by
  unfold runPipeline BaseTool.escapes
  rw [exec_bind, exec_attempt, exec_call]
  cases tool.validate request with
  | error exc =>
    by_cases hv : exc.isA .toolValidationError = true
    · simp only [hv, if_true, exec_lift, ToolResult.new_returns, outcomeOk_failed Rat.le_refl,
        Bool.not_true, Bool.false_or]
    · simp [hv]
  | ok u =>
    by_cases hm : missingPermissions tool.permissions granted = []
    · simp only [hm, ne_eq, not_true_eq_false, if_false, decide_true, Bool.true_and]
      rw [exec_bind, exec_attempt, exec_call]
      cases tool.execute context request with
      | error exc =>
        simp only [exec_lift, ToolResult.new_returns, outcomeOk_failed (tool.elapsed request).2]
      | ok result =>
        have hok : OutcomeOk result.success result.error (tool.elapsed request) :=
          ⟨result.ok.failed, result.ok.succeeded, Rat.not_lt.mpr (tool.elapsed request).2⟩
        simp only [exec_lift, ToolResult.new_returns, hok]
    · simp only [hm, ne_eq, not_false_eq_true, if_true, decide_false, Bool.false_and, exec_lift,
        ToolResult.new_returns, outcomeOk_failed Rat.le_refl, iff_true]
      rw [List.append_assoc]
      exact blank_append_left (by decide) _

theorem dispatch_returns (dispatcher : Dispatcher) (request : ExecutionRequest)
    (context : ExecutionContext) (granted : List Str) (log : List Call) :
    (∃ result, ((dispatcher.dispatch request context granted).exec log).1 = .ok result) ↔
      dispatcher.escapes request context granted = false := by
  unfold Dispatcher.dispatch Dispatcher.escapes
  cases request.target with
  | tool =>
    simp only [Dispatcher.dispatchToTool]
    cases hl : dispatcher.toolRegistry.lookup request.operation with
    | error exc =>
      obtain ⟨message, rfl, hb⟩ := ToolRegistry.lookup_error hl
      simp only [exec_lift, ExecutionResult.new_returns, outcomeOk_failed Rat.le_refl,
        Exn.raised_text, hb]
    | ok tool =>
      cases hp : parsePermissions granted with
      | error exc =>
        obtain ⟨message, rfl, hb⟩ := parsePermissions_error hp
        simp only [exec_lift, ExecutionResult.new_returns, outcomeOk_failed Rat.le_refl,
          Exn.raised_text, hb]
      | ok resolved =>
        simp only
        rw [← runPipeline_returns request.operation tool _ request.payload resolved log, exec_bind]
        cases (runPipeline request.operation tool _ request.payload resolved).exec log with
        | mk r h' => cases r with
          | error exc => simp
          | ok toolResult =>
            simp only [exec_lift, ExecutionResult.new_returns, toolResult.ok, Except.ok.injEq,
              exists_eq', iff_self]
  | provider =>
    simp only [Dispatcher.dispatchToProvider]
    cases hg : dispatcher.providerRegistry.get request.operation with
    | error exc =>
      obtain ⟨message, rfl, hb⟩ := ProviderRegistry.get_error hg
      simp only [exec_lift, ExecutionResult.new_returns, outcomeOk_failed Rat.le_refl,
        Exn.raised_text, hb]
    | ok provider =>
      simp only
      rw [exec_bind, exec_attempt, exec_call]
      have ht := (provider.elapsed request.payload).2
      cases provider.invoke request.payload with
      | error exc => simp only [exec_lift, ExecutionResult.new_returns, outcomeOk_failed ht]
      | ok response => simp only [exec_lift, ExecutionResult.new_returns, outcomeOk_succeeded ht]

omit [Printing] in
theorem tell_returns {α : Type} {entry : α → Call} {sink : Option (α → Except Exn Unit)} {a : α}
    {log : List Call} :
    (∃ u, ((tell entry sink a).exec log).1 = .ok u) ↔ accepted sink a = .ok () := by
  rw [tell_exec]
  exact ⟨fun ⟨_, h⟩ => h, fun h => ⟨(), h⟩⟩

def AuthorizationEngine.Heard (authorizer : AuthorizationEngine) (request : ExecutionRequest)
    (granted : List Str) : Prop :=
  ∀ decision, authorizer.decide request granted = .ok decision →
    accepted authorizer.eventBus (decisionEvent request decision) = .ok () ∧
    accepted authorizer.auditSink (decisionRecord request decision) = .ok ()

theorem check_returns_iff {authorizer : AuthorizationEngine} {request : ExecutionRequest}
    {granted : List Str} {log : List Call} :
    (∃ decision, ((authorizer.check request granted).exec log).1 = .ok decision) ↔
      authorizer.Heard request granted := by
  obtain ⟨decision, hd, -⟩ := authorizer.decide_spec request granted
  unfold AuthorizationEngine.check AuthorizationEngine.recordDecision AuthorizationEngine.Heard
  rw [hd, bind_returns]
  simp only [exec_lift, Except.ok.injEq, exists_eq_left', forall_eq']
  rw [bind_returns]
  simp only [tell_exec, bind_returns, exec_pure, Except.ok.injEq, exists_eq', and_true]
  exact ⟨fun ⟨_, hbus, _, haudit⟩ => ⟨hbus, haudit⟩, fun ⟨hbus, haudit⟩ => ⟨(), hbus, (), haudit⟩⟩

theorem resolve_returns {engine : ExecutionEngine} (request : ExecutionRequest)
    (context : ExecutionContext) (granted : List Str) (log : List Call) :
    (∃ result, ((engine.resolve request context granted).exec log).1 = .ok result) ↔
      (∀ a ∈ engine.authorizer, a.Heard request granted) ∧
        engine.escapes request context granted = false := by
  unfold ExecutionEngine.resolve ExecutionEngine.escapes
  cases ha : engine.authorizer with
  | none =>
    simp only [Option.mem_def, reduceCtorEq, false_implies, implies_true, true_and]
    exact dispatch_returns engine.dispatcher request context [] log
  | some authorizer =>
    obtain ⟨decision, hd, hgranted⟩ := authorizer.decide_spec request granted
    simp only [Option.mem_def, Option.some.injEq, forall_eq']
    -- what follows the check, at the decision
    have hbranch (log' : List Call) : (∃ result, ((if decision.granted then
          engine.dispatcher.dispatch request context granted
        else lift (ExecutionResult.new false none (some (denialReason decision)) 0
          [item "stage" (.str (lit "authorization")), targetItem request.target]) :
            Kernel ExecutionResult).exec log').1 = .ok result) ↔
        (decide (Authorized authorizer.toolRegistry request granted) &&
          engine.dispatcher.escapes request context granted) = false := by
      cases hg : decision.granted with
      | true =>
        simp only [hgranted.mp hg, if_true, decide_true, Bool.true_and]
        exact dispatch_returns engine.dispatcher request context granted log'
      | false =>
        have hnot : ¬ Authorized authorizer.toolRegistry request granted := by
          rw [← hgranted, hg]
          exact Bool.false_ne_true
        simp only [hnot, Bool.false_eq_true, if_false, decide_false, Bool.false_and, exec_lift,
          ExecutionResult.new_returns, outcomeOk_failed Rat.le_refl, denialReason_ok hg]
    rw [bind_returns, ← @check_returns_iff _ authorizer request granted log]
    constructor
    · rintro ⟨outcome, hcheck, hrest⟩
      obtain rfl := check_returns hd hcheck
      exact ⟨⟨outcome, hcheck⟩, (hbranch _).mp hrest⟩
    · rintro ⟨⟨outcome, hcheck⟩, hescapes⟩
      obtain rfl := check_returns hd hcheck
      exact ⟨outcome, hcheck, (hbranch _).mpr hescapes⟩

-- ---------------------------------------------------------------------------
-- The outcome
-- ---------------------------------------------------------------------------

theorem dispatch_steady (dispatcher : Dispatcher) (request : ExecutionRequest)
    (context : ExecutionContext) (granted : List Str) :
    (dispatcher.dispatch request context granted).Steady := by
  unfold Dispatcher.dispatch
  split
  · unfold Dispatcher.dispatchToTool
    split
    · exact .lift _
    · split
      · exact .lift _
      · refine .bind ?_ fun _ => .lift _
        unfold runPipeline
        refine .bind (.attempt (.call _ _)) fun _ => ?_
        split
        · split
          · exact .lift _
          · exact .lift (.error _)
        · dsimp only
          split
          · exact .lift _
          · refine .bind (.attempt (.call _ _)) fun _ => ?_
            split <;> exact .lift _
  · unfold Dispatcher.dispatchToProvider
    split
    · exact .lift _
    · refine .bind (.attempt (.call _ _)) fun _ => ?_
      split <;> exact .lift _

omit [Printing] in
theorem tell_steady {α : Type} (entry : α → Call) (sink : Option (α → Except Exn Unit)) (a : α) :
    (tell entry sink a).Steady := fun _ _ => by simp only [tell_exec]

theorem resolve_steady (engine : ExecutionEngine) (request : ExecutionRequest)
    (context : ExecutionContext) (granted : List Str) :
    (engine.resolve request context granted).Steady := by
  unfold ExecutionEngine.resolve
  split
  · unfold AuthorizationEngine.check AuthorizationEngine.recordDecision
    refine .bind (.bind (.lift _) fun _ => .bind (tell_steady _ _ _) fun _ =>
      .bind (tell_steady _ _ _) fun _ => .lift (.ok _)) fun outcome => ?_
    split
    · exact dispatch_steady _ _ _ _
    · exact .lift _
  · exact dispatch_steady _ _ _ _

/-- The sinks beside the engine's bus take what the execution hands them: the
observation of its start, the decision of the authorizer, if there is one, and
the observation of what authorizer and dispatcher come to. -/
structure ExecutionEngine.Heard (engine : ExecutionEngine) (request : ExecutionRequest)
    (context : ExecutionContext) (granted : List Str) : Prop where
  started : accepted engine.observability (observation request (lit "execution.started")
    (lit "Executing request " ++ request.requestId ++ lit ".") []) = .ok ()
  decided : ∀ a ∈ engine.authorizer, a.Heard request granted
  ended : ∀ result, ((engine.resolve request context granted).exec []).1 = .ok result →
    accepted engine.observability (terminalObservation request result) = .ok ()

/-- The outcome of a request can be recorded, if that is asked for. -/
def ExecutionEngine.records (engine : ExecutionEngine) (request : ExecutionRequest)
    (context : ExecutionContext) (granted : List Str) : Bool :=
  engine.memory.isNone || engine.recordable request context granted

theorem remember_returns {engine : ExecutionEngine} {request : ExecutionRequest}
    {context : ExecutionContext} {granted : List Str} {result : ExecutionResult}
    (h : Delivers (engine.delivers request context granted) (.ok result)) (log : List Call) :
    (∃ u, ((engine.remember request result).exec log).1 = .ok u) ↔
      engine.records request context granted = true := by
  have hrecordable : (delivered result.success result.payload).all printablePairs =
      engine.recordable request context granted := by
    rw [h result rfl]
    rfl
  rw [ExecutionEngine.records, Bool.or_eq_true, ← hrecordable]
  cases hprint : (delivered result.success result.payload).all printablePairs with
  | true =>
    obtain ⟨more, hmore, -⟩ := remember_recordable request (fun _ => hprint) log
    exact iff_of_true ⟨(), by rw [hmore]⟩ (.inr rfl)
  | false =>
    cases hmemory : engine.memory with
    | none =>
      refine iff_of_true ⟨(), ?_⟩ (.inl rfl)
      rw [ExecutionEngine.remember, hmemory]
      rfl
    | some store =>
      obtain ⟨e, he⟩ := remember_unrecordable engine (by rw [hmemory]; rfl) request hprint log
      rw [he]
      simp

/-- With a bus that takes every event an execution returns exactly if nothing
escapes it, its outcome can be recorded, and the other sinks take theirs. -/
theorem execute_returns {engine : ExecutionEngine} (hbus : Quiet engine.eventBus)
    (request : ExecutionRequest) (context : ExecutionContext) (granted : List Str)
    (log : List Call) :
    (∃ result, ((engine.execute request context granted).exec log).1 = .ok result) ↔
      engine.escapes request context granted = false ∧
        engine.records request context granted = true ∧
        engine.Heard request context granted := by
  have hpublish (event : Event) (log : List Call) : (engine.publish event).exec log =
      (.ok (), log ++ told .publish engine.eventBus event) := tell_quiet hbus _ _ _
  rw [ExecutionEngine.execute_eq, exec_bind_ok (hpublish _ _), bind_returns]
  generalize log ++ told .publish engine.eventBus _ = opened
  constructor
  · rintro ⟨u, hstarted, hrest⟩
    obtain ⟨result, hresolve, hfinish⟩ := bind_returns.mp hrest
    obtain ⟨hdecided, hescapes⟩ := (resolve_returns request context granted _).mp ⟨result, hresolve⟩
    obtain ⟨-, -, hdelivers⟩ := resolve_delivers engine request context granted
      ((engine.observe request (lit "execution.started")
        (lit "Executing request " ++ request.requestId ++ lit ".") []).exec opened).2
    rw [hresolve] at hdelivers
    rw [ExecutionEngine.finish, exec_bind_ok (hpublish _ _)] at hfinish
    obtain ⟨v, hended, hrest⟩ := bind_returns.mp hfinish
    obtain ⟨w, hremember, -⟩ := bind_returns.mp hrest
    refine ⟨hescapes, (remember_returns hdelivers _).mp ⟨w, hremember⟩, ?_, hdecided, ?_⟩
    · exact tell_returns.mp ⟨_, hstarted⟩
    · intro result' hresult'
      obtain rfl : result = result' := by
        rw [resolve_steady engine request context granted _ [], hresult'] at hresolve
        exact (Except.ok.inj hresolve).symm
      exact tell_returns.mp ⟨_, hended⟩
  · rintro ⟨hescapes, hrecords, hheard⟩
    obtain ⟨u, hstarted⟩ := (@tell_returns _ Call.emit engine.observability _ opened).mpr
      hheard.started
    refine ⟨u, hstarted, bind_returns.mpr ?_⟩
    obtain ⟨result, hresolve⟩ := (resolve_returns request context granted _).mpr
      ⟨hheard.decided, hescapes⟩
    refine ⟨result, hresolve, ?_⟩
    obtain ⟨-, -, hdelivers⟩ := resolve_delivers engine request context granted
      ((engine.observe request (lit "execution.started")
        (lit "Executing request " ++ request.requestId ++ lit ".") []).exec opened).2
    rw [hresolve] at hdelivers
    have hended := hheard.ended result
      ((resolve_steady engine request context granted _ _).trans hresolve)
    rw [ExecutionEngine.finish, exec_bind_ok (hpublish _ _)]
    obtain ⟨v, htold⟩ := tell_returns.mpr hended
    refine bind_returns.mpr ⟨v, htold, bind_returns.mpr ?_⟩
    obtain ⟨w, hremember⟩ := (remember_returns hdelivers _).mpr hrecords
    exact ⟨w, hremember, result, rfl⟩

-- ---------------------------------------------------------------------------
-- What is published
-- ---------------------------------------------------------------------------

/-- `execute` returned, and the engine published the start and then the
terminal event that the result calls for. -/
def ExecutionEngine.Announces (engine : ExecutionEngine) (request : ExecutionRequest)
    (context : ExecutionContext) (granted : List Str) (log : List Call) : Prop :=
  ∃ result new, (engine.execute request context granted).exec log = (.ok result, log ++ new) ∧
    published new =
      [.executionStarted request.requestId request.target request.operation,
        terminalEvent request result]

theorem execute_published {engine : ExecutionEngine} (hbus : engine.eventBus.isSome)
    (request : ExecutionRequest) (context : ExecutionContext) (granted : List Str) :
    (engine.execute request context granted).Traces fun outcome made => ∀ result,
      outcome = .ok result → published made =
        [.executionStarted request.requestId request.target request.operation,
          terminalEvent request result] := by
  have hpublish (event : Event) : (engine.publish event).Traces
      fun _ made => published made = [event] :=
    tell_traces (by simp [told, hbus, published])
  have hemit (event : StructuredObservationEvent) : (tell .emit engine.observability event).Traces
      fun _ made => published made = [] := tell_traces (published_told_emit _ _)
  have hresolve : (engine.resolve request context granted).Traces fun _ made => published made = [] :=
    published_of_only (resolve_only (fun _ => rfl) (fun _ => rfl)
      (dispatch_only (fun _ _ => rfl) (fun _ _ => rfl) (fun _ _ _ => rfl) request context))
  have hremember (result : ExecutionResult) : (engine.remember request result).Traces
      fun _ made => published made = [] :=
    published_of_only (remember_only (fun _ => rfl) engine request result)
  rw [ExecutionEngine.execute_eq]
  refine .bind_returned (hpublish _) fun _ started hstarted => ?_
  refine .bind_returned (hemit _) fun _ observed hobserved => ?_
  refine .bind_returned hresolve fun result resolved hresolved => ?_
  refine .bind_returned (hpublish _) fun _ ended hended => ?_
  refine .bind_returned (hemit _) fun _ observed' hobserved' => ?_
  refine .bind_returned (hremember result) fun _ recorded hrecorded => .pure ?_
  rintro _ ⟨⟩
  simp [hstarted, hobserved, hresolved, hended, hobserved', hrecorded]

/-- With a bus that takes every event, an execution is announced from start to
end exactly if no exception of a tool or a provider escapes it, what they
deliver can be printed where it is to be recorded, and no other sink raises at
what it is handed. -/
theorem execute_announces_iff {engine : ExecutionEngine} (hbus : engine.eventBus.isSome)
    (hquiet : Quiet engine.eventBus) (request : ExecutionRequest) (context : ExecutionContext)
    (granted : List Str) (log : List Call) :
    engine.Announces request context granted log ↔
      engine.escapes request context granted = false ∧
        engine.records request context granted = true ∧
        engine.Heard request context granted := by
  rw [← execute_returns hquiet request context granted log]
  constructor
  · rintro ⟨result, new, hexecute, -⟩
    exact ⟨result, by rw [hexecute]⟩
  · rintro ⟨result, hresult⟩
    obtain ⟨new, hnew, hpublished⟩ := execute_published hbus request context granted log
    exact ⟨result, new, Prod.ext hresult hnew, hpublished result hresult⟩

end

-- ---------------------------------------------------------------------------
-- A provider that raises without a message
-- ---------------------------------------------------------------------------

/-- An engine with one provider, `model`, and a bus that takes every event. -/
def providerEngine (invoke : Mapping → Except Exn Mapping) : ExecutionEngine where
  dispatcher := {
    toolRegistry := ToolRegistry.empty
    providerRegistry := ⟨Dict.empty.set (lit "model") {
      name := lit "model"
      supportsToolCalls := false
      invoke := invoke
      elapsed := fun _ => noTime }⟩ }
  authorizer := none
  eventBus := some fun _ => .ok ()
  memory := none
  observability := none
  now := DateTime.epoch

theorem providerEngine_quiet (invoke : Mapping → Except Exn Mapping) :
    Quiet (providerEngine invoke).eventBus := by
  rintro sink ⟨⟩ event
  rfl

theorem providerEngine_heard [Printing] (invoke : Mapping → Except Exn Mapping)
    (request : ExecutionRequest) (context : ExecutionContext) (granted : List Str) :
    (providerEngine invoke).Heard request context granted := ⟨rfl, nofun, fun _ _ => rfl⟩

def modelRequest : ExecutionRequest where
  target := .provider
  operation := lit "model"
  payload := []
  requestId := lit "r1"
  operation_ok := by decide
  requestId_ok := by decide

/-- `raise RuntimeError()` in a provider leaves the execution without a
result and without a terminal event. -/
theorem silentProvider_unannounced :
    ¬ @ExecutionEngine.Announces plainPrinting
      (providerEngine fun _ => .error (.raised (.foreign (lit "RuntimeError") .exception) []))
      modelRequest ⟨0, 0, 0, 0⟩ [] [] := by
  rintro ⟨result, new, hexecute, -⟩
  have hescapes := ((@execute_returns plainPrinting _ (providerEngine_quiet _) modelRequest
    ⟨0, 0, 0, 0⟩ [] []).mp ⟨result, by rw [hexecute]⟩).1
  revert hescapes
  decide

theorem answeringProvider_announced :
    @ExecutionEngine.Announces plainPrinting (providerEngine .ok) modelRequest ⟨0, 0, 0, 0⟩ [] [] :=
  (@execute_announces_iff plainPrinting _ rfl (providerEngine_quiet _) modelRequest
    ⟨0, 0, 0, 0⟩ [] []).mpr ⟨by decide, rfl, @providerEngine_heard plainPrinting _ _ _ _⟩

end MellivorKernel
