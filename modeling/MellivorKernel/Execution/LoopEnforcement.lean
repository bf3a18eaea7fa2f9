import MellivorKernel.Execution.Enforcement
import MellivorKernel.Execution.OfferedCalls
import MellivorKernel.Foundation.Conduct

/-!
# What a tool loop lets run

The loop over an execution engine whose tools and providers may answer
differently each time. No tool runs inside a loop but on a call that the model
asked for, under a name that was offered, after the hook allowed it and with
every permission it declares among those granted; and it runs once for such a
call at most (`run_permitted`).
-/

namespace MellivorKernel

open Python Foundation Program

def ToolCallLoop.over [Printing] (loop : ToolCallLoop)
    (execution : List LoopCall → ExecutionEngine) : ToolCallLoop :=
  { loop with engine := fun history request context granted =>
      (((execution history).execute request context granted).exec []).1 }

theorem describe_congr [Printing] {loop loop' : ToolCallLoop} (h : loop.tools = loop'.tools)
    (toolIds : List Str) : loop.describe toolIds = loop'.describe toolIds := by
  induction toolIds with
  | nil => rfl
  | cons toolId rest ih => rw [ToolCallLoop.describe, ToolCallLoop.describe, ih, h]

def LoopCall.inner [Printing] (execution : List LoopCall → ExecutionEngine)
    (before : List LoopCall) : LoopCall → List Call
  | .execute request context granted _ =>
    (((execution before).execute request context granted).exec []).2
  | .publish _ | .consult .. => []

def Call.executed? : Call → Option (Str × Mapping)
  | .execute toolId request => some (toolId, request)
  | _ => none

def executedTools [Printing] (execution : List LoopCall → ExecutionEngine) (log : List LoopCall) :
    List (Str × Mapping) :=
  (seen (LoopCall.inner execution) log).flatten.filterMap Call.executed?

/-- The hook was asked about a call last, and allowed it. -/
structure Allowed (history : List LoopCall) (call : ToolCall) : Prop where
  requested : call ∈ requestedCalls history
  approved : ∃ decision, history.getLast? = some (.consult call (.ok decision)) ∧
    decision.allowed = true

/-- A tool may run on a request, after a history of the loop. -/
structure Permitted (engine : ExecutionEngine) (offered granted : List Str)
    (history : List LoopCall) (toolId : Str) (request : Mapping) [Printing] : Prop where
  offered : toolId ∈ offered
  allowed : ∃ call, Allowed history call ∧ call.name = toolId ∧ call.arguments = request
  covered : ∃ tool, engine.dispatcher.toolRegistry.lookup toolId = .ok tool ∧
    ∀ p ∈ tool.permissions, p.value ∈ granted

-- ---------------------------------------------------------------------------
-- One execution
-- ---------------------------------------------------------------------------

def Call.reached? : Call → Option (ExecutionTarget × Str × Mapping)
  | .execute toolId request => some (.tool, toolId, request)
  | .invoke name request => some (.provider, name, request)
  | _ => none

def ReachesAtMost (request : ExecutionRequest) (made : List Call) : Prop :=
  made.filterMap Call.reached? = [] ∨
    made.filterMap Call.reached? = [(request.target, request.operation, request.payload)]

def RunsAtMost (request : ExecutionRequest) (made : List Call) : Prop :=
  made.filterMap Call.executed? = [] ∨ request.target = .tool ∧
    made.filterMap Call.executed? = [(request.operation, request.payload)]

theorem ReachesAtMost.runsAtMost {request : ExecutionRequest} {made : List Call}
    (h : ReachesAtMost request made) : RunsAtMost request made := by
  have hexecuted : made.filterMap Call.executed? = (made.filterMap Call.reached?).filterMap
      fun reached => if reached.1 = .tool then some reached.2 else none := by
    rw [List.filterMap_filterMap]
    refine List.filterMap_congr fun c _ => ?_
    cases c <;> rfl
  rw [RunsAtMost, hexecuted]
  rcases h with h | h
  · exact .inl (by rw [h]; rfl)
  · rw [h]
    cases request.target with
    | tool => exact .inr ⟨rfl, rfl⟩
    | provider => exact .inl rfl

theorem reached_eq_nil {calls : List Call} (h : ∀ c ∈ calls, ¬ c.Reaches) :
    calls.filterMap Call.reached? = [] := by
  refine List.filterMap_eq_nil_iff.mpr fun c hc => ?_
  cases c with
  | execute | invoke => exact absurd trivial (h _ hc)
  | _ => rfl

/-- What an execution that ended so has reached: a success has reached its
target, and the success of a provider is what the provider answered. -/
structure Fulfilled [Printing] (dispatcher : Dispatcher) (request : ExecutionRequest)
    (outcome : Except Exn ExecutionResult) (made : List Call) : Prop where
  once : ReachesAtMost request made
  reached : ∀ result, outcome = .ok result → result.success = true →
    made.filterMap Call.reached? ≠ []
  paid : ∀ result, outcome = .ok result → result.success = true → request.target = .provider →
    ∃ provider payload, dispatcher.providerRegistry.get request.operation = .ok provider ∧
      provider.invoke request.payload = .ok payload ∧ result.payload = some payload

section
variable [Printing] {dispatcher : Dispatcher} {request : ExecutionRequest}

theorem Fulfilled.raised {made : List Call} (h : ReachesAtMost request made) {exc : Exn} :
    Fulfilled dispatcher request (.error exc) made := ⟨h, nofun, nofun⟩

theorem Fulfilled.failed {made : List Call} (h : ReachesAtMost request made)
    {payload : Option Mapping} {error : Option Str} {seconds : Rat} {metadata : Mapping} :
    Fulfilled dispatcher request (ExecutionResult.new false payload error seconds metadata) made := by
  have hfailed (result : ExecutionResult)
      (heq : ExecutionResult.new false payload error seconds metadata = .ok result) :
      result.success ≠ true := by
    unfold ExecutionResult.new at heq
    split at heq <;> cases heq
    exact Bool.false_ne_true
  exact ⟨h, fun result heq hsuccess => absurd hsuccess (hfailed result heq),
    fun result heq hsuccess => absurd hsuccess (hfailed result heq)⟩

theorem Fulfilled.congr {outcome : Except Exn ExecutionResult} {made made' : List Call}
    (h : Fulfilled dispatcher request outcome made)
    (heq : made'.filterMap Call.reached? = made.filterMap Call.reached?) :
    Fulfilled dispatcher request outcome made' := by
  refine ⟨?_, fun result hok hsuccess => ?_, h.paid⟩
  · rw [ReachesAtMost, heq]
    exact h.once
  · rw [heq]
    exact h.reached result hok hsuccess

omit [Printing] in
theorem unreached {α : Type} {m : Kernel α} (h : m.Only fun c => ¬ c.Reaches) :
    m.Traces fun _ made => made.filterMap Call.reached? = [] := fun log => by
  obtain ⟨made, hmade, hall⟩ := h log
  exact ⟨made, hmade, reached_eq_nil hall⟩

theorem runPipeline_reached (toolId : Str) (tool : BaseTool) (context : ToolContext)
    (request : Mapping) (granted : List Permission) :
    (runPipeline toolId tool context request granted).Traces fun outcome made =>
      made.filterMap Call.reached? = [(.tool, toolId, request)] ∨
        made.filterMap Call.reached? = [] ∧ ∀ result, outcome = .ok result →
          result.success = false := by
  have hfailed {error : Option Str} {seconds : Rat} {metadata : Mapping} (result : ToolResult)
      (heq : ToolResult.new false none error seconds metadata = .ok result) :
      result.success = false := by
    unfold ToolResult.new at heq
    split at heq <;> cases heq
    rfl
  refine .attempt_call_bind ?_
  cases tool.validate request with
  | error exc =>
    simp only
    split
    · exact .lift (.inr ⟨rfl, hfailed⟩)
    · exact fun log => ⟨[], (List.append_nil log).symm, .inr ⟨rfl, nofun⟩⟩
  | ok u =>
    simp only
    split
    · exact .lift (.inr ⟨rfl, hfailed⟩)
    · refine .attempt_call_bind ?_
      cases tool.execute context request with
      | error exc => exact .lift (.inl rfl)
      | ok result => exact .lift (.inl rfl)

theorem dispatch_fulfilled (dispatcher : Dispatcher) (request : ExecutionRequest)
    (context : ExecutionContext) (granted : List Str) :
    (dispatcher.dispatch request context granted).Traces (Fulfilled dispatcher request) := by
  unfold Dispatcher.dispatch
  cases htarget : request.target with
  | tool =>
    simp only [Dispatcher.dispatchToTool]
    split
    · exact .lift (.failed (.inl rfl))
    · split
      · exact .lift (.failed (.inl rfl))
      · refine .bind (runPipeline_reached _ _ _ _ _) (fun _ _ h => .raised ?_) fun _ made h => ?_
        · rw [ReachesAtMost, htarget]
          exact h.symm.imp_left And.left
        · refine .lift ?_
          rw [List.append_nil]
          rcases h with h | ⟨h, hfailed⟩
          · refine ⟨.inr (by rw [htarget, h]), fun _ _ _ => by simp [h], fun _ _ _ hprovider => ?_⟩
            rw [htarget] at hprovider
            cases hprovider
          · rw [hfailed _ rfl]
            exact .failed (.inl h)
  | provider =>
    simp only [Dispatcher.dispatchToProvider]
    cases hget : dispatcher.providerRegistry.get request.operation with
    | error exc => exact .lift (.failed (.inl rfl))
    | ok provider =>
      have hreaches : ReachesAtMost request [.invoke request.operation request.payload] :=
        .inr (by rw [htarget]; rfl)
      refine .attempt_call_bind ?_
      cases hinvoke : provider.invoke request.payload with
      | error exc => exact .lift (.failed hreaches)
      | ok response =>
        refine .lift ⟨hreaches, fun _ _ _ => List.cons_ne_nil _ _,
          fun result hok _ _ => ⟨provider, response, hget, hinvoke, ?_⟩⟩
        unfold ExecutionResult.new at hok
        split at hok <;> cases hok
        rfl

theorem resolve_fulfilled (engine : ExecutionEngine) (request : ExecutionRequest)
    (context : ExecutionContext) (granted : List Str) :
    (engine.resolve request context granted).Traces (Fulfilled engine.dispatcher request) := by
  unfold ExecutionEngine.resolve
  cases engine.authorizer with
  | none => exact dispatch_fulfilled _ _ _ _
  | some authorizer =>
    have hcheck := unreached (check_only (P := fun c => ¬ c.Reaches) (fun _ => not_false)
      (fun _ => not_false) authorizer request granted)
    refine .bind hcheck (fun _ _ h => .raised (.inl h)) fun outcome made hmade => ?_
    split
    · exact (dispatch_fulfilled _ _ _ _).mono fun _ more h => h.congr (by simp [hmade])
    · exact .lift (.failed (.inl (by simp [hmade])))

theorem finish_unreached (engine : ExecutionEngine) (request : ExecutionRequest)
    (result : ExecutionResult) : (engine.finish request result).Traces fun outcome made =>
      made.filterMap Call.reached? = [] ∧ ∀ r, outcome = .ok r → r = result := by
  refine .bind (unreached (tell_only not_false _)) (fun _ _ h => ⟨h, nofun⟩) fun _ made h => ?_
  refine .bind (unreached (tell_only not_false _)) (fun _ _ h' => ⟨by simp [h, h'], nofun⟩)
    fun _ made' h' => ?_
  refine .bind (unreached (remember_only (fun _ => not_false) engine request result))
    (fun _ _ h'' => ⟨by simp [h, h', h''], nofun⟩) fun _ made'' h'' => ?_
  refine .pure ⟨by simp [h, h', h''], fun r hr => ?_⟩
  cases hr
  rfl

theorem execute_fulfilled (engine : ExecutionEngine) (request : ExecutionRequest)
    (context : ExecutionContext) (granted : List Str) :
    (engine.execute request context granted).Traces (Fulfilled engine.dispatcher request) := by
  rw [ExecutionEngine.execute_eq]
  refine .bind (unreached (tell_only not_false _)) (fun _ _ h => .raised (.inl h))
    fun _ started hstarted => ?_
  refine .bind (unreached (tell_only not_false _))
    (fun _ made h => .raised (.inl (by simp [hstarted, h]))) fun _ observed hobserved => ?_
  refine .bind (resolve_fulfilled engine request context granted)
    (fun _ resolved h => h.congr (by simp [hstarted, hobserved])) fun result resolved h => ?_
  refine (finish_unreached engine request result).mono ?_
  rintro (exc | r) ended ⟨hended, hreturned⟩
  · exact .raised (by simpa [ReachesAtMost, hstarted, hobserved, hended] using h.once)
  · obtain rfl := hreturned r rfl
    exact h.congr (by simp [hstarted, hobserved, hended])

theorem execute_executed (engine : ExecutionEngine) (request : ExecutionRequest)
    (context : ExecutionContext) (granted : List Str) :
    (engine.execute request context granted).Traces fun _ made => RunsAtMost request made :=
  (execute_fulfilled engine request context granted).mono fun _ _ h => h.once.runsAtMost

end

-- ---------------------------------------------------------------------------
-- What the loop submits
-- ---------------------------------------------------------------------------

section
variable (loop : ToolCallLoop) (offered granted : List Str)

/-- How the loop may go on after a history: it submits provider requests
without permissions, and tool requests for calls just allowed. -/
def Submits (history : List LoopCall) : LoopCall → Prop
  | .publish _ => True
  | .consult .. => True
  | .execute request context permissions answer =>
    answer = loop.engine history request context permissions ∧ match request.target with
      | .provider => permissions = []
      | .tool => permissions = granted ∧ request.operation ∈ offered ∧ ∃ call,
        Allowed history call ∧ call.name = request.operation ∧ call.arguments = request.payload

end

section
variable {loop : ToolCallLoop} {setup : LoopSetup} {log : List LoopCall}

theorem requestedCalls_append (xs ys : List LoopCall) :
    requestedCalls (xs ++ ys) = requestedCalls xs ++ requestedCalls ys := by
  simp [requestedCalls, providerAnswers]

theorem publish_abides (event : Event) : (loop.publish event).Abides (Submits loop setup.allowed setup.grantedPermissions) log := by
  unfold ToolCallLoop.publish tell
  split
  · exact .pure ()
  · exact .call trivial _

theorem requestedCalls_publish {event : Event} {after : List LoopCall} {r : Except Exn Unit}
    (h : (loop.publish event).exec log = (r, after)) :
    requestedCalls after = requestedCalls log := by
  rw [ToolCallLoop.publish, tell_exec] at h
  cases h
  have hnone : providerAnswers (told .publish loop.eventBus event) = [] :=
    List.filterMap_eq_nil_iff.mpr fun c hc => by rw [mem_told hc]; rfl
  rw [requestedCalls_append, requestedCalls, requestedCalls, hnone]
  exact List.append_nil _

theorem consult_exec (call : ToolCall) : (setup.consult call).exec log =
    (setup.options.beforeToolCall log call,
      log ++ [.consult call (setup.options.beforeToolCall log call)]) := rfl

theorem loop_execute_exec (request : ExecutionRequest) (context : ExecutionContext)
    (granted : List Str) : (loop.execute request context granted).exec log =
      (loop.engine log request context granted,
        log ++ [.execute request context granted (loop.engine log request context granted)]) := rfl

theorem reject_abides (call : ToolCall) (reason : Str) :
    (loop.reject call reason).Abides (Submits loop setup.allowed setup.grantedPermissions) log :=
  .bind (publish_abides _) fun _ _ _ => .pure _

variable [Printing]

theorem handle_abides (iteration : Nat) {call : ToolCall} (hcall : call ∈ requestedCalls log) :
    (loop.handle setup iteration call).Abides (Submits loop setup.allowed setup.grantedPermissions) log := by
  refine .bind (publish_abides _) fun _ published hpublished => ?_
  rw [← requestedCalls_publish hpublished] at hcall
  split
  · exact reject_abides _ _
  · rename_i hname
    rw [not_not] at hname
    refine .bind (.history_bind (.call trivial _)) fun decision consulted hconsulted => ?_
    rw [consult_exec] at hconsulted
    obtain ⟨hdecision, rfl⟩ := Prod.mk.inj hconsulted
    split
    · exact reject_abides _ _
    · rename_i hallowed
      have happroved : Allowed (published ++ [.consult call (.ok decision)]) call := by
        refine ⟨?_, decision, by simp, by simpa using hallowed⟩
        rw [requestedCalls_append]
        exact List.mem_append_left _ hcall
      rw [hdecision]
      refine .history_bind (.lift_bind fun request hrequest => ?_)
      rw [ExecutionRequest.new_ok call.name_ok (loop.newId _).2] at hrequest
      cases hrequest
      refine .bind (.history_bind (.call ?_ _)) fun outcome _ _ => ?_
      · exact ⟨rfl, rfl, hname, call, happroved, rfl, rfl⟩
      · exact .lift_bind fun _ _ => .bind (publish_abides _) fun _ _ _ => .pure _

theorem requestedCalls_handle {iteration : Nat} {call : ToolCall}
    {r : Except Exn (ToolResultBlock × ToolCallRecord)} {after : List LoopCall}
    (h : (loop.handle setup iteration call).exec log = (r, after)) :
    requestedCalls log <+: requestedCalls after := by
  obtain ⟨made, hmade, -⟩ := handle_traces loop setup iteration call log
  rw [h] at hmade
  obtain rfl : after = log ++ made := hmade
  rw [requestedCalls_append]
  exact List.prefix_append _ _

theorem handleAll_abides (iteration : Nat) {calls : List ToolCall}
    (hcalls : calls ⊆ requestedCalls log) :
    (loop.handleAll setup iteration calls).Abides (Submits loop setup.allowed setup.grantedPermissions) log := by
  induction calls generalizing log with
  | nil => exact .pure _
  | cons call rest ih =>
    obtain ⟨hcall, hrest⟩ := List.cons_subset.mp hcalls
    refine .bind (handle_abides iteration hcall) fun _ after hafter => ?_
    refine .bind (ih ?_) fun _ _ _ => .pure _
    exact List.Subset.trans hrest (requestedCalls_handle hafter).subset

theorem rounds_abides (remaining iteration : Nat) (history : List PyValue)
    (records : List ToolCallRecord) :
    (loop.rounds setup remaining iteration history records).Abides (Submits loop setup.allowed setup.grantedPermissions) log := by
  induction remaining generalizing iteration history records log with
  | zero => exact .pure _
  | succ remaining ih =>
    refine .history_bind (.lift_bind fun request hrequest => ?_)
    have htarget : request.target = .provider := by
      unfold ExecutionRequest.new at hrequest
      split at hrequest
      · split at hrequest <;> cases hrequest
        rfl
      · cases hrequest
    refine .bind (.history_bind (.call ⟨rfl, by rw [htarget]⟩ _)) fun response after hafter => ?_
    rw [loop_execute_exec] at hafter
    obtain ⟨hresponse, rfl⟩ := Prod.mk.inj hafter
    split
    · exact .pure _
    · rename_i text calls hanswer
      simp only
      split
      · exact .pure _
      · refine .bind (handleAll_abides _ ?_) fun handled _ _ => .lift_bind fun _ _ => ih _ _ _
        have hround : roundOf (.ok response) = some (text, calls) := hanswer
        rw [requestedCalls_append, hresponse]
        refine List.subset_append_of_subset_right _ ?_
        simp [requestedCalls, providerAnswers, LoopCall.providerAnswer?, htarget, hround]

theorem run_abides (providerName : Str) (messages : List PyValue) (toolIds : List Str)
    (context : ExecutionContext) (options : ToolLoopOptions) (granted : List Str) :
    (loop.run providerName messages toolIds context options granted).Abides
      (Submits loop (loop.offered toolIds) granted) [] := by
  unfold ToolCallLoop.run
  split
  · exact .throw _
  · split
    · exact .throw _
    · refine .lift_bind fun specs hspecs => .lift_bind fun _ _ => ?_
      rw [ToolCallLoop.offered, hspecs]
      exact @rounds_abides loop ⟨providerName, specs, context, options, granted⟩ _ _ _ _ _ _

-- ---------------------------------------------------------------------------
-- What runs
-- ---------------------------------------------------------------------------

def LoopCall.toolRequest? (c : LoopCall) : Option (Str × Mapping) :=
  c.submitted?.map fun p => (p.1, p.2.1)

variable {execution : List LoopCall → ExecutionEngine}

def ToolCall.asked (call : ToolCall) : Str × Mapping := (call.name, call.arguments)

theorem LoopCall.inner_executed (before : List LoopCall) (c : LoopCall) :
    ((c.inner execution before).filterMap Call.executed?).Sublist c.toolRequest?.toList := by
  cases c with
  | publish | consult => exact List.nil_sublist _
  | execute request context granted answer =>
    obtain ⟨made, hmade, hruns⟩ := execute_executed (execution before) request context granted []
    rw [LoopCall.inner, hmade, List.nil_append]
    rcases hruns with hnone | ⟨htarget, hone⟩
    · rw [hnone]
      exact List.nil_sublist _
    · rw [hone, LoopCall.toolRequest?, LoopCall.submitted?, if_pos htarget]
      exact List.Sublist.refl _

theorem seen_inner_executed (before log : List LoopCall) :
    ((seenAfter (LoopCall.inner execution) before log).flatten.filterMap Call.executed?).Sublist
      (log.filterMap LoopCall.toolRequest?) := by
  induction log generalizing before with
  | nil => exact List.Sublist.refl _
  | cons c rest ih =>
    have hcons : (c :: rest).filterMap LoopCall.toolRequest? =
        c.toolRequest?.toList ++ rest.filterMap LoopCall.toolRequest? := by
      cases hc : c.toolRequest? <;> simp [hc]
    rw [seenAfter, List.flatten_cons, List.filterMap_append, hcons]
    exact (LoopCall.inner_executed before c).append (ih _)

omit [Printing] in
theorem Handled.calls_toolRequests (iteration : Nat) {handled : List Handled}
    (hfits : ∀ x ∈ handled, x.Fits setup) :
    ((handled.flatMap (Handled.calls loop setup iteration)).filterMap
      LoopCall.toolRequest?).Sublist ((handled.map Handled.call).map ToolCall.asked) := by
  have hone : ∀ x ∈ handled, (x.calls loop setup iteration).filterMap LoopCall.toolRequest? =
      if x.fate.isExecuted then [x.call.asked] else [] := by
    intro x hx
    have hsubmitted := congrArg (List.map fun p => (p.1, p.2.1))
      (@Handled.calls_submitted loop setup iteration x (hfits x hx))
    rw [List.map_filterMap] at hsubmitted
    refine hsubmitted.trans ?_
    split <;> rfl
  rw [List.filterMap_flatMap, List.flatMap_congr hone, flatMap_ite_singleton, List.map_map]
  exact List.filter_sublist.map _

omit [Printing] in
theorem LoopRun.toolRequests {remaining iteration : Nat} {history : List PyValue}
    {records : List ToolCallRecord} {outcome : Except Exn ToolLoopResult}
    (h : LoopRun loop setup remaining iteration history records outcome log) :
    (log.filterMap LoopCall.toolRequest?).Sublist ((requestedCalls log).map ToolCall.asked) := by
  have hround {history : List PyValue} {request : ExecutionRequest}
      (hasked : Asked setup history request) (answer : Except Exn ExecutionResult) :
      LoopCall.toolRequest? (.execute request setup.context [] answer) = none := by
    simp [LoopCall.toolRequest?, LoopCall.submitted?, hasked.target]
  have hcalls {history : List PyValue} {request : ExecutionRequest} {response : ExecutionResult}
      {text : Str} {calls : List ToolCall} (hasked : Asked setup history request)
      (hanswer : answered? response = some (text, calls)) (rest : List LoopCall) :
      requestedCalls (.execute request setup.context [] (.ok response) :: rest) =
        calls ++ requestedCalls rest := by
    have hround : roundOf (.ok response) = some (text, calls) := hanswer
    simp [requestedCalls, hasked.providerAnswers, hround]
  induction h with
  | spent | unasked => exact List.nil_sublist _
  | raised hasked | failed hasked | answered hasked =>
    rw [List.filterMap_cons_none (hround hasked _)]
    exact List.nil_sublist _
  | @cut _ _ _ _ _ _ _ _ _ _ handled hasked hanswer hasks hfits hmade =>
    rw [List.filterMap_cons_none (hround hasked _), hcalls hasked hanswer, List.map_append]
    refine List.Sublist.trans ?_ (List.sublist_append_left _ _)
    refine (hmade.filterMap _).sublist.trans ((Handled.calls_toolRequests _ hfits).trans ?_)
    exact (hasks.sublist).map _
  | @next _ _ _ _ _ _ _ _ made handled _ hasked hanswer _ hfits _ _ ih =>
    rw [List.filterMap_cons_none (hround hasked _), hcalls hasked hanswer, requestedCalls_append,
      List.filterMap_append, List.map_append]
    refine (Handled.calls_toolRequests _ hfits).append (ih.trans ?_)
    rw [List.map_append]
    exact List.sublist_append_right _ _

/-- Whatever the model, the hook and the tools do, and however the run ends:
the tools that ran did so on calls the model asked for, in their order, each
once at most; and each was offered, allowed and covered when it ran. -/
theorem run_permitted (loop : ToolCallLoop) (execution : List LoopCall → ExecutionEngine)
    (providerName : Str) (messages : List PyValue) (toolIds : List Str) (context : ExecutionContext)
    (options : ToolLoopOptions) (granted : List Str) :
    ∃ outcome log, ((loop.over execution).run providerName messages toolIds context options
        granted).exec [] = (outcome, log) ∧
      (executedTools execution log).Sublist ((requestedCalls log).map ToolCall.asked) ∧
      ∀ before c after, log = before ++ c :: after → ∀ toolId request,
        .execute toolId request ∈ c.inner execution before →
          Permitted (execution before) ((loop.over execution).offered toolIds) granted before toolId
            request := by
  cases h : ((loop.over execution).run providerName messages toolIds context options granted).exec []
    with | mk outcome log =>
  refine ⟨outcome, log, rfl, ?_, ?_⟩
  · refine (seen_inner_executed [] log).trans ?_
    obtain ⟨-, rfl⟩ | ⟨specs, -, hrun⟩ := run_loopRun _ h
    · exact List.nil_sublist _
    · exact hrun.toolRequests
  · intro before c after heq toolId request hmem
    obtain ⟨new, hnew, hfollows⟩ := @run_abides (loop.over execution) _ providerName messages
      toolIds context options granted
    rw [h] at hnew
    obtain rfl : log = new := by simpa using hnew
    have hsubmits := hfollows before c after heq
    cases c with
    | publish | consult => cases hmem
    | execute asked context' permissions answer =>
      obtain ⟨made, hmade, hruns⟩ :=
        execute_executed (execution before) asked context' permissions []
      obtain ⟨made', hmade', hcovered⟩ :=
        execute_covered (execution before) asked context' permissions []
      obtain rfl : made = made' := List.append_cancel_left (hmade.symm.trans hmade')
      rw [LoopCall.inner, hmade, List.nil_append] at hmem
      have hexecuted : (toolId, request) ∈ made.filterMap Call.executed? :=
        List.mem_filterMap.mpr ⟨_, hmem, rfl⟩
      rcases hruns with hnone | ⟨htarget, hone⟩
      · rw [hnone] at hexecuted
        cases hexecuted
      · rw [hone] at hexecuted
        obtain ⟨rfl, rfl⟩ := Prod.mk.inj (List.mem_singleton.mp hexecuted)
        obtain ⟨-, hrequest⟩ := hsubmits
        rw [htarget] at hrequest
        obtain ⟨rfl, hoffered, hallowed⟩ := hrequest
        obtain ⟨tool, hlookup, hpermissions⟩ := hcovered _ hmem
        refine ⟨by simpa using hoffered, hallowed, tool, hlookup, fun p hp => ?_⟩
        exact (execution before).effectivePermissions_subset _ (hpermissions p hp)

end

end MellivorKernel
