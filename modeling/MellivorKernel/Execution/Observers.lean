import MellivorKernel.Execution.LoopEvents
import MellivorKernel.Foundation.Shadow

/-!
# Those who watch an execution

Buses, audit and observation sinks and the memory of an execution are told what
happens and are asked nothing. Without them an execution, or a whole loop of
them, asks the same tools and providers the same things and comes to the same
result; the only thing they can do is raise, which ends it early
(`execute_shadows`, `run_unobserved`). A memory store cannot even do that, but
printing what is recorded can.
-/

namespace MellivorKernel

open Python Foundation Program

section
variable {κ ω : Type} {view : View κ ω} {Fault : Exn → Prop}

theorem tell_asides {entry : α → κ} {a : α} (hask : view.asks (entry a) = false)
    {sink : Option (α → Except Exn Unit)}
    (hfault : ∀ tell ∈ sink, ∀ e, tell a = .error e → Fault e) :
    (tell entry sink a).Asides view.asks Fault := by
  refine tell_traces ⟨?_, ?_⟩
  · intro c hc
    unfold told at hc
    split at hc
    · rw [List.mem_singleton.mp hc, hask]
    · cases hc
  · intro e he
    cases sink with
    | none => cases he
    | some tell => exact hfault tell rfl e he

/-- Telling comes first in the one program and is left out in the other. -/
theorem tell_shadows {entry : α → κ} {a : α} (hask : view.asks (entry a) = false)
    {sink : Option (α → Except Exn Unit)}
    (hfault : ∀ tell ∈ sink, ∀ e, tell a = .error e → Fault e)
    {f f' : Unit → Program Exn κ β} (hf : Shadows view Fault (f ()) (f' ())) :
    Shadows view Fault (tell entry sink a >>= f) (tell entry none a >>= f') := by
  have hnone : tell entry none a = pure () := rfl
  rw [hnone, pure_bind]
  exact .aside (tell_asides hask hfault) hf

end

-- ---------------------------------------------------------------------------
-- An execution
-- ---------------------------------------------------------------------------

def Call.asked? : Call → Option Call
  | .validate toolId request => some (.validate toolId request)
  | .execute toolId request => some (.execute toolId request)
  | .invoke provider request => some (.invoke provider request)
  | _ => none

def executionView : View Call Call where
  asks c := c.asked?.isSome
  watched _ c := c.asked?.toList
  plain _ c := c.asked?.toList
  silent h _ := by
    rw [Option.isSome_eq_false_iff, Option.isNone_iff_eq_none] at h
    rw [h]
    rfl

def AuthorizationEngine.unobserved (authorizer : AuthorizationEngine) : AuthorizationEngine :=
  { authorizer with eventBus := none, auditSink := none }

def ExecutionEngine.unobserved (engine : ExecutionEngine) : ExecutionEngine :=
  { engine with
    authorizer := engine.authorizer.map AuthorizationEngine.unobserved
    eventBus := none
    memory := none
    observability := none }

inductive ExecutionEngine.Faults [Printing] (engine : ExecutionEngine) (request : ExecutionRequest)
    (context : ExecutionContext) (granted : List Str) (exc : Exn) : Prop
  | bus {publish : EventBus} (hbus : publish ∈ engine.eventBus) {event : Event}
      (h : publish event = .error exc)
  | observability {emit : StructuredEventSink} (hsink : emit ∈ engine.observability)
      {event : StructuredObservationEvent} (h : emit event = .error exc)
  | authorizerBus {authorizer : AuthorizationEngine} (ha : authorizer ∈ engine.authorizer)
      {publish : EventBus} (hbus : publish ∈ authorizer.eventBus) {event : Event}
      (h : publish event = .error exc)
  | audit {authorizer : AuthorizationEngine} (ha : authorizer ∈ engine.authorizer)
      {audit : AuditSink} (hsink : audit ∈ authorizer.auditSink) {record : AuditRecord}
      (h : audit record = .error exc)
  | printing (hmemory : engine.memory.isSome) {payload : Mapping}
      (hdelivers : engine.delivers request context granted = some payload)
      (h : (PyValue.dict payload).text = .error exc)

section
variable [Printing]

section
variable {Fault : Exn → Prop}

theorem runPipeline_shadows (toolId : Str) (tool : BaseTool) (context : ToolContext)
    (request : Mapping) (granted : List Permission) :
    (runPipeline toolId tool context request granted).Shadows executionView Fault
      (runPipeline toolId tool context request granted) := by
  refine .attempt_call_bind (fun _ _ => rfl) ?_
  cases tool.validate request with
  | error exc =>
    simp only
    split
    · exact .lift _
    · exact .throw _
  | ok u =>
    simp only
    split
    · exact .lift _
    · refine .attempt_call_bind (fun _ _ => rfl) ?_
      cases tool.execute context request with
      | error exc => exact .lift _
      | ok result => exact .lift _

theorem dispatch_shadows (dispatcher : Dispatcher) (request : ExecutionRequest)
    (context : ExecutionContext) (granted : List Str) :
    (dispatcher.dispatch request context granted).Shadows executionView Fault
      (dispatcher.dispatch request context granted) := by
  unfold Dispatcher.dispatch
  cases request.target with
  | tool =>
    simp only [Dispatcher.dispatchToTool]
    cases dispatcher.toolRegistry.lookup request.operation with
    | error exc => exact .lift _
    | ok tool =>
      cases parsePermissions granted with
      | error exc => exact .lift _
      | ok resolved =>
        exact .bind (runPipeline_shadows request.operation tool _ request.payload resolved)
          fun toolResult => .lift _
  | provider =>
    simp only [Dispatcher.dispatchToProvider]
    cases dispatcher.providerRegistry.get request.operation with
    | error exc => exact .lift _
    | ok provider =>
      refine .attempt_call_bind (fun _ _ => rfl) ?_
      cases provider.invoke request.payload with
      | error exc => exact .lift _
      | ok response => exact .lift _

end

variable (engine : ExecutionEngine) (request : ExecutionRequest) (context : ExecutionContext)
  (granted : List Str)

theorem check_shadows {authorizer : AuthorizationEngine} (ha : authorizer ∈ engine.authorizer) :
    (authorizer.check request granted).Shadows executionView (engine.Faults request context granted)
      (authorizer.unobserved.check request granted) := by
  refine .bind (.lift _) fun outcome => ?_
  refine tell_shadows rfl (fun publish hbus e he => .authorizerBus ha hbus he) ?_
  exact tell_shadows rfl (fun audit hsink e he => .audit ha hsink he) (.pure outcome)

theorem resolve_shadows :
    (engine.resolve request context granted).Shadows executionView
      (engine.Faults request context granted) (engine.unobserved.resolve request context granted) := by
  unfold ExecutionEngine.resolve
  cases ha : engine.authorizer with
  | none =>
    simp only [ExecutionEngine.unobserved, ha, Option.map_none]
    exact dispatch_shadows engine.dispatcher request context []
  | some authorizer =>
    simp only [ExecutionEngine.unobserved, ha, Option.map_some]
    refine .bind (check_shadows engine request context granted ha) fun outcome => ?_
    split
    · exact dispatch_shadows engine.dispatcher request context granted
    · exact .lift _

/-- Recording can only raise what printing the result raises. -/
theorem remember_asides {result : ExecutionResult}
    (hdelivered : delivered result.success result.payload =
      engine.delivers request context granted) :
    (engine.remember request result).Asides executionView.asks (engine.Faults request context granted) := by
  unfold ExecutionEngine.remember
  cases hm : engine.memory with
  | none => exact .pure ⟨nofun, nofun⟩
  | some store =>
    refine .lift_bind (fun exc hexc => ⟨nofun, fun e he => ?_⟩) fun content hcontent => ?_
    · cases he
      have htext : outcomeText result = .error exc := by
        rw [memoryContent] at hexc
        cases hout : outcomeText result with
        | error e =>
          rw [hout] at hexc
          exact hexc
        | ok text =>
          rw [hout] at hexc
          cases hexc
      unfold outcomeText at htext
      split at htext
      · rename_i payload hsuccess hpayload
        refine .printing (by rw [hm]; rfl) (hdelivered ▸ ?_) htext
        rw [hsuccess, hpayload]
        rfl
      · cases htext
    · rw [MemoryEntry.new_ok request.requestId_ok (memoryContent_ok hcontent)]
      refine .lift_bind (fun exc hexc => nomatch hexc) fun entry _ => .attempt_call_bind ?_
      exact .pure ⟨List.forall_mem_singleton.mpr rfl, nofun⟩

theorem finish_shadows {result : ExecutionResult}
    (hdelivered : delivered result.success result.payload =
      engine.delivers request context granted) :
    (engine.finish request result).Shadows executionView (engine.Faults request context granted)
      (engine.unobserved.finish request result) := by
  refine tell_shadows rfl (fun publish hbus e he => .bus hbus he) ?_
  refine tell_shadows rfl (fun emit hsink e he => .observability hsink he) ?_
  exact .aside (remember_asides engine request context granted hdelivered) (.pure result)

/-- Nobody who watches an execution changes what it asks of tools and providers
or what it returns. -/
theorem execute_shadows :
    (engine.execute request context granted).Shadows executionView
      (engine.Faults request context granted) (engine.unobserved.execute request context granted) := by
  rw [ExecutionEngine.execute_eq, ExecutionEngine.execute_eq]
  refine tell_shadows rfl (fun publish hbus e he => .bus hbus he) ?_
  refine tell_shadows rfl (fun emit hsink e he => .observability hsink he) ?_
  refine .bind_of (resolve_shadows engine request context granted) (fun result h => ⟨[], ?_, nofun⟩)
    fun result log hresult => ?_
  · rw [List.append_nil]
    rfl
  · obtain ⟨-, -, hdelivered⟩ := resolve_delivers engine request context granted log
    exact finish_shadows engine request context granted (hdelivered result hresult)

end

-- ---------------------------------------------------------------------------
-- A loop
-- ---------------------------------------------------------------------------

/-- What is asked in a loop: of the hook, of the engine and, inside an execution,
of a tool or a provider. -/
inductive LoopQuestion
  | hook (call : ToolCall)
  | engine (request : ExecutionRequest) (context : ExecutionContext) (granted : List Str)
  | inside (asked : Call)

def LoopCall.asks : LoopCall → Bool
  | .publish _ => false
  | .consult .. | .execute .. => true

def LoopCall.asked [Printing] (execution : List LoopCall → ExecutionEngine)
    (before : List LoopCall) (c : LoopCall) : List LoopQuestion :=
  match c with
  | .publish _ => []
  | .consult call _ => [.hook call]
  | .execute request context granted _ => .engine request context granted ::
      ((c.inner execution before).filterMap Call.asked?).map .inside

def ToolCallLoop.unobserved (loop : ToolCallLoop) : ToolCallLoop := { loop with eventBus := none }

inductive ToolCallLoop.Faults [Printing] (loop : ToolCallLoop)
    (execution : List LoopCall → ExecutionEngine) (exc : Exn) : Prop
  | bus {publish : EventBus} (hbus : publish ∈ loop.eventBus) {event : Event}
      (h : publish event = .error exc)
  | execution {history : List LoopCall} {request : ExecutionRequest} {context : ExecutionContext}
      {granted : List Str} (h : (execution history).Faults request context granted exc)

/-- The engine, the hook and the source of ids do not learn what the loop
publishes. -/
structure Unheard (loop : ToolCallLoop) (execution : List LoopCall → ExecutionEngine)
    (options : ToolLoopOptions) : Prop where
  execution {h h' : List LoopCall} (heq : asking LoopCall.asks h = asking LoopCall.asks h') :
    execution h = execution h'
  newId {h h' : List LoopCall} (heq : asking LoopCall.asks h = asking LoopCall.asks h') :
    loop.newId h = loop.newId h'
  hook {h h' : List LoopCall} (heq : asking LoopCall.asks h = asking LoopCall.asks h') :
    options.beforeToolCall h = options.beforeToolCall h'

section
variable [Printing] {loop : ToolCallLoop} {execution : List LoopCall → ExecutionEngine}
  {setup : LoopSetup} (hunheard : Unheard loop execution setup.options)

def ToolCallLoop.overUnobserved (loop : ToolCallLoop)
    (execution : List LoopCall → ExecutionEngine) : ToolCallLoop :=
  loop.unobserved.over fun history => (execution history).unobserved

/-- What is asked in a loop, and in the one over executions nobody watches. -/
def loopView (execution : List LoopCall → ExecutionEngine) : View LoopCall LoopQuestion where
  asks := LoopCall.asks
  watched := LoopCall.asked execution
  plain := LoopCall.asked fun history => (execution history).unobserved
  silent h _ := by
    unfold LoopCall.asks at h
    split at h
    · rfl
    all_goals cases h

omit hunheard in
theorem publish_shadows {event : Event} {f f' : Unit → Program Exn LoopCall α}
    (hf : (f ()).Shadows (loopView execution) (loop.Faults execution) (f' ())) :
    ((loop.over execution).publish event >>= f).Shadows (loopView execution) (loop.Faults execution)
      ((loop.overUnobserved execution).publish event >>= f') :=
  tell_shadows rfl (fun _ hbus _ he => .bus hbus he) hf

include hunheard

theorem loop_execute_shadows (request : ExecutionRequest) (context : ExecutionContext)
    (granted : List Str) :
    ((loop.over execution).execute request context granted).Shadows (loopView execution)
      (loop.Faults execution) ((loop.overUnobserved execution).execute request context granted) := by
  refine .history_bind fun h h' heq => ?_
  have hexecution : execution h = execution h' := hunheard.execution heq
  obtain ⟨made, made', hmade, hmade', halike⟩ :=
    execute_shadows (execution h') request context granted [] [] rfl
  have hasked (outcome : Except Exn ExecutionResult) :
      (loopView execution).watched h (.execute request context granted outcome) =
        .engine request context granted :: (made.filterMap Call.asked?).map .inside := by
    simp only [loopView, LoopCall.asked, LoopCall.inner, hexecution, hmade, List.nil_append]
  have hplain (outcome : Except Exn ExecutionResult) :
      (loopView execution).plain h' (.execute request context granted outcome) =
        .engine request context granted :: (made'.filterMap Call.asked?).map .inside := by
    simp only [loopView, LoopCall.asked, LoopCall.inner, hmade', List.nil_append]
  simp only [ToolCallLoop.over, ToolCallLoop.overUnobserved, hexecution]
  cases halike with
  | same houtcome hsame hquestions =>
    rw [executionView, questions_toList, questions_toList] at hquestions
    rw [houtcome]
    exact .call (by rw [hasked, hplain, hquestions]) _
  | faulted houtcome hfault hfewer =>
    rw [executionView, questions_toList, questions_toList] at hfewer
    rw [houtcome]
    refine .call_faulted ?_ (ToolCallLoop.Faults.execution hfault) _
    rw [hasked, hplain]
    exact (List.prefix_cons_inj _).mpr (hfewer.map _)

theorem consult_shadows (call : ToolCall) :
    (setup.consult call).Shadows (loopView execution) (loop.Faults execution) (setup.consult call) :=
  .history_bind fun h h' heq => by
    rw [hunheard.hook heq]
    exact .call rfl _

theorem request_shadows (target : ExecutionTarget) (operation : Str) (payload : Mapping)
    {f f' : ExecutionRequest → Program Exn LoopCall α}
    (hf : ∀ request, (f request).Shadows (loopView execution) (loop.Faults execution) (f' request)) :
    Shadows (loopView execution) (loop.Faults execution)
      (do f (← lift (ExecutionRequest.new target operation payload
        ((loop.over execution).newId (← history)).1)))
      (do f' (← lift (ExecutionRequest.new target operation payload
        ((loop.overUnobserved execution).newId (← history)).1))) := by
  refine .history_bind fun h h' heq => ?_
  have hid : (loop.over execution).newId h = (loop.overUnobserved execution).newId h' :=
    hunheard.newId heq
  rw [hid]
  exact Shadows.bind (.lift _) hf h h' heq

omit hunheard in
theorem reject_shadows (call : ToolCall) (reason : Str) :
    ((loop.over execution).reject call reason).Shadows (loopView execution) (loop.Faults execution)
      ((loop.overUnobserved execution).reject call reason) :=
  publish_shadows (.pure _)

theorem handle_shadows (iteration : Nat) (call : ToolCall) :
    ((loop.over execution).handle setup iteration call).Shadows (loopView execution)
      (loop.Faults execution) ((loop.overUnobserved execution).handle setup iteration call) := by
  refine publish_shadows ?_
  split
  · exact reject_shadows call notOffered
  · refine .bind (consult_shadows hunheard call) fun decision => ?_
    split
    · exact reject_shadows call decision.text
    · refine request_shadows hunheard .tool call.name call.arguments fun request => ?_
      refine .bind (loop_execute_shadows hunheard request _ _) fun outcome => ?_
      exact .bind (.lift _) fun rendered => publish_shadows (.pure _)

theorem handleAll_shadows (iteration : Nat) (calls : List ToolCall) :
    ((loop.over execution).handleAll setup iteration calls).Shadows (loopView execution)
      (loop.Faults execution) ((loop.overUnobserved execution).handleAll setup iteration calls) := by
  induction calls with
  | nil => exact .pure []
  | cons call rest ih =>
    refine .bind (handle_shadows hunheard iteration call) fun handled => ?_
    exact .bind ih fun more => .pure _

theorem rounds_shadows (remaining iteration : Nat) (history : List PyValue)
    (records : List ToolCallRecord) :
    ((loop.over execution).rounds setup remaining iteration history records).Shadows
      (loopView execution) (loop.Faults execution)
      ((loop.overUnobserved execution).rounds setup remaining iteration history records) := by
  induction remaining generalizing iteration history records with
  | zero => exact .pure _
  | succ remaining ih =>
    refine request_shadows hunheard .provider setup.providerName _ fun request => ?_
    refine .bind (loop_execute_shadows hunheard request _ _) fun response => ?_
    cases answered? response with
    | none => exact .pure _
    | some answer =>
      obtain ⟨text, calls⟩ := answer
      simp only
      split
      · exact .pure _
      · refine .bind (handleAll_shadows hunheard (iteration + 1) calls) fun handled => ?_
        exact .bind (.lift _) fun results => ih _ _ _

end

end MellivorKernel
