import MellivorKernel.Execution.Dispatch
import MellivorKernel.Providers.ToolCalling
import MellivorKernel.Python.Json

/-!
# The tool loop

`ToolCallLoop.run`: describe the offered tools, then let the provider and the
tools take turns until the provider asks for no tool or the iterations are
used up. The execution engine, the hook and the source of request ids answer
as they please, each time from the whole history of calls; a call is logged
together with its answer. Providers and tools sit behind the engine.
-/

namespace MellivorKernel

open Python Foundation Program

structure ToolCallDecision where
  allowed : Bool
  reason : Option Str

structure ToolCallRecord where
  call : ToolCall
  executed : Bool
  success : Bool
  result : Str

structure ToolLoopResult where
  success : Bool
  text : Option Str
  messages : List PyValue
  toolCalls : List ToolCallRecord
  iterations : Nat
  exhausted : Bool
  error : Option Str

inductive LoopCall
  | publish (event : Event)
  | consult (call : ToolCall) (answer : Except Exn ToolCallDecision)
  | execute (request : ExecutionRequest) (context : ExecutionContext)
      (grantedPermissions : List Str) (answer : Except Exn ExecutionResult)

structure ToolLoopOptions where
  maxIterations : Nat
  system : Option Str
  maxTokens : Option Int
  beforeToolCall : List LoopCall → ToolCall → Except Exn ToolCallDecision
  maxIterations_ok : 1 ≤ maxIterations

structure ToolCallLoop where
  engine : List LoopCall → ExecutionRequest → ExecutionContext → List Str →
    Except Exn ExecutionResult
  tools : ToolRegistry
  providers : ProviderRegistry
  eventBus : Option EventBus
  /-- The `uuid4` texts minted for a run and for its requests. -/
  loopId : Str
  newId : List LoopCall → { id : Str // blank id = false }

structure LoopSetup where
  providerName : Str
  specs : List ToolSpec
  context : ExecutionContext
  options : ToolLoopOptions
  grantedPermissions : List Str

def LoopSetup.allowed (setup : LoopSetup) : List Str := setup.specs.map ToolSpec.name

section
variable [Printing] (loop : ToolCallLoop) (setup : LoopSetup)

-- ---------------------------------------------------------------------------
-- Calls
-- ---------------------------------------------------------------------------

def ToolCallLoop.publish (event : Event) : Program Exn LoopCall Unit :=
  tell .publish loop.eventBus event

def ToolCallLoop.execute (request : ExecutionRequest) (context : ExecutionContext)
    (grantedPermissions : List Str) : Program Exn LoopCall ExecutionResult := do
  let answer := loop.engine (← history) request context grantedPermissions
  call (.execute request context grantedPermissions answer) answer

def LoopSetup.consult (toolCall : ToolCall) : Program Exn LoopCall ToolCallDecision := do
  let answer := setup.options.beforeToolCall (← history) toolCall
  call (.consult toolCall answer) answer

-- ---------------------------------------------------------------------------
-- Before the first round
-- ---------------------------------------------------------------------------

def ToolCallLoop.describe : List Str → Except Exn (List ToolSpec)
  | [] => .ok []
  | toolId :: rest =>
    if loop.tools.exists toolId then do
      let tool ← loop.tools.lookup toolId
      let spec ← ToolSpec.new tool.id tool.description tool.inputSchema
      let specs ← ToolCallLoop.describe rest
      .ok (spec :: specs)
    else .error (.raised .toolLoopError (lit "Tool " ++ pyRepr toolId ++ lit " is not registered."))

def ToolCallLoop.requireToolCalls (providerName : Str) : Except Exn Unit :=
  if loop.providers.isRegistered providerName then do
    let provider ← loop.providers.get providerName
    if provider.supportsToolCalls then .ok ()
    else .error (.raised .providerCapabilityError
      (lit "Provider " ++ pyRepr providerName ++ lit " does not declare supports_tool_calls."))
  else .error (.raised .providerCapabilityError
    (lit "Provider " ++ pyRepr providerName ++ lit " is not registered."))

-- ---------------------------------------------------------------------------
-- What goes to the provider and what comes back
-- ---------------------------------------------------------------------------

def providerPayload (history : List PyValue) (specs : List ToolSpec) (options : ToolLoopOptions) :
    Mapping :=
  [item "messages" (.list history), item "tools" (.tuple (specs.map ToolSpec.toValue))] ++
    options.system.toList.map (fun system => item "system" (.str system)) ++
    options.maxTokens.toList.map fun maxTokens => item "max_tokens" (.int maxTokens)

def parse (payload : Mapping) : Str × List ToolCall :=
  let text := ((payload.get? "text").bind PyValue.str?).getD []
  let rawCalls := ((payload.get? "tool_calls").bind PyValue.sequence?).getD []
  (text, rawCalls.filterMap toolCall?)

def render : Option Mapping → Except Exn Str
  | none => .ok []
  | some payload =>
    match payload.dumps .lenient with
    | .ok text => .ok text
    | .error exc =>
      if exc.isA .typeError || exc.isA .valueError then (PyValue.dict payload).text else .error exc

def ExecutionResult.rendered (outcome : ExecutionResult) : Except Exn Str :=
  if outcome.success then render outcome.payload
  else .ok (outcome.error.getD (lit "Tool execution failed."))

-- ---------------------------------------------------------------------------
-- One tool call
-- ---------------------------------------------------------------------------

/-- The `tool_result` block that answers the recorded call. -/
def ToolCallRecord.block (record : ToolCallRecord) : ToolResultBlock where
  toolCallId := record.call.id
  content := record.result
  isError := !record.success
  toolCallId_ok := record.call.id_ok

def ToolCallLoop.reject (call : ToolCall) (reason : Str) :
    Program Exn LoopCall (ToolResultBlock × ToolCallRecord) := do
  loop.publish (.toolCallRejected loop.loopId call.id call.name reason)
  pure (⟨call.id, reason, true, call.id_ok⟩, ⟨call, false, false, reason⟩)

/-- `decision.reason or "Tool call declined."` -/
def ToolCallDecision.text (decision : ToolCallDecision) : Str :=
  match decision.reason with
  | some reason => if reason = [] then lit "Tool call declined." else reason
  | none => lit "Tool call declined."

def notOffered : Str := lit "Tool is not in the offered set."

/-- `_handle`. The record it appends is returned next to the block. -/
def ToolCallLoop.handle (iteration : Nat) (call : ToolCall) :
    Program Exn LoopCall (ToolResultBlock × ToolCallRecord) := do
  loop.publish (.toolCallRequested loop.loopId call.id call.name iteration)
  if call.name ∉ setup.allowed then loop.reject call notOffered
  else
    let decision ← setup.consult call
    if !decision.allowed then loop.reject call decision.text
    else
      let request ← lift (ExecutionRequest.new .tool call.name call.arguments
        (loop.newId (← history)).1)
      let outcome ← loop.execute request setup.context setup.grantedPermissions
      let rendered ← lift outcome.rendered
      loop.publish (.toolCallCompleted loop.loopId call.id call.name outcome.success)
      pure (⟨call.id, rendered, !outcome.success, call.id_ok⟩,
        ⟨call, true, outcome.success, rendered⟩)

def ToolCallLoop.handleAll (iteration : Nat) :
    List ToolCall → Program Exn LoopCall (List (ToolResultBlock × ToolCallRecord))
  | [] => pure []
  | call :: rest => do
    let handled ← loop.handle setup iteration call
    let more ← ToolCallLoop.handleAll iteration rest
    pure (handled :: more)

-- ---------------------------------------------------------------------------
-- The loop
-- ---------------------------------------------------------------------------

def providerFailed (response : ExecutionResult) (history : List PyValue)
    (records : List ToolCallRecord) (iteration : Nat) : ToolLoopResult where
  success := false
  text := none
  messages := history
  toolCalls := records
  iterations := iteration
  exhausted := false
  error := some (response.error.getD (lit "Provider returned no payload."))

def finalAnswer (text : Str) (history : List PyValue) (records : List ToolCallRecord)
    (iteration : Nat) : ToolLoopResult where
  success := true
  text := some text
  messages := history
  toolCalls := records
  iterations := iteration
  exhausted := false
  error := none

def budgetSpent (options : ToolLoopOptions) (history : List PyValue)
    (records : List ToolCallRecord) (iteration : Nat) : ToolLoopResult where
  success := false
  text := none
  messages := history
  toolCalls := records
  iterations := iteration
  exhausted := true
  error := some (lit "Tool loop stopped after " ++ decimal options.maxIterations ++
    lit " iteration(s) without a final answer.")

/-- The text and the calls of a provider's answer, if the round goes on. -/
def answered? (response : ExecutionResult) : Option (Str × List ToolCall) :=
  if response.success then response.payload.map parse else none

/-- The `while` loop, by the iterations that remain. -/
def ToolCallLoop.rounds : (remaining iteration : Nat) → List PyValue → List ToolCallRecord →
    Program Exn LoopCall ToolLoopResult
  | 0, iteration, history, records => pure (budgetSpent setup.options history records iteration)
  | remaining + 1, iteration, history, records => do
    let request ← lift (ExecutionRequest.new .provider setup.providerName
      (providerPayload history setup.specs setup.options) (loop.newId (← Program.history)).1)
    let response ← loop.execute request setup.context []
    match answered? response with
    | none => pure (providerFailed response history records (iteration + 1))
    | some (text, calls) =>
      let history := history ++ [assistantMessage text calls]
      if calls.isEmpty then pure (finalAnswer text history records (iteration + 1))
      else
        let handled ← loop.handleAll setup (iteration + 1) calls
        let results ← lift (toolResultsMessage (handled.map Prod.fst))
        ToolCallLoop.rounds remaining (iteration + 1) (history ++ [results])
          (records ++ handled.map Prod.snd)

def ToolCallLoop.run (providerName : Str) (messages : List PyValue) (toolIds : List Str)
    (context : ExecutionContext) (options : ToolLoopOptions) (grantedPermissions : List Str) :
    Program Exn LoopCall ToolLoopResult :=
  if messages.isEmpty then throw (.raised .toolLoopError
    (lit "ToolCallLoop.run requires at least one message."))
  else if toolIds.isEmpty then throw (.raised .toolLoopError
    (lit "ToolCallLoop.run requires a non-empty tool allowlist; invoke the provider directly for requests without tools."))
  else do
    let specs ← lift (loop.describe toolIds)
    lift (loop.requireToolCalls providerName)
    loop.rounds { providerName, specs, context, options, grantedPermissions }
      options.maxIterations 0 messages []

end

end MellivorKernel
