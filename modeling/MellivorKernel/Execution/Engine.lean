import MellivorKernel.Authorization.Engine
import MellivorKernel.Execution.Dispatch

/-!
# The execution engine

`ExecutionEngine.execute`: announce the request, ask the authorizer if there
is one, dispatch, announce the outcome, and record it. Log lines are left out.
`now` is the clock a memory entry reads its creation time from.
-/

namespace MellivorKernel

open Python Foundation

structure ExecutionEngine where
  dispatcher : Dispatcher
  authorizer : Option AuthorizationEngine
  eventBus : Option EventBus
  memory : Option MemoryStore
  observability : Option StructuredEventSink
  now : DateTime

section
variable [Printing]

def ExecutionEngine.publish (engine : ExecutionEngine) (event : Event) : Kernel Unit :=
  tell .publish engine.eventBus event

def observation (request : ExecutionRequest) (name message : Str) (attributes : Mapping) :
    StructuredObservationEvent where
  name := name
  message := message
  correlationId := request.requestId
  attributes := attributes.foldl (fun m p => m.put p.1 p.2)
    [item "target" (.str request.target.value), item "operation" (.str request.operation)]

def ExecutionEngine.observe (engine : ExecutionEngine) (request : ExecutionRequest)
    (name message : Str) (attributes : Mapping) : Kernel Unit :=
  tell .emit engine.observability (observation request name message attributes)

def outcomeText (result : ExecutionResult) : Except Exn Str :=
  match result.success, result.payload with
  | true, some payload => (PyValue.dict payload).text
  | _, _ => .ok (result.error.getD [])

/-- What `_remember` records: that text, and a fixed one when it is empty. -/
def memoryContent (result : ExecutionResult) : Except Exn Str := do
  let content ← outcomeText result
  .ok (if content = [] then lit "(no content)" else content)

/-- `_remember`: the entry is built outside the `try`, the store is called
inside it. -/
def ExecutionEngine.remember (engine : ExecutionEngine) (request : ExecutionRequest)
    (result : ExecutionResult) : Kernel Unit :=
  match engine.memory with
  | none => pure ()
  | some store => do
    let content ← Program.lift (memoryContent result)
    let entry ← Program.lift (MemoryEntry.new request.requestId content
      {request.target.value}
      [item "operation" (.str request.operation), item "success" (.bool result.success)] engine.now)
    let _ ← (Program.call (.remember entry) (store entry)).attempt
    pure ()

/-- The failure's stage, if the result's metadata names one as a string. -/
def stageOf (result : ExecutionResult) : Option Str :=
  (result.metadata.get? "stage").bind PyValue.str?

def terminalEvent (request : ExecutionRequest) (result : ExecutionResult) : Event :=
  if result.success then
    .executionCompleted request.requestId request.target request.operation
      result.executionTimeSeconds
  else .executionFailed request.requestId request.target request.operation (result.error.getD [])
    (stageOf result)

def terminalObservation (request : ExecutionRequest) (result : ExecutionResult) :
    StructuredObservationEvent :=
  if result.success then
    observation request (lit "execution.completed")
      (lit "Request " ++ request.requestId ++ lit " completed successfully.")
      [item "execution_time_seconds" (.float (.finite result.executionTimeSeconds))]
  else
    observation request (lit "execution.failed")
      (lit "Request " ++ request.requestId ++ lit " failed: " ++ result.error.getD (lit "None"))
      [item "error" (result.error.elim .none .str), item "stage" ((stageOf result).elim .none .str)]

def ExecutionEngine.finish (engine : ExecutionEngine) (request : ExecutionRequest)
    (result : ExecutionResult) : Kernel ExecutionResult := do
  engine.publish (terminalEvent request result)
  tell .emit engine.observability (terminalObservation request result)
  engine.remember request result
  pure result

/-- `outcome.reason or "Authorization denied."` -/
def denialReason (outcome : AuthorizationResult) : Str :=
  match outcome.reason with
  | some reason => if reason = [] then lit "Authorization denied." else reason
  | none => lit "Authorization denied."

def ExecutionEngine.execute (engine : ExecutionEngine) (request : ExecutionRequest)
    (context : ExecutionContext) (grantedPermissions : List Str) : Kernel ExecutionResult := do
  engine.publish (.executionStarted request.requestId request.target request.operation)
  engine.observe request (lit "execution.started")
    (lit "Executing request " ++ request.requestId ++ lit ".") []
  match engine.authorizer with
  | some authorizer =>
    let outcome ← authorizer.check request grantedPermissions
    if outcome.granted then
      let result ← engine.dispatcher.dispatch request context grantedPermissions
      engine.finish request result
    else
      let result ← Program.lift (ExecutionResult.new false none (some (denialReason outcome)) 0
        [item "stage" (.str (lit "authorization")), targetItem request.target])
      engine.finish request result
  | none =>
    -- no permission is forwarded without an authorizer
    let result ← engine.dispatcher.dispatch request context []
    engine.finish request result

/-- What lies between the two announcements: authorize and dispatch. -/
def ExecutionEngine.resolve (engine : ExecutionEngine) (request : ExecutionRequest)
    (context : ExecutionContext) (grantedPermissions : List Str) : Kernel ExecutionResult :=
  match engine.authorizer with
  | some authorizer => do
    let outcome ← authorizer.check request grantedPermissions
    if outcome.granted then engine.dispatcher.dispatch request context grantedPermissions
    else Program.lift (ExecutionResult.new false none (some (denialReason outcome)) 0
      [item "stage" (.str (lit "authorization")), targetItem request.target])
  | none => engine.dispatcher.dispatch request context []

theorem ExecutionEngine.execute_eq (engine : ExecutionEngine) (request : ExecutionRequest)
    (context : ExecutionContext) (granted : List Str) :
    engine.execute request context granted = (do
      engine.publish (.executionStarted request.requestId request.target request.operation)
      engine.observe request (lit "execution.started")
        (lit "Executing request " ++ request.requestId ++ lit ".") []
      engine.finish request (← engine.resolve request context granted)) := by
  unfold ExecutionEngine.execute ExecutionEngine.resolve
  cases engine.authorizer with
  | none => rfl
  | some authorizer =>
    simp only [bind_assoc]
    congr! 6 with - outcome
    split <;> rfl

end

end MellivorKernel
