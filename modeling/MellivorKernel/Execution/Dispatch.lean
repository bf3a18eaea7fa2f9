import MellivorKernel.Tools.Pipeline

/-!
# Dispatch

`Dispatcher`: routes a request to the tool pipeline or to a provider and
turns what comes back into an `ExecutionResult`. `ExecutionTarget` has no
third member, so the `DispatchError` at the end of `dispatch` is unreachable.
-/

namespace MellivorKernel

open Python Foundation

/-- A provider is what `invoke` answers and how long it takes. -/
structure BaseProvider where
  name : Str
  supportsToolCalls : Bool
  invoke : Mapping → Except Exn Mapping
  elapsed : Mapping → Elapsed

structure ProviderRegistry where
  providers : Dict Str BaseProvider

structure Dispatcher where
  toolRegistry : ToolRegistry
  providerRegistry : ProviderRegistry

section
variable [Printing]

def ProviderRegistry.get (registry : ProviderRegistry) (name : Str) : Except Exn BaseProvider :=
  match registry.providers.get? name with
  | some provider => .ok provider
  | none => .error (.raised .providerRegistrationError
      (lit "Provider " ++ pyRepr name ++ lit " is not registered."))

def ProviderRegistry.isRegistered (registry : ProviderRegistry) (name : Str) : Bool :=
  name ∈ registry.providers.keys

theorem ProviderRegistry.get_error {registry : ProviderRegistry} {name : Str} {e : Exn}
    (h : registry.get name = .error e) :
    ∃ message, e = .raised .providerRegistrationError message ∧ blank message = false := by
  unfold ProviderRegistry.get at h
  split at h
  · cases h
  · cases h
    exact ⟨_, rfl, by rw [List.append_assoc]; exact blank_append_left (by decide) _⟩

def targetItem (target : ExecutionTarget) : PyKey × PyValue := item "target" (.str target.value)

def Dispatcher.dispatchToTool (dispatcher : Dispatcher) (request : ExecutionRequest)
    (context : ExecutionContext) (grantedPermissions : List Str) : Kernel ExecutionResult :=
  match dispatcher.toolRegistry.lookup request.operation with
  | .error exc =>
    Program.lift (ExecutionResult.new false none (some exc.text) 0 [targetItem .tool])
  | .ok tool =>
    match parsePermissions grantedPermissions with
    | .error exc =>
      Program.lift (ExecutionResult.new false none (some exc.text) 0
        [targetItem .tool, item "stage" (.str (lit "permission_check"))])
    | .ok resolved => do
      let toolResult ← runPipeline request.operation tool
        { configuration := context.configuration, logger := context.logger
          runtime := context.runtime, services := context.services }
        request.payload resolved
      Program.lift (ExecutionResult.new toolResult.success toolResult.payload toolResult.error
        toolResult.executionTimeSeconds
        (toolResult.metadata.put (.str (lit "target")) (.str (lit "tool"))))

def Dispatcher.dispatchToProvider (dispatcher : Dispatcher) (request : ExecutionRequest) :
    Kernel ExecutionResult :=
  match dispatcher.providerRegistry.get request.operation with
  | .error exc =>
    Program.lift (ExecutionResult.new false none (some exc.text) 0 [targetItem .provider])
  | .ok provider => do
    let elapsed := provider.elapsed request.payload
    match ← (Program.call (.invoke request.operation request.payload)
        (provider.invoke request.payload)).attempt with
    | .error exc =>
      Program.lift (ExecutionResult.new false none (some exc.text) elapsed [targetItem .provider])
    | .ok response =>
      Program.lift (ExecutionResult.new true (some response) none elapsed [targetItem .provider])

def Dispatcher.dispatch (dispatcher : Dispatcher) (request : ExecutionRequest)
    (context : ExecutionContext) (grantedPermissions : List Str) : Kernel ExecutionResult :=
  match request.target with
  | .tool => dispatcher.dispatchToTool request context grantedPermissions
  | .provider => dispatcher.dispatchToProvider request

end

end MellivorKernel
