import MellivorKernel.Execution.Enforcement

/-!
# Recording an execution

`_remember` prints the payload before it enters its `try`, so recording an
outcome raises where the payload cannot be printed, and nowhere else. Which
payload that is was settled by the tool or the provider (`resolve_delivers`).
-/

namespace MellivorKernel

open Python Foundation Program

def Call.Records : Call → Prop
  | .remember _ => True
  | _ => False

def delivered (success : Bool) (payload : Option Mapping) : Option Mapping :=
  if success then payload else none

/-- The payload the pipeline gets from the tool. -/
def BaseTool.delivers (tool : BaseTool) (context : ToolContext) (request : Mapping)
    (granted : List Permission) : Option Mapping :=
  match tool.validate request, tool.execute context request with
  | .ok (), .ok result =>
    if missingPermissions tool.permissions granted = [] then delivered result.success result.payload
    else none
  | _, _ => none

section
variable [Printing]

def Dispatcher.delivers (dispatcher : Dispatcher) (request : ExecutionRequest)
    (context : ExecutionContext) (granted : List Str) : Option Mapping :=
  match request.target with
  | .tool => match dispatcher.toolRegistry.lookup request.operation, parsePermissions granted with
    | .ok tool, .ok resolved => tool.delivers
        { configuration := context.configuration, logger := context.logger
          runtime := context.runtime, services := context.services } request.payload resolved
    | _, _ => none
  | .provider => match dispatcher.providerRegistry.get request.operation with
    | .ok provider => (provider.invoke request.payload).toOption
    | .error _ => none

instance (registry : ToolRegistry) (request : ExecutionRequest) (granted : List Str) :
    Decidable (Authorized registry request granted) := inferInstanceAs (Decidable (_ ∧ _))

def ExecutionEngine.delivers (engine : ExecutionEngine) (request : ExecutionRequest)
    (context : ExecutionContext) (granted : List Str) : Option Mapping :=
  match engine.authorizer with
  | some authorizer =>
    if Authorized authorizer.toolRegistry request granted then
      engine.dispatcher.delivers request context granted
    else none
  | none => engine.dispatcher.delivers request context []

/-- What a request delivers can be printed, so that it can be recorded. -/
def ExecutionEngine.recordable (engine : ExecutionEngine) (request : ExecutionRequest)
    (context : ExecutionContext) (granted : List Str) : Bool :=
  (engine.delivers request context granted).all printablePairs

-- ---------------------------------------------------------------------------
-- What an outcome carries
-- ---------------------------------------------------------------------------

theorem ToolResult.new_delivered {success : Bool} {payload : Option Mapping} {error : Option Str}
    {seconds : Rat} {metadata : Mapping} {result : ToolResult}
    (h : ToolResult.new success payload error seconds metadata = .ok result) :
    delivered result.success result.payload = delivered success payload := by
  unfold ToolResult.new at h
  split at h <;> cases h
  rfl

theorem ExecutionResult.new_delivered {success : Bool} {payload : Option Mapping}
    {error : Option Str} {seconds : Rat} {metadata : Mapping} {result : ExecutionResult}
    (h : ExecutionResult.new success payload error seconds metadata = .ok result) :
    delivered result.success result.payload = delivered success payload := by
  unfold ExecutionResult.new at h
  split at h <;> cases h
  rfl

def Delivers (payload : Option Mapping) (outcome : Except Exn ExecutionResult) : Prop :=
  ∀ result, outcome = .ok result → delivered result.success result.payload = payload

theorem lift_delivers {success : Bool} {payload : Option Mapping} {error : Option Str}
    {seconds : Rat} {metadata : Mapping} :
    (lift (ExecutionResult.new success payload error seconds metadata) : Kernel _).Traces
      fun outcome _ => Delivers (delivered success payload) outcome :=
  .lift fun _ h => ExecutionResult.new_delivered h

theorem runPipeline_delivers (toolId : Str) (tool : BaseTool) (context : ToolContext)
    (request : Mapping) (granted : List Permission) :
    (runPipeline toolId tool context request granted).Traces fun outcome _ => ∀ result,
      outcome = .ok result →
        delivered result.success result.payload = tool.delivers context request granted := by
  refine .attempt_call_bind ?_
  unfold BaseTool.delivers
  cases tool.validate request with
  | error exc =>
    simp only
    split
    · exact .lift fun _ h => ToolResult.new_delivered h
    · -- the exception leaves the pipeline
      exact fun log => ⟨[], (List.append_nil log).symm, nofun⟩
  | ok u =>
    simp only
    split
    · rename_i hmissing
      refine .lift fun _ h => (ToolResult.new_delivered h).trans ?_
      cases tool.execute context request with
      | error exc => rfl
      | ok result => rfl
    · rename_i hmissing
      refine .attempt_call_bind ?_
      cases tool.execute context request with
      | error exc => exact .lift fun _ h => ToolResult.new_delivered h
      | ok result =>
        refine .lift fun _ h => (ToolResult.new_delivered h).trans ?_
        exact (if_pos (not_not.mp hmissing)).symm

theorem dispatch_delivers (dispatcher : Dispatcher) (request : ExecutionRequest)
    (context : ExecutionContext) (granted : List Str) :
    (dispatcher.dispatch request context granted).Traces fun outcome _ =>
      Delivers (dispatcher.delivers request context granted) outcome := by
  unfold Dispatcher.dispatch Dispatcher.delivers
  cases request.target with
  | tool =>
    simp only [Dispatcher.dispatchToTool]
    cases dispatcher.toolRegistry.lookup request.operation with
    | error exc => exact lift_delivers
    | ok tool =>
      cases parsePermissions granted with
      | error exc => exact lift_delivers
      | ok resolved =>
        refine .bind_returned
          (runPipeline_delivers request.operation tool _ request.payload resolved)
          fun toolResult _ h => ?_
        simp only [← h toolResult rfl]
        exact lift_delivers
  | provider =>
    simp only [Dispatcher.dispatchToProvider]
    cases dispatcher.providerRegistry.get request.operation with
    | error exc => exact lift_delivers
    | ok provider =>
      simp only
      refine .attempt_call_bind ?_
      cases provider.invoke request.payload with
      | error exc => exact lift_delivers
      | ok response => exact lift_delivers

theorem resolve_delivers (engine : ExecutionEngine) (request : ExecutionRequest)
    (context : ExecutionContext) (granted : List Str) :
    (engine.resolve request context granted).Traces fun outcome _ =>
      Delivers (engine.delivers request context granted) outcome := by
  unfold ExecutionEngine.resolve ExecutionEngine.delivers
  cases engine.authorizer with
  | none => exact dispatch_delivers engine.dispatcher request context []
  | some authorizer =>
    obtain ⟨decision, hd, hgranted⟩ := authorizer.decide_spec request granted
    have hcheck : (authorizer.check request granted).Traces fun outcome _ =>
        ∀ o, outcome = .ok o → o = decision := fun log => by
      obtain ⟨made, hmade, -⟩ := check_only (P := fun _ => True) (fun _ => trivial)
        (fun _ => trivial) authorizer request granted log
      exact ⟨made, hmade, fun o h => check_returns hd h⟩
    refine .bind_returned hcheck fun outcome _ h => ?_
    obtain rfl := h outcome rfl
    cases hg : outcome.granted with
    | true =>
      simp only [if_true, if_pos (hgranted.mp hg)]
      exact dispatch_delivers engine.dispatcher request context granted
    | false =>
      have hnot : ¬ Authorized authorizer.toolRegistry request granted := by simp [← hgranted, hg]
      simp only [Bool.false_eq_true, if_false, if_neg hnot]
      exact lift_delivers

-- ---------------------------------------------------------------------------
-- What is recorded
-- ---------------------------------------------------------------------------

theorem memoryContent_returns (result : ExecutionResult) :
    Returns (memoryContent result) ↔
      (delivered result.success result.payload).all printablePairs = true := by
  unfold memoryContent outcomeText delivered
  rw [returns_bind_of fun _ => ⟨_, rfl⟩]
  cases result.success with
  | false => exact iff_of_true ⟨_, rfl⟩ rfl
  | true =>
    cases result.payload with
    | none => exact iff_of_true ⟨_, rfl⟩ rfl
    | some payload => exact PyValue.text_returns (.dict payload)

theorem memoryContent_ok {result : ExecutionResult} {content : Str}
    (h : memoryContent result = .ok content) : blank content = false := by
  obtain ⟨text, htext, h⟩ := bind_eq_ok.mp h
  cases h
  unfold outcomeText at htext
  split
  · decide
  · rename_i hne
    cases hs : result.success with
    | false =>
      obtain ⟨e, he, hb⟩ := result.error_of_failed hs
      rw [hs, he] at htext
      cases htext
      exact hb
    | true =>
      rw [hs] at htext
      cases hp : result.payload with
      | none =>
        rw [hp, result.error_of_success hs] at htext
        cases htext
        exact absurd rfl hne
      | some payload =>
        rw [hp] at htext
        exact blank_text_dict htext

theorem remember_recordable {engine : ExecutionEngine} (request : ExecutionRequest)
    {result : ExecutionResult} (h : engine.memory.isSome →
      (delivered result.success result.payload).all printablePairs = true) (log : List Call) :
    ∃ more, (engine.remember request result).exec log = (.ok (), log ++ more) ∧
      ∀ c ∈ more, c.Records := by
  unfold ExecutionEngine.remember
  cases hm : engine.memory with
  | none => exact ⟨[], by simp, nofun⟩
  | some store =>
    obtain ⟨content, hcontent⟩ := (memoryContent_returns result).mpr (h (by rw [hm]; rfl))
    simp only [hcontent]
    rw [exec_bind, exec_lift]
    simp only
    rw [MemoryEntry.new_ok request.requestId_ok (memoryContent_ok hcontent), exec_bind, exec_lift]
    exact ⟨[_], rfl, by simp [Call.Records]⟩

/-- An outcome that cannot be printed is not recorded: the exception leaves. -/
theorem remember_unrecordable (engine : ExecutionEngine) (hmemory : engine.memory.isSome)
    (request : ExecutionRequest) {result : ExecutionResult}
    (h : (delivered result.success result.payload).all printablePairs = false) (log : List Call) :
    ∃ e, (engine.remember request result).exec log = (.error e, log) := by
  obtain ⟨store, hstore⟩ := Option.isSome_iff_exists.mp hmemory
  unfold ExecutionEngine.remember
  rw [hstore]
  cases hcontent : memoryContent result with
  | ok content =>
    rw [(memoryContent_returns result).mp ⟨content, hcontent⟩] at h
    cases h
  | error e =>
    simp only
    rw [exec_bind, exec_lift]
    exact ⟨e, rfl⟩

end

end MellivorKernel
