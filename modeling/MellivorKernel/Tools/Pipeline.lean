import MellivorKernel.Execution.Calls
import MellivorKernel.Foundation.Dict
import MellivorKernel.Tools.Permission

/-!
# Tools

`ToolResult`, `BaseTool`, `ToolRegistry` and `ToolExecutionPipeline`. A tool
is what its hooks answer: `validate` and `execute` return or raise, and
`elapsed` is what the performance counter, which never runs backwards,
measures around `execute`.
-/

namespace MellivorKernel

open Python Foundation

structure ToolResult where
  success : Bool
  payload : Option Mapping
  error : Option Str
  executionTimeSeconds : Rat
  metadata : Mapping
  ok : OutcomeOk success error executionTimeSeconds

abbrev Elapsed := { seconds : Rat // 0 ≤ seconds }

def noTime : Elapsed := ⟨0, Rat.le_refl⟩

structure ToolContext where
  configuration : Handle
  logger : Handle
  runtime : Handle
  services : Handle

structure BaseTool where
  id : Str
  description : Str
  inputSchema : Mapping
  permissions : List Permission
  validate : Mapping → Except Exn Unit
  execute : ToolContext → Mapping → Except Exn ToolResult
  elapsed : Mapping → Elapsed

section
variable [Printing]

def ToolResult.new (success : Bool) (payload : Option Mapping) (error : Option Str)
    (executionTimeSeconds : Rat) (metadata : Mapping) : Except Exn ToolResult :=
  match checkOutcome .toolValidationError "ToolResult" success error executionTimeSeconds with
  | .ok ⟨ok⟩ => .ok { success, payload, error, executionTimeSeconds, metadata, ok }
  | .error e => .error e

theorem ToolResult.new_ok {success : Bool} {payload : Option Mapping} {error : Option Str}
    {seconds : Rat} {metadata : Mapping} (h : OutcomeOk success error seconds) :
    ToolResult.new success payload error seconds metadata =
      .ok { success, payload, error, executionTimeSeconds := seconds, metadata, ok := h } := by
  rw [ToolResult.new, checkOutcome_ok _ _ h]

theorem ToolResult.new_returns {success : Bool} {payload : Option Mapping} {error : Option Str}
    {seconds : Rat} {metadata : Mapping} :
    (∃ result, ToolResult.new success payload error seconds metadata = .ok result) ↔
      OutcomeOk success error seconds := by
  constructor
  · rintro ⟨result, h⟩
    by_contra hok
    obtain ⟨message, hm⟩ := checkOutcome_error .toolValidationError "ToolResult" hok
    rw [ToolResult.new, hm] at h
    cases h
  · exact fun h => ⟨_, ToolResult.new_ok h⟩

-- ---------------------------------------------------------------------------
-- Registry
-- ---------------------------------------------------------------------------

/-- Tools by the id each was registered under, its own. -/
structure ToolRegistry where
  tools : Dict Str BaseTool
  keyed : ∀ p ∈ tools.entries, p.2.id = p.1

def ToolRegistry.empty : ToolRegistry := ⟨Dict.empty, by simp⟩

def ToolRegistry.register (registry : ToolRegistry) (tool : BaseTool) : Except Exn ToolRegistry :=
  if h : tool.id ∈ registry.tools.keys then
    .error (.raised .toolRegistrationError
      (lit "Tool " ++ pyRepr tool.id ++ lit " is already registered."))
  else .ok {
    tools := registry.tools.set tool.id tool
    keyed := by
      intro p hp
      rw [Dict.entries_set_of_not_mem h, List.mem_append, List.mem_singleton] at hp
      rcases hp with hp | rfl
      · exact registry.keyed p hp
      · rfl }

def ToolRegistry.lookup (registry : ToolRegistry) (toolId : Str) : Except Exn BaseTool :=
  match registry.tools.get? toolId with
  | some tool => .ok tool
  | none => .error (.raised .toolRegistrationError
      (lit "Tool " ++ pyRepr toolId ++ lit " is not registered."))

def ToolRegistry.exists (registry : ToolRegistry) (toolId : Str) : Bool :=
  toolId ∈ registry.tools.keys

theorem ToolRegistry.lookup_error {registry : ToolRegistry} {toolId : Str} {e : Exn}
    (h : registry.lookup toolId = .error e) :
    ∃ message, e = .raised .toolRegistrationError message ∧ blank message = false := by
  unfold ToolRegistry.lookup at h
  split at h
  · cases h
  · cases h
    exact ⟨_, rfl, by rw [List.append_assoc]; exact blank_append_left (by decide) _⟩

-- ---------------------------------------------------------------------------
-- Pipeline
-- ---------------------------------------------------------------------------

/-- `ToolExecutionPipeline.run`. `toolId` is the id the tool was looked up
by; `_finish` only logs. -/
def runPipeline (toolId : Str) (tool : BaseTool) (context : ToolContext) (request : Mapping)
    (grantedPermissions : List Permission) : Kernel ToolResult := do
  match ← (Program.call (.validate toolId request) (tool.validate request)).attempt with
  | .error exc =>
    -- any other exception leaves `run`
    if exc.isA .toolValidationError then
      Program.lift (ToolResult.new false none (some exc.text) 0 [item "stage" (.str (lit "validate"))])
    else throw exc
  | .ok () =>
    let missing := missingPermissions tool.permissions grantedPermissions
    if missing ≠ [] then
      let names := permissionNames missing
      Program.lift (ToolResult.new false none
        (some (lit "Missing required permissions: " ++ join (lit ", ") names ++ lit ".")) 0
        [item "stage" (.str (lit "permission_check")),
          item "missing_permissions" (.tuple (names.map .str))])
    else
      let elapsed := tool.elapsed request
      match ← (Program.call (.execute toolId request) (tool.execute context request)).attempt with
      | .error exc =>
        Program.lift (ToolResult.new false none (some exc.text) elapsed
          [item "stage" (.str (lit "execute"))])
      | .ok result =>
        -- `dataclasses.replace` runs the constructor's checks again
        Program.lift (ToolResult.new result.success result.payload result.error elapsed
          result.metadata)

end

end MellivorKernel
