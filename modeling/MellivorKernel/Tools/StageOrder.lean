import MellivorKernel.Execution.Terminal

/-!
# The stages of a tool run

`ToolExecutionPipeline.run` validates, checks permissions and executes, in that
order, and names in a failed result the stage that failed. This holds of every
run that comes back; a run comes back unless the tool raises what no
`ToolResult` can carry.
-/

namespace MellivorKernel

open Python Foundation Program

def FailedAt (stage : String) (outcome : Except Exn ToolResult) : Prop :=
  ∃ result, outcome = .ok result ∧ result.success = false ∧
    result.metadata.get? "stage" = some (.str (lit stage))

/-- The hooks a run of the tool calls: `validate`, then `execute` at most once,
if `validate` returned and every declared permission is granted. -/
structure BaseTool.CallsInOrder (tool : BaseTool) (toolId : Str) (request : Mapping)
    (granted : List Permission) (calls : List Call) : Prop where
  hooks : calls = [.validate toolId request] ∨
    calls = [.validate toolId request, .execute toolId request]
  executed : Call.execute toolId request ∈ calls →
    tool.validate request = .ok () ∧ ∀ p ∈ tool.permissions, p ∈ granted

/-- A run of the tool comes back, keeps the order of its stages and names the
one that failed. -/
structure BaseTool.RunsThrough (tool : BaseTool) (toolId : Str) (context : ToolContext)
    (request : Mapping) (granted : List Permission) (outcome : Except Exn ToolResult)
    (calls : List Call) : Prop where
  returned : ∃ result, outcome = .ok result
  ordered : tool.CallsInOrder toolId request granted calls
  invalid : ∀ exc, tool.validate request = .error exc → FailedAt "validate" outcome
  denied : tool.validate request = .ok () → (∃ p ∈ tool.permissions, p ∉ granted) →
    FailedAt "permission_check" outcome
  raised : tool.validate request = .ok () → (∀ p ∈ tool.permissions, p ∈ granted) →
    ∀ exc, tool.execute context request = .error exc → FailedAt "execute" outcome

section
variable [Printing] {tool : BaseTool} {toolId : Str} {context : ToolContext} {request : Mapping}
  {granted : List Permission}

theorem new_failedAt {stage : String} {message : Str} {seconds : Rat} {rest : Mapping}
    {outcome : Except Exn ToolResult}
    (h : ToolResult.new false none (some message) seconds
      (item "stage" (.str (lit stage)) :: rest) = outcome)
    (hreturned : ∃ result, outcome = .ok result) : FailedAt stage outcome := by
  obtain ⟨result, rfl⟩ := hreturned
  have hok := ToolResult.new_returns.mp ⟨result, h⟩
  rw [ToolResult.new_ok hok] at h
  cases h
  exact ⟨_, rfl, rfl, by simp⟩

theorem runPipeline_stages (tool : BaseTool) (toolId : Str) (context : ToolContext)
    (request : Mapping) (granted : List Permission) :
    (runPipeline toolId tool context request granted).Traces fun outcome calls =>
      tool.CallsInOrder toolId request granted calls ∧ ((∃ result, outcome = .ok result) →
        tool.RunsThrough toolId context request granted outcome calls) := by
  refine .attempt_call_bind ?_
  cases hvalidate : tool.validate request with
  | error exc =>
    have hordered : tool.CallsInOrder toolId request granted [.validate toolId request] :=
      ⟨.inl rfl, by simp⟩
    simp only
    split
    · refine .lift ⟨hordered, fun hreturned => ⟨hreturned, hordered, ?_, ?_, ?_⟩⟩
      · exact fun _ _ => new_failedAt rfl hreturned
      · simp [hvalidate]
      · simp [hvalidate]
    · -- the exception leaves the pipeline
      exact fun log => ⟨[], (List.append_nil log).symm, hordered, by simp⟩
  | ok u =>
    simp only
    split
    · rename_i hmissing
      have hordered : tool.CallsInOrder toolId request granted [.validate toolId request] :=
        ⟨.inl rfl, by simp⟩
      have hdenied : ¬ ∀ p ∈ tool.permissions, p ∈ granted := fun h =>
        hmissing (missingPermissions_nil.mpr h)
      refine .lift ⟨hordered, fun hreturned => ⟨hreturned, hordered, ?_, ?_, ?_⟩⟩
      · simp [hvalidate]
      · exact fun _ _ => new_failedAt rfl hreturned
      · exact fun _ hgranted => absurd hgranted hdenied
    · rename_i hmissing
      have hgranted := missingPermissions_nil.mp (not_not.mp hmissing)
      have hordered : tool.CallsInOrder toolId request granted
          [.validate toolId request, .execute toolId request] :=
        ⟨.inr rfl, fun _ => ⟨hvalidate, hgranted⟩⟩
      have hpermitted : ¬ ∃ p ∈ tool.permissions, p ∉ granted := by simpa using hgranted
      refine .attempt_call_bind ?_
      cases hexecute : tool.execute context request with
      | error exc =>
        refine .lift ⟨hordered, fun hreturned => ⟨hreturned, hordered, ?_, ?_, ?_⟩⟩
        · simp [hvalidate]
        · exact fun _ h => absurd h hpermitted
        · exact fun _ _ _ _ => new_failedAt rfl hreturned
      | ok result =>
        refine .lift ⟨hordered, fun hreturned => ⟨hreturned, hordered, ?_, ?_, ?_⟩⟩
        · simp [hvalidate]
        · exact fun _ h => absurd h hpermitted
        · simp [hexecute]

/-- A run comes back, in the order of its stages, unless `validate` raises
something other than a `ToolValidationError`, or an exception without a text is
to become a result. -/
theorem runPipeline_runsThrough_iff (tool : BaseTool) (toolId : Str) (context : ToolContext)
    (request : Mapping) (granted : List Permission) :
    (runPipeline toolId tool context request granted).Traces
        (tool.RunsThrough toolId context request granted) ↔
      tool.escapes context request granted = false := by
  constructor
  · intro h
    obtain ⟨made, -, hruns⟩ := h []
    exact (runPipeline_returns toolId tool context request granted []).mp hruns.returned
  · intro h log
    obtain ⟨made, hmade, -, hruns⟩ := runPipeline_stages tool toolId context request granted log
    exact ⟨made, hmade, hruns ((runPipeline_returns toolId tool context request granted log).mpr h)⟩

end

-- ---------------------------------------------------------------------------
-- A tool that looks up a missing key while validating
-- ---------------------------------------------------------------------------

/-- `validate` reads `request["message"]`. -/
def lookupTool : BaseTool where
  id := lit "shout"
  description := lit "Shouts a message."
  inputSchema := []
  permissions := []
  validate request := match request.get? "message" with
    | some _ => .ok ()
    | none => .error (.raised .keyError (lit "'message'"))
  execute _ _ := .ok {
    success := true
    payload := none
    error := none
    executionTimeSeconds := 0
    metadata := []
    ok := outcomeOk_instant }
  elapsed _ := noTime

/-- The `KeyError` leaves the pipeline. -/
theorem lookupTool_escapes :
    ¬ (@runPipeline plainPrinting (lit "shout") lookupTool ⟨0, 0, 0, 0⟩ [] []).Traces
      (lookupTool.RunsThrough (lit "shout") ⟨0, 0, 0, 0⟩ [] []) := by
  intro h
  obtain ⟨made, -, ⟨result, hreturned⟩, -⟩ := h []
  cases hreturned

end MellivorKernel
