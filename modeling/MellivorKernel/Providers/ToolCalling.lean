import MellivorKernel.Python.Value

/-!
# Tool calling

The provider-neutral values of `providers/tool_calling.py` and the two
messages built from them. What the constructors check of the fields that are
kept is a proof field.
-/

namespace MellivorKernel

open Python

structure ToolSpec where
  name : Str
  description : Str
  inputSchema : Mapping

/-- `ToolSpec.__post_init__`; that the schema is a mapping holds by its type. -/
def ToolSpec.new (name description : Str) (inputSchema : Mapping) : Except Exn ToolSpec :=
  if blank name then .error (.raised .toolCallingError (lit "ToolSpec.name must not be blank."))
  else if blank description then
    .error (.raised .toolCallingError (lit "ToolSpec.description must not be blank."))
  else if ((inputSchema.get? "type").getD .none).eq (.str (lit "object")) then
    .ok { name, description, inputSchema }
  else .error (.raised .toolCallingError
    (lit "ToolSpec.input_schema must be a JSON Schema object (type: 'object')."))

def ToolSpec.toValue (spec : ToolSpec) : PyValue :=
  .toolSpec spec.name spec.description spec.inputSchema

structure ToolCall where
  id : Str
  name : Str
  arguments : Mapping
  id_ok : blank id = false
  name_ok : blank name = false

/-- `entry` where `isinstance(entry, ToolCall)`. -/
def toolCall? : PyValue → Option ToolCall
  | .toolCall id name id_ok name_ok arguments => some { id, name, arguments, id_ok, name_ok }
  | _ => none

structure ToolResultBlock where
  toolCallId : Str
  content : Str
  isError : Bool
  toolCallId_ok : blank toolCallId = false

-- ---------------------------------------------------------------------------
-- Messages
-- ---------------------------------------------------------------------------

def textBlock (text : Str) : Mapping :=
  [item "type" (.str (lit "text")), item "text" (.str text)]

def toolUseBlock (call : ToolCall) : Mapping :=
  [item "type" (.str (lit "tool_use")), item "id" (.str call.id), item "name" (.str call.name),
    item "input" (.dict call.arguments)]

def toolResultBlock (result : ToolResultBlock) : Mapping :=
  [item "type" (.str (lit "tool_result")), item "tool_call_id" (.str result.toolCallId),
    item "content" (.str result.content), item "is_error" (.bool result.isError)]

def assistantBlocks (text : Str) (toolCalls : List ToolCall) : List Mapping :=
  (if text = [] then [] else [textBlock text]) ++ toolCalls.map toolUseBlock

def assistantMessage (text : Str) (toolCalls : List ToolCall) : PyValue :=
  .dict [item "role" (.str (lit "assistant")), item "content"
    (.tuple ((assistantBlocks text toolCalls).map .dict))]

def toolResults (results : List ToolResultBlock) : PyValue :=
  .dict [item "role" (.str (lit "user")),
    item "content" (.tuple ((results.map toolResultBlock).map .dict))]

def toolResultsMessage (results : List ToolResultBlock) : Except Exn PyValue :=
  if results.isEmpty then
    .error (.raised .toolCallingError (lit "tool_results_message requires at least one result."))
  else .ok (toolResults results)

theorem toolResultsMessage_ok {results : List ToolResultBlock} (h : results ≠ []) :
    toolResultsMessage results = .ok (toolResults results) := by
  rw [toolResultsMessage, if_neg (by simpa using h)]

def userMessage (content : Str) : PyValue :=
  .dict [item "role" (.str (lit "user")), item "content" (.str content)]

-- ---------------------------------------------------------------------------
-- Reading messages
-- ---------------------------------------------------------------------------

def blocksOf (kind : String) (message : PyValue) : List Mapping :=
  let content := (message.mapping?.bind fun m => m.get? "content").bind PyValue.sequence?
  ((content.getD []).filterMap PyValue.mapping?).filter fun block =>
    (block.get? "type").bind PyValue.str? = some (lit kind)

theorem mapping?_map_dict (blocks : List Mapping) :
    (blocks.map PyValue.dict).filterMap PyValue.mapping? = blocks := by
  rw [List.filterMap_map]
  exact List.filterMap_some

theorem blocksOf_assistantMessage (text : Str) (toolCalls : List ToolCall) :
    blocksOf "tool_use" (assistantMessage text toolCalls) = toolCalls.map toolUseBlock := by
  have hmessage : blocksOf "tool_use" (assistantMessage text toolCalls) =
      (((assistantBlocks text toolCalls).map PyValue.dict).filterMap PyValue.mapping?).filter
        fun block => (block.get? "type").bind PyValue.str? = some (lit "tool_use") := rfl
  have hcalls : (toolCalls.map toolUseBlock).filter (fun block =>
      (block.get? "type").bind PyValue.str? = some (lit "tool_use")) = toolCalls.map toolUseBlock :=
    List.filter_eq_self.mpr (by simp [toolUseBlock, PyValue.str?])
  rw [hmessage, mapping?_map_dict, assistantBlocks, List.filter_append, hcalls]
  split
  · rfl
  · rw [List.filter_cons_of_neg (by simp [textBlock, PyValue.str?]), List.filter_nil,
      List.nil_append]

theorem blocksOf_toolResults (results : List ToolResultBlock) :
    blocksOf "tool_result" (toolResults results) = results.map toolResultBlock := by
  have hmessage : blocksOf "tool_result" (toolResults results) =
      (((results.map toolResultBlock).map PyValue.dict).filterMap PyValue.mapping?).filter
        fun block => (block.get? "type").bind PyValue.str? = some (lit "tool_result") := rfl
  rw [hmessage, mapping?_map_dict, List.filter_eq_self.mpr (by simp [toolResultBlock, PyValue.str?])]

end MellivorKernel
