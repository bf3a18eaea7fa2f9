import MellivorKernel.Providers.ChatCompletions
import MellivorKernel.Python.JsonScan

/-!
# Tools in Chat Completions

`tools_to_chat`, and `tool_calls_from_chat` over a decoded response. `error`
builds the provider's own exception from a message.
-/

namespace MellivorKernel

open Python Foundation

def ToolCall.new (id name : Str) (arguments : Mapping) : Except Exn ToolCall :=
  if hi : blank id = false then
    if hn : blank name = false then .ok { id, name, arguments, id_ok := hi, name_ok := hn }
    else .error (.raised .toolCallingError (lit "ToolCall.name must not be blank."))
  else .error (.raised .toolCallingError (lit "ToolCall.id must not be blank."))

def ToolCall.toValue (call : ToolCall) : PyValue :=
  .toolCall call.id call.name call.id_ok call.name_ok call.arguments

section
variable [Printing] (error : Str → Exn)

-- ---------------------------------------------------------------------------
-- Tools
-- ---------------------------------------------------------------------------

def toolToChat : PyValue → Except Exn Mapping
  | .toolSpec name description inputSchema =>
    .ok [item "type" (.str (lit "function")), item "function" (.dict [item "name" (.str name),
      item "description" (.str description), item "parameters" (.dict inputSchema)])]
  | _ => .error (error (lit "request['tools'] entries must be ToolSpec instances."))

def toolsToChat (tools : PyValue) : Except Exn (Option (List Mapping)) :=
  match tools with
  | .none => .ok none
  | tools =>
    match tools.sequence? with
    | none => .error (error (lit "request['tools'] must be a sequence of ToolSpec."))
    | some specs => do
      let out ← specs.mapM (toolToChat error)
      .ok (if out.isEmpty then none else some out)

-- ---------------------------------------------------------------------------
-- Tool calls
-- ---------------------------------------------------------------------------

/-- The value under a key where it is a string that is not empty. -/
def nonEmptyText (m : Mapping) (key : String) : Option Str :=
  ((m.get? key).bind PyValue.str?).filter (· ≠ [])

/-- `_read_call` of a JSON value; one that is no object has none of the
attributes. -/
def readCall (raw : PyValue) : Except Exn (Str × Str × Str) :=
  let raw := raw.mapping?.getD []
  let function := ((raw.get? "function").bind PyValue.mapping?).getD []
  match nonEmptyText raw "id" with
  | none => .error (error (lit "Each tool call must carry a non-empty string 'id'."))
  | some callId =>
    match nonEmptyText function "name" with
    | none => .error (error
        (lit "Tool call " ++ pyRepr callId ++ lit " must carry a function name."))
    | some name =>
      match (function.get? "arguments").getD .none with
      | .none => .ok (callId, name, [])
      | .str arguments => .ok (callId, name, arguments)
      | _ => .error (error
          (lit "Tool call " ++ pyRepr callId ++ lit " arguments must be a JSON string."))

def parseArguments (callId arguments : Str) : Except Exn Mapping :=
  if blank arguments then .ok []
  else match loads arguments with
    | .error exc =>
      if exc.isA .valueError then
        .error (error (lit "Tool call " ++ pyRepr callId ++ lit " carried non-JSON arguments."))
      else .error exc
    | .ok parsed =>
      match parsed.mapping? with
      | some parsed => .ok parsed
      | none => .error (error
          (lit "Tool call " ++ pyRepr callId ++ lit " arguments must be a JSON object."))

/-- One turn of the loop of `tool_calls_from_chat`. -/
def toolCallFromChat (raw : PyValue) : Except Exn ToolCall := do
  let (callId, name, arguments) ← readCall error raw
  let parsed ← parseArguments error callId arguments
  ToolCall.new callId name parsed

def toolCallsFromChat (rawCalls : PyValue) : Except Exn (List ToolCall) :=
  match rawCalls with
  | .none => .ok []
  | rawCalls =>
    match rawCalls.sequence? with
    | none => .error (error (lit "Response field 'tool_calls' must be a list."))
    | some raws => raws.mapM (toolCallFromChat error)

end

end MellivorKernel
