import MellivorKernel.Providers.ChatTools
import MellivorKernel.Python.JsonInverse

/-!
# Tool calls that are replayed

An assistant turn goes to the model as a Chat Completions message. What
`tool_calls_from_chat` reads of that message are the calls the turn was built
from (`assistantMessage_replayed`).
-/

namespace MellivorKernel

open Python Foundation

/-- The arguments are a JSON object. -/
def ToolCall.isJson [Printing] (call : ToolCall) : Bool := (PyValue.dict call.arguments).isJson

theorem ToolCall.new_self (call : ToolCall) :
    ToolCall.new call.id call.name call.arguments = .ok call := by
  simp [ToolCall.new, call.id_ok, call.name_ok]

theorem nonEmptyText_item {text : Str} (h : blank text = false) (key : String) (rest : Mapping) :
    nonEmptyText (item key (.str text) :: rest) key = some text := by
  have hne : text ≠ [] := by
    rintro rfl
    cases h
  simp [nonEmptyText, PyValue.str?, hne]

section
variable [Printing] (error : Str → Exn)

theorem ToolCall.encodable_of_isJson {call : ToolCall} (h : call.isJson = true) :
    call.encodable = true :=
  (PyValue.dict call.arguments).jsonable_of_isJson .lenient h

theorem readCall_chatCall (call : ToolCall) :
    readCall error (.dict (chatCall call)) = .ok (call.id, call.name, call.encoded) := by
  simp [readCall, chatCall, chatToolCall, PyValue.mapping?, nonEmptyText_item call.id_ok,
    nonEmptyText_item call.name_ok]

theorem blank_dumps {arguments : Mapping} {text : Str}
    (h : (PyValue.dict arguments).dumps .lenient = .ok text) : blank text = false := by
  obtain ⟨parts, -, h⟩ := bind_eq_ok.mp h
  cases h
  rw [List.append_assoc]
  exact blank_append_left (by decide) _

theorem parseArguments_encoded (callId : Str) {call : ToolCall} (h : call.isJson = true) :
    parseArguments error callId call.encoded = .ok call.arguments := by
  obtain ⟨text, hdumps, hloads⟩ := loads_dumps_isJson h
  have hencoded : call.encoded = text := by
    have hmapping : call.arguments.dumps .lenient = .ok text := hdumps
    rw [ToolCall.encoded, hmapping]
  simp [parseArguments, hencoded, blank_dumps hdumps, hloads, PyValue.mapping?]

theorem toolCallFromChat_chatCall {call : ToolCall} (h : call.isJson = true) :
    toolCallFromChat error (.dict (chatCall call)) = .ok call := by
  unfold toolCallFromChat
  rw [readCall_chatCall]
  refine (congrArg (· >>= _) (parseArguments_encoded error call.id h)).trans ?_
  exact call.new_self

theorem toolCallsFromChat_chatCalls {calls : List ToolCall}
    (h : ∀ call ∈ calls, call.isJson = true) :
    toolCallsFromChat error (.list ((calls.map chatCall).map .dict)) = .ok calls := by
  rw [List.map_map]
  exact mapM_map_eq_ok fun call hcall => toolCallFromChat_chatCall error (h call hcall)

/-- An assistant turn with calls becomes one message. Its content is the text,
and what is read of its tool calls are the calls. -/
theorem assistantMessage_replayed (requestError responseError : Str → Exn) (text : Str)
    {calls : List ToolCall} (hne : calls ≠ []) (h : ∀ call ∈ calls, call.isJson = true) :
    ∃ message rawCalls,
      messageToChat requestError (assistantMessage text calls) = .ok [message] ∧
      message.get? "content" = some (if text = [] then .none else .str text) ∧
      message.get? "tool_calls" = some rawCalls ∧
      toolCallsFromChat responseError rawCalls = .ok calls := by
  refine ⟨chatAssistant text calls, .list ((calls.map chatCall).map .dict), ?_, ?_, ?_, ?_⟩
  · exact messageToChat_assistant requestError (.inr hne) fun call hcall =>
      ToolCall.encodable_of_isJson (h call hcall)
  · simp [chatAssistant, hne]
  · simp [chatAssistant, hne]
  · exact toolCallsFromChat_chatCalls responseError h

end

def nestedCall : ToolCall where
  id := lit "call 1"
  name := lit " look up "
  arguments := [item "terms" (.list [.str (lit "\"a\""), .int 2, .none]),
    item "options" (.dict [item "strict" (.bool true)])]
  id_ok := by decide
  name_ok := by decide

def emptyCall : ToolCall where
  id := lit "call 2"
  name := lit "list"
  arguments := []
  id_ok := by decide
  name_ok := by decide

theorem nestedCalls_replayed : ∃ message rawCalls,
    @messageToChat plainPrinting (.raised .localProviderError)
      (assistantMessage [] [nestedCall, emptyCall]) = .ok [message] ∧
    message.get? "content" = some .none ∧
    message.get? "tool_calls" = some rawCalls ∧
    @toolCallsFromChat plainPrinting (.raised .localResponseError) rawCalls =
      .ok [nestedCall, emptyCall] :=
  @assistantMessage_replayed plainPrinting (.raised .localProviderError)
    (.raised .localResponseError) [] [nestedCall, emptyCall] (by simp) (by decide)

end MellivorKernel
