import MellivorKernel.Providers.Local

/-!
# The OpenAI provider

`OpenAIProvider.invoke` of `providers/openai.py` over the SDK. What
`chat.completions.create` comes to is a parameter: a completion, or an
exception of the package's own, as `openai` documents. Request messages, tools
and tool calls go through the helpers shared with `LocalProvider`.
-/

namespace MellivorKernel

open Python Foundation

def openAIProviderError (message : Str) : Exn := .raised .openAIProviderError message

def openAIResponseError (message : Str) : Exn := .raised .openAIResponseError message

-- ---------------------------------------------------------------------------
-- The SDK
-- ---------------------------------------------------------------------------

structure FunctionCall where
  name : Str
  arguments : Str

/-- A tool call object; one of another type than `function` has no such
attribute. -/
structure SdkToolCall where
  id : Str
  function : Option FunctionCall

structure SdkMessage where
  content : Option Str
  toolCalls : Option (List SdkToolCall)

structure SdkChoice where
  message : SdkMessage
  finishReason : Option Str

structure CompletionUsage where
  promptTokens : Int
  completionTokens : Int

structure ChatCompletion where
  choices : List SdkChoice
  model : Str
  usage : Option CompletionUsage

/-- `self._client.chat.completions.create` -/
structure OpenAIClient where
  create : Mapping → Except Exn ChatCompletion
  raises : ∀ payload, RaisesOnly (fun exc => exc.isA .sdkOpenAIError = true) (create payload)

structure OpenAIProvider where
  model : Str
  model_ok : model ≠ []

-- ---------------------------------------------------------------------------
-- Completions
-- ---------------------------------------------------------------------------

section
variable [Printing]

/-- `_read_call` of an object that is no mapping, by its attributes. -/
def readSdkCall (error : Str → Exn) (raw : SdkToolCall) : Except Exn (Str × Str × Str) :=
  if raw.id = [] then .error (error (lit "Each tool call must carry a non-empty string 'id'."))
  else match raw.function.filter (·.name ≠ []) with
    | none => .error (error
        (lit "Tool call " ++ pyRepr raw.id ++ lit " must carry a function name."))
    | some function => .ok (raw.id, function.name, function.arguments)

def toolCallFromSdk (error : Str → Exn) (raw : SdkToolCall) : Except Exn ToolCall := do
  let (callId, name, arguments) ← readSdkCall error raw
  let parsed ← parseArguments error callId arguments
  ToolCall.new callId name parsed

def toolCallsFromSdk (error : Str → Exn) : Option (List SdkToolCall) → Except Exn (List ToolCall)
  | none => .ok []
  | some raws => raws.mapM (toolCallFromSdk error)

def ChatCompletion.accept (completion : ChatCompletion) : Except Exn Mapping :=
  match completion.choices with
  | [] => .error (.raised .indexError (lit "list index out of range"))
  | choice :: _ => do
    let text := choice.message.content.getD []
    let toolCalls ← toolCallsFromSdk openAIResponseError choice.message.toolCalls
    if text = [] ∧ toolCalls.isEmpty then
      .error (openAIResponseError (lit "OpenAI response contained no text content."))
    else .ok [item "text" (.str text), item "tool_calls" (.tuple (toolCalls.map ToolCall.toValue)),
      item "model" (.str completion.model),
      item "finish_reason" (choice.finishReason.elim .none .str),
      item "prompt_tokens" (.int (completion.usage.elim 0 CompletionUsage.promptTokens)),
      item "completion_tokens" (.int (completion.usage.elim 0 CompletionUsage.completionTokens))]

-- ---------------------------------------------------------------------------
-- Invoking
-- ---------------------------------------------------------------------------

def OpenAIProvider.chatArguments (provider : OpenAIProvider) (request : LocalRequest) :
    Except Exn Mapping := do
  let messages ← messagesToChat openAIProviderError (request.field "messages")
    (request.field "system")
  match maxTokens request with
  | none => .error (openAIProviderError
      (lit "request['max_tokens'] must be a positive integer, if provided."))
  | some maxTokens => do
    let tools ← toolsToChat openAIProviderError (request.field "tools")
    .ok ([item "model" (.str provider.model), item "max_tokens" (.int maxTokens),
      item "messages" (.list (messages.map .dict))] ++
      tools.elim [] fun tools => [item "tools" (.list (tools.map .dict))])

/-- The `except` clauses around the SDK call, in order. -/
def translateSdkError (exc : Exn) : Exn :=
  if exc.isA .sdkAuthenticationError then .raised .openAIAuthenticationError
    (lit "OpenAI API rejected the configured credentials: " ++ exc.text)
  else if exc.isA .sdkAPITimeoutError then .raised .openAITimeoutError
    (lit "Request to the OpenAI API timed out: " ++ exc.text)
  else if exc.isA .sdkAPIConnectionError then .raised .openAIConnectionError
    (lit "Could not reach the OpenAI API: " ++ exc.text)
  else if exc.isA .sdkOpenAIError then
    openAIProviderError (lit "OpenAI API request failed: " ++ exc.text)
  else exc

def OpenAIProvider.invoke (provider : OpenAIProvider) (client : OpenAIClient)
    (request : LocalRequest) : Except Exn Mapping := do
  let payload ← provider.chatArguments request
  let completion ← (client.create payload).mapError translateSdkError
  completion.accept

end

end MellivorKernel
