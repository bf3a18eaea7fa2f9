import MellivorKernel.Foundation.Dict
import MellivorKernel.Providers.ChatTools

/-!
# The local provider

`LocalProvider` of `providers/local.py` over a transport. `client.post` is a
parameter: for each attempt it comes to a response, an `httpx.TimeoutException`
or another `httpx.TransportError`.
-/

namespace MellivorKernel

open Python Foundation

def localProviderError (message : Str) : Exn := .raised .localProviderError message

def localResponseError (message : Str) : Exn := .raised .localResponseError message

-- ---------------------------------------------------------------------------
-- Transport
-- ---------------------------------------------------------------------------

/-- A response: its status and the text of its body, unless that does not
decode. -/
structure Response where
  statusCode : Nat
  body : Option Str

def Response.isSuccess (response : Response) : Bool :=
  200 ≤ response.statusCode && response.statusCode ≤ 299

def Response.json (response : Response) : Except Exn PyValue :=
  match response.body with
  | some text => loads text
  | none => .error (.raised (.foreign (lit "UnicodeDecodeError") .valueError)
      (lit "'utf-8' codec can't decode the body"))

inductive TransportOutcome
  | response (response : Response)
  | timeoutException
  | transportError

/-- `client.post(endpoint, json=payload, ...)`, attempt by attempt. -/
abbrev Client := (endpoint : Str) → (payload : Mapping) → (attempt : Nat) → TransportOutcome

structure LocalProvider where
  endpoint : Str
  model : Str
  maxRetries : Nat
  model_ok : blank model = false

def LocalProvider.name : Str := lit "local"

/-- The retry loop from an attempt on, `left` of them before it is exhausted. -/
def postFrom (attempts : Nat) (outcomes : Nat → TransportOutcome) :
    (left attempt : Nat) → Except Exn Response
  | 0, _ => .error (.raised .assertionError
      (lit "bounded local-provider retry loop exhausted unexpectedly"))
  | left + 1, attempt =>
    match outcomes attempt with
    | .response response => .ok response
    | .timeoutException =>
      if attempt + 1 = attempts then .error (.raised .localTimeoutError
        (lit "Local inference endpoint timed out after " ++ decimal attempts ++ lit " attempt(s)."))
      else postFrom attempts outcomes left (attempt + 1)
    | .transportError =>
      if attempt + 1 = attempts then .error (.raised .localConnectionError
        (lit "Could not reach local inference endpoint after " ++ decimal attempts ++
          lit " attempt(s)."))
      else postFrom attempts outcomes left (attempt + 1)

def LocalProvider.post (provider : LocalProvider) (client : Client) (payload : Mapping) :
    Except Exn Response :=
  let attempts := provider.maxRetries + 1
  postFrom attempts (client provider.endpoint payload) attempts 0

-- ---------------------------------------------------------------------------
-- Responses
-- ---------------------------------------------------------------------------

/-- What is needed of a response, or the error that says it is missing. -/
def needed (found : Option α) (message : String) : Except Exn α :=
  match found with
  | some a => .ok a
  | none => .error (localResponseError (lit message))

/-- `choices[0]` where it is usable. -/
def firstChoice (payload : Mapping) : Option Mapping :=
  match payload.get? "choices" with
  | some (.list (choice :: _)) => choice.mapping?
  | _ => none

/-- A field that is a string or null: its text. -/
def textOrNull (m : Mapping) (key : String) : Option (Option Str) :=
  match (m.get? key).getD .none with
  | .none => some none
  | .str text => some (some text)
  | _ => none

/-- `payload.get("usage", {})`, null being none. -/
def usageOf (payload : Mapping) : Option Mapping :=
  match (payload.get? "usage").getD (.dict []) with
  | .none => some []
  | usage => usage.mapping?

section
variable [Printing]

def tokenCount (usage : Mapping) (fieldName : String) : Except Exn Nat :=
  match (usage.get? fieldName).getD (.int 0) with
  | .int (.ofNat n) => .ok n
  | _ => .error (localResponseError (lit "Local inference response usage field " ++
      pyRepr (lit fieldName) ++ lit " must be a non-negative integer."))

def Response.payload (response : Response) : Except Exn Mapping :=
  match response.json with
  | .error exc =>
    if exc.isA .valueError then
      .error (localResponseError (lit "Local inference endpoint returned invalid JSON."))
    else .error exc
  | .ok payload => needed payload.mapping? "Local inference endpoint returned a non-object response."

def normalizeResponse (response : Response) : Except Exn Mapping := do
  let payload ← response.payload
  let choice ← needed (firstChoice payload) "Local inference response contained no usable choice."
  let message ← needed ((choice.get? "message").bind PyValue.mapping?)
    "Local inference response contained no text content."
  let rawText ← needed (textOrNull message "content")
    "Local inference response field 'content' must be a string."
  let text := rawText.getD []
  let toolCalls ← toolCallsFromChat localResponseError ((message.get? "tool_calls").getD .none)
  if text = [] ∧ toolCalls.isEmpty then
    .error (localResponseError (lit "Local inference response contained no text content."))
  else do
    let model ← needed (nonEmptyText payload "model")
      "Local inference response field 'model' must be a non-empty string."
    let finishReason ← needed (textOrNull choice "finish_reason")
      "Local inference response field 'finish_reason' must be a string or null."
    let usage ← needed (usageOf payload) "Local inference response field 'usage' must be an object."
    let promptTokens ← tokenCount usage "prompt_tokens"
    let completionTokens ← tokenCount usage "completion_tokens"
    .ok [item "text" (.str text), item "tool_calls" (.tuple (toolCalls.map ToolCall.toValue)),
      item "model" (.str model), item "finish_reason" (finishReason.elim .none .str),
      item "prompt_tokens" (.int promptTokens), item "completion_tokens" (.int completionTokens)]

-- ---------------------------------------------------------------------------
-- Invoking
-- ---------------------------------------------------------------------------

def supportedRequestFields : List Str :=
  [lit "messages", lit "max_tokens", lit "system", lit "tools"]

abbrev LocalRequest := Dict Str PyValue

def LocalRequest.field (request : LocalRequest) (key : String) : PyValue :=
  (request.get? (lit key)).getD .none

def LocalRequest.unknown (request : LocalRequest) : List Str :=
  sorted (request.keys.filter (· ∉ supportedRequestFields))

/-- `request.get("max_tokens", 1024)` where it is a positive integer. -/
def maxTokens (request : LocalRequest) : Option Int :=
  match (request.get? (lit "max_tokens")).getD (.int 1024) with
  | .int n => if 0 < n then some n else none
  | _ => none

def LocalProvider.chatPayload (provider : LocalProvider) (request : LocalRequest) :
    Except Exn Mapping :=
  if request.unknown ≠ [] then
    .error (localProviderError (lit "Unsupported local-provider request field(s): " ++
      join (lit ", ") request.unknown ++ lit "."))
  else do
    let messages ← messagesToChat localProviderError (request.field "messages")
      (request.field "system")
    match maxTokens request with
    | none => .error (localProviderError
        (lit "request['max_tokens'] must be a positive integer, if provided."))
    | some maxTokens => do
      let tools ← toolsToChat localProviderError (request.field "tools")
      .ok ([item "model" (.str provider.model), item "messages" (.list (messages.map .dict)),
        item "max_tokens" (.int maxTokens), item "stream" (.bool false)] ++
        tools.elim [] fun tools => [item "tools" (.list (tools.map .dict))])

def Response.accept (response : Response) : Except Exn Mapping :=
  if response.statusCode = 401 ∨ response.statusCode = 403 then
    .error (.raised .localAuthenticationError
      (lit "Local inference endpoint rejected the configured credential (HTTP " ++
        decimal response.statusCode ++ lit ")."))
  else if response.isSuccess then normalizeResponse response
  else .error (localProviderError (lit "Local inference endpoint request failed with HTTP " ++
    decimal response.statusCode ++ lit "."))

def LocalProvider.invoke (provider : LocalProvider) (client : Client) (request : LocalRequest) :
    Except Exn Mapping := do
  let payload ← provider.chatPayload request
  let response ← provider.post client payload
  response.accept

structure ProviderHealthCheck where
  healthy : Bool
  providerName : Str
  detail : Str

def pingRequest : LocalRequest :=
  (Dict.empty.set (lit "messages") (.list [userMessage (lit "ping")])).set (lit "max_tokens")
    (.int 1)

def LocalProvider.checkHealth (provider : LocalProvider) (client : Client) :
    Except Exn ProviderHealthCheck :=
  match provider.invoke client pingRequest with
  | .ok _ => .ok ⟨true, LocalProvider.name, []⟩
  | .error exc =>
    if exc.isA .localProviderError then .ok ⟨false, LocalProvider.name, exc.text⟩
    else .error exc

end

end MellivorKernel
