import MellivorKernel.Providers.ChatTools
import MellivorKernel.Providers.Claude
import MellivorKernel.Execution.Dispatch
import MellivorKernel.Providers.Local

/-!
# The Claude provider

`ClaudeProvider.invoke` and `check_health` of `providers/claude.py` over the
SDK. What `messages.create` comes to is a parameter: a message, or an exception
of the package's own, as `anthropic` documents.
-/

namespace MellivorKernel

open Python Foundation

-- ---------------------------------------------------------------------------
-- The SDK
-- ---------------------------------------------------------------------------

/-- The exceptions of the `anthropic` package. -/
def anthropicError : ExnClass := .foreign (lit "anthropic.AnthropicError") .exception

def anthropicAPIError : ExnClass := .foreign (lit "anthropic.APIError") anthropicError

def anthropicAuthenticationError : ExnClass :=
  .foreign (lit "anthropic.AuthenticationError")
    (.foreign (lit "anthropic.APIStatusError") anthropicAPIError)

def anthropicAPIConnectionError : ExnClass :=
  .foreign (lit "anthropic.APIConnectionError") anthropicAPIError

def anthropicAPITimeoutError : ExnClass :=
  .foreign (lit "anthropic.APITimeoutError") anthropicAPIConnectionError

/-- A block of a message's content: a `TextBlock`, a `ToolUseBlock` or one of
another type. -/
inductive ContentBlock
  | text (text : Str)
  | toolUse (id name : Str) (input : PyValue)
  | other

structure AnthropicMessage where
  content : List ContentBlock
  model : Str
  stopReason : Option Str
  inputTokens : Int
  outputTokens : Int

/-- `self._client.messages.create` -/
structure AnthropicClient where
  create : Mapping → Except Exn AnthropicMessage
  raises : ∀ arguments, RaisesOnly (fun exc => exc.isA anthropicError = true) (create arguments)

-- ---------------------------------------------------------------------------
-- Messages of the API
-- ---------------------------------------------------------------------------

def ContentBlock.text? : ContentBlock → Option Str
  | .text said => some said
  | _ => none

def ContentBlock.toolUse? : ContentBlock → Option (Str × Str × Mapping)
  | .toolUse id name input => some (id, name, input.mapping?.getD [])
  | _ => none

def AnthropicMessage.text (message : AnthropicMessage) : Str :=
  (message.content.filterMap ContentBlock.text?).flatten

def AnthropicMessage.toolUses (message : AnthropicMessage) : List (Str × Str × Mapping) :=
  message.content.filterMap ContentBlock.toolUse?

def AnthropicMessage.toolCalls (message : AnthropicMessage) : Except Exn (List ToolCall) :=
  message.toolUses.mapM fun (id, name, arguments) => ToolCall.new id name arguments

def claudeResponseError (message : Str) : Exn :=
  .raised (.foreign (lit "ClaudeResponseError") .claudeProviderError) message

/-- What `invoke` makes of the message. -/
def AnthropicMessage.accept (message : AnthropicMessage) : Except Exn Mapping := do
  let toolCalls ← message.toolCalls
  if message.text = [] ∧ toolCalls.isEmpty then
    .error (claudeResponseError (lit "Anthropic response contained no text content."))
  else .ok [item "text" (.str message.text),
    item "tool_calls" (.tuple (toolCalls.map ToolCall.toValue)), item "model" (.str message.model),
    item "stop_reason" (message.stopReason.elim .none .str),
    item "input_tokens" (.int message.inputTokens), item "output_tokens" (.int message.outputTokens)]

-- ---------------------------------------------------------------------------
-- Invoking
-- ---------------------------------------------------------------------------

structure ClaudeProvider where
  apiKey : Str
  model : Str
  apiKey_ok : apiKey ≠ []
  model_ok : model ≠ []

def ClaudeProvider.new (apiKey defaultModel : Option Str) : Except Exn ClaudeProvider :=
  if hkey : apiKey.getD [] ≠ [] then
    if hmodel : defaultModel.getD [] ≠ [] then
      .ok ⟨apiKey.getD [], defaultModel.getD [], hkey, hmodel⟩
    else .error (.raised .providerConfigurationError
      (lit "ClaudeProvider requires configuration.default_model (e.g. 'claude-sonnet-5')."))
  else .error (.raised .providerConfigurationError
    (lit "ClaudeProvider requires configuration.api_key. It does not fall back to the ANTHROPIC_API_KEY environment variable, so credentials always flow through the kernel's own configuration system."))

def ClaudeProvider.name : Str := lit "claude"

def toAnthropicTool : PyValue → Except Exn Mapping
  | .toolSpec name description inputSchema =>
    .ok [item "name" (.str name), item "description" (.str description),
      item "input_schema" (.dict inputSchema)]
  | _ => .error (claudeError (lit "request['tools'] entries must be ToolSpec instances."))

def claudeToolsFrom (request : Mapping) : Except Exn (Option (List Mapping)) :=
  match (request.get? "tools").getD .none with
  | .none => .ok none
  | tools =>
    match tools.sequence? with
    | none => .error (claudeError (lit "request['tools'] must be a sequence of ToolSpec."))
    | some specs => do
      let definitions ← specs.mapM toAnthropicTool
      .ok (if definitions.isEmpty then none else some definitions)

/-- `request.get("system")` where it is a string or missing. -/
def claudeSystem (request : Mapping) : Except Exn (Option Str) :=
  match (request.get? "system").getD .none with
  | .none => .ok none
  | .str system => .ok (some system)
  | _ => .error (claudeError (lit "request['system'] must be a string, if provided."))

/-- `request.get("max_tokens", 1024)` where it is a positive integer. -/
def claudeMaxTokens (request : Mapping) : Except Exn Int :=
  match (request.get? "max_tokens").getD (.int 1024) with
  | .int n =>
    if 0 < n then .ok n
    else .error (claudeError (lit "request['max_tokens'] must be a positive integer, if provided."))
  | _ => .error (claudeError (lit "request['max_tokens'] must be a positive integer, if provided."))

/-- The keyword arguments of `create`; one that is omitted is left out. -/
def ClaudeProvider.createArguments (provider : ClaudeProvider) (maxTokens : Int)
    (messages : List Mapping) (system : Option Str) (tools : Option (List Mapping)) : Mapping :=
  [item "model" (.str provider.model), item "max_tokens" (.int maxTokens),
    item "messages" (.list (messages.map .dict))] ++
    system.elim [] (fun system => [item "system" (.str system)]) ++
    tools.elim [] fun tools => [item "tools" (.list (tools.map .dict))]

section
variable [Printing]

def ClaudeProvider.arguments (provider : ClaudeProvider) (request : Mapping) :
    Except Exn Mapping := do
  let messages ← claudeMessagesFrom request
  let system ← claudeSystem request
  let maxTokens ← claudeMaxTokens request
  let tools ← claudeToolsFrom request
  .ok (provider.createArguments maxTokens messages system tools)

/-- The `except` clauses around the SDK call, in order. -/
def translateAnthropicError (exc : Exn) : Exn :=
  if exc.isA anthropicAuthenticationError then
    .raised (.foreign (lit "ClaudeAuthenticationError") .claudeProviderError)
      (lit "Anthropic API rejected the configured credentials: " ++ exc.text)
  else if exc.isA anthropicAPITimeoutError then
    .raised (.foreign (lit "ClaudeTimeoutError") .claudeProviderError)
      (lit "Request to the Anthropic API timed out: " ++ exc.text)
  else if exc.isA anthropicAPIConnectionError then
    .raised (.foreign (lit "ClaudeConnectionError") .claudeProviderError)
      (lit "Could not reach the Anthropic API: " ++ exc.text)
  else if exc.isA anthropicError then
    claudeError (lit "Anthropic API request failed: " ++ exc.text)
  else exc

def ClaudeProvider.invoke (provider : ClaudeProvider) (client : AnthropicClient)
    (request : Mapping) : Except Exn Mapping := do
  let arguments ← provider.arguments request
  let message ← (client.create arguments).mapError translateAnthropicError
  message.accept

def ClaudeProvider.checkHealth (provider : ClaudeProvider) (client : AnthropicClient) :
    Except Exn ProviderHealthCheck :=
  match client.create [item "model" (.str provider.model), item "max_tokens" (.int 1),
      item "messages" (.list [userMessage (lit "ping")])] with
  | .ok _ => .ok ⟨true, ClaudeProvider.name, []⟩
  | .error exc =>
    if exc.isA anthropicError then .ok ⟨false, ClaudeProvider.name, exc.text⟩ else .error exc

def ClaudeProvider.base (provider : ClaudeProvider) (client : AnthropicClient)
    (elapsed : Mapping → Elapsed) : BaseProvider where
  name := ClaudeProvider.name
  supportsToolCalls := true
  invoke := provider.invoke client
  elapsed := elapsed

-- ---------------------------------------------------------------------------
-- Turns that are sent back
-- ---------------------------------------------------------------------------

def anthropicToolUse (use : Str × Str × Mapping) : Mapping :=
  [item "type" (.str (lit "tool_use")), item "id" (.str use.1), item "name" (.str use.2.1),
    item "input" (.dict use.2.2)]

/-- The message as a turn of the conversation: its texts as one block, and then
its tool calls. -/
def AnthropicMessage.turn (message : AnthropicMessage) : Mapping :=
  [item "role" (.str (lit "assistant")), item "content" (.list
    (((if message.text = [] then [] else [textBlock message.text]) ++
      message.toolUses.map anthropicToolUse).map .dict))]

def anthropicResult (result : ToolResultBlock) : Mapping :=
  [item "type" (.str (lit "tool_result")), item "tool_use_id" (.str result.toolCallId),
    item "content" (.str result.content)] ++
    if result.isError then [item "is_error" (.bool true)] else []

def anthropicResults (results : List Mapping) : Mapping :=
  [item "role" (.str (lit "user")), item "content" (.list (results.map .dict))]

omit [Printing] in
theorem ToolCall.new_fields {id name : Str} {arguments : Mapping} {call : ToolCall}
    (h : ToolCall.new id name arguments = .ok call) :
    (call.id, call.name, call.arguments) = (id, name, arguments) := by
  unfold ToolCall.new at h
  split at h
  · split at h
    · cases h
      rfl
    · cases h
  · cases h

omit [Printing] in
theorem AnthropicMessage.toolCalls_ok {message : AnthropicMessage} {calls : List ToolCall}
    (h : message.toolCalls = .ok calls) :
    calls.map (fun call => (call.id, call.name, call.arguments)) = message.toolUses := by
  have hcalls := mapM_eq_ok_iff_forall₂.mp h
  rw [← List.forall₂_eq_eq_eq, List.forall₂_map_left_iff]
  exact hcalls.flip.imp fun call use heq => ToolCall.new_fields heq

omit [Printing] in
/-- What the loop reads of an accepted message: its text and its tool calls. -/
theorem AnthropicMessage.accept_ok {message : AnthropicMessage} {payload : Mapping}
    (h : message.accept = .ok payload) : ∃ calls, message.toolCalls = .ok calls ∧
      (message.text ≠ [] ∨ calls ≠ []) ∧
      (payload.get? "text").bind PyValue.str? = some message.text ∧
      (payload.get? "tool_calls").bind PyValue.sequence? = some (calls.map ToolCall.toValue) := by
  obtain ⟨calls, hcalls, h⟩ := bind_eq_ok.mp h
  refine ⟨calls, hcalls, ?_⟩
  split at h
  · cases h
  · rename_i hne
    cases h
    refine ⟨?_, rfl, rfl⟩
    rw [List.isEmpty_iff, not_and_or] at hne
    exact hne

theorem toAnthropicBlocks {blocks out : List Mapping}
    (h : List.Forall₂ (fun block wire => toAnthropicBlock (.dict block) = .ok wire) blocks out) :
    (blocks.map PyValue.dict).mapM toAnthropicBlock = .ok out :=
  mapM_eq_ok_iff_forall₂.mpr (List.forall₂_map_left_iff.mpr h)

/-- A turn built from the calls that were read goes back as the API wrote it. -/
theorem toAnthropicMessage_turn {message : AnthropicMessage} {calls : List ToolCall}
    (hcalls : message.toolCalls = .ok calls) (hne : message.text ≠ [] ∨ calls ≠ []) :
    toAnthropicMessage (assistantMessage message.text calls) = .ok message.turn := by
  have huses : calls.map toolUseBlock = message.toolUses.map anthropicToolUse := by
    rw [← message.toolCalls_ok hcalls, List.map_map]
    rfl
  have hsome : assistantBlocks message.text calls ≠ [] := by
    rw [assistantBlocks, Ne, List.append_eq_nil_iff, List.map_eq_nil_iff]
    rcases hne with hne | hne <;> simp [hne]
  have hblocks : ((assistantBlocks message.text calls).map PyValue.dict).mapM toAnthropicBlock =
      .ok (assistantBlocks message.text calls) := by
    refine toAnthropicBlocks (List.forall₂_same.mpr fun block hblock => ?_)
    rcases List.mem_append.mp hblock with hblock | hblock
    · split at hblock
      · cases hblock
      · rw [List.mem_singleton.mp hblock]
        rfl
    · obtain ⟨call, -, rfl⟩ := List.mem_map.mp hblock
      rfl
  have hturn : message.turn = [item "role" (.str (lit "assistant")), item "content"
      (.list ((assistantBlocks message.text calls).map .dict))] := by
    rw [assistantBlocks, huses]
    rfl
  obtain ⟨first, more, heq⟩ := List.exists_cons_of_ne_nil hsome
  rw [hturn, assistantMessage]
  rw [heq] at hblocks ⊢
  exact (congrArg (· >>= _) hblocks).trans rfl

theorem toAnthropicMessage_answers {results : List ToolResultBlock} (hne : results ≠ []) :
    toAnthropicMessage (toolResults results) =
      .ok (anthropicResults (results.map anthropicResult)) := by
  have hblocks : ((results.map toolResultBlock).map PyValue.dict).mapM toAnthropicBlock =
      .ok (results.map anthropicResult) := by
    refine toAnthropicBlocks ?_
    rw [List.forall₂_map_left_iff, List.forall₂_map_right_iff, List.forall₂_same]
    rintro result -
    cases herror : result.isError <;>
    · simp only [toolResultBlock, anthropicResult, herror]
      rfl
  obtain ⟨first, more, heq⟩ := List.exists_cons_of_ne_nil hne
  rw [toolResults]
  rw [heq] at hblocks ⊢
  exact (congrArg (· >>= _) hblocks).trans rfl

end

end MellivorKernel
