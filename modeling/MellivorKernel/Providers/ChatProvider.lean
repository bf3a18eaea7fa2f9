import MellivorKernel.Execution.ToolLoop
import MellivorKernel.Providers.OpenAI
import MellivorKernel.Providers.Replay
import MellivorKernel.Python.JsonSettled

/-!
# Providers of Chat Completions

`LocalProvider` and `OpenAIProvider` side by side: they translate requests by
the same helpers and read tool calls by the same helpers. The calls they read
can be sent back, and are then read as they were (`toolCallsFromChat_posted`);
a response that is accepted says something (`ChatProvider.invoke_said`).
-/

namespace MellivorKernel

open Python Foundation

/-- A provider with its transport, or with the client of its SDK, which may
answer differently each time. -/
inductive ChatProvider (σ : Type)
  | localEndpoint (provider : LocalProvider) (client : σ → Client)
  | openAI (provider : OpenAIProvider) (client : σ → OpenAIClient)

section
variable {σ : Type}

def ChatProvider.requestError : ChatProvider σ → Str → Exn
  | .localEndpoint .. => localProviderError
  | .openAI .. => openAIProviderError

def ChatProvider.responseError : ChatProvider σ → Str → Exn
  | .localEndpoint .. => localResponseError
  | .openAI .. => openAIResponseError

/-- What is posted for a request, or what `create` is called with. -/
def ChatProvider.arguments [Printing] : ChatProvider σ → LocalRequest → Except Exn Mapping
  | .localEndpoint provider _ => provider.chatPayload
  | .openAI provider _ => provider.chatArguments

def ChatProvider.invoke [Printing] : ChatProvider σ → σ → LocalRequest → Except Exn Mapping
  | .localEndpoint provider client, now => provider.invoke (client now)
  | .openAI provider client, now => provider.invoke (client now)

-- ---------------------------------------------------------------------------
-- Requests of a loop
-- ---------------------------------------------------------------------------

def LocalRequest.toMapping (request : LocalRequest) : Mapping :=
  request.entries.map fun (key, value) => (.str key, value)

def loopRequest (history : List PyValue) (specs : List ToolSpec) (options : ToolLoopOptions) :
    LocalRequest :=
  let request := (Dict.empty.set (lit "messages") (.list history)).set (lit "tools")
    (.tuple (specs.map ToolSpec.toValue))
  let request := options.system.elim request fun system => request.set (lit "system") (.str system)
  options.maxTokens.elim request fun maxTokens => request.set (lit "max_tokens") (.int maxTokens)

def chatTools (specs : List ToolSpec) : Option (List Mapping) :=
  if specs.isEmpty then none
  else some (specs.map fun spec => [item "type" (.str (lit "function")),
    item "function" (.dict [item "name" (.str spec.name), item "description" (.str spec.description),
      item "parameters" (.dict spec.inputSchema)])])

def ChatProvider.sends (chat : ChatProvider σ) (specs : List ToolSpec) (options : ToolLoopOptions)
    (conversation : List Mapping) : Mapping :=
  let maxTokens := item "max_tokens" (.int (options.maxTokens.getD 1024))
  let messages := item "messages" (.list (conversation.map .dict))
  let tools := (chatTools specs).elim [] fun tools => [item "tools" (.list (tools.map .dict))]
  match chat with
  | .localEndpoint provider _ =>
    [item "model" (.str provider.model), messages, maxTokens, item "stream" (.bool false)] ++ tools
  | .openAI provider _ => [item "model" (.str provider.model), maxTokens, messages] ++ tools

def ToolLoopOptions.systemField (options : ToolLoopOptions) : PyValue :=
  options.system.elim .none .str

section
variable (history : List PyValue) (specs : List ToolSpec) (options : ToolLoopOptions)

theorem toMapping_loopRequest :
    (loopRequest history specs options).toMapping = providerPayload history specs options := by
  unfold loopRequest providerPayload
  cases options.system <;> cases options.maxTokens <;> rfl

theorem loopRequest_messages :
    (loopRequest history specs options).field "messages" = .list history := by
  unfold loopRequest
  cases options.system <;> cases options.maxTokens <;> rfl

theorem loopRequest_system :
    (loopRequest history specs options).field "system" = options.systemField := by
  unfold loopRequest ToolLoopOptions.systemField
  cases options.system <;> cases options.maxTokens <;> rfl

theorem loopRequest_tools : (loopRequest history specs options).field "tools" =
    .tuple (specs.map ToolSpec.toValue) := by
  unfold loopRequest
  cases options.system <;> cases options.maxTokens <;> rfl

theorem loopRequest_unknown : (loopRequest history specs options).unknown = [] := by
  unfold loopRequest
  cases options.system <;> cases options.maxTokens <;> rfl

variable {options}

theorem maxTokens_loopRequest (hpositive : 0 < options.maxTokens.getD 1024) :
    maxTokens (loopRequest history specs options) = some (options.maxTokens.getD 1024) := by
  have hfield : ((loopRequest history specs options).get? (lit "max_tokens")).getD (.int 1024) =
      .int (options.maxTokens.getD 1024) := by
    unfold loopRequest
    cases options.system <;> cases options.maxTokens <;> rfl
  rw [maxTokens, hfield]
  exact if_pos hpositive

end

theorem toolsToChat_loop (error : Str → Exn) (specs : List ToolSpec) :
    toolsToChat error (.tuple (specs.map ToolSpec.toValue)) = .ok (chatTools specs) := by
  have hdefinitions : (specs.map ToolSpec.toValue).mapM (toolToChat error) =
      .ok (specs.map fun spec => [item "type" (.str (lit "function")),
        item "function" (.dict [item "name" (.str spec.name),
          item "description" (.str spec.description),
          item "parameters" (.dict spec.inputSchema)])]) := by
    rw [mapM_eq_ok, List.map_map, List.map_map]
    rfl
  refine (congrArg (· >>= _) hdefinitions).trans ?_
  cases specs <;> rfl

theorem new_arguments {callId name : Str} {arguments : Mapping} {call : ToolCall}
    (h : ToolCall.new callId name arguments = .ok call) : call.arguments = arguments := by
  unfold ToolCall.new at h
  split at h
  · split at h
    · cases h
      rfl
    · cases h
  · cases h

section
variable [Printing]

theorem arguments_loopRequest (chat : ChatProvider σ) {history : List PyValue}
    (specs : List ToolSpec) {options : ToolLoopOptions} {conversation : List Mapping}
    (hconversation : messagesToChat chat.requestError (.list history) options.systemField =
      .ok conversation) (hpositive : 0 < options.maxTokens.getD 1024) :
    chat.arguments (loopRequest history specs options) =
      .ok (chat.sends specs options conversation) := by
  cases chat with
  | localEndpoint provider client =>
    have hknown : ¬ (loopRequest history specs options).unknown ≠ [] :=
      not_not.mpr (loopRequest_unknown history specs options)
    rw [ChatProvider.arguments, LocalProvider.chatPayload, if_neg hknown, loopRequest_messages,
      loopRequest_system, show messagesToChat localProviderError _ _ = _ from hconversation,
      loopRequest_tools, toolsToChat_loop, maxTokens_loopRequest history specs hpositive]
    rfl
  | openAI provider client =>
    rw [ChatProvider.arguments, OpenAIProvider.chatArguments, loopRequest_messages,
      loopRequest_system, show messagesToChat openAIProviderError _ _ = _ from hconversation,
      loopRequest_tools, toolsToChat_loop, maxTokens_loopRequest history specs hpositive]
    rfl

-- ---------------------------------------------------------------------------
-- Calls that were read
-- ---------------------------------------------------------------------------

/-- The arguments can be sent, and are read as they are. -/
def ToolCall.Settled (call : ToolCall) : Prop := (PyValue.dict call.arguments).Settled

theorem ToolCall.Settled.encodable {call : ToolCall} (h : call.Settled) :
    call.encodable = true := h.jsonable

section
variable (hprinting : Printing.Faithful) {error : Str → Exn}
include hprinting

theorem parseArguments_settled {callId text : Str} {arguments : Mapping}
    (h : parseArguments error callId text = .ok arguments) : (PyValue.dict arguments).Settled := by
  unfold parseArguments at h
  split at h
  · cases h
    exact ⟨rfl, rfl⟩
  · split at h
    · split at h <;> cases h
    · rename_i parsed hloads
      split at h
      · rename_i m hparsed
        cases h
        obtain rfl := PyValue.mapping?_eq_some.mp hparsed
        exact loads_settled hprinting hloads
      · cases h

theorem toolCallFromChat_settled {raw : PyValue} {call : ToolCall}
    (h : toolCallFromChat error raw = .ok call) : call.Settled := by
  obtain ⟨⟨callId, name, text⟩, -, h⟩ := bind_eq_ok.mp h
  obtain ⟨arguments, harguments, h⟩ := bind_eq_ok.mp h
  rw [ToolCall.Settled, new_arguments h]
  exact parseArguments_settled hprinting harguments

theorem toolCallFromSdk_settled {raw : SdkToolCall} {call : ToolCall}
    (h : toolCallFromSdk error raw = .ok call) : call.Settled := by
  obtain ⟨⟨callId, name, text⟩, -, h⟩ := bind_eq_ok.mp h
  obtain ⟨arguments, harguments, h⟩ := bind_eq_ok.mp h
  rw [ToolCall.Settled, new_arguments h]
  exact parseArguments_settled hprinting harguments

omit [Printing] hprinting in
theorem forall_of_mapM {α β : Type} {f : α → Except Exn β} {P : β → Prop}
    (hf : ∀ a b, f a = .ok b → P b) {xs : List α} {ys : List β} (h : xs.mapM f = .ok ys) :
    ∀ y ∈ ys, P y := by
  intro y hy
  have hmem : .ok y ∈ xs.map f := mapM_eq_ok.mp h ▸ List.mem_map_of_mem hy
  obtain ⟨x, -, hxy⟩ := List.mem_map.mp hmem
  exact hf x y hxy

theorem toolCallsFromChat_settled {rawCalls : PyValue} {calls : List ToolCall}
    (h : toolCallsFromChat error rawCalls = .ok calls) : ∀ call ∈ calls, call.Settled := by
  unfold toolCallsFromChat at h
  split at h
  · cases h
    nofun
  · split at h
    · cases h
    · exact forall_of_mapM (fun _ _ => toolCallFromChat_settled hprinting) h

theorem toolCallsFromSdk_settled {rawCalls : Option (List SdkToolCall)} {calls : List ToolCall}
    (h : toolCallsFromSdk error rawCalls = .ok calls) : ∀ call ∈ calls, call.Settled := by
  cases rawCalls with
  | none =>
    cases h
    nofun
  | some raws => exact forall_of_mapM (fun _ _ => toolCallFromSdk_settled hprinting) h

end

-- ---------------------------------------------------------------------------
-- Calls that are sent back
-- ---------------------------------------------------------------------------

theorem parseArguments_posted (error : Str → Exn) (callId : Str) {call : ToolCall}
    (h : call.Settled) : parseArguments error callId call.encoded = .ok call.arguments := by
  obtain ⟨text, hdumps, hloads⟩ := h.loads_dumps
  have hmapping : call.arguments.dumps .lenient = .ok text := hdumps
  simp [parseArguments, ToolCall.encoded, hmapping, blank_dumps hdumps, hloads, PyValue.mapping?]

theorem toolCallsFromChat_posted (error : Str → Exn) {calls : List ToolCall}
    (h : ∀ call ∈ calls, call.Settled) :
    toolCallsFromChat error (.list ((calls.map chatCall).map .dict)) = .ok calls := by
  rw [List.map_map]
  refine mapM_map_eq_ok fun call hcall => ?_
  refine (congrArg (· >>= _) (readCall_chatCall error call)).trans ?_
  refine (congrArg (· >>= _) (parseArguments_posted error call.id (h call hcall))).trans ?_
  exact call.new_self

-- ---------------------------------------------------------------------------
-- Responses that are accepted
-- ---------------------------------------------------------------------------

/-- What an accepted response says: a text or calls, and the calls can be sent
back. -/
structure Said (answer : Mapping) (text : Str) (calls : List ToolCall) : Prop where
  parse : parse answer = (text, calls)
  something : text ≠ [] ∨ calls ≠ []
  settled : ∀ call ∈ calls, call.Settled

omit [Printing] in
theorem parse_answer {answer : Mapping} {text : Str} {calls : List ToolCall}
    (htext : answer.get? "text" = some (.str text))
    (hcalls : answer.get? "tool_calls" = some (.tuple (calls.map ToolCall.toValue))) :
    parse answer = (text, calls) := by
  have hread : (calls.map ToolCall.toValue).filterMap toolCall? = calls := by
    rw [List.filterMap_map]
    exact List.filterMap_some
  simp [parse, htext, hcalls, PyValue.str?, PyValue.sequence?, hread]

variable (hprinting : Printing.Faithful)
include hprinting

theorem normalizeResponse_said {response : Response} {answer : Mapping}
    (h : normalizeResponse response = .ok answer) : ∃ text calls, Said answer text calls := by
  obtain ⟨payload, -, h⟩ := bind_eq_ok.mp h
  obtain ⟨choice, -, h⟩ := bind_eq_ok.mp h
  obtain ⟨message, -, h⟩ := bind_eq_ok.mp h
  obtain ⟨rawText, -, h⟩ := bind_eq_ok.mp h
  obtain ⟨calls, hcalls, h⟩ := bind_eq_ok.mp h
  split at h
  · cases h
  · rename_i hsome
    obtain ⟨model, -, h⟩ := bind_eq_ok.mp h
    obtain ⟨finishReason, -, h⟩ := bind_eq_ok.mp h
    obtain ⟨usage, -, h⟩ := bind_eq_ok.mp h
    obtain ⟨promptTokens, -, h⟩ := bind_eq_ok.mp h
    obtain ⟨completionTokens, -, h⟩ := bind_eq_ok.mp h
    cases h
    rw [List.isEmpty_iff, not_and_or] at hsome
    exact ⟨_, calls, parse_answer rfl rfl, hsome, toolCallsFromChat_settled hprinting hcalls⟩

theorem ChatCompletion.accept_said {completion : ChatCompletion} {answer : Mapping}
    (h : completion.accept = .ok answer) : ∃ text calls, Said answer text calls := by
  unfold ChatCompletion.accept at h
  split at h
  · cases h
  · obtain ⟨calls, hcalls, h⟩ := bind_eq_ok.mp h
    split at h
    · cases h
    · rename_i hsome
      cases h
      rw [List.isEmpty_iff, not_and_or] at hsome
      exact ⟨_, calls, parse_answer rfl rfl, hsome, toolCallsFromSdk_settled hprinting hcalls⟩

theorem ChatProvider.invoke_said {chat : ChatProvider σ} {now : σ} {request : LocalRequest}
    {answer : Mapping} (h : chat.invoke now request = .ok answer) : ∃ text calls, Said answer text calls := by
  cases chat with
  | localEndpoint provider client =>
    obtain ⟨payload, -, h⟩ := bind_eq_ok.mp h
    obtain ⟨response, -, h⟩ := bind_eq_ok.mp h
    unfold Response.accept at h
    split at h
    · cases h
    · split at h
      · exact normalizeResponse_said hprinting h
      · cases h
  | openAI provider client =>
    obtain ⟨payload, -, h⟩ := bind_eq_ok.mp h
    obtain ⟨completion, -, h⟩ := bind_eq_ok.mp h
    exact ChatCompletion.accept_said hprinting h

end

end

end MellivorKernel
