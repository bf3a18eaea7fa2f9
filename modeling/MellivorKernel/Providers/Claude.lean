import MellivorKernel.Providers.ChatCompletions

/-!
# Anthropic messages

`ClaudeProvider._messages_from`: the translation of a request's neutral
messages to the Anthropic format.
-/

namespace MellivorKernel

open Python Foundation

def claudeError (message : Str) : Exn := .raised .claudeProviderError message

section
variable [Printing]

def toAnthropicBlock (block : PyValue) : Except Exn Mapping :=
  match block.mapping? with
  | none => .error (claudeError (lit "each content block must be a mapping."))
  | some block =>
    let kind := (block.get? "type").getD .none
    if kind.eq (.str (lit "text")) then do
      let text ← textOf block "text"
      .ok [item "type" (.str (lit "text")), item "text" (.str text)]
    else if kind.eq (.str (lit "tool_use")) then do
      let id ← textOf block "id"
      let name ← textOf block "name"
      .ok [item "type" (.str (lit "tool_use")), item "id" (.str id), item "name" (.str name),
        item "input" (.dict (argumentsOf block))]
    else if kind.eq (.str (lit "tool_result")) then do
      let toolUseId ← textOf block "tool_call_id"
      let content ← textOf block "content"
      .ok ([item "type" (.str (lit "tool_result")), item "tool_use_id" (.str toolUseId),
        item "content" (.str content)] ++ if isError block then [item "is_error" (.bool true)] else [])
    else do
      let kind ← kind.repr
      .error (claudeError (lit "unsupported content block type: " ++ kind ++ lit "."))

def toAnthropicMessage (entry : PyValue) : Except Exn Mapping :=
  match entry.mapping? with
  | none => .error (claudeError (lit "each message must be a mapping with 'role' and 'content'."))
  | some entry =>
    let role := (entry.get? "role").getD .none
    if role.eq (.str (lit "user")) || role.eq (.str (lit "assistant")) then
      match entry.get? "content" with
      | some (.str content) =>
        if blank content then .error (claudeError (lit "message['content'] must not be blank."))
        else .ok [item "role" role, item "content" (.str content)]
      | content =>
        match content.bind PyValue.sequence? with
        | some (first :: more) => do
          let blocks ← (first :: more).mapM toAnthropicBlock
          .ok [item "role" role, item "content" (.list (blocks.map .dict))]
        | _ => .error (claudeError
            (lit "message['content'] must be a string or a non-empty block list."))
    else .error (claudeError (lit "message['role'] must be 'user' or 'assistant'."))

def claudeMessagesFrom (request : Mapping) : Except Exn (List Mapping) :=
  let prompt := (request.get? "prompt").getD .none
  match prompt, (request.get? "messages").getD .none with
  | .none, .none => .error (claudeError (lit "request['prompt'] must be a non-empty string."))
  | .str prompt, .none =>
    if blank prompt then .error (claudeError (lit "request['prompt'] must be a non-empty string."))
    else .ok [[item "role" (.str (lit "user")), item "content" (.str prompt)]]
  | _, .none => .error (claudeError (lit "request['prompt'] must be a non-empty string."))
  | .none, messages =>
    match messages.sequence? with
    | some (first :: more) => (first :: more).mapM toAnthropicMessage
    | _ => .error (claudeError (lit "request['messages'] must be a non-empty sequence."))
  | _, _ => .error (claudeError
      (lit "request must carry either 'prompt' or 'messages', not both."))

-- ---------------------------------------------------------------------------
-- The messages of a tool loop
-- ---------------------------------------------------------------------------

theorem toAnthropicMessage_blocks {role : Str} (hrole : role = lit "user" ∨ role = lit "assistant")
    {blocks : List Mapping} (hne : blocks ≠ [])
    (h : ∀ block ∈ blocks, Returns (toAnthropicBlock (.dict block))) :
    Returns (toAnthropicMessage
      (.dict [item "role" (.str role), item "content" (.tuple (blocks.map .dict))])) := by
  cases blocks with
  | nil => exact absurd rfl hne
  | cons first more =>
    have hblocks : Returns (((first :: more).map PyValue.dict).mapM toAnthropicBlock) :=
      returns_mapM.mpr (List.forall_mem_map.mpr h)
    rcases hrole with rfl | rfl <;> exact (returns_bind_of fun _ => returns_ok _).mpr hblocks

theorem toAnthropicMessage_assistant {text : Str} {calls : List ToolCall} :
    Returns (toAnthropicMessage (assistantMessage text calls)) ↔ text ≠ [] ∨ calls ≠ [] := by
  constructor
  · intro h
    by_contra hnone
    rw [not_or, not_not, not_not] at hnone
    obtain ⟨rfl, rfl⟩ := hnone
    exact not_returns_error _ h
  · intro hne
    refine toAnthropicMessage_blocks (.inr rfl) ?_ fun block hblock => ?_
    · rw [assistantBlocks, Ne, List.append_eq_nil_iff, List.map_eq_nil_iff]
      rcases hne with hne | hne <;> simp [hne]
    · rw [assistantBlocks, List.mem_append] at hblock
      rcases hblock with hblock | hblock
      · split at hblock
        · cases hblock
        · obtain rfl := List.mem_singleton.mp hblock
          exact returns_ok _
      · obtain ⟨call, -, rfl⟩ := List.mem_map.mp hblock
        exact returns_ok _

theorem toAnthropicMessage_toolResults {results : List ToolResultBlock} (hne : results ≠ []) :
    Returns (toAnthropicMessage (toolResults results)) := by
  refine toAnthropicMessage_blocks (.inl rfl) (by simpa using hne) fun block hblock => ?_
  obtain ⟨result, -, rfl⟩ := List.mem_map.mp hblock
  exact returns_ok _

theorem toAnthropicMessage_user {content : Str} (h : blank content = false) :
    Returns (toAnthropicMessage (userMessage content)) := by
  have heq : toAnthropicMessage (userMessage content) =
      if blank content then .error (claudeError (lit "message['content'] must not be blank."))
      else .ok [item "role" (.str (lit "user")), item "content" (.str content)] := rfl
  rw [heq, h]
  exact returns_ok _

theorem claudeMessagesFrom_returns {request : Mapping} {messages : List PyValue}
    (hprompt : request.get? "prompt" = none)
    (hmessages : request.get? "messages" = some (.list messages)) :
    Returns (claudeMessagesFrom request) ↔
      messages ≠ [] ∧ ∀ m ∈ messages, Returns (toAnthropicMessage m) := by
  rw [claudeMessagesFrom, hprompt, hmessages]
  cases messages with
  | nil => exact iff_of_false (not_returns_error _) fun h => h.1 rfl
  | cons first more => exact returns_mapM.trans (by simp)

end

end MellivorKernel
