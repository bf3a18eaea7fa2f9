import MellivorKernel.Providers.ToolCalling
import MellivorKernel.Python.Json

/-!
# Chat Completions messages

`messages_to_chat`: the translation of neutral messages to the Chat
Completions format, with what it makes of the messages a tool loop appends.
`error` builds the provider's own exception from a message.
-/

namespace MellivorKernel

open Python Foundation

/-- `str(block.get(key, ""))`. -/
def textOf [Printing] (block : Mapping) (key : String) : Except Exn Str :=
  match block.get? key with
  | some v => v.text
  | none => .ok []

/-- `dict(arguments) if isinstance(arguments, Mapping) else {}` for
`arguments = block.get("input", {})`. -/
def argumentsOf (block : Mapping) : Mapping := ((block.get? "input").bind PyValue.mapping?).getD []

/-- `block.get("is_error")` as a condition. -/
def isError (block : Mapping) : Bool := ((block.get? "is_error").getD .none).truthy

section
variable [Printing] (error : Str → Exn)

-- ---------------------------------------------------------------------------
-- Blocks
-- ---------------------------------------------------------------------------

structure ChatParts where
  texts : List Str
  toolCalls : List Mapping
  toolResults : List Mapping

def ChatParts.empty : ChatParts := ⟨[], [], []⟩

def chatToolCall (id name arguments : Str) : Mapping :=
  [item "id" (.str id), item "type" (.str (lit "function")),
    item "function" (.dict [item "name" (.str name), item "arguments" (.str arguments)])]

def chatToolResult (toolCallId text : Str) (isError : Bool) : Mapping :=
  [item "role" (.str (lit "tool")), item "tool_call_id" (.str toolCallId),
    item "content" (.str (if isError then lit "Error: " ++ text else text))]

def ChatParts.add (parts : ChatParts) (block : PyValue) : Except Exn ChatParts :=
  match block.mapping? with
  | none => .error (error (lit "Each content block must be a mapping."))
  | some block =>
    let kind := (block.get? "type").getD .none
    if kind.eq (.str (lit "text")) then do
      let text ← textOf block "text"
      .ok { parts with texts := parts.texts ++ [text] }
    else if kind.eq (.str (lit "tool_use")) then do
      let id ← textOf block "id"
      let name ← textOf block "name"
      let arguments ← (argumentsOf block).dumps .lenient
      .ok { parts with toolCalls := parts.toolCalls ++ [chatToolCall id name arguments] }
    else if kind.eq (.str (lit "tool_result")) then do
      let text ← textOf block "content"
      let toolCallId ← textOf block "tool_call_id"
      .ok { parts with
        toolResults := parts.toolResults ++ [chatToolResult toolCallId text (isError block)] }
    else do
      let kind ← kind.repr
      .error (error (lit "Unsupported content block type: " ++ kind ++ lit "."))

def ChatParts.finish (parts : ChatParts) (role : Str) : Except Exn (List Mapping) :=
  if parts.toolResults ≠ [] then
    if role ≠ lit "user" ∨ parts.texts ≠ [] ∨ parts.toolCalls ≠ [] then
      .error (error (lit "tool_result blocks must be alone in a user message."))
    else .ok parts.toolResults
  else if parts.toolCalls ≠ [] then
    if role ≠ lit "assistant" then
      .error (error (lit "tool_use blocks are only valid in an assistant message."))
    else
      let text := parts.texts.flatten
      .ok [[item "role" (.str role), item "content" (if text = [] then .none else .str text),
        item "tool_calls" (.list (parts.toolCalls.map .dict))]]
  else .ok [[item "role" (.str role), item "content" (.str parts.texts.flatten)]]

-- ---------------------------------------------------------------------------
-- Messages
-- ---------------------------------------------------------------------------

def allowedRoles : List Str := [lit "system", lit "user", lit "assistant"]

def messageToChat (entry : PyValue) : Except Exn (List Mapping) :=
  match entry.mapping? with
  | none => .error (error (lit "Each entry in request['messages'] must be a mapping."))
  | some entry =>
    match ((entry.get? "role").bind PyValue.str?).filter (· ∈ allowedRoles) with
    | none => .error (error (lit "Each message role must be one of: system, user, assistant."))
    | some role =>
      match entry.get? "content" with
      | some (.str content) => .ok [[item "role" (.str role), item "content" (.str content)]]
      | content =>
        match content.bind PyValue.sequence? with
        | some (first :: more) => do
          let parts ← (first :: more).foldlM (ChatParts.add error) ChatParts.empty
          parts.finish error role
        | _ => .error (error
            (lit "Each message must have string content or a non-empty block list."))

def messagesToChat (messages system : PyValue) : Except Exn (List Mapping) :=
  match messages.sequence? with
  | some (first :: more) =>
    match system with
    | .none => do
      let out ← (first :: more).mapM (messageToChat error)
      .ok out.flatten
    | .str system => do
      let out ← (first :: more).mapM (messageToChat error)
      .ok ([item "role" (.str (lit "system")), item "content" (.str system)] :: out.flatten)
    | _ => .error (error (lit "request['system'] must be a string, if provided."))
  | _ => .error (error (lit "request['messages'] must be a non-empty sequence."))

-- ---------------------------------------------------------------------------
-- The messages of a tool loop
-- ---------------------------------------------------------------------------

def ToolCall.encodable (call : ToolCall) : Bool := jsonablePairs .lenient call.arguments

def ToolCall.encoded (call : ToolCall) : Str :=
  match call.arguments.dumps .lenient with
  | .ok arguments => arguments
  | .error _ => []

def chatCall (call : ToolCall) : Mapping := chatToolCall call.id call.name call.encoded

def chatResult (result : ToolResultBlock) : Mapping :=
  chatToolResult result.toolCallId result.content result.isError

def chatAssistant (text : Str) (calls : List ToolCall) : Mapping :=
  if calls = [] then [item "role" (.str (lit "assistant")), item "content" (.str text)]
  else [item "role" (.str (lit "assistant")),
    item "content" (if text = [] then .none else .str text),
    item "tool_calls" (.list ((calls.map chatCall).map .dict))]

theorem add_toolUseBlock_eq (parts : ChatParts) (call : ToolCall) :
    parts.add error (.dict (toolUseBlock call)) = (do
      let arguments ← call.arguments.dumps .lenient
      .ok { parts with
        toolCalls := parts.toolCalls ++ [chatToolCall call.id call.name arguments] }) := rfl

theorem add_toolUseBlock (parts : ChatParts) {call : ToolCall} (h : call.encodable = true) :
    parts.add error (.dict (toolUseBlock call)) =
      .ok { parts with toolCalls := parts.toolCalls ++ [chatCall call] } := by
  obtain ⟨arguments, hdumps⟩ := Mapping.dumps_returns.mpr h
  rw [add_toolUseBlock_eq, chatCall, ToolCall.encoded, hdumps]
  rfl

theorem add_toolResultBlock (parts : ChatParts) (result : ToolResultBlock) :
    parts.add error (.dict (toolResultBlock result)) =
      .ok { parts with toolResults := parts.toolResults ++ [chatResult result] } :=
  rfl

theorem add_toolUseBlocks (parts : ChatParts) {calls : List ToolCall}
    (h : ∀ call ∈ calls, call.encodable = true) :
    ((calls.map toolUseBlock).map PyValue.dict).foldlM (ChatParts.add error) parts =
      .ok { parts with toolCalls := parts.toolCalls ++ calls.map chatCall } := by
  induction calls generalizing parts with
  | nil => simp [pure, Except.pure]
  | cons call rest ih =>
    obtain ⟨hcall, hrest⟩ := List.forall_mem_cons.mp h
    rw [List.map_cons, List.map_cons, List.foldlM_cons, add_toolUseBlock error parts hcall]
    refine (ih _ hrest).trans ?_
    simp

theorem encodable_of_add_toolUseBlocks (parts : ChatParts) {calls : List ToolCall}
    (h : Returns (((calls.map toolUseBlock).map PyValue.dict).foldlM (ChatParts.add error) parts)) :
    ∀ call ∈ calls, call.encodable = true := by
  induction calls generalizing parts with
  | nil => nofun
  | cons call rest ih =>
    rw [List.map_cons, List.map_cons, List.foldlM_cons, add_toolUseBlock_eq, bind_assoc] at h
    obtain ⟨arguments, hdumps, h⟩ := returns_bind.mp h
    exact List.forall_mem_cons.mpr ⟨Mapping.dumps_returns.mp ⟨arguments, hdumps⟩, ih _ h⟩

theorem add_toolResultBlocks (parts : ChatParts) (results : List ToolResultBlock) :
    ((results.map toolResultBlock).map PyValue.dict).foldlM (ChatParts.add error) parts =
      .ok { parts with
        toolResults := parts.toolResults ++ results.map chatResult } := by
  induction results generalizing parts with
  | nil => simp [pure, Except.pure]
  | cons result rest ih =>
    rw [List.map_cons, List.map_cons, List.foldlM_cons, add_toolResultBlock]
    refine (ih _).trans ?_
    simp

theorem add_assistantBlocks (text : Str) {calls : List ToolCall}
    (h : ∀ call ∈ calls, call.encodable = true) :
    ((assistantBlocks text calls).map PyValue.dict).foldlM (ChatParts.add error) ChatParts.empty =
      .ok ⟨if text = [] then [] else [text], calls.map chatCall, []⟩ := by
  rw [assistantBlocks, List.map_append, List.foldlM_append]
  split
  · exact add_toolUseBlocks error ChatParts.empty h
  · exact add_toolUseBlocks error ⟨[text], [], []⟩ h

theorem messageToChat_blocks {role : Str} (hrole : role ∈ allowedRoles) (first : Mapping)
    (more : List Mapping) :
    messageToChat error (.dict [item "role" (.str role),
      item "content" (.tuple ((first :: more).map .dict))]) = (do
        let parts ← ((first :: more).map PyValue.dict).foldlM (ChatParts.add error) ChatParts.empty
        parts.finish error role) := by
  have hget : ((Mapping.get? [item "role" (.str role),
      item "content" (.tuple ((first :: more).map .dict))] "role").bind PyValue.str?).filter
        (· ∈ allowedRoles) = some role := by
    simp [PyValue.str?, hrole]
  simp only [messageToChat, PyValue.mapping?, hget]
  rfl

theorem messageToChat_assistant_nothing :
    ¬ Returns (messageToChat error (assistantMessage [] [])) := not_returns_error _

theorem messageToChat_assistant_eq {text : Str} {calls : List ToolCall}
    (hne : text ≠ [] ∨ calls ≠ []) :
    messageToChat error (assistantMessage text calls) = (do
      let parts ← ((assistantBlocks text calls).map PyValue.dict).foldlM (ChatParts.add error)
        ChatParts.empty
      parts.finish error (lit "assistant")) := by
  have hrole : lit "assistant" ∈ allowedRoles := by simp [allowedRoles]
  cases hblocks : assistantBlocks text calls with
  | nil =>
    rw [assistantBlocks, List.append_eq_nil_iff, List.map_eq_nil_iff] at hblocks
    simp_all
  | cons first more =>
    rw [assistantMessage, hblocks]
    exact messageToChat_blocks error hrole first more

theorem messageToChat_assistant {text : Str} {calls : List ToolCall}
    (hne : text ≠ [] ∨ calls ≠ []) (h : ∀ call ∈ calls, call.encodable = true) :
    messageToChat error (assistantMessage text calls) = .ok [chatAssistant text calls] := by
  rw [messageToChat_assistant_eq error hne, add_assistantBlocks error text h]
  by_cases hcalls : calls = [] <;> by_cases htext : text = [] <;>
    simp_all [ChatParts.finish, chatAssistant, bind, Except.bind]

theorem messageToChat_assistant_returns {text : Str} {calls : List ToolCall} :
    Returns (messageToChat error (assistantMessage text calls)) ↔
      (text ≠ [] ∨ calls ≠ []) ∧ ∀ call ∈ calls, call.encodable = true := by
  constructor
  · intro h
    have hne : text ≠ [] ∨ calls ≠ [] := by
      by_contra hnone
      rw [not_or, not_not, not_not] at hnone
      obtain ⟨rfl, rfl⟩ := hnone
      exact messageToChat_assistant_nothing error h
    refine ⟨hne, ?_⟩
    rw [messageToChat_assistant_eq error hne, assistantBlocks, List.map_append,
      List.foldlM_append, bind_assoc] at h
    obtain ⟨parts, -, h⟩ := returns_bind.mp h
    obtain ⟨parts', hparts, -⟩ := returns_bind.mp h
    exact encodable_of_add_toolUseBlocks error parts ⟨parts', hparts⟩
  · rintro ⟨hne, h⟩
    exact ⟨_, messageToChat_assistant error hne h⟩

theorem messageToChat_toolResults {results : List ToolResultBlock} (hne : results ≠ []) :
    messageToChat error (toolResults results) =
      .ok (results.map chatResult) := by
  have hrole : lit "user" ∈ allowedRoles := by simp [allowedRoles]
  have hfold := add_toolResultBlocks error ChatParts.empty results
  cases results with
  | nil => exact absurd rfl hne
  | cons first more =>
    refine (messageToChat_blocks error hrole _ _).trans ?_
    rw [← List.map_cons, hfold]
    simp [ChatParts.finish, ChatParts.empty, bind, Except.bind]

theorem messageToChat_user (content : Str) : Returns (messageToChat error (userMessage content)) :=
  ⟨_, rfl⟩

def systemMessages : PyValue → Option (List Mapping)
  | .none => some []
  | .str system => some [[item "role" (.str (lit "system")), item "content" (.str system)]]
  | _ => none

theorem messagesToChat_eq_ok {messages : List PyValue} {system : PyValue} {out : List Mapping} :
    messagesToChat error (.list messages) system = .ok out ↔
      messages ≠ [] ∧ ∃ opening outs, systemMessages system = some opening ∧
        messages.mapM (messageToChat error) = .ok outs ∧ out = opening ++ outs.flatten := by
  cases messages with
  | nil => exact iff_of_false nofun fun h => h.1 rfl
  | cons first more =>
    simp only [messagesToChat, PyValue.sequence?]
    cases hout : (first :: more).mapM (messageToChat error) <;>
      cases system <;> simp [systemMessages, bind, Except.bind, eq_comm]

/-- What is accepted stays accepted when acceptable messages are appended. -/
theorem messagesToChat_append {messages more : List PyValue} {system : PyValue}
    {out : List Mapping} {outs : List (List Mapping)}
    (h : messagesToChat error (.list messages) system = .ok out)
    (hmore : more.mapM (messageToChat error) = .ok outs) :
    messagesToChat error (.list (messages ++ more)) system = .ok (out ++ outs.flatten) := by
  obtain ⟨hne, opening, before, hsystem, hbefore, rfl⟩ := (messagesToChat_eq_ok error).mp h
  refine (messagesToChat_eq_ok error).mpr ⟨by simp [hne], opening, before ++ outs, hsystem, ?_, ?_⟩
  · rw [List.mapM_append, hbefore, hmore]
    rfl
  · rw [List.flatten_append, List.append_assoc]

theorem messagesToChat_mem {messages : List PyValue} {system : PyValue}
    (h : Returns (messagesToChat error (.list messages) system)) :
    ∀ m ∈ messages, Returns (messageToChat error m) := by
  obtain ⟨out, hout⟩ := h
  obtain ⟨-, opening, outs, -, houts, -⟩ := (messagesToChat_eq_ok error).mp hout
  exact returns_mapM.mp ⟨outs, houts⟩

end

end MellivorKernel
