import MellivorKernel.Providers.ChatCompletions

/-!
# The grammar of chat messages

Which values `messages_to_chat` accepts, and what it makes of them. The
grammar and the translation read the kinds of the blocks only; what stands in
the way is a value that is reached and cannot be printed.
-/

namespace MellivorKernel

open Python Foundation

-- ---------------------------------------------------------------------------
-- Grammar
-- ---------------------------------------------------------------------------

inductive BlockKind
  | text
  | toolUse
  | toolResult
  deriving DecidableEq

def kindOf (type : PyValue) : Option BlockKind :=
  if type.eq (.str (lit "text")) then some .text
  else if type.eq (.str (lit "tool_use")) then some .toolUse
  else if type.eq (.str (lit "tool_result")) then some .toolResult
  else none

def kind? (block : PyValue) : Option BlockKind :=
  block.mapping?.bind fun block => kindOf ((block.get? "type").getD .none)

/-- Tool results stand alone in a user message, tool uses in an assistant
message. -/
def Arranged (role : Str) (kinds : List BlockKind) : Prop :=
  (.toolResult ∈ kinds → role = lit "user" ∧ ∀ kind ∈ kinds, kind = .toolResult) ∧
    (.toolUse ∈ kinds → role = lit "assistant")

instance (role : Str) (kinds : List BlockKind) : Decidable (Arranged role kinds) :=
  inferInstanceAs (Decidable (_ ∧ _))

theorem arranged_of_toolResult {role : Str} {kinds : List BlockKind} (h : .toolResult ∈ kinds) :
    Arranged role kinds ↔ role = lit "user" ∧ .text ∉ kinds ∧ .toolUse ∉ kinds := by
  have hall : (∀ kind ∈ kinds, kind = .toolResult) ↔ .text ∉ kinds ∧ .toolUse ∉ kinds := by
    constructor
    · intro hall
      exact ⟨fun ht => (nomatch hall _ ht), fun hu => (nomatch hall _ hu)⟩
    · rintro ⟨ht, hu⟩ kind hkind
      cases kind with
      | text => exact absurd hkind ht
      | toolUse => exact absurd hkind hu
      | toolResult => rfl
  simp only [Arranged, h, forall_const, hall]
  exact and_iff_left_of_imp fun harr hu => absurd hu harr.2.2

theorem arranged_of_toolUse {role : Str} {kinds : List BlockKind} (h : .toolResult ∉ kinds)
    (hu : .toolUse ∈ kinds) : Arranged role kinds ↔ role = lit "assistant" := by
  simp [Arranged, h, hu]

theorem arranged_of_texts {role : Str} {kinds : List BlockKind} (h : .toolResult ∉ kinds)
    (hu : .toolUse ∉ kinds) : Arranged role kinds := by
  simp [Arranged, h, hu]

/-- A string, or a sequence of blocks that is not empty. -/
def ContentForm (role : Str) (content : PyValue) : Prop :=
  (∃ text, content = .str text) ∨
    ∃ blocks kinds, content.sequence? = some blocks ∧ blocks ≠ [] ∧
      blocks.mapM kind? = some kinds ∧ Arranged role kinds

def MessageForm (entry : PyValue) : Prop :=
  ∃ (message : Mapping) (role : Str) (content : PyValue),
    entry = .dict message ∧ message.get? "role" = some (.str role) ∧ role ∈ allowedRoles ∧
      message.get? "content" = some content ∧ ContentForm role content

/-- The messages and the system prompt that have a translation. -/
def MessagesForm (messages system : PyValue) : Prop :=
  ∃ entries, messages.sequence? = some entries ∧ entries ≠ [] ∧
    (∀ entry ∈ entries, MessageForm entry) ∧ (system = .none ∨ ∃ text, system = .str text)

-- ---------------------------------------------------------------------------
-- Blocks
-- ---------------------------------------------------------------------------

inductive ChatBlock
  | text (content : Str)
  | toolUse (id name arguments : Str)
  | toolResult (toolCallId content : Str) (isError : Bool)

def ChatBlock.kind : ChatBlock → BlockKind
  | .text .. => .text
  | .toolUse .. => .toolUse
  | .toolResult .. => .toolResult

def ChatBlock.text? : ChatBlock → Option Str
  | .text content => some content
  | _ => none

def ChatBlock.toolCall? : ChatBlock → Option Mapping
  | .toolUse id name arguments => some (chatToolCall id name arguments)
  | _ => none

def ChatBlock.toolResult? : ChatBlock → Option Mapping
  | .toolResult toolCallId content isError => some (chatToolResult toolCallId content isError)
  | _ => none

def chatBlocks (role : Str) (blocks : List ChatBlock) : List Mapping :=
  let text := (blocks.filterMap ChatBlock.text?).flatten
  let toolCalls := blocks.filterMap ChatBlock.toolCall?
  if .toolResult ∈ blocks.map ChatBlock.kind then blocks.filterMap ChatBlock.toolResult?
  else if .toolUse ∈ blocks.map ChatBlock.kind then
    [[item "role" (.str role), item "content" (if text = [] then .none else .str text),
      item "tool_calls" (.list (toolCalls.map .dict))]]
  else [[item "role" (.str role), item "content" (.str text)]]

def ChatParts.put (parts : ChatParts) (block : ChatBlock) : ChatParts where
  texts := parts.texts ++ block.text?.toList
  toolCalls := parts.toolCalls ++ block.toolCall?.toList
  toolResults := parts.toolResults ++ block.toolResult?.toList

@[simp] theorem put_text (parts : ChatParts) (content : Str) :
    parts.put (.text content) = { parts with texts := parts.texts ++ [content] } := by
  simp [ChatParts.put, ChatBlock.text?, ChatBlock.toolCall?, ChatBlock.toolResult?]

@[simp] theorem put_toolUse (parts : ChatParts) (id name arguments : Str) :
    parts.put (.toolUse id name arguments) =
      { parts with toolCalls := parts.toolCalls ++ [chatToolCall id name arguments] } := by
  simp [ChatParts.put, ChatBlock.text?, ChatBlock.toolCall?, ChatBlock.toolResult?]

@[simp] theorem put_toolResult (parts : ChatParts) (toolCallId content : Str) (isError : Bool) :
    parts.put (.toolResult toolCallId content isError) = { parts with
      toolResults := parts.toolResults ++ [chatToolResult toolCallId content isError] } := by
  simp [ChatParts.put, ChatBlock.text?, ChatBlock.toolCall?, ChatBlock.toolResult?]

theorem foldl_put (parts : ChatParts) (blocks : List ChatBlock) :
    blocks.foldl ChatParts.put parts =
      ⟨parts.texts ++ blocks.filterMap ChatBlock.text?,
        parts.toolCalls ++ blocks.filterMap ChatBlock.toolCall?,
        parts.toolResults ++ blocks.filterMap ChatBlock.toolResult?⟩ := by
  induction blocks generalizing parts with
  | nil => simp
  | cons block rest ih =>
    rw [List.foldl_cons, ih]
    cases block <;>
      simp [List.filterMap_cons, ChatBlock.text?, ChatBlock.toolCall?, ChatBlock.toolResult?]

theorem filterMap_eq_nil_iff_kind {read : ChatBlock → Option α} {kind : BlockKind}
    (h : ∀ block, read block = none ↔ block.kind ≠ kind) {blocks : List ChatBlock} :
    blocks.filterMap read = [] ↔ kind ∉ blocks.map ChatBlock.kind := by
  simp [List.filterMap_eq_nil_iff, h]

@[simp] theorem texts_eq_nil {blocks : List ChatBlock} :
    blocks.filterMap ChatBlock.text? = [] ↔ .text ∉ blocks.map ChatBlock.kind :=
  filterMap_eq_nil_iff_kind fun block => by cases block <;> simp [ChatBlock.text?, ChatBlock.kind]

@[simp] theorem toolCalls_eq_nil {blocks : List ChatBlock} :
    blocks.filterMap ChatBlock.toolCall? = [] ↔ .toolUse ∉ blocks.map ChatBlock.kind :=
  filterMap_eq_nil_iff_kind fun block => by
    cases block <;> simp [ChatBlock.toolCall?, ChatBlock.kind]

@[simp] theorem toolResults_eq_nil {blocks : List ChatBlock} :
    blocks.filterMap ChatBlock.toolResult? = [] ↔ .toolResult ∉ blocks.map ChatBlock.kind :=
  filterMap_eq_nil_iff_kind fun block => by
    cases block <;> simp [ChatBlock.toolResult?, ChatBlock.kind]

def Built (error : Str → Exn) (exc : Exn) : Prop := ∃ message, exc = error message

theorem built (error : Str → Exn) (message : Str) : Built error (error message) := ⟨message, rfl⟩

/-- The end of the translation decides whether the blocks are arranged. -/
theorem finish_yields (error : Str → Exn) (role : Str) (blocks : List ChatBlock) :
    Yields (Built error) ((blocks.foldl ChatParts.put ChatParts.empty).finish error role)
      (if Arranged role (blocks.map ChatBlock.kind) then some (chatBlocks role blocks)
        else none) := by
  rw [foldl_put]
  simp only [ChatParts.finish, ChatParts.empty, List.nil_append, ne_eq, texts_eq_nil,
    toolCalls_eq_nil, toolResults_eq_nil, not_not, chatBlocks]
  by_cases hr : .toolResult ∈ blocks.map ChatBlock.kind
  · rw [if_pos hr, if_pos hr]
    simp only [arranged_of_toolResult hr]
    split
    · rename_i h
      rw [if_neg (by tauto)]
      exact .raised (built error _)
    · rename_i h
      rw [if_pos (by tauto)]
      exact .returned _
  · rw [if_neg hr, if_neg hr]
    by_cases hu : .toolUse ∈ blocks.map ChatBlock.kind
    · rw [if_pos hu, if_pos hu]
      simp only [arranged_of_toolUse hr hu]
      by_cases h : role = lit "assistant"
      · rw [if_neg (not_not.mpr h), if_pos h]
        exact .returned _
      · rw [if_pos h, if_neg h]
        exact .raised (built error _)
    · rw [if_neg hu, if_neg hu, if_pos (arranged_of_texts hr hu)]
      exact .returned _

-- ---------------------------------------------------------------------------
-- Translation
-- ---------------------------------------------------------------------------

def printed (text : Except Exn Str) : Str :=
  match text with
  | .ok text => text
  | .error _ => []

def contentBlocks (entry : PyValue) : List PyValue :=
  match entry.mapping? with
  | none => []
  | some entry =>
    match ((entry.get? "role").bind PyValue.str?).filter (· ∈ allowedRoles) with
    | none => []
    | some _ => ((entry.get? "content").bind PyValue.sequence?).getD []

/-- The exception of the first part that cannot be printed. -/
def firstRaised : List (Except Exn Str) → Option Exn
  | [] => none
  | .ok _ :: rest => firstRaised rest
  | .error exc :: _ => some exc

section
variable [Printing]

def chatBlock (block : Mapping) : BlockKind → ChatBlock
  | .text => .text (printed (textOf block "text"))
  | .toolUse => .toolUse (printed (textOf block "id")) (printed (textOf block "name"))
      (printed ((argumentsOf block).dumps .lenient))
  | .toolResult => .toolResult (printed (textOf block "tool_call_id"))
      (printed (textOf block "content")) (isError block)

def chatBlock? (block : PyValue) : Option ChatBlock :=
  (kind? block).map (chatBlock (block.mapping?.getD []))

/-- What a message of this role and content becomes, if it has the form. -/
def contentToChat? (role : Str) (content : PyValue) : Option (List Mapping) :=
  match content with
  | .str content => some [[item "role" (.str role), item "content" (.str content)]]
  | content =>
    match content.sequence? with
    | some (first :: more) => do
      let blocks ← (first :: more).mapM chatBlock?
      if Arranged role (blocks.map ChatBlock.kind) then some (chatBlocks role blocks) else none
    | _ => none

def messageToChat? (entry : PyValue) : Option (List Mapping) :=
  entry.mapping?.bind fun entry =>
    (((entry.get? "role").bind PyValue.str?).filter (· ∈ allowedRoles)).bind fun role =>
      (entry.get? "content").bind (contentToChat? role)

/-- The system message, where a prompt is given, and then what the messages
become, in order. -/
def messagesToChat? (messages system : PyValue) : Option (List Mapping) :=
  match messages.sequence? with
  | some (first :: more) => do
    let opening ← systemMessages system
    let out ← (first :: more).mapM messageToChat?
    some (opening ++ out.flatten)
  | _ => none

-- ---------------------------------------------------------------------------
-- What cannot be printed
-- ---------------------------------------------------------------------------

/-- What `str`, `repr` and `json.dumps` make of the parts of a block, in the
order in which they are printed. -/
def printsOf (block : Mapping) : List (Except Exn Str) :=
  let type := (block.get? "type").getD .none
  match kindOf type with
  | some .text => [textOf block "text"]
  | some .toolUse => [textOf block "id", textOf block "name", (argumentsOf block).dumps .lenient]
  | some .toolResult => [textOf block "content", textOf block "tool_call_id"]
  | none => [type.repr]

def blockEscape (block : PyValue) : Option Exn :=
  block.mapping?.bind fun block => firstRaised (printsOf block)

def messageEscape (entry : PyValue) : Option Exn :=
  firstEscape blockEscape chatBlock? (contentBlocks entry)

/-- What printing a value raises, of those that are reached: all before the
first that does not have its form. -/
def messagesEscape (messages system : PyValue) : Option Exn :=
  if (systemMessages system).isSome then
    firstEscape messageEscape messageToChat? (messages.sequence?.getD [])
  else none

-- ---------------------------------------------------------------------------
-- Adding blocks
-- ---------------------------------------------------------------------------

section
variable (error : Str → Exn)

theorem add_dict (parts : ChatParts) (block : Mapping) :
    parts.add error (.dict block) =
      (match kindOf ((block.get? "type").getD .none) with
      | some .text => do
        let text ← textOf block "text"
        .ok { parts with texts := parts.texts ++ [text] }
      | some .toolUse => do
        let id ← textOf block "id"
        let name ← textOf block "name"
        let arguments ← (argumentsOf block).dumps .lenient
        .ok { parts with toolCalls := parts.toolCalls ++ [chatToolCall id name arguments] }
      | some .toolResult => do
        let text ← textOf block "content"
        let toolCallId ← textOf block "tool_call_id"
        .ok { parts with
          toolResults := parts.toolResults ++ [chatToolResult toolCallId text (isError block)] }
      | none => do
        let kind ← ((block.get? "type").getD .none).repr
        .error (error (lit "Unsupported content block type: " ++ kind ++ lit "."))) := by
  simp only [ChatParts.add, PyValue.mapping?, kindOf]
  split
  · rfl
  · split
    · rfl
    · split <;> rfl

theorem add_yields (parts : ChatParts) (block : PyValue) :
    YieldsUnless (Built error) (blockEscape block) (parts.add error block)
      ((chatBlock? block).map parts.put) := by
  cases hm : block.mapping? with
  | none =>
    simp only [blockEscape, ChatParts.add, chatBlock?, kind?, hm]
    exact Yields.raised (built error _)
  | some m =>
    obtain rfl := PyValue.mapping?_eq_some.mp hm
    simp only [add_dict, blockEscape, chatBlock?, kind?, PyValue.mapping?, Option.bind_some,
      printsOf, Option.getD_some]
    cases kindOf ((m.get? "type").getD .none) with
    | none =>
      cases ((m.get? "type").getD .none).repr with
      | error exc => rfl
      | ok text => exact Yields.raised (built error _)
    | some kind =>
      cases kind with
      | text =>
        simp only [Option.map_some, chatBlock, put_text]
        cases textOf m "text" with
        | error exc => rfl
        | ok text => exact Yields.returned _
      | toolUse =>
        simp only [Option.map_some, chatBlock, put_toolUse]
        cases textOf m "id" with
        | error exc => rfl
        | ok id =>
          cases textOf m "name" with
          | error exc => rfl
          | ok name =>
            cases (argumentsOf m).dumps .lenient with
            | error exc => rfl
            | ok arguments => exact Yields.returned _
      | toolResult =>
        simp only [Option.map_some, chatBlock, put_toolResult]
        cases textOf m "content" with
        | error exc => rfl
        | ok content =>
          cases textOf m "tool_call_id" with
          | error exc => rfl
          | ok toolCallId => exact Yields.returned _

-- ---------------------------------------------------------------------------
-- Messages
-- ---------------------------------------------------------------------------

theorem blocks_yields (role : Str) (blocks : List PyValue) :
    YieldsUnless (Built error) (firstEscape blockEscape chatBlock? blocks)
      (do
        let parts ← blocks.foldlM (ChatParts.add error) ChatParts.empty
        parts.finish error role)
      (do
        let blocks ← blocks.mapM chatBlock?
        if Arranged role (blocks.map ChatBlock.kind) then some (chatBlocks role blocks)
        else none) :=
  (YieldsUnless.foldlM (add_yields error) blocks ChatParts.empty).bind_map (finish_yields error role)

theorem messageToChat_yields (entry : PyValue) :
    YieldsUnless (Built error) (messageEscape entry) (messageToChat error entry)
      (messageToChat? entry) := by
  unfold messageEscape messageToChat messageToChat? contentBlocks
  cases entry.mapping? with
  | none => exact Yields.raised (built error _)
  | some entry =>
    simp only [Option.bind_some]
    cases ((entry.get? "role").bind PyValue.str?).filter (· ∈ allowedRoles) with
    | none => exact Yields.raised (built error _)
    | some role =>
      simp only [Option.bind_some]
      cases entry.get? "content" with
      | none => exact Yields.raised (built error _)
      | some content =>
        simp only [Option.bind_some, contentToChat?]
        cases content with
        | str content => exact Yields.returned _
        | list blocks | tuple blocks =>
          cases blocks with
          | nil => exact Yields.raised (built error _)
          | cons first more => exact blocks_yields error role (first :: more)
        | _ => exact Yields.raised (built error _)

theorem messagesToChat_yields (messages system : PyValue) :
    YieldsUnless (Built error) (messagesEscape messages system)
      (messagesToChat error messages system) (messagesToChat? messages system) := by
  unfold messagesEscape messagesToChat messagesToChat?
  cases messages.sequence? with
  | none =>
    rw [Option.getD_none, firstEscape, ite_self]
    exact Yields.raised (built error _)
  | some entries =>
    cases entries with
    | nil =>
      rw [Option.getD_some, firstEscape, ite_self]
      exact Yields.raised (built error _)
    | cons first more =>
      have hmore := YieldsUnless.mapM (messageToChat_yields error) (first :: more)
      rw [← Option.map_id_apply (x := (first :: more).mapM messageToChat?)] at hmore
      cases system with
      | none => exact hmore.bind_map fun out => .returned _
      | str system => exact hmore.bind_map fun out => .returned _
      | _ => exact Yields.raised (built error _)

end

-- ---------------------------------------------------------------------------
-- What is translated is what has the form
-- ---------------------------------------------------------------------------

theorem kind?_eq (block : PyValue) : kind? block = (chatBlock? block).map ChatBlock.kind := by
  unfold chatBlock?
  cases kind? block with
  | none => rfl
  | some kind => cases kind <;> rfl

theorem mapM_kind? (blocks : List PyValue) :
    blocks.mapM kind? = (blocks.mapM chatBlock?).map (List.map ChatBlock.kind) := by
  induction blocks with
  | nil => rfl
  | cons block rest ih =>
    rw [List.mapM_cons, List.mapM_cons, ih, kind?_eq]
    cases chatBlock? block <;> cases rest.mapM chatBlock? <;> rfl

theorem contentToChat?_isSome {role : Str} {content : PyValue} :
    (contentToChat? role content).isSome = true ↔ ContentForm role content := by
  have hseq (first : PyValue) (more : List PyValue) :
      (do
        let blocks ← (first :: more).mapM chatBlock?
        if Arranged role (blocks.map ChatBlock.kind) then some (chatBlocks role blocks)
        else none).isSome = true ↔
      ∃ kinds, (first :: more).mapM kind? = some kinds ∧ Arranged role kinds := by
    rw [mapM_kind?]
    cases (first :: more).mapM chatBlock? with
    | none => simp
    | some blocks => simp [apply_ite Option.isSome]
  unfold ContentForm
  cases content with
  | str content => simp [contentToChat?]
  | list blocks | tuple blocks =>
    cases blocks with
    | nil => simp [contentToChat?, PyValue.sequence?]
    | cons first more =>
      refine (hseq first more).trans ?_
      simp [PyValue.sequence?]
  | _ => simp [contentToChat?, PyValue.sequence?]

theorem messageToChat?_isSome {entry : PyValue} :
    (messageToChat? entry).isSome = true ↔ MessageForm entry := by
  simp only [messageToChat?, Option.isSome_bind, Option.any_eq_true, Option.filter_eq_some_iff,
    contentToChat?_isSome, PyValue.mapping?_eq_some, MessageForm, Option.bind_eq_some_iff,
    PyValue.str?_eq_some, decide_eq_true_eq]
  constructor
  · rintro ⟨message, rfl, role, ⟨⟨_, hget, rfl⟩, hrole⟩, content, hcontent, hform⟩
    exact ⟨message, role, content, rfl, hget, hrole, hcontent, hform⟩
  · rintro ⟨message, role, content, rfl, hget, hrole, hcontent, hform⟩
    exact ⟨message, rfl, role, ⟨⟨_, hget, rfl⟩, hrole⟩, content, hcontent, hform⟩

theorem messagesToChat?_isSome {messages system : PyValue} :
    (messagesToChat? messages system).isSome = true ↔ MessagesForm messages system := by
  have hsystem : (systemMessages system).isSome = true ↔
      system = .none ∨ ∃ text, system = .str text := by
    cases system <;> simp [systemMessages]
  have hseq (first : PyValue) (more : List PyValue) :
      (do
        let opening ← systemMessages system
        let out ← (first :: more).mapM messageToChat?
        some (opening ++ out.flatten)).isSome = true ↔
      (∀ entry ∈ first :: more, MessageForm entry) ∧
        (system = .none ∨ ∃ text, system = .str text) := by
    simp only [← messageToChat?_isSome, ← hsystem, ← mapM_isSome]
    cases systemMessages system <;> cases (first :: more).mapM messageToChat? <;> simp
  unfold MessagesForm messagesToChat?
  cases messages.sequence? with
  | none => simp
  | some entries =>
    cases entries with
    | nil => simp
    | cons first more =>
      refine (hseq first more).trans ?_
      simp

-- ---------------------------------------------------------------------------
-- The law of the translation
-- ---------------------------------------------------------------------------

/-- The translation accepts what has the form and nothing else, raises only
what the error factory builds, and returns the messages in order with all
their parts. -/
structure ChatLaw (error : Str → Exn) (messages system : PyValue) : Prop where
  returns_iff : Returns (messagesToChat error messages system) ↔ MessagesForm messages system
  raises : RaisesOnly (Built error) (messagesToChat error messages system)
  output : ∀ out, messagesToChat error messages system = .ok out →
    messagesToChat? messages system = some out

/-- Exactly where printing a value that is reached does not raise, or raises
what the error factory builds for messages that are malformed anyway. -/
theorem messagesToChat_lawful_iff (error : Str → Exn) (messages system : PyValue) :
    ChatLaw error messages system ↔ ∀ exc, messagesEscape messages system = some exc →
      Built error exc ∧ ¬ MessagesForm messages system := by
  have hyields := messagesToChat_yields error messages system
  constructor
  · intro law exc hescape
    refine ⟨(hyields.raisesOnly_iff fun _ => id).mp law.raises exc hescape, fun hform => ?_⟩
    have hnone := (hyields.returns_iff.mp (law.returns_iff.mpr hform)).1
    rw [hescape] at hnone
    cases hnone
  · intro h
    refine ⟨?_, (hyields.raisesOnly_iff fun _ => id).mpr fun exc he => (h exc he).1,
      fun out hout => ?_⟩
    · rw [hyields.returns_iff, messagesToChat?_isSome, and_iff_right_iff_imp]
      intro hform
      exact Option.eq_none_iff_forall_ne_some.mpr fun exc hescape => (h exc hescape).2 hform
    · rw [hout] at hyields
      exact hyields.of_ok.2

def numberMessage (n : Int) : PyValue :=
  .dict [item "role" (.str (lit "user")), item "content" (.list [.dict
    [item "type" (.str (lit "text")), item "text" (.int n)]])]

theorem numberMessage_raises (error : Str → Exn) {n : Int} {exc : Exn}
    (h : intText n = .error exc) :
    messagesToChat error (.list [numberMessage n]) .none = .error exc := by
  have hadd (parts : ChatParts) : parts.add error (.dict [item "type" (.str (lit "text")),
      item "text" (.int n)]) = .error exc := by
    rw [add_dict]
    change (intText n >>= _) = _
    rw [h]
    rfl
  have hmessage : messageToChat error (numberMessage n) = .error exc := by
    change ((ChatParts.add _ _ _ >>= _) >>= _) = _
    rw [hadd]
    rfl
  change ((messageToChat _ _ >>= _) >>= _) = _
  rw [hmessage]
  rfl

end

/-- An integer of 4301 digits where a text stands is not refused with what the
error factory builds. -/
theorem longNumber_escapes : ¬ @ChatLaw plainPrinting (.raised .providerError)
    (.list [numberMessage (10 ^ 4300 : Nat)]) .none := by
  obtain ⟨message, h⟩ := intText_pow
  intro law
  obtain ⟨built, hbuilt⟩ :=
    @ChatLaw.raises plainPrinting _ _ _ law _ (@numberMessage_raises plainPrinting _ _ _ h)
  injection hbuilt with hcls
  cases hcls

end MellivorKernel
