import MellivorKernel.Execution.Conversation
import MellivorKernel.Execution.Correspondence
import MellivorKernel.Providers.ClaudeInvoke

/-!
# The dialog with Claude

What a tool loop over `ClaudeProvider` sends to the API, from the loop down to
the arguments of `messages.create`. Each request carries the messages the run
was started with and then, for each answer the API gave before, that answer as
the API wrote it and one result for each tool call in it, in order
(`run_dialog`).
-/

namespace MellivorKernel

open Python Foundation Program

/-- A call of `messages.create` and what it returned or raised. -/
structure Exchange where
  sent : Mapping
  received : Except Exn AnthropicMessage

/-- Each exchange sends the conversation so far, and its answer is answered in
the next one. -/
inductive Dialog (sends : List Mapping → Mapping) : List Mapping → List Exchange → Prop
  | silent : Dialog sends conversation []
  | last {exchange : Exchange} (hsent : exchange.sent = sends conversation) : Dialog sends conversation [exchange]
  | next {exchange : Exchange} {message : AnthropicMessage} {results : List Mapping}
      (hsent : exchange.sent = sends conversation) (hreceived : exchange.received = .ok message)
      (hne : message.toolUses ≠ [])
      (hresults : results.map (fun result => (result.get? "type", result.get? "tool_use_id")) =
        message.toolUses.map fun use => (some (.str (lit "tool_result")), some (.str use.1)))
      (hrest : Dialog sends (conversation ++ [message.turn, anthropicResults results]) rest) :
      Dialog sends conversation (exchange :: rest)

theorem Dialog.single {sends : List Mapping → Mapping} {conversation : List Mapping}
    {exchange : Option Exchange} (h : ∀ e ∈ exchange, e.sent = sends conversation) :
    Dialog sends conversation exchange.toList := by
  cases exchange with
  | none => exact .silent
  | some e => exact .last (h e rfl)

def anthropicTools (specs : List ToolSpec) : Option (List Mapping) :=
  if specs.isEmpty then none
  else some (specs.map fun spec => [item "name" (.str spec.name),
    item "description" (.str spec.description), item "input_schema" (.dict spec.inputSchema)])

def ClaudeProvider.sends (provider : ClaudeProvider) (specs : List ToolSpec)
    (options : ToolLoopOptions) (conversation : List Mapping) : Mapping :=
  provider.createArguments (options.maxTokens.getD 1024) conversation options.system
    (anthropicTools specs)

section
variable [Printing] {provider : ClaudeProvider}

-- ---------------------------------------------------------------------------
-- One request
-- ---------------------------------------------------------------------------

/-- A request of the loop that is accepted carries a translation of the history. -/
theorem arguments_providerPayload {history : List PyValue} {specs : List ToolSpec}
    {options : ToolLoopOptions} {arguments : Mapping}
    (h : provider.arguments (providerPayload history specs options) = .ok arguments) :
    ∃ conversation, history.mapM toAnthropicMessage = .ok conversation ∧
      arguments = provider.sends specs options conversation := by
  obtain ⟨conversation, hconversation, h⟩ := bind_eq_ok.mp h
  obtain ⟨system, hsystem, h⟩ := bind_eq_ok.mp h
  obtain ⟨maxTokens, hmaxTokens, h⟩ := bind_eq_ok.mp h
  obtain ⟨tools, htools, h⟩ := bind_eq_ok.mp h
  refine ⟨conversation, ?_, ?_⟩
  · rw [claudeMessagesFrom, providerPayload_prompt, providerPayload_messages] at hconversation
    cases history with
    | nil => cases hconversation
    | cons first more => exact hconversation
  · have hsystem' : options.system = system := by
      rw [claudeSystem, providerPayload_system] at hsystem
      cases hs : options.system <;> rw [hs] at hsystem <;> cases hsystem <;> rfl
    have hmaxTokens' : options.maxTokens.getD 1024 = maxTokens := by
      have hfield : ((providerPayload history specs options).get? "max_tokens").getD (.int 1024) =
          .int (options.maxTokens.getD 1024) := by
        unfold providerPayload
        cases options.system <;> cases options.maxTokens <;> rfl
      rw [claudeMaxTokens, hfield] at hmaxTokens
      simp only at hmaxTokens
      split at hmaxTokens <;> cases hmaxTokens
      rfl
    have htools' : anthropicTools specs = tools := by
      have hfield : (providerPayload history specs options).get? "tools" =
          some (.tuple (specs.map ToolSpec.toValue)) := rfl
      have hdefinitions : (specs.map ToolSpec.toValue).mapM toAnthropicTool =
          .ok (specs.map fun spec => [item "name" (.str spec.name),
            item "description" (.str spec.description),
            item "input_schema" (.dict spec.inputSchema)]) := by
        rw [mapM_eq_ok, List.map_map, List.map_map]
        rfl
      rw [claudeToolsFrom, hfield] at htools
      have htools := (congrArg (· >>= _) hdefinitions).symm.trans htools
      cases htools
      simp [anthropicTools]
    cases h
    rw [ClaudeProvider.sends, hsystem', hmaxTokens', htools']

-- ---------------------------------------------------------------------------
-- The exchanges of a run
-- ---------------------------------------------------------------------------

/-- The exchange an invocation with this payload comes to, if it is one. -/
def ClaudeProvider.exchange? (provider : ClaudeProvider) (client : AnthropicClient)
    (payload : Mapping) : Option Exchange :=
  match provider.arguments payload with
  | .ok arguments => some ⟨arguments, client.create arguments⟩
  | .error _ => none

def Call.exchange? (provider : ClaudeProvider) (client : AnthropicClient) (providerName : Str)
    (c : Call) : Option Exchange :=
  match c with
  | .invoke name payload => if name = providerName then provider.exchange? client payload else none
  | _ => none

/-- Executions that find Claude under a name, with a client that may answer
differently each time. -/
structure ClaudeBackend where
  execution : List LoopCall → ExecutionEngine
  provider : ClaudeProvider
  client : List LoopCall → AnthropicClient
  providerName : Str
  registered : ∀ history, ∃ elapsed,
    (execution history).dispatcher.providerRegistry.get providerName =
      .ok (provider.base (client history) elapsed)

variable (claude : ClaudeBackend)

def ClaudeBackend.exchanges (before : List LoopCall) (c : LoopCall) : List Exchange :=
  (c.inner claude.execution before).filterMap
    (Call.exchange? claude.provider (claude.client before) claude.providerName)

def ClaudeBackend.exchangesAfter (before log : List LoopCall) : List Exchange :=
  (seenAfter claude.exchanges before log).flatten

def ClaudeBackend.backend : Backend where
  execution := claude.execution
  providerName := claude.providerName
  invoke history := claude.provider.invoke (claude.client history)
  registered history :=
    let ⟨elapsed, h⟩ := claude.registered history
    ⟨claude.provider.base (claude.client history) elapsed, h, rfl⟩

def ClaudeBackend.exchange? (inquiry : Inquiry) : Option Exchange :=
  claude.provider.exchange? (claude.client inquiry.before) inquiry.payload

theorem exchanges_eq (before : List LoopCall) (c : LoopCall) :
    claude.exchanges before c =
      (claude.backend.inquiries before c).filterMap claude.exchange? := by
  rw [Backend.inquiries, List.filterMap_map, List.filterMap_filterMap]
  refine List.filterMap_congr fun call _ => ?_
  cases call with
  | invoke name payload =>
    rw [Call.exchange?, Call.payload?]
    split <;> rename_i hname
    · rw [if_pos (show name = claude.backend.providerName from hname)]
      rfl
    · rw [if_neg (show ¬ name = claude.backend.providerName from hname)]
      rfl
  | _ => rfl

theorem exchangesAfter_eq (before log : List LoopCall) :
    claude.exchangesAfter before log =
      (claude.backend.inquiriesAfter before log).filterMap claude.exchange? := by
  induction log generalizing before with
  | nil => rfl
  | cons c rest ih =>
    have hcons : claude.exchangesAfter before (c :: rest) =
      claude.exchanges before c ++ claude.exchangesAfter (before ++ [c]) rest := rfl
    rw [hcons, Backend.inquiriesAfter_cons, List.filterMap_append, exchanges_eq, ih]

variable {claude} {setup : LoopSetup} {history : List PyValue} {conversation : List Mapping}
  {before : List LoopCall} {loop : ToolCallLoop}

theorem exchange?_sent (hconversation : history.mapM toAnthropicMessage = .ok conversation) :
    ∀ e ∈ claude.exchange? ⟨before, providerPayload history setup.specs setup.options⟩,
      e.sent = claude.provider.sends setup.specs setup.options conversation := by
  intro e he
  rw [ClaudeBackend.exchange?, ClaudeProvider.exchange?] at he
  cases harguments : claude.provider.arguments
      (providerPayload history setup.specs setup.options) with
  | error exc =>
    rw [harguments] at he
    cases he
  | ok arguments =>
    rw [harguments] at he
    cases he
    obtain ⟨conversation', hconversation', rfl⟩ := arguments_providerPayload harguments
    rw [hconversation] at hconversation'
    cases hconversation'
    rfl

/-- An answer of Claude's is the message that was received, as it was read. -/
theorem exchange?_answered {payload answer : Mapping} {text : Str} {calls : List ToolCall}
    (hanswer : claude.backend.invoke before payload = .ok answer)
    (hparse : parse answer = (text, calls)) :
    ∃ e message, claude.exchange? ⟨before, payload⟩ = some e ∧ e.received = .ok message ∧
      message.text = text ∧ message.toolCalls = .ok calls ∧ (text ≠ [] ∨ calls ≠ []) := by
  obtain ⟨arguments, harguments, hinvoke⟩ := bind_eq_ok.mp hanswer
  obtain ⟨message, hmessage, haccept⟩ := bind_eq_ok.mp hinvoke
  have hcreate : (claude.client before).create arguments = .ok message := by
    cases hcreate : (claude.client before).create arguments with
    | error exc =>
      rw [hcreate] at hmessage
      cases hmessage
    | ok received =>
      rw [hcreate] at hmessage
      cases hmessage
      rfl
  obtain ⟨read, hread, hne, htext, htoolCalls⟩ := AnthropicMessage.accept_ok haccept
  have hcalls : (read.map ToolCall.toValue).filterMap toolCall? = read := by
    rw [List.filterMap_map]
    exact List.filterMap_some
  rw [parse, htext, htoolCalls] at hparse
  simp only [Option.getD_some, hcalls, Prod.mk.injEq] at hparse
  obtain ⟨rfl, rfl⟩ := hparse
  refine ⟨⟨arguments, .ok message⟩, message, ?_, rfl, rfl, hread, hne⟩
  rw [ClaudeBackend.exchange?, ClaudeProvider.exchange?, harguments]
  simp only [hcreate]

theorem Correspondence.dialog {inquiries : List Inquiry}
    (h : Correspondence setup claude.backend.invoke history inquiries)
    (hconversation : history.mapM toAnthropicMessage = .ok conversation) :
    Dialog (claude.provider.sends setup.specs setup.options) conversation
      (inquiries.filterMap claude.exchange?) := by
  induction h generalizing conversation with
  | silent => exact .silent
  | @last history before =>
    have hone : [(⟨before, providerPayload history setup.specs setup.options⟩ : Inquiry)].filterMap
        claude.exchange? = (claude.exchange?
          ⟨before, providerPayload history setup.specs setup.options⟩).toList := by
      rw [List.filterMap_cons, List.filterMap_nil]
      cases claude.exchange? ⟨before, providerPayload history setup.specs setup.options⟩ <;> rfl
    rw [hone]
    exact .single (exchange?_sent hconversation)
  | @next history before answer text records rest hanswer hparse hne hrest ih =>
    obtain ⟨e, message, he, hreceived, rfl, hread, hsaid⟩ := exchange?_answered hanswer hparse
    have huses := AnthropicMessage.toolCalls_ok hread
    have hsome : records.map ToolCallRecord.block ≠ [] := by simpa using hne
    have hresults : ((records.map ToolCallRecord.block).map anthropicResult).map (fun result =>
        (result.get? "type", result.get? "tool_use_id")) = message.toolUses.map fun use =>
          (some (.str (lit "tool_result")), some (.str use.1)) := by
      rw [← huses, List.map_map, List.map_map, List.map_map, List.map_map]
      rfl
    have hturn : (history ++ [assistantMessage message.text (records.map ToolCallRecord.call),
        toolResults (records.map ToolCallRecord.block)]).mapM toAnthropicMessage =
          .ok (conversation ++ [message.turn,
            anthropicResults ((records.map ToolCallRecord.block).map anthropicResult)]) := by
      rw [List.mapM_append, hconversation]
      simp only [List.mapM_cons, List.mapM_nil, toAnthropicMessage_turn hread hsaid,
        toAnthropicMessage_answers hsome]
      rfl
    rw [List.filterMap_cons_some he]
    refine .next (exchange?_sent hconversation e he) hreceived ?_ hresults (ih hturn)
    rw [← huses]
    simpa using hne

/-- Every run of the loop over Claude, however it ends, sends the API the
messages it was started with, and each answer as it was received with a result
for each of its tool calls, and the same model, limit, system prompt and tools
each time, also when the API raises. -/
theorem run_dialog (claude : ClaudeBackend) {messages : List PyValue} {toolIds : List Str}
    {context : ExecutionContext} {options : ToolLoopOptions} {granted : List Str}
    {conversation : List Mapping}
    (hconversation : claudeMessagesFrom [item "messages" (.list messages)] = .ok conversation)
    {specs : List ToolSpec} (hspecs : loop.describe toolIds = .ok specs) :
    Dialog (claude.provider.sends specs options) conversation
      (claude.exchangesAfter [] (((loop.over claude.execution).run claude.providerName messages
        toolIds context options granted).exec []).2) := by
  rw [exchangesAfter_eq]
  refine (run_corresponds claude.backend hspecs).dialog ?_
  cases messages with
  | nil => cases hconversation
  | cons first more => exact hconversation

end

-- ---------------------------------------------------------------------------
-- A dialog with one tool call
-- ---------------------------------------------------------------------------

def sonnet : ClaudeProvider where
  apiKey := lit "key"
  model := lit "sonnet"
  apiKey_ok := by decide
  model_ok := by decide

def echoClient (history : List LoopCall) : AnthropicClient where
  create _ := .ok {
    content := if history.isEmpty then
        [.toolUse (lit "c1") (lit "echo") (.dict [item "text" (.str (lit "again"))])]
      else [.text (lit "Done."), .other]
    model := lit "sonnet"
    stopReason := none
    inputTokens := 1
    outputTokens := 1 }
  raises _ _ := nofun

def claudeEcho [Printing] : ClaudeBackend where
  execution history := {
    dispatcher := {
      toolRegistry := (echoLoop [] []).tools
      providerRegistry := ⟨Dict.empty.set (lit "claude")
        (sonnet.base (echoClient history) fun _ => noTime)⟩ }
    authorizer := none
    eventBus := none
    memory := none
    observability := none
    now := DateTime.epoch }
  provider := sonnet
  client := echoClient
  providerName := lit "claude"
  registered _ := ⟨fun _ => noTime, rfl⟩

def claudeEchoLoop [Printing] : ToolCallLoop :=
  { echoLoop [] [] with
    providers := ⟨Dict.empty.set (lit "claude") (sonnet.base (echoClient []) fun _ => noTime)⟩ }

theorem claudeEcho_dialog : ∃ specs first second,
    @ToolCallLoop.describe plainPrinting (@claudeEchoLoop plainPrinting) [lit "echo"] = .ok specs ∧
    Dialog (sonnet.sends specs echoOptions)
      [[item "role" (.str (lit "user")), item "content" (.str (lit "Hello."))]] [first, second] := by
  obtain ⟨specs, hspecs⟩ : ∃ specs,
      @ToolCallLoop.describe plainPrinting (@claudeEchoLoop plainPrinting) [lit "echo"] =
        .ok specs := ⟨_, rfl⟩
  have hdialog := @run_dialog plainPrinting _ (@claudeEcho plainPrinting)
    [userMessage (lit "Hello.")] [lit "echo"] ⟨0, 0, 0, 0⟩ echoOptions [] _ rfl _ hspecs
  exact ⟨specs, _, _, hspecs, hdialog⟩

end MellivorKernel
