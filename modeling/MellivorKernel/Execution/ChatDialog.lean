import MellivorKernel.Execution.Conversation
import MellivorKernel.Execution.Correspondence
import MellivorKernel.Providers.ChatProvider

/-!
# The dialog with a provider of Chat Completions

What a tool loop over `LocalProvider` or `OpenAIProvider` posts. If the
messages a run was started with can be translated, so can every history the run
makes of them, and each answer goes back with the calls that were read of it
and one message for each of them, in order (`run_chatDialog`).
-/

namespace MellivorKernel

open Python Foundation Program

structure ChatBackend [Printing] extends Backend where
  chat : ChatProvider (List LoopCall)
  answers : ∀ history request, invoke history request.toMapping = chat.invoke history request

section
variable [Printing]

/-- An assistant message from which the text and the calls of an answer can be
read, by the reader of the answers. -/
structure Replays (error : Str → Exn) (text : Str) (calls : List ToolCall) (message : Mapping) :
    Prop where
  role : message.get? "role" = some (.str (lit "assistant"))
  content : message.get? "content" = some (if text = [] then .none else .str text)
  calls : toolCallsFromChat error ((message.get? "tool_calls").getD .none) = .ok calls

def ChatBackend.Posts (backend : ChatBackend) (inquiry : Inquiry) (posted : Mapping) : Prop :=
  ∃ request : LocalRequest, request.toMapping = inquiry.payload ∧
    backend.chat.arguments request = .ok posted

/-- Each inquiry posts the conversation so far, and what is answered to it is
replayed in the next one, with a message for each of its calls. -/
inductive ChatDialog (backend : ChatBackend) (sends : List Mapping → Mapping) :
    List Mapping → List Inquiry → Prop
  | silent {conversation : List Mapping} : ChatDialog backend sends conversation []
  | last {conversation : List Mapping} {inquiry : Inquiry}
      (hposts : backend.Posts inquiry (sends conversation)) :
      ChatDialog backend sends conversation [inquiry]
  | next {conversation : List Mapping} {inquiry : Inquiry} {answer : Mapping} {text : Str}
      {calls : List ToolCall} {assistant : Mapping} {results : List Mapping} {rest : List Inquiry}
      (hposts : backend.Posts inquiry (sends conversation))
      (hanswer : backend.invoke inquiry.before inquiry.payload = .ok answer)
      (hparse : parse answer = (text, calls)) (hne : calls ≠ [])
      (hassistant : Replays backend.chat.responseError text calls assistant)
      (hresults : results.map (fun result => (result.get? "role", result.get? "tool_call_id")) =
        calls.map fun call => (some (.str (lit "tool")), some (.str call.id)))
      (hrest : ChatDialog backend sends (conversation ++ assistant :: results) rest) :
      ChatDialog backend sends conversation (inquiry :: rest)

variable {backend : ChatBackend} {setup : LoopSetup} {history : List PyValue}
  {conversation : List Mapping}

theorem replays_chatAssistant (error : Str → Exn) (text : Str) {calls : List ToolCall}
    (hne : calls ≠ []) (h : ∀ call ∈ calls, call.Settled) :
    Replays error text calls (chatAssistant text calls) := by
  rw [chatAssistant, if_neg hne]
  exact ⟨rfl, rfl, toolCallsFromChat_posted error h⟩

theorem messagesToChat_round {error : Str → Exn} {system : PyValue} {text : Str}
    {records : List ToolCallRecord}
    (hconversation : messagesToChat error (.list history) system = .ok conversation)
    (hne : records ≠ []) (h : ∀ call ∈ records.map ToolCallRecord.call, call.Settled) :
    messagesToChat error (.list (history ++
        [assistantMessage text (records.map ToolCallRecord.call),
          toolResults (records.map ToolCallRecord.block)])) system =
      .ok (conversation ++ chatAssistant text (records.map ToolCallRecord.call) ::
        (records.map ToolCallRecord.block).map chatResult) := by
  have hassistant : messageToChat error
      (assistantMessage text (records.map ToolCallRecord.call)) =
        .ok [chatAssistant text (records.map ToolCallRecord.call)] :=
    messageToChat_assistant error (.inr (by simpa using hne)) fun call hcall =>
      (h call hcall).encodable
  have hresults : messageToChat error (toolResults (records.map ToolCallRecord.block)) =
      .ok ((records.map ToolCallRecord.block).map chatResult) :=
    messageToChat_toolResults error (by simpa using hne)
  have hround : [assistantMessage text (records.map ToolCallRecord.call),
      toolResults (records.map ToolCallRecord.block)].mapM (messageToChat error) =
        .ok [[chatAssistant text (records.map ToolCallRecord.call)],
          (records.map ToolCallRecord.block).map chatResult] := by
    simp only [List.mapM_cons, List.mapM_nil, hassistant, hresults]
    rfl
  rw [messagesToChat_append error hconversation hround]
  simp

theorem Correspondence.chatDialog (hprinting : Printing.Faithful) {inquiries : List Inquiry}
    (h : Correspondence setup backend.invoke history inquiries)
    (hpositive : 0 < setup.options.maxTokens.getD 1024)
    (hconversation : messagesToChat backend.chat.requestError (.list history)
      setup.options.systemField = .ok conversation) :
    ChatDialog backend (backend.chat.sends setup.specs setup.options) conversation inquiries := by
  induction h generalizing conversation with
  | silent => exact .silent
  | @last history before =>
    exact .last ⟨_, toMapping_loopRequest .., arguments_loopRequest _ _ hconversation hpositive⟩
  | @next history before answer text records rest hanswer hparse hne hrest ih =>
    have hinvoke := hanswer
    rw [← toMapping_loopRequest, backend.answers] at hinvoke
    obtain ⟨said, calls, hsaid⟩ := ChatProvider.invoke_said hprinting hinvoke
    obtain ⟨rfl, rfl⟩ : text = said ∧ records.map ToolCallRecord.call = calls := by
      simpa using hparse.symm.trans hsaid.parse
    have hcalls : records.map ToolCallRecord.call ≠ [] := by simpa using hne
    refine .next ⟨_, toMapping_loopRequest .., arguments_loopRequest _ _ hconversation hpositive⟩
      hanswer hparse hcalls (replays_chatAssistant _ text hcalls hsaid.settled) ?_
      (ih (messagesToChat_round hconversation hne hsaid.settled))
    rw [List.map_map, List.map_map, List.map_map]
    rfl

/-- Every run of the loop over a provider of Chat Completions, however it ends,
posts the messages it was started with in translation, and each answer with
the calls that were read of it. No request fails to be translated. -/
theorem run_chatDialog (hprinting : Printing.Faithful) (backend : ChatBackend)
    {loop : ToolCallLoop} {messages : List PyValue} {toolIds : List Str}
    {context : ExecutionContext} {options : ToolLoopOptions} {granted : List Str}
    {conversation : List Mapping}
    (hconversation : messagesToChat backend.chat.requestError (.list messages) options.systemField =
      .ok conversation) (hpositive : 0 < options.maxTokens.getD 1024)
    {specs : List ToolSpec} (hspecs : loop.describe toolIds = .ok specs) :
    ChatDialog backend (backend.chat.sends specs options) conversation
      (backend.inquiriesAfter [] (((loop.over backend.execution).run backend.providerName messages
        toolIds context options granted).exec []).2) :=
  (run_corresponds backend.toBackend hspecs).chatDialog hprinting hpositive hconversation

end

-- ---------------------------------------------------------------------------
-- A dialog with one tool call
-- ---------------------------------------------------------------------------

def requestOf (payload : Mapping) : LocalRequest :=
  Dict.ofList (payload.filterMap fun (key, value) =>
    match key with
    | .str key => some (key, value)
    | _ => none)

theorem requestOf_toMapping (request : LocalRequest) : requestOf request.toMapping = request := by
  have hitems : request.toMapping.filterMap (fun (key, value) =>
      match key with
      | .str key => some (key, value)
      | _ => none) = request.entries := by
    rw [LocalRequest.toMapping, List.filterMap_map]
    exact List.filterMap_some
  rw [requestOf, hitems]
  exact Dict.ext (Dict.entries_ofList request.nodup)

def llama : LocalProvider where
  endpoint := lit "http://localhost/v1"
  model := lit "llama"
  maxRetries := 0
  model_ok := by decide

def echoEndpoint : ChatProvider (List LoopCall) :=
  .localEndpoint llama fun history _ _ _ => .response ⟨200, some (lit (if history.isEmpty then
      "\x7b\"choices\":[\x7b\"message\":\x7b\"tool_calls\":[\x7b\"id\":\"c1\",\"function\":" ++
        "\x7b\"name\":\"echo\",\"arguments\":\"\x7b\\\"x\\\":0.5\x7d\"\x7d\x7d]\x7d\x7d],\"model\":\"m\"\x7d"
    else "\x7b\"choices\":[\x7b\"message\":\x7b\"content\":\"Done.\"\x7d\x7d],\"model\":\"m\"\x7d"))⟩

def echoChat [Printing] (history : List LoopCall) : BaseProvider where
  name := LocalProvider.name
  supportsToolCalls := true
  invoke payload := echoEndpoint.invoke history (requestOf payload)
  elapsed _ := noTime

def chatEcho [Printing] : ChatBackend where
  execution history := {
    dispatcher := {
      toolRegistry := (echoLoop [] []).tools
      providerRegistry := ⟨Dict.empty.set (lit "local") (echoChat history)⟩ }
    authorizer := none
    eventBus := none
    memory := none
    observability := none
    now := DateTime.epoch }
  providerName := lit "local"
  invoke history := (echoChat history).invoke
  registered history := ⟨echoChat history, rfl, rfl⟩
  chat := echoEndpoint
  answers history request := congrArg (echoEndpoint.invoke history) (requestOf_toMapping request)

def chatEchoLoop [Printing] : ToolCallLoop :=
  { echoLoop [] [] with providers := ⟨Dict.empty.set (lit "local") (echoChat [])⟩ }

def chatEchoInquiries [Printing] : List Inquiry :=
  chatEcho.inquiriesAfter [] (((chatEchoLoop.over chatEcho.execution).run (lit "local")
    [userMessage (lit "Hello.")] [lit "echo"] ⟨0, 0, 0, 0⟩ echoOptions []).exec []).2

theorem chatEcho_dialog : (@chatEchoInquiries plainPrinting).length = 2 ∧ ∃ specs,
    @ToolCallLoop.describe plainPrinting (@chatEchoLoop plainPrinting) [lit "echo"] = .ok specs ∧
    @ChatDialog plainPrinting (@chatEcho plainPrinting) (echoEndpoint.sends specs echoOptions)
      [[item "role" (.str (lit "user")), item "content" (.str (lit "Hello."))]]
      (@chatEchoInquiries plainPrinting) := by
  obtain ⟨specs, hspecs⟩ : ∃ specs,
      @ToolCallLoop.describe plainPrinting (@chatEchoLoop plainPrinting) [lit "echo"] =
        .ok specs := ⟨_, rfl⟩
  have hdialog := @run_chatDialog plainPrinting plainPrinting_faithful (@chatEcho plainPrinting) _
    [userMessage (lit "Hello.")] [lit "echo"] ⟨0, 0, 0, 0⟩ echoOptions [] _ rfl (by decide) _ hspecs
  exact ⟨by decide +kernel, specs, hspecs, hdialog⟩

end MellivorKernel
