import MellivorKernel.Execution.OfferedCalls
import MellivorKernel.Providers.Claude

/-!
# The conversations of a tool loop

What the two message translators make of what a loop sends and returns: when
every history it sends is translatable (`run_translatable`), and exactly when
the conversation it returns can be continued (`run_continues_iff`). A number in
the arguments of a call that is too long to be printed ends the dialog in Chat
Completions: `json.dumps` raises, and nothing catches that.
-/

namespace MellivorKernel

open Python Foundation Program

section
variable [Printing]

-- ---------------------------------------------------------------------------
-- Translated turns
-- ---------------------------------------------------------------------------

def Turn.chatAssistant (turn : Turn) : Mapping := MellivorKernel.chatAssistant turn.text turn.calls

def Turn.chatResults (turn : Turn) : List Mapping :=
  turn.records.map fun record => chatResult record.block

def chatCallIds (message : Mapping) : List (Option PyValue) :=
  let calls := ((message.get? "tool_calls").bind PyValue.sequence?).getD []
  (calls.filterMap PyValue.mapping?).map (·.get? "id")

/-- A translated turn: an assistant message with tool calls, and one message
of role `tool` for each of them, with the same ids in the same order. -/
structure Turn.ChatPaired (turn : Turn) : Prop where
  role : turn.chatAssistant.get? "role" = some (.str (lit "assistant"))
  calls : chatCallIds turn.chatAssistant ≠ []
  results : turn.chatResults.map (fun message => (message.get? "role", message.get? "tool_call_id")) =
    (chatCallIds turn.chatAssistant).map fun id => (some (.str (lit "tool")), id)

theorem chatCallIds_chatAssistant (text : Str) {calls : List ToolCall} (hne : calls ≠ []) :
    chatCallIds (MellivorKernel.chatAssistant text calls) =
      calls.map fun call => some (.str call.id) := by
  have hcalls : chatCallIds (MellivorKernel.chatAssistant text calls) =
      (((calls.map chatCall).map PyValue.dict).filterMap PyValue.mapping?).map (·.get? "id") := by
    rw [MellivorKernel.chatAssistant, if_neg hne]
    rfl
  rw [hcalls, mapping?_map_dict, List.map_map]
  rfl

theorem Turn.chatPaired {turn : Turn} (hne : turn.records ≠ []) : turn.ChatPaired := by
  have hcalls : turn.calls ≠ [] := by simpa [Turn.calls] using hne
  have hids := chatCallIds_chatAssistant turn.text hcalls
  refine ⟨?_, ?_, ?_⟩
  · rw [Turn.chatAssistant, MellivorKernel.chatAssistant, if_neg hcalls]
    rfl
  · rw [Turn.chatAssistant, hids]
    simpa using hcalls
  · rw [Turn.chatAssistant, hids, Turn.chatResults, List.map_map, List.map_map, Turn.calls,
      List.map_map]
    rfl

variable (error : Str → Exn)

theorem Turn.messageToChat {turn : Turn} (hne : turn.records ≠ [])
    (h : ∀ call ∈ turn.calls, call.encodable = true) :
    turn.messages.mapM (messageToChat error) = .ok [[turn.chatAssistant], turn.chatResults] := by
  have hcalls : turn.calls ≠ [] := by simpa [Turn.calls] using hne
  have hassistant : MellivorKernel.messageToChat error turn.assistant = .ok [turn.chatAssistant] :=
    messageToChat_assistant error (.inr hcalls) h
  have hresults : MellivorKernel.messageToChat error
      (toolResults (turn.records.map ToolCallRecord.block)) = .ok turn.chatResults := by
    rw [messageToChat_toolResults error (by simpa using hne), List.map_map]
    rfl
  rw [Turn.messages, Turn.user_of_records hne]
  simp only [Option.toList_some, List.mapM_cons, List.mapM_nil, hassistant, hresults]
  rfl

theorem turns_messageToChat {turns : List Turn}
    (h : ∀ turn ∈ turns, turn.records ≠ [] ∧ ∀ call ∈ turn.calls, call.encodable = true) :
    ∃ outs, (turns.flatMap Turn.messages).mapM (messageToChat error) = .ok outs ∧
      outs.flatten = turns.flatMap fun turn => turn.chatAssistant :: turn.chatResults := by
  induction turns with
  | nil => exact ⟨[], rfl, rfl⟩
  | cons turn rest ih =>
    obtain ⟨hturn, hrest⟩ := List.forall_mem_cons.mp h
    obtain ⟨outs, houts, hflat⟩ := ih hrest
    refine ⟨[[turn.chatAssistant], turn.chatResults] ++ outs, ?_, ?_⟩
    · rw [List.flatMap_cons, List.mapM_append, Turn.messageToChat error hturn.1 hturn.2, houts]
      rfl
    · rw [List.flatten_append, hflat, List.flatMap_cons]
      simp

/-- A turn is accepted if it says something and its calls can be encoded. -/
theorem Turn.accepted_chat {turn : Turn} :
    (∀ m ∈ turn.messages, Returns (MellivorKernel.messageToChat error m)) ↔
      (turn.text ≠ [] ∨ turn.calls ≠ []) ∧ ∀ call ∈ turn.calls, call.encodable = true := by
  rw [Turn.messages, List.forall_mem_cons, Turn.assistant, messageToChat_assistant_returns]
  refine and_iff_left_of_imp fun _ m hm => ?_
  obtain ⟨hne, rfl⟩ := Turn.mem_user (Option.mem_toList.mp hm)
  exact ⟨_, messageToChat_toolResults error (by simpa using hne)⟩

theorem Turn.accepted_claude {turn : Turn} :
    (∀ m ∈ turn.messages, Returns (toAnthropicMessage m)) ↔ turn.text ≠ [] ∨ turn.calls ≠ [] := by
  rw [Turn.messages, List.forall_mem_cons, Turn.assistant, toAnthropicMessage_assistant]
  refine and_iff_left_of_imp fun _ m hm => ?_
  obtain ⟨hne, rfl⟩ := Turn.mem_user (Option.mem_toList.mp hm)
  exact toAnthropicMessage_toolResults (by simpa using hne)

end

-- ---------------------------------------------------------------------------
-- What the loop sends
-- ---------------------------------------------------------------------------

section
variable {history : List PyValue} {specs : List ToolSpec} {options : ToolLoopOptions}

theorem providerPayload_messages :
    (providerPayload history specs options).get? "messages" = some (.list history) := rfl

theorem providerPayload_system :
    ((providerPayload history specs options).get? "system").getD .none =
      options.system.elim .none .str := by
  unfold providerPayload
  cases options.system <;> cases options.maxTokens <;> rfl

theorem providerPayload_prompt : (providerPayload history specs options).get? "prompt" = none := by
  unfold providerPayload
  cases options.system <;> cases options.maxTokens <;> rfl

end

section
variable {loop : ToolCallLoop} {setup : LoopSetup}

/-- Every provider request carries the history so far: where the loop started,
and a turn with tool calls for each round before. -/
theorem LoopRun.sent {remaining iteration : Nat} {history : List PyValue}
    {records : List ToolCallRecord} {outcome : Except Exn ToolLoopResult} {log : List LoopCall}
    (h : LoopRun loop setup remaining iteration history records outcome log)
    {request : ExecutionRequest} {context : ExecutionContext} {permissions : List Str}
    {answer : Except Exn ExecutionResult}
    (hmem : .execute request context permissions answer ∈ log)
    (htarget : request.target = .provider) :
    ∃ turns : List Turn,
      request.payload = providerPayload (history ++ turns.flatMap Turn.messages) setup.specs
        setup.options ∧
      ∀ turn ∈ turns, turn.records ≠ [] ∧ ∀ call ∈ turn.calls, call ∈ requestedCalls log := by
  -- the request of the round at hand carries the history as it is
  have hfirst {log : List LoopCall} {history : List PyValue} {r : ExecutionRequest}
      (hasked : Asked setup history r) (heq : request = r) : ∃ turns : List Turn,
        request.payload = providerPayload (history ++ turns.flatMap Turn.messages) setup.specs
          setup.options ∧ ∀ turn ∈ turns, turn.records ≠ [] ∧
          ∀ call ∈ turn.calls, call ∈ requestedCalls log :=
    ⟨[], by rw [heq, hasked.payload]; simp, nofun⟩
  have hhandled {iteration : Nat} {handled : List Handled} (hfits : ∀ x ∈ handled, x.Fits setup) :
      .execute request context permissions answer ∉
        handled.flatMap (Handled.calls loop setup iteration) := by
    intro hmem
    obtain ⟨x, hx, hmem⟩ := List.mem_flatMap.mp hmem
    exact Handled.not_asks_provider (hfits x hx) hmem htarget
  induction h with
  | spent | unasked => cases hmem
  | raised hasked | failed hasked | answered hasked =>
    cases List.mem_singleton.mp hmem
    exact hfirst hasked rfl
  | cut hasked hanswer hcalls hfits hmade =>
    rcases List.mem_cons.mp hmem with heq | hmem
    · cases heq
      exact hfirst hasked rfl
    · exact absurd (hmade.subset hmem) (hhandled hfits)
  | @next _ _ _ _ _ response text _ made handled more hasked hanswer hne hfits hrecords hrest ih =>
    rcases List.mem_cons.mp hmem with heq | hmem
    · cases heq
      exact hfirst hasked rfl
    · have hmem := (List.mem_append.mp hmem).resolve_left (hhandled hfits)
      obtain ⟨turns, hpayload, hturns⟩ := ih hmem
      obtain ⟨hcalls, -, -⟩ := forall₂_recorded hrecords
      have hsome : more ≠ [] := by
        rintro rfl
        exact hne (List.forall₂_nil_right_iff.mp hrecords)
      rw [requestedCalls_round hasked hanswer hfits, hcalls]
      refine ⟨⟨text, more⟩ :: turns, ?_, List.forall_mem_cons.mpr ⟨⟨hsome, fun call hcall => ?_⟩, ?_⟩⟩
      · rw [hpayload, List.flatMap_cons, Turn.messages, Turn.user_of_records hsome]
        simp [Turn.assistant, Turn.calls, hcalls]
      · exact List.mem_append_left _ hcall
      · intro turn hturn
        obtain ⟨hturn, hcalls⟩ := hturns turn hturn
        exact ⟨hturn, fun call hcall => List.mem_append_right _ (hcalls call hcall)⟩

/-- Where the model's calls carry arguments that can be encoded, every provider
request of every run is accepted by a translator that accepts the initial
messages; in Chat Completions each turn the loop added becomes a message with
tool calls, answered at once. -/
theorem run_translatable [Printing] {providerName : Str} {messages : List PyValue}
    {toolIds : List Str} {options : ToolLoopOptions} {granted : List Str}
    {outcome : Except Exn ToolLoopResult} {log : List LoopCall} {runContext : ExecutionContext}
    (h : (loop.run providerName messages toolIds runContext options granted).exec [] = (outcome, log))
    (hjson : ∀ call ∈ requestedCalls log, call.encodable = true)
    {request : ExecutionRequest} {context : ExecutionContext} {permissions : List Str}
    {answer : Except Exn ExecutionResult} (hmem : .execute request context permissions answer ∈ log)
    (htarget : request.target = .provider) :
    ∃ turns : List Turn,
      request.payload.get? "messages" = some (.list (messages ++ turns.flatMap Turn.messages)) ∧
      (∀ turn ∈ turns, turn.ChatPaired) ∧
      (∀ error out,
        messagesToChat error (.list messages) (options.system.elim .none .str) = .ok out →
        messagesToChat error ((request.payload.get? "messages").getD .none)
            ((request.payload.get? "system").getD .none) =
          .ok (out ++ turns.flatMap fun turn => turn.chatAssistant :: turn.chatResults)) ∧
      (Returns (claudeMessagesFrom [item "messages" (.list messages)]) →
        Returns (claudeMessagesFrom request.payload)) := by
  obtain ⟨⟨e, rfl⟩, rfl⟩ | ⟨specs, -, hrun⟩ := run_loopRun loop h
  · cases hmem
  obtain ⟨turns, hpayload, hturns⟩ := hrun.sent hmem htarget
  have hgood : ∀ turn ∈ turns, turn.records ≠ [] ∧ ∀ call ∈ turn.calls, call.encodable = true :=
    fun turn hturn => ⟨(hturns turn hturn).1, fun call hcall =>
      hjson call ((hturns turn hturn).2 call hcall)⟩
  rw [hpayload]
  refine ⟨turns, providerPayload_messages, fun turn hturn => Turn.chatPaired (hgood turn hturn).1,
    fun error out hout => ?_, fun haccepted => ?_⟩
  · obtain ⟨outs, houts, hflat⟩ := turns_messageToChat error hgood
    rw [providerPayload_system, ← hflat]
    exact messagesToChat_append error hout houts
  · obtain ⟨hne, hall⟩ := (claudeMessagesFrom_returns rfl rfl).mp haccepted
    refine (claudeMessagesFrom_returns providerPayload_prompt providerPayload_messages).mpr
      ⟨by simp [hne], List.forall_mem_append.mpr ⟨hall, fun m hm => ?_⟩⟩
    obtain ⟨turn, hturn, hm⟩ := List.mem_flatMap.mp hm
    have hcalls : turn.calls ≠ [] := by simpa [Turn.calls] using (hgood turn hturn).1
    exact Turn.accepted_claude.mpr (.inr hcalls) m hm

theorem echoLoop_translatable : ∃ outcome c₁ c₂ c₃ c₄ c₅ request context permissions answer out,
    @echoRun plainPrinting echoRequest [item "text" (.str (lit "Done."))] =
      (outcome, [c₁, c₂, c₃, c₄, c₅, .execute request context permissions answer]) ∧
    @messagesToChat plainPrinting claudeError ((request.payload.get? "messages").getD .none)
      ((request.payload.get? "system").getD .none) = .ok out := by
  obtain ⟨outcome, c₁, c₂, c₃, c₄, c₅, request, context, permissions, answer, hrun, htarget, call,
      hcalls, hencodable⟩ :
      ∃ outcome c₁ c₂ c₃ c₄ c₅ request context permissions answer,
        @echoRun plainPrinting echoRequest [item "text" (.str (lit "Done."))] =
          (outcome, [c₁, c₂, c₃, c₄, c₅, .execute request context permissions answer]) ∧
        request.target = .provider ∧ ∃ call, requestedCalls
          [c₁, c₂, c₃, c₄, c₅, .execute request context permissions answer] = [call] ∧
          call.encodable = true := ⟨_, _, _, _, _, _, _, _, _, _, rfl, rfl, _, rfl, rfl⟩
  obtain ⟨turns, -, -, hchat, -⟩ := @run_translatable _ plainPrinting _ _ _ _ _ _ _ _ hrun
    (by rw [hcalls]; simpa using hencodable) request context permissions answer (by simp) htarget
  exact ⟨outcome, c₁, c₂, c₃, c₄, c₅, request, context, permissions, answer, _, hrun,
    hchat claudeError _ rfl⟩

def numberCall (n : Int) : Mapping := [item "tool_calls" (.list [.toolCall (lit "n1") (lit "other")
  (by decide) (by decide) [item "n" (.int n)]])]

theorem numberCall_sent (n : Int) : ∃ outcome log request context permissions answer more,
    @echoRun plainPrinting (numberCall n) [item "text" (.str (lit "Done."))] = (outcome, log) ∧
    .execute request context permissions answer ∈ log ∧ request.target = .provider ∧
    request.payload.get? "messages" = some (.list (userMessage (lit "Hello.") ::
      assistantMessage [] [⟨lit "n1", lit "other", [item "n" (.int n)], by decide, by decide⟩] ::
        more)) :=
  ⟨_, _, _, _, _, _, _, rfl, List.mem_append_right _ (List.mem_singleton_self _), rfl, rfl⟩

theorem numberCall_untranslatable {n : Int} (hn : convertible n = false) :
    ∃ outcome log request context permissions answer,
      @echoRun plainPrinting (numberCall n) [item "text" (.str (lit "Done."))] = (outcome, log) ∧
      .execute request context permissions answer ∈ log ∧ request.target = .provider ∧
      Returns (@messagesToChat plainPrinting claudeError (.list [userMessage (lit "Hello.")]) .none) ∧
      ¬ Returns (@messagesToChat plainPrinting claudeError
        ((request.payload.get? "messages").getD .none)
        ((request.payload.get? "system").getD .none)) := by
  obtain ⟨outcome, log, request, context, permissions, answer, more, hrun, hmem, htarget,
    hmessages⟩ := numberCall_sent n
  refine ⟨outcome, log, request, context, permissions, answer, hrun, hmem, htarget, ⟨_, rfl⟩, ?_⟩
  rw [hmessages, Option.getD_some]
  intro haccepted
  have hassistant := @messagesToChat_mem plainPrinting _ _ _ haccepted _
    (List.mem_cons_of_mem _ List.mem_cons_self)
  have hencodable := ((@messageToChat_assistant_returns plainPrinting _ _ _).mp hassistant).2 _
    (List.mem_singleton_self _)
  have hconvertible : convertible n = true := (Bool.and_eq_true_iff.mp hencodable).1
  rw [hn] at hconvertible
  cases hconvertible

/-- An integer of 4301 digits in the arguments of a call: the initial messages
are accepted, those of the second round are not. -/
theorem longNumber_untranslatable : ∃ outcome log request context permissions answer,
    @echoRun plainPrinting (numberCall (10 ^ 4300 : Nat)) [item "text" (.str (lit "Done."))] =
      (outcome, log) ∧
    .execute request context permissions answer ∈ log ∧ request.target = .provider ∧
    Returns (@messagesToChat plainPrinting claudeError (.list [userMessage (lit "Hello.")]) .none) ∧
    ¬ Returns (@messagesToChat plainPrinting claudeError
      ((request.payload.get? "messages").getD .none)
      ((request.payload.get? "system").getD .none)) := by
  refine numberCall_untranslatable (Bool.eq_false_iff.mpr fun h => ?_)
  rw [convertible_iff, Int.natAbs_natCast] at h
  exact lt_irrefl _ h

-- ---------------------------------------------------------------------------
-- What the loop returns
-- ---------------------------------------------------------------------------

/-- A successful run has a text, and a translator that accepts the initial
messages accepts what the run returns, carried on by one more user message. -/
structure Continues [Printing] (messages : List PyValue) (result : ToolLoopResult) : Prop where
  answer : result.success = true → ∃ text, result.text = some text ∧ text ≠ []
  chat : ∀ error system content, blank content = false →
    Returns (messagesToChat error (.list messages) system) →
      Returns (messagesToChat error (.list (result.messages ++ [userMessage content])) system)
  claude : ∀ content, blank content = false →
    Returns (claudeMessagesFrom [item "messages" (.list messages)]) →
      Returns (claudeMessagesFrom [item "messages" (.list (result.messages ++ [userMessage content]))])

/-- The provider never answered without text and without calls, nor, where
Chat Completions matters, with arguments that cannot be encoded. -/
structure Speaks [Printing] (messages : List PyValue) (log : List LoopCall) : Prop where
  speaks : ∀ answer ∈ providerAnswers log, roundOf answer ≠ some ([], [])
  encodes : (∃ error system, Returns (messagesToChat error (.list messages) system)) →
    ∀ call ∈ requestedCalls log, call.encodable = true

theorem run_continues_iff [Printing] {providerName : Str} {messages : List PyValue}
    {toolIds : List Str} {options : ToolLoopOptions} {granted : List Str} {result : ToolLoopResult}
    {log : List LoopCall} {context : ExecutionContext}
    (h : (loop.run providerName messages toolIds context options granted).exec [] =
      (.ok result, log)) : Continues messages result ↔ Speaks messages log := by
  obtain ⟨turns, hlaw⟩ := run_transcript h
  have hrequested : requestedCalls log = turns.flatMap Turn.calls := by
    rw [requestedCalls, ← hlaw.rounds, List.flatMap_map]
  constructor
  · intro hcontinues
    refine ⟨fun answer hmem hround => ?_, ?_⟩
    · have hanswer : (providerAnswers log).getLast?.bind roundOf = some ([], []) := by
        rw [hlaw.last hmem hround, Option.bind_some, hround]
      obtain ⟨text, htext, hne⟩ := hcontinues.answer (hlaw.success.mpr ⟨[], hanswer⟩)
      rw [(hlaw.text []).mpr hanswer] at htext
      exact hne (Option.some.inj htext).symm
    · rintro ⟨error, system, haccepted⟩ call hcall
      rw [hrequested] at hcall
      obtain ⟨turn, hturn, hcall⟩ := List.mem_flatMap.mp hcall
      have hall := messagesToChat_mem error
        (hcontinues.chat error system (lit "Go on.") (by decide) haccepted)
      rw [hlaw.messages] at hall
      refine ((Turn.accepted_chat error).mp fun m hm => hall m ?_).2 call hcall
      simp only [List.mem_append, List.mem_flatMap]
      exact .inl (.inr ⟨turn, hturn, hm⟩)
  · intro hspeaks
    have hsaid : ∀ turn ∈ turns, turn.text ≠ [] ∨ turn.calls ≠ [] := by
      intro turn hturn
      have hmem : (turn.text, turn.calls) ∈ (providerAnswers log).filterMap roundOf := by
        rw [← hlaw.rounds]
        exact List.mem_map_of_mem hturn
      obtain ⟨answer, hanswer, hround⟩ := List.mem_filterMap.mp hmem
      by_contra hnone
      rw [not_or, not_not, not_not] at hnone
      rw [hnone.1, hnone.2] at hround
      exact hspeaks.speaks answer hanswer hround
    refine ⟨fun hsuccess => ?_, fun error system content _ haccepted => ?_,
      fun content hcontent haccepted => ?_⟩
    · obtain ⟨text, hanswer⟩ := hlaw.success.mp hsuccess
      refine ⟨text, (hlaw.text text).mpr hanswer, ?_⟩
      rintro rfl
      obtain ⟨answer, hlast, hround⟩ := Option.bind_eq_some_iff.mp hanswer
      exact hspeaks.speaks answer (List.mem_of_getLast? hlast) hround
    · have hall : ∀ m ∈ turns.flatMap Turn.messages ++ [userMessage content],
          Returns (messageToChat error m) := by
        refine List.forall_mem_append.mpr ⟨fun m hm => ?_, ?_⟩
        · obtain ⟨turn, hturn, hm⟩ := List.mem_flatMap.mp hm
          refine (Turn.accepted_chat error).mpr ⟨hsaid turn hturn, fun call hcall => ?_⟩ m hm
          refine hspeaks.encodes ⟨error, system, haccepted⟩ call ?_
          rw [hrequested]
          exact List.mem_flatMap.mpr ⟨turn, hturn, hcall⟩
        · simpa using messageToChat_user error content
      obtain ⟨out, hout⟩ := haccepted
      obtain ⟨outs, houts⟩ := returns_mapM.mpr hall
      rw [hlaw.messages, List.append_assoc]
      exact ⟨_, messagesToChat_append error hout houts⟩
    · obtain ⟨hne, hall⟩ := (claudeMessagesFrom_returns rfl rfl).mp haccepted
      refine (claudeMessagesFrom_returns rfl rfl).mpr ⟨by simp, ?_⟩
      rw [hlaw.messages]
      refine List.forall_mem_append.mpr ⟨List.forall_mem_append.mpr ⟨hall, fun m hm => ?_⟩, ?_⟩
      · obtain ⟨turn, hturn, hm⟩ := List.mem_flatMap.mp hm
        exact Turn.accepted_claude.mpr (hsaid turn hturn) m hm
      · simpa using toAnthropicMessage_user hcontent

end

/-- A provider that answers `{"text": ""}` gives a success without an answer. -/
theorem silentAnswer_discontinues : ∃ result log,
    @echoRun plainPrinting [item "text" (.str [])] [] = (.ok result, log) ∧
    result.success = true ∧ ¬ @Continues plainPrinting [userMessage (lit "Hello.")] result := by
  obtain ⟨result, log, hrun, hsuccess, htext⟩ : ∃ result log,
      @echoRun plainPrinting [item "text" (.str [])] [] = (.ok result, log) ∧
      result.success = true ∧ result.text = some [] := ⟨_, _, rfl, rfl, rfl⟩
  refine ⟨result, log, hrun, hsuccess, ?_⟩
  rintro ⟨hanswer, -, -⟩
  obtain ⟨text, heq, hne⟩ := hanswer hsuccess
  rw [htext] at heq
  exact hne (Option.some.inj heq).symm

theorem spokenAnswer_continues : ∃ result log,
    @echoRun plainPrinting [item "text" (.str (lit "Hi."))] [] = (.ok result, log) ∧
    @Continues plainPrinting [userMessage (lit "Hello.")] result := by
  obtain ⟨result, log, hrun, hanswer⟩ : ∃ result log,
      @echoRun plainPrinting [item "text" (.str (lit "Hi."))] [] = (.ok result, log) ∧
      ∃ answer, providerAnswers log = [answer] ∧ roundOf answer = some (lit "Hi.", []) :=
    ⟨_, _, rfl, _, rfl, rfl⟩
  obtain ⟨answer, hanswers, hround⟩ := hanswer
  refine ⟨result, log, hrun, (@run_continues_iff _ plainPrinting _ _ _ _ _ _ _ _ hrun).mpr
    (@Speaks.mk plainPrinting _ _ ?_ ?_)⟩
  · rw [hanswers]
    simp [hround]
  · simp [requestedCalls, hanswers, hround]

end MellivorKernel
