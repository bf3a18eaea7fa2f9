import MellivorKernel.Providers.LocalBoundary
import MellivorKernel.Providers.OpenAI

/-!
# The error boundary of the OpenAI provider

What the SDK raises becomes an `OpenAIProviderError`. What it returns is read
outside the `try`: a completion without choices, and a tool call whose id or
name is blank and not empty, raise something else. Of a request only what
cannot be printed does (`openAI_boundary_iff`).
-/

namespace MellivorKernel

open Python Foundation

def IsOpenAI (exc : Exn) : Prop := exc.isA .openAIProviderError = true

theorem isOpenAI_of_built {exc : Exn} (h : Built openAIProviderError exc) : IsOpenAI exc := by
  obtain ⟨message, rfl⟩ := h
  exact (by decide : ExnClass.isA .openAIProviderError .openAIProviderError = true)

theorem isOpenAI_of_built_response {exc : Exn} (h : Built openAIResponseError exc) :
    IsOpenAI exc := by
  obtain ⟨message, rfl⟩ := h
  exact (by decide : ExnClass.isA .openAIResponseError .openAIProviderError = true)

-- ---------------------------------------------------------------------------
-- Tool calls
-- ---------------------------------------------------------------------------

def readSdkCall? (raw : SdkToolCall) : Option (Str × Str × Str) :=
  if raw.id = [] then none
  else (raw.function.filter (·.name ≠ [])).map fun function =>
    (raw.id, function.name, function.arguments)

def toolCallFromSdk? (raw : SdkToolCall) : Option ToolCall :=
  (readSdkCall? raw).bind fun read => (arguments? read.2.2).bind (toolCallOf? read.1 read.2.1)

/-- The id or the name of a call that is read otherwise is blank. -/
def sdkCallEscape (raw : SdkToolCall) : Option Exn :=
  (readSdkCall? raw).bind fun read => (arguments? read.2.2).bind fun _ => callEscape read.1 read.2.1

def toolCallsFromSdk? (rawCalls : Option (List SdkToolCall)) : Option (List ToolCall) :=
  (rawCalls.getD []).mapM toolCallFromSdk?

/-- What reading the completion raises that is no error of the provider. -/
def ChatCompletion.escape (completion : ChatCompletion) : Option Exn :=
  match completion.choices with
  | [] => some (.raised .indexError (lit "list index out of range"))
  | choice :: _ => firstEscape sdkCallEscape toolCallFromSdk? (choice.message.toolCalls.getD [])

theorem callEscape_not_openAI {callId name : Str} {exc : Exn}
    (h : callEscape callId name = some exc) : ¬ IsOpenAI exc := by
  unfold callEscape at h
  split at h
  · cases h
    exact Bool.false_ne_true
  · split at h
    · cases h
      exact Bool.false_ne_true
    · cases h

theorem sdkCallEscape_not_openAI {raw : SdkToolCall} {exc : Exn}
    (h : sdkCallEscape raw = some exc) : ¬ IsOpenAI exc := by
  obtain ⟨read, -, h⟩ := Option.bind_eq_some_iff.mp h
  obtain ⟨arguments, -, h⟩ := Option.bind_eq_some_iff.mp h
  exact callEscape_not_openAI h

theorem escape_not_openAI {completion : ChatCompletion} {exc : Exn}
    (h : completion.escape = some exc) : ¬ IsOpenAI exc := by
  unfold ChatCompletion.escape at h
  split at h
  · cases h
    exact Bool.false_ne_true
  · obtain ⟨raw, -, hraw⟩ := mem_of_firstEscape h
    exact sdkCallEscape_not_openAI hraw

section
variable [Printing]

theorem readSdkCall_yields (error : Str → Exn) (raw : SdkToolCall) :
    Yields (Built error) (readSdkCall error raw) (readSdkCall? raw) := by
  unfold readSdkCall readSdkCall?
  refine .guard (built error _) fun _ => ?_
  cases raw.function.filter (·.name ≠ []) with
  | none => exact .raised (built error _)
  | some function => exact .returned _

theorem toolCallFromSdk_yields (error : Str → Exn) (raw : SdkToolCall) :
    YieldsUnless (Built error) (sdkCallEscape raw) (toolCallFromSdk error raw)
      (toolCallFromSdk? raw) :=
  YieldsUnless.after (readSdkCall_yields error raw) fun read =>
    parsed_yields error read.1 read.2.1 read.2.2

theorem toolCallsFromSdk_yields (error : Str → Exn) (rawCalls : Option (List SdkToolCall)) :
    YieldsUnless (Built error) (firstEscape sdkCallEscape toolCallFromSdk? (rawCalls.getD []))
      (toolCallsFromSdk error rawCalls) (toolCallsFromSdk? rawCalls) := by
  cases rawCalls with
  | none => exact Yields.returned []
  | some raws => exact YieldsUnless.mapM (toolCallFromSdk_yields error) raws

-- ---------------------------------------------------------------------------
-- Parts of the boundary
-- ---------------------------------------------------------------------------

theorem completion_bounded_iff (completion : ChatCompletion) :
    RaisesOnly IsOpenAI completion.accept ↔ completion.escape = none := by
  have hnone : (∀ exc, completion.escape = some exc → IsOpenAI exc) ↔ completion.escape = none := by
    refine ⟨fun h => Option.eq_none_iff_forall_ne_some.mpr fun exc hexc => ?_, fun h exc hexc => ?_⟩
    · exact escape_not_openAI hexc (h exc hexc)
    · rw [h] at hexc
      cases hexc
  rw [← hnone]
  unfold ChatCompletion.accept ChatCompletion.escape
  cases completion.choices with
  | nil => simp
  | cons choice rest =>
    refine (raisesOnly_bind_of fun calls => ?_).trans
      ((toolCallsFromSdk_yields _ _).raisesOnly_iff fun _ => isOpenAI_of_built_response)
    split
    · exact raisesOnly_error.mpr (isOpenAI_of_built_response (built _ _))
    · exact raisesOnly_ok _

def Replies (reply : Mapping) : Prop :=
  ∃ (text : Str) (toolCalls : List ToolCall), (text ≠ [] ∨ toolCalls ≠ []) ∧
    reply.get? "text" = some (.str text) ∧
    reply.get? "tool_calls" = some (.tuple (toolCalls.map ToolCall.toValue))

theorem completion_replies {completion : ChatCompletion} {reply : Mapping}
    (h : completion.accept = .ok reply) : Replies reply := by
  unfold ChatCompletion.accept at h
  split at h
  · cases h
  · obtain ⟨toolCalls, -, h⟩ := bind_eq_ok.mp h
    split at h
    · cases h
    · rename_i hsome
      cases h
      rw [not_and_or, List.isEmpty_iff] at hsome
      exact ⟨_, toolCalls, hsome, by simp, by simp⟩

theorem chatArguments_bounded_iff (provider : OpenAIProvider) (request : LocalRequest) :
    RaisesOnly IsOpenAI (provider.chatArguments request) ↔
      ∀ exc, messagesEscape (request.field "messages") (request.field "system") = some exc →
        IsOpenAI exc := by
  have htools : RaisesOnly IsOpenAI (toolsToChat openAIProviderError (request.field "tools")) :=
    fun exc h => isOpenAI_of_built (toolsToChat_raises openAIProviderError _ exc h)
  refine (raisesOnly_bind_of fun messages => ?_).trans
    ((messagesToChat_yields openAIProviderError _ _).raisesOnly_iff fun _ => isOpenAI_of_built)
  cases maxTokens request with
  | none => exact raisesOnly_error.mpr (isOpenAI_of_built (built _ _))
  | some n => exact htools.bind fun _ => raisesOnly_ok _

omit [Printing] in
theorem translateSdkError_isOpenAI {exc : Exn} (h : exc.isA .sdkOpenAIError = true) :
    IsOpenAI (translateSdkError exc) := by
  have hraised (cls : ExnClass) (message : Str) (hcls : cls.isA .openAIProviderError = true) :
      IsOpenAI (.raised cls message) := hcls
  unfold translateSdkError
  split
  · exact hraised _ _ (by decide)
  · split
    · exact hraised _ _ (by decide)
    · split
      · exact hraised _ _ (by decide)
      · exact isOpenAI_of_built (built _ _)

-- ---------------------------------------------------------------------------
-- The boundary
-- ---------------------------------------------------------------------------

def OpenAIProvider.answer (provider : OpenAIProvider) (client : OpenAIClient)
    (request : LocalRequest) : Option ChatCompletion :=
  (provider.chatArguments request).toOption.bind fun payload => (client.create payload).toOption

/-- Printing the messages raises nothing else than `OpenAIProviderError`s. The
completion has a choice, and no call that is reached in it has a blank id or
name. -/
def OpenAIProvider.Contained (provider : OpenAIProvider) (client : OpenAIClient)
    (request : LocalRequest) : Prop :=
  (∀ exc, messagesEscape (request.field "messages") (request.field "system") = some exc →
    IsOpenAI exc) ∧
  ∀ completion, provider.answer client request = some completion → completion.escape = none

structure OpenAIProvider.Boundary (provider : OpenAIProvider) (client : OpenAIClient)
    (request : LocalRequest) : Prop where
  replies : ∀ reply, provider.invoke client request = .ok reply → Replies reply
  bounded : RaisesOnly IsOpenAI (provider.invoke client request)

theorem openAI_replies {provider : OpenAIProvider} {client : OpenAIClient} {request : LocalRequest}
    {reply : Mapping} (h : provider.invoke client request = .ok reply) : Replies reply := by
  obtain ⟨payload, -, h⟩ := bind_eq_ok.mp h
  obtain ⟨completion, -, h⟩ := bind_eq_ok.mp h
  exact completion_replies h

theorem created_bounded_iff (client : OpenAIClient) (payload : Mapping) :
    RaisesOnly IsOpenAI (do
      let completion ← (client.create payload).mapError translateSdkError
      completion.accept) ↔
    ∀ completion, (client.create payload).toOption = some completion → completion.escape = none := by
  have hraises := client.raises payload
  cases hcreate : client.create payload with
  | error exc =>
    exact iff_of_true (raisesOnly_error.mpr (translateSdkError_isOpenAI (hraises exc hcreate))) nofun
  | ok completion =>
    refine (completion_bounded_iff completion).trans ⟨fun h other heq => ?_, fun h => h _ rfl⟩
    cases heq
    exact h

theorem openAI_boundary_iff (provider : OpenAIProvider) (client : OpenAIClient)
    (request : LocalRequest) :
    provider.Boundary client request ↔ provider.Contained client request := by
  have hbounded : RaisesOnly IsOpenAI (provider.invoke client request) ↔
      provider.Contained client request := by
    refine raisesOnly_bind.trans (and_congr (chatArguments_bounded_iff provider request) ?_)
    unfold OpenAIProvider.answer
    cases provider.chatArguments request with
    | error exc => exact iff_of_true nofun nofun
    | ok payload =>
      simp only [Except.ok.injEq, forall_eq', Except.toOption, Option.bind_some]
      exact created_bounded_iff client payload
  exact ⟨fun h => hbounded.mp h.bounded, fun h => ⟨fun _ => openAI_replies, hbounded.mpr h⟩⟩

end

-- ---------------------------------------------------------------------------
-- A completion without choices
-- ---------------------------------------------------------------------------

def emptyCompletion : ChatCompletion := ⟨[], lit "gpt-4o", none⟩

def emptyClient : OpenAIClient := ⟨fun _ => .ok emptyCompletion, fun _ => raisesOnly_ok _⟩

theorem noChoices_escapes : ¬ @OpenAIProvider.Boundary plainPrinting ⟨lit "gpt-4o", by decide⟩
    emptyClient pingRequest := by
  intro h
  have hraises : IsOpenAI (.raised .indexError (lit "list index out of range")) :=
    @OpenAIProvider.Boundary.bounded plainPrinting _ _ _ h _ rfl
  exact Bool.false_ne_true hraises

end MellivorKernel
