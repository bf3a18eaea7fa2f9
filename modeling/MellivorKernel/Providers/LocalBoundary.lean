import MellivorKernel.Providers.CallReading
import MellivorKernel.Providers.Transport
import MellivorKernel.Python.JsonEq

/-!
# The error boundary of the local provider

Nearly every way in which a request or a response can be wrong becomes a
`LocalProviderError`. Two do not: a value in the request's messages that cannot
be printed, and a tool call in the response whose id or name is blank and not
empty. Both count only where the code reaches them.
-/

namespace MellivorKernel

open Python Foundation

def IsLocal (exc : Exn) : Prop := exc.isA .localProviderError = true

abbrev Bounded (outcome : Except Exn α) : Prop := RaisesOnly IsLocal outcome

theorem isLocal_of_built {exc : Exn} (h : Built localProviderError exc) : IsLocal exc := by
  obtain ⟨message, rfl⟩ := h
  exact (by decide : ExnClass.isA .localProviderError .localProviderError = true)

theorem isLocal_of_built_response {exc : Exn} (h : Built localResponseError exc) : IsLocal exc := by
  obtain ⟨message, rfl⟩ := h
  exact (by decide : ExnClass.isA .localResponseError .localProviderError = true)

-- ---------------------------------------------------------------------------
-- Requests
-- ---------------------------------------------------------------------------

section
variable [Printing]

/-- What printing the messages of a request raises. -/
def LocalRequest.escape (request : LocalRequest) : Option Exn :=
  if request.unknown = [] then messagesEscape (request.field "messages") (request.field "system")
  else none

omit [Printing] in
theorem toolsToChat_raises (error : Str → Exn) (tools : PyValue) :
    RaisesOnly (Built error) (toolsToChat error tools) := by
  have hspec (spec : PyValue) : RaisesOnly (Built error) (toolToChat error spec) := by
    cases spec with
    | toolSpec => exact raisesOnly_ok _
    | _ => exact raisesOnly_error.mpr (built error _)
  have hlist (specs : List PyValue) : RaisesOnly (Built error) (specs.mapM (toolToChat error)) :=
    raisesOnly_mapM fun spec _ => hspec spec
  cases tools with
  | none => exact raisesOnly_ok _
  | list specs | tuple specs => exact (hlist specs).bind fun _ => raisesOnly_ok _
  | _ => exact raisesOnly_error.mpr (built error _)

theorem chatPayload_bounded_iff (provider : LocalProvider) (request : LocalRequest) :
    Bounded (provider.chatPayload request) ↔
      ∀ exc, request.escape = some exc → IsLocal exc := by
  unfold LocalProvider.chatPayload LocalRequest.escape
  by_cases hunknown : request.unknown = []
  · rw [if_neg (not_not.mpr hunknown), if_pos hunknown]
    have htools : Bounded (toolsToChat localProviderError (request.field "tools")) :=
      fun exc h => isLocal_of_built (toolsToChat_raises localProviderError _ exc h)
    refine (raisesOnly_bind_of fun messages => ?_).trans
      ((messagesToChat_yields localProviderError _ _).raisesOnly_iff fun _ => isLocal_of_built)
    cases maxTokens request with
    | none => exact raisesOnly_error.mpr (isLocal_of_built (built _ _))
    | some n => exact htools.bind fun _ => raisesOnly_ok _
  · rw [if_pos hunknown, if_neg hunknown]
    exact iff_of_true (raisesOnly_error.mpr (isLocal_of_built (built _ _))) nofun

end

-- ---------------------------------------------------------------------------
-- Transport
-- ---------------------------------------------------------------------------

theorem isLocal_timeout (message : Str) : IsLocal (.raised .localTimeoutError message) :=
  (by decide : ExnClass.isA .localTimeoutError .localProviderError = true)

theorem isLocal_connection (message : Str) : IsLocal (.raised .localConnectionError message) :=
  (by decide : ExnClass.isA .localConnectionError .localProviderError = true)

theorem post_yields (provider : LocalProvider) (client : Client) (payload : Mapping) :
    Yields IsLocal (provider.post client payload)
      (received (client provider.endpoint payload) (provider.maxRetries + 1) 0) := by
  unfold LocalProvider.post
  dsimp only
  rw [postFrom_eq_retryLoop]
  exact retryLoop_yields _ (isLocal_timeout _) (isLocal_connection _) (Nat.zero_add _)

-- ---------------------------------------------------------------------------
-- Responses
-- ---------------------------------------------------------------------------

def Response.object (response : Response) : Option Mapping :=
  response.json.toOption.bind PyValue.mapping?

/-- The tool calls of a response that is read as far as them. -/
def Response.rawCalls (response : Response) : Option PyValue :=
  response.object.bind fun payload => (firstChoice payload).bind fun choice =>
    ((choice.get? "message").bind PyValue.mapping?).bind fun message =>
      (textOrNull message "content").map fun _ => (message.get? "tool_calls").getD .none

/-- What reading the tool calls of a successful response raises that is no
error of the provider. -/
def Response.escape (response : Response) : Option Exn :=
  if response.isSuccess then response.rawCalls.bind rawCallsEscape else none

theorem needed_yields (found : Option α) (message : String) :
    Yields IsLocal (needed found message) found := by
  cases found with
  | none => exact .raised (isLocal_of_built_response (built _ _))
  | some a => exact .returned a

/-- A body that was encoded from a value JSON gives back is that value. -/
theorem json_dumps [Printing] {v : PyValue} (hj : v.jsonable .strict = true)
    (he : v.eq (v.reread .strict) = true) (statusCode : Nat) :
    (Response.mk statusCode (some (printed (v.dumps .strict)))).json = .ok v := by
  obtain ⟨text, h⟩ := v.dumps_returns.mpr hj
  rw [Response.json, h]
  exact (loads_dumps h).trans (congrArg _ (PyValue.reread_of_eq v he))

theorem payload_yields (response : Response) :
    Yields IsLocal response.payload response.object := by
  unfold Response.payload Response.object
  cases h : response.json with
  | error exc =>
    simp only [json_raises h, if_true]
    exact .raised (isLocal_of_built_response (built _ _))
  | ok payload => exact needed_yields _ _

theorem needed_bounded (found : Option α) (message : String) : Bounded (needed found message) := by
  cases found with
  | none => exact raisesOnly_error.mpr (isLocal_of_built_response (built _ _))
  | some a => exact raisesOnly_ok a

section
variable [Printing]

theorem tokenCount_bounded (usage : Mapping) (fieldName : String) :
    Bounded (tokenCount usage fieldName) := by
  unfold tokenCount
  split
  · exact raisesOnly_ok _
  · exact raisesOnly_error.mpr (isLocal_of_built_response (built _ _))

theorem normalizeResponse_bounded_iff (response : Response) :
    Bounded (normalizeResponse response) ↔
      ∀ exc, response.rawCalls.bind rawCallsEscape = some exc → IsLocal exc := by
  have hcalls (rawCalls : PyValue) (f : List ToolCall → Except Exn Mapping)
      (hf : ∀ calls, Bounded (f calls)) :
      Bounded (toolCallsFromChat localResponseError rawCalls >>= f) ↔
        ∀ exc, rawCallsEscape rawCalls = some exc → IsLocal exc :=
    (raisesOnly_bind_of hf).trans
      ((toolCallsFromChat_yields localResponseError rawCalls).raisesOnly_iff
        fun _ => isLocal_of_built_response)
  unfold normalizeResponse Response.rawCalls
  refine (payload_yields response).raisesOnly_bind.trans ?_
  cases response.object with
  | none => exact iff_of_true nofun nofun
  | some payload =>
    simp only [Option.some.injEq, forall_eq', Option.bind_some]
    refine (needed_yields _ _).raisesOnly_bind.trans ?_
    cases firstChoice payload with
    | none => exact iff_of_true nofun nofun
    | some choice =>
      simp only [Option.some.injEq, forall_eq', Option.bind_some]
      refine (needed_yields _ _).raisesOnly_bind.trans ?_
      cases (choice.get? "message").bind PyValue.mapping? with
      | none => exact iff_of_true nofun nofun
      | some message =>
        simp only [Option.some.injEq, forall_eq', Option.bind_some]
        refine (needed_yields _ _).raisesOnly_bind.trans ?_
        cases textOrNull message "content" with
        | none => exact iff_of_true nofun nofun
        | some text =>
          simp only [Option.some.injEq, forall_eq', Option.map_some, Option.bind_some]
          refine hcalls _ _ fun calls => ?_
          split
          · exact raisesOnly_error.mpr (isLocal_of_built_response (built _ _))
          · exact (needed_bounded _ _).bind fun _ => (needed_bounded _ _).bind fun _ =>
              (needed_bounded _ _).bind fun _ => (tokenCount_bounded _ _).bind fun _ =>
                (tokenCount_bounded _ _).bind fun _ => raisesOnly_ok _

theorem accept_bounded_iff (response : Response) :
    Bounded response.accept ↔ ∀ exc, response.escape = some exc → IsLocal exc := by
  unfold Response.accept Response.escape
  by_cases hauth : response.statusCode = 401 ∨ response.statusCode = 403
  · have hsuccess : response.isSuccess = false := by
      rcases hauth with h | h <;> simp [Response.isSuccess, h]
    rw [if_pos hauth, hsuccess, if_neg Bool.false_ne_true]
    exact iff_of_true (raisesOnly_error.mpr
      (by decide : ExnClass.isA .localAuthenticationError .localProviderError = true)) nofun
  · rw [if_neg hauth]
    split
    · exact normalizeResponse_bounded_iff response
    · exact iff_of_true (raisesOnly_error.mpr (isLocal_of_built (built _ _))) nofun

/-- The mapping `invoke` returns: text, tool calls, or both. -/
def Normalized (reply : Mapping) : Prop :=
  ∃ (text : Str) (toolCalls : List ToolCall) (model : Str) (finishReason : Option Str)
    (promptTokens completionTokens : Nat), (text ≠ [] ∨ toolCalls ≠ []) ∧
      reply = [item "text" (.str text), item "tool_calls" (.tuple (toolCalls.map ToolCall.toValue)),
        item "model" (.str model), item "finish_reason" (finishReason.elim .none .str),
        item "prompt_tokens" (.int promptTokens),
        item "completion_tokens" (.int completionTokens)]

theorem normalizeResponse_ok {response : Response} {reply : Mapping}
    (h : normalizeResponse response = .ok reply) : Normalized reply := by
  obtain ⟨payload, -, h⟩ := bind_eq_ok.mp h
  obtain ⟨choice, -, h⟩ := bind_eq_ok.mp h
  obtain ⟨message, -, h⟩ := bind_eq_ok.mp h
  obtain ⟨text, -, h⟩ := bind_eq_ok.mp h
  obtain ⟨toolCalls, -, h⟩ := bind_eq_ok.mp h
  split at h
  · cases h
  · rename_i hsome
    obtain ⟨model, -, h⟩ := bind_eq_ok.mp h
    obtain ⟨finishReason, -, h⟩ := bind_eq_ok.mp h
    obtain ⟨usage, -, h⟩ := bind_eq_ok.mp h
    obtain ⟨promptTokens, -, h⟩ := bind_eq_ok.mp h
    obtain ⟨completionTokens, -, h⟩ := bind_eq_ok.mp h
    cases h
    refine ⟨_, toolCalls, model, finishReason, promptTokens, completionTokens, ?_, rfl⟩
    rwa [not_and_or, List.isEmpty_iff] at hsome

-- ---------------------------------------------------------------------------
-- The boundary
-- ---------------------------------------------------------------------------

def LocalProvider.answer (provider : LocalProvider) (client : Client) (request : LocalRequest) :
    Option Response :=
  (provider.chatPayload request).toOption.bind fun payload =>
    received (client provider.endpoint payload) (provider.maxRetries + 1) 0

/-- Printing the messages raises nothing else than `LocalProviderError`s, and
neither does reading the tool calls of the answer. -/
def LocalProvider.Contained (provider : LocalProvider) (client : Client) (request : LocalRequest) :
    Prop :=
  (∀ exc, request.escape = some exc → IsLocal exc) ∧
    ∀ exc, (provider.answer client request).bind Response.escape = some exc → IsLocal exc

theorem invoke_ok {provider : LocalProvider} {client : Client} {request : LocalRequest}
    {reply : Mapping} (h : provider.invoke client request = .ok reply) : Normalized reply := by
  obtain ⟨payload, -, h⟩ := bind_eq_ok.mp h
  obtain ⟨response, -, h⟩ := bind_eq_ok.mp h
  unfold Response.accept at h
  split at h
  · cases h
  · split at h
    · exact normalizeResponse_ok h
    · cases h

theorem invoke_bounded_iff (provider : LocalProvider) (client : Client) (request : LocalRequest) :
    Bounded (provider.invoke client request) ↔ provider.Contained client request := by
  refine raisesOnly_bind.trans (and_congr (chatPayload_bounded_iff provider request) ?_)
  unfold LocalProvider.answer
  cases provider.chatPayload request with
  | error exc => simp [Except.toOption]
  | ok payload =>
    simp only [Except.ok.injEq, forall_eq', Except.toOption, Option.bind_some]
    refine (post_yields provider client payload).raisesOnly_bind.trans ?_
    cases received (client provider.endpoint payload) (provider.maxRetries + 1) 0 with
    | none => simp
    | some response =>
      simp only [Option.some.injEq, forall_eq', Option.bind_some]
      exact accept_bounded_iff response

theorem checkHealth_returns_iff (provider : LocalProvider) (client : Client) :
    Returns (provider.checkHealth client) ↔ provider.Contained client pingRequest := by
  rw [← invoke_bounded_iff]
  unfold LocalProvider.checkHealth
  cases provider.invoke client pingRequest with
  | ok reply => exact iff_of_true (returns_ok _) (raisesOnly_ok _)
  | error exc =>
    refine Iff.trans ?_ raisesOnly_error.symm
    by_cases h : exc.isA .localProviderError = true
    · simp only [h, if_true]
      exact iff_of_true (returns_ok _) h
    · simp only [h]
      exact iff_of_false (not_returns_error _) h

theorem answer_of_returns {provider : LocalProvider} {request : LocalRequest}
    (h : Returns (provider.chatPayload request)) (response : Response) :
    provider.answer (fun _ _ _ => .response response) request = some response := by
  obtain ⟨payload, hpayload⟩ := h
  rw [LocalProvider.answer, hpayload]
  rfl

/-- What a caller relies on: a normalized reply or a `LocalProviderError`, and
a health check that never raises. -/
structure LocalProvider.Boundary (provider : LocalProvider) (client : Client)
    (request : LocalRequest) : Prop where
  normalized : ∀ reply, provider.invoke client request = .ok reply → Normalized reply
  bounded : Bounded (provider.invoke client request)
  healthReturns : Returns (provider.checkHealth client)

theorem boundary_iff (provider : LocalProvider) (client : Client) (request : LocalRequest) :
    provider.Boundary client request ↔
      provider.Contained client request ∧ provider.Contained client pingRequest := by
  rw [← invoke_bounded_iff, ← checkHealth_returns_iff]
  exact ⟨fun h => ⟨h.bounded, h.healthReturns⟩, fun h => ⟨fun _ => invoke_ok, h.1, h.2⟩⟩

end

def localModel : LocalProvider := ⟨lit "http://localhost:8000", lit "small", 0, rfl⟩

def blankIdPayload : PyValue :=
  .dict [item "choices" (.list [.dict [item "message" (.dict [item "tool_calls" (.list [.dict
    [item "id" (.str (lit " ")), item "function" (.dict [item "name" (.str (lit "a"))])]])])]])]

def blankIdResponse : Response :=
  ⟨200, some (printed (@PyValue.dumps plainPrinting .strict blankIdPayload))⟩

theorem blankId_escapes : ¬ @LocalProvider.Boundary plainPrinting localModel
    (fun _ _ _ => .response blankIdResponse) pingRequest := by
  intro h
  have hjson : blankIdResponse.json = .ok blankIdPayload := @json_dumps plainPrinting _ rfl rfl 200
  have hobject : blankIdResponse.object = blankIdPayload.mapping? := by
    rw [Response.object, hjson]
    rfl
  have hescape : blankIdResponse.escape =
      some (.raised .toolCallingError (lit "ToolCall.id must not be blank.")) := by
    rw [Response.escape, Response.rawCalls, hobject]
    rfl
  have hcontained := (@invoke_bounded_iff plainPrinting _ _ _).mp
    (@LocalProvider.Boundary.bounded plainPrinting _ _ _ h)
  have hping : Returns (@LocalProvider.chatPayload plainPrinting localModel pingRequest) := ⟨_, rfl⟩
  have hanswer := @answer_of_returns plainPrinting _ _ hping blankIdResponse
  have hlocal : IsLocal (.raised .toolCallingError (lit "ToolCall.id must not be blank.")) :=
    hcontained.2 _ (by rw [hanswer, Option.bind_some, hescape])
  exact Bool.false_ne_true hlocal

end MellivorKernel
