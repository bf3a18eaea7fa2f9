import MellivorKernel.Execution.LoopEnforcement
import MellivorKernel.Execution.OfferedCalls

/-!
# A loop and its provider

How often a run of a tool loop invokes its provider, and with what: with the
messages the run was started with, and then, after each answer with tool calls,
with the turn made of that answer next to the messages before
(`run_corresponds`). What a provider makes of these requests is said of each
provider.
-/

namespace MellivorKernel

open Python Foundation Program

/-- Executions that find one provider under a name, which may answer
differently each time. -/
structure Backend [Printing] where
  execution : List LoopCall → ExecutionEngine
  providerName : Str
  invoke : List LoopCall → Mapping → Except Exn Mapping
  registered : ∀ history, ∃ provider,
    (execution history).dispatcher.providerRegistry.get providerName = .ok provider ∧
      provider.invoke = invoke history

/-- A request that a provider was invoked with, and what the loop had called
before that. -/
structure Inquiry where
  before : List LoopCall
  payload : Mapping

/-- The provider answers the requests of a loop: one request for each round,
and the turn of each answer with calls in the next one. -/
inductive Correspondence (setup : LoopSetup) (invoke : List LoopCall → Mapping → Except Exn Mapping) :
    List PyValue → List Inquiry → Prop
  | silent {history : List PyValue} : Correspondence setup invoke history []
  | last {history : List PyValue} (before : List LoopCall) :
      Correspondence setup invoke history
        [⟨before, providerPayload history setup.specs setup.options⟩]
  | next {history : List PyValue} {before : List LoopCall} {answer : Mapping} {text : Str}
      {records : List ToolCallRecord} {rest : List Inquiry}
      (hanswer : invoke before (providerPayload history setup.specs setup.options) = .ok answer)
      (hparse : parse answer = (text, records.map ToolCallRecord.call)) (hne : records ≠ [])
      (hrest : Correspondence setup invoke
        (history ++ [assistantMessage text (records.map ToolCallRecord.call),
          toolResults (records.map ToolCallRecord.block)]) rest) :
      Correspondence setup invoke history
        (⟨before, providerPayload history setup.specs setup.options⟩ :: rest)

section
variable [Printing] (backend : Backend)

def Call.payload? (providerName : Str) : Call → Option Mapping
  | .invoke name payload => if name = providerName then some payload else none
  | _ => none

def Backend.inquiries (before : List LoopCall) (c : LoopCall) : List Inquiry :=
  ((c.inner backend.execution before).filterMap (Call.payload? backend.providerName)).map
    (⟨before, ·⟩)

def Backend.inquiriesAfter (before log : List LoopCall) : List Inquiry :=
  (seenAfter backend.inquiries before log).flatten

theorem Backend.inquiriesAfter_cons (before : List LoopCall) (c : LoopCall)
    (rest : List LoopCall) : backend.inquiriesAfter before (c :: rest) =
      backend.inquiries before c ++ backend.inquiriesAfter (before ++ [c]) rest := rfl

theorem Backend.inquiriesAfter_append (before log more : List LoopCall) :
    backend.inquiriesAfter before (log ++ more) =
      backend.inquiriesAfter before log ++ backend.inquiriesAfter (before ++ log) more := by
  rw [Backend.inquiriesAfter, seenAfter_append, List.flatten_append]
  rfl

-- ---------------------------------------------------------------------------
-- One request
-- ---------------------------------------------------------------------------

def Backend.payload? (request : ExecutionRequest) : Option Mapping :=
  if request.target = .provider ∧ request.operation = backend.providerName then
    some request.payload
  else none

omit [Printing] in
theorem filterMap_payload? (providerName : Str) (calls : List Call) :
    calls.filterMap (Call.payload? providerName) =
      (calls.filterMap Call.reached?).filterMap fun (target, name, payload) =>
        if target = .provider ∧ name = providerName then some payload else none := by
  rw [List.filterMap_filterMap]
  refine List.filterMap_congr fun c _ => ?_
  cases c with
  | invoke name payload => simp [Call.payload?, Call.reached?]
  | _ => rfl

theorem inquiries_execute (before : List LoopCall) (request : ExecutionRequest)
    (context : ExecutionContext) (granted : List Str) (answer : Except Exn ExecutionResult) :
    (∃ made, Fulfilled (backend.execution before).dispatcher request
        (((backend.execution before).execute request context granted).exec []).1 made) ∧
    (backend.inquiries before (.execute request context granted answer) = [] ∧
        (∀ result, (((backend.execution before).execute request context granted).exec []).1 =
          .ok result → result.success = false) ∨
      backend.inquiries before (.execute request context granted answer) =
        (backend.payload? request).toList.map (⟨before, ·⟩)) := by
  obtain ⟨made, hmade, hfulfilled⟩ :=
    execute_fulfilled (backend.execution before) request context granted []
  refine ⟨⟨made, hfulfilled⟩, ?_⟩
  have hinquiries : backend.inquiries before (.execute request context granted answer) =
      ((made.filterMap Call.reached?).filterMap fun (target, name, payload) =>
        if target = .provider ∧ name = backend.providerName then some payload else none).map
          (⟨before, ·⟩) := by
    rw [Backend.inquiries, LoopCall.inner, hmade, List.nil_append, filterMap_payload?]
  rcases hfulfilled.once with hnone | hone
  · refine .inl ⟨by rw [hinquiries, hnone]; rfl, fun result hresult => ?_⟩
    by_contra hsuccess
    exact hfulfilled.reached result hresult (by simpa using hsuccess) hnone
  · refine .inr ?_
    rw [hinquiries, hone, Backend.payload?]
    split <;> rename_i h <;> simp [h]

variable {backend} {loop : ToolCallLoop} {setup : LoopSetup} {history : List PyValue}
  {before : List LoopCall} {request : ExecutionRequest}

theorem corresponds_asked (hasked : Asked setup history request) (context : ExecutionContext)
    (granted : List Str) (answer : Except Exn ExecutionResult) :
    Correspondence setup backend.invoke history
      (backend.inquiries before (.execute request context granted answer)) := by
  obtain ⟨-, ⟨hnone, -⟩ | hone⟩ :=
    inquiries_execute backend before request context granted answer
  · rw [hnone]
    exact .silent
  · rw [hone, Backend.payload?]
    split
    · rw [hasked.payload]
      exact .last before
    · exact .silent

theorem inquiry_answered (hname : setup.providerName = backend.providerName)
    (hasked : Asked setup history request) {context : ExecutionContext} {granted : List Str}
    {response : ExecutionResult}
    (hresponse : .ok response = (loop.over backend.execution).engine before request context granted)
    {round : Str × List ToolCall} (hanswer : answered? response = some round) :
    backend.inquiries before (.execute request context granted (.ok response)) =
        [⟨before, providerPayload history setup.specs setup.options⟩] ∧
      ∃ answer, backend.invoke before (providerPayload history setup.specs setup.options) =
        .ok answer ∧ parse answer = round := by
  obtain ⟨⟨made, hfulfilled⟩, hinquiries⟩ :=
    inquiries_execute backend before request context granted (.ok response)
  have hoperation : request.operation = backend.providerName := hasked.operation.trans hname
  have hsuccess : response.success = true := by
    rw [answered?] at hanswer
    split at hanswer
    · assumption
    · cases hanswer
  obtain ⟨provider, answer, hget, hinvoke, hpayload⟩ :=
    hfulfilled.paid response hresponse.symm hsuccess hasked.target
  obtain ⟨provider', hregistered, hprovider⟩ := backend.registered before
  rw [hoperation, hregistered] at hget
  cases hget
  rw [hprovider, hasked.payload] at hinvoke
  refine ⟨?_, answer, hinvoke, ?_⟩
  · rcases hinquiries with ⟨-, hfailed⟩ | hone
    · rw [hfailed response hresponse.symm] at hsuccess
      cases hsuccess
    · rw [hone, Backend.payload?, if_pos ⟨hasked.target, hoperation⟩, hasked.payload]
      rfl
  · rw [answered?, if_pos hsuccess, hpayload] at hanswer
    exact Option.some.inj hanswer

-- ---------------------------------------------------------------------------
-- The rounds
-- ---------------------------------------------------------------------------

theorem inquiriesAfter_handled {iteration : Nat} {handled : List Handled} {made : List LoopCall}
    (hfits : ∀ x ∈ handled, x.Fits setup)
    (hmade : ∀ c ∈ made, c ∈ handled.flatMap (Handled.calls loop setup iteration)) :
    backend.inquiriesAfter before made = [] := by
  have hone (before : List LoopCall) {c : LoopCall} (hc : c ∈ made) :
      backend.inquiries before c = [] := by
    obtain ⟨x, hx, hcall⟩ := List.mem_flatMap.mp (hmade c hc)
    cases c with
    | publish | consult => rfl
    | execute request context granted answer =>
      have hprovider := Handled.not_asks_provider (hfits x hx) hcall
      have hnone : backend.payload? request = none := if_neg fun h => hprovider h.1
      obtain ⟨-, ⟨hempty, -⟩ | hempty⟩ :=
        inquiries_execute backend before request context granted answer
      · exact hempty
      · rw [hempty, hnone]
        rfl
  clear hmade
  induction made generalizing before with
  | nil => rfl
  | cons c rest ih =>
    rw [Backend.inquiriesAfter_cons, hone before List.mem_cons_self, List.nil_append]
    exact ih fun before c hc => hone before (List.mem_cons_of_mem _ hc)

theorem LoopRun.corresponds {offered granted : List Str} {remaining iteration : Nat}
    {history : List PyValue} {records : List ToolCallRecord}
    {outcome : Except Exn ToolLoopResult} {log : List LoopCall}
    (h : LoopRun (loop.over backend.execution) setup remaining iteration history records outcome
      log) (hname : setup.providerName = backend.providerName)
    (hfollows : FollowsAfter (Submits (loop.over backend.execution) offered granted) before log) :
    Correspondence setup backend.invoke history (backend.inquiriesAfter before log) := by
  induction h generalizing before with
  | spent | unasked => exact .silent
  | raised hasked | failed hasked | answered hasked =>
    rw [Backend.inquiriesAfter_cons, Backend.inquiriesAfter, seenAfter, List.flatten_nil,
      List.append_nil]
    exact corresponds_asked hasked _ _ _
  | cut hasked hanswer hcalls hfits hmade =>
    rw [Backend.inquiriesAfter_cons, inquiriesAfter_handled hfits fun c hc => hmade.subset hc,
      List.append_nil]
    exact corresponds_asked hasked _ _ _
  | @next _ _ history records request response text outcome made handled more hasked hanswer hne
      hfits hrecords hrest ih =>
    obtain ⟨hsubmits, hfollows⟩ := followsAfter_cons.mp hfollows
    obtain ⟨-, hlater⟩ := followsAfter_append.mp hfollows
    obtain ⟨hinquiries, answer, hinvoke, hparse⟩ :=
      inquiry_answered hname hasked hsubmits.1 hanswer
    obtain ⟨hcalls, -, -⟩ := forall₂_recorded hrecords
    have hsome : more ≠ [] := by
      rintro rfl
      exact hne (List.forall₂_nil_right_iff.mp hrecords)
    have hrest := ih hlater
    rw [Backend.inquiriesAfter_cons, Backend.inquiriesAfter_append, hinquiries,
      inquiriesAfter_handled hfits fun c hc => hc, List.nil_append]
    rw [hcalls] at hparse hrest
    exact .next hinvoke hparse hsome hrest

/-- Every run of a loop over a provider, however it ends, corresponds with it. -/
theorem run_corresponds (backend : Backend) {messages : List PyValue} {toolIds : List Str}
    {context : ExecutionContext} {options : ToolLoopOptions} {granted : List Str}
    {specs : List ToolSpec} (hspecs : loop.describe toolIds = .ok specs) :
    Correspondence ⟨backend.providerName, specs, context, options, granted⟩ backend.invoke messages
      (backend.inquiriesAfter [] (((loop.over backend.execution).run backend.providerName messages
        toolIds context options granted).exec []).2) := by
  cases hrun : ((loop.over backend.execution).run backend.providerName messages toolIds context
    options granted).exec [] with
  | mk outcome log =>
    obtain ⟨-, rfl⟩ | ⟨specs', hspecs', hloop⟩ := run_loopRun _ hrun
    · exact .silent
    · have hdescribe : (loop.over backend.execution).describe toolIds = loop.describe toolIds :=
        describe_congr (by rfl) toolIds
      rw [hdescribe, hspecs] at hspecs'
      cases hspecs'
      obtain ⟨new, hnew, hfollows⟩ := @run_abides (loop.over backend.execution) _
        backend.providerName messages toolIds context options granted
      rw [hrun] at hnew
      obtain rfl : log = new := by simpa using hnew
      exact hloop.corresponds rfl hfollows

end

end MellivorKernel
