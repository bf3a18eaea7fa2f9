import MellivorKernel.Execution.Transcript

/-!
# What the model is told

The records of a returning run, and with them the `tool_result` blocks the model
gets to read, account for all that the hook and the execution engine were asked
about tools, in order: each says what the hook or the engine answered, and none
says that a call was executed or succeeded that was not (`run_told`).
-/

namespace MellivorKernel

open Python Foundation Program

/-- A call that is made on behalf of a tool call. -/
def LoopCall.forTool : LoopCall → Bool
  | .publish _ => false
  | .consult .. => true
  | .execute request .. => request.target = .tool

def toolSide (log : List LoopCall) : List LoopCall := log.filter LoopCall.forTool

theorem toolSide_append (xs ys : List LoopCall) : toolSide (xs ++ ys) = toolSide xs ++ toolSide ys :=
  List.filter_append _ _

/-- A record and the calls made for it. The text is the fixed one of a tool that
is not offered, the hook's reason, or what the engine's answer is printed as. -/
inductive Accounts [Printing] (setup : LoopSetup) : ToolCallRecord → List LoopCall → Prop
  | unoffered {call : ToolCall} (hname : call.name ∉ setup.allowed) :
      Accounts setup ⟨call, false, false, notOffered⟩ []
  | declined {call : ToolCall} {decision : ToolCallDecision} (hname : call.name ∈ setup.allowed)
      (hdeclined : decision.allowed = false) :
      Accounts setup ⟨call, false, false, decision.text⟩ [.consult call (.ok decision)]
  | executed {call : ToolCall} {decision : ToolCallDecision} {request : ExecutionRequest}
      {outcome : ExecutionResult} {text : Str} (hname : call.name ∈ setup.allowed)
      (hallowed : decision.allowed = true) (htarget : request.target = .tool)
      (hoperation : request.operation = call.name) (hpayload : request.payload = call.arguments)
      (htext : outcome.rendered = .ok text) :
      Accounts setup ⟨call, true, outcome.success, text⟩ [.consult call (.ok decision),
        .execute request setup.context setup.grantedPermissions (.ok outcome)]

section
variable [Printing] {loop : ToolCallLoop} {setup : LoopSetup}

omit [Printing] in
theorem toolSide_told (event : Event) : toolSide (told .publish loop.eventBus event) = [] := by
  unfold told
  split <;> rfl

omit [Printing] in
theorem request_ok {target : ExecutionTarget} {operation : Str} {payload : Mapping} {id : Str}
    {request : ExecutionRequest} (h : ExecutionRequest.new target operation payload id = .ok request) :
    request.target = target ∧ request.operation = operation ∧ request.payload = payload := by
  unfold ExecutionRequest.new at h
  split at h
  · split at h <;> cases h
    exact ⟨rfl, rfl, rfl⟩
  · cases h

omit [Printing] in
theorem reject_told (call : ToolCall) (reason : Str) :
    (loop.reject call reason).Traces fun outcome made => toolSide made = [] ∧ ∀ p, outcome = .ok p →
      p.1 = p.2.block ∧ p.2 = ⟨call, false, false, reason⟩ := by
  refine .bind (publish_traces loop _) ?_ ?_
  · rintro e made rfl
    exact ⟨toolSide_told _, nofun⟩
  · rintro - made rfl
    refine .pure ⟨by rw [List.append_nil, toolSide_told], ?_⟩
    rintro p ⟨⟩
    exact ⟨rfl, rfl⟩

theorem handle_told (iteration : Nat) (call : ToolCall) :
    (loop.handle setup iteration call).Traces fun outcome made => ∀ p, outcome = .ok p →
      p.1 = p.2.block ∧ Accounts setup p.2 (toolSide made) := by
  refine .bind_returned (publish_traces loop _) ?_
  rintro - requested rfl
  split
  · rename_i hname
    refine (reject_told call notOffered).mono fun outcome made h p hp => ?_
    obtain ⟨hmade, hreject⟩ := h
    obtain ⟨hblock, hrecord⟩ := hreject p hp
    rw [toolSide_append, toolSide_told, hmade, hrecord]
    exact ⟨hrecord ▸ hblock, .unoffered hname⟩
  · rename_i hname
    rw [not_not] at hname
    refine .bind_returned (consult_traces setup call) ?_
    rintro decision consulted rfl
    split
    · rename_i hdeclined
      refine (reject_told call decision.text).mono fun outcome made h p hp => ?_
      obtain ⟨hmade, hreject⟩ := h
      obtain ⟨hblock, hrecord⟩ := hreject p hp
      rw [toolSide_append, toolSide_told, toolSide_append, hmade, hrecord]
      exact ⟨hrecord ▸ hblock, .declined hname (by simpa using hdeclined)⟩
    · rename_i hallowed
      refine .history_bind fun log => .lift_bind_returned fun request hrequest => ?_
      obtain ⟨htarget, hoperation, hpayload⟩ := request_ok hrequest
      refine .bind_returned (execute_traces loop _ _ _) ?_
      rintro outcome executed rfl
      refine .lift_bind_returned fun text htext => ?_
      refine .bind_returned (publish_traces loop _) ?_
      rintro - completed rfl
      refine .pure ?_
      rintro p ⟨⟩
      refine ⟨rfl, ?_⟩
      simp only [toolSide_append, toolSide_told, List.nil_append, List.append_nil]
      have hside : toolSide [.execute request setup.context setup.grantedPermissions (.ok outcome)] =
          [.execute request setup.context setup.grantedPermissions (.ok outcome)] := by
        simp [toolSide, LoopCall.forTool, htarget]
      rw [hside]
      exact .executed hname (by simpa using hallowed) htarget hoperation hpayload htext

def AccountsAll (setup : LoopSetup) (records : List ToolCallRecord) (log : List LoopCall) : Prop :=
  ∃ chunks : List (List LoopCall), toolSide log = chunks.flatten ∧
    List.Forall₂ (Accounts setup) records chunks

theorem AccountsAll.append {records more : List ToolCallRecord} {log later : List LoopCall}
    (h : AccountsAll setup records log) (hmore : AccountsAll setup more later) :
    AccountsAll setup (records ++ more) (log ++ later) := by
  obtain ⟨chunks, hlog, hall⟩ := h
  obtain ⟨chunks', hlater, hall'⟩ := hmore
  exact ⟨chunks ++ chunks', by rw [toolSide_append, hlog, hlater, List.flatten_append],
    List.rel_append hall hall'⟩

theorem AccountsAll.nil {log : List LoopCall} (h : toolSide log = []) : AccountsAll setup [] log :=
  ⟨[], h, .nil⟩

theorem AccountsAll.one {record : ToolCallRecord} {log : List LoopCall}
    (h : Accounts setup record (toolSide log)) : AccountsAll setup [record] log :=
  ⟨[toolSide log], (List.append_nil _).symm, .cons h .nil⟩

theorem handleAll_told (iteration : Nat) (calls : List ToolCall) :
    (loop.handleAll setup iteration calls).Traces fun outcome made => ∀ handled, outcome = .ok handled →
      AccountsAll setup (handled.map Prod.snd) made := by
  induction calls with
  | nil =>
    refine .pure ?_
    rintro handled ⟨⟩
    exact .nil rfl
  | cons call rest ih =>
    refine .bind_returned (handle_told iteration call) fun p made hp => ?_
    refine .bind_returned ih fun ps more hps => .pure ?_
    rintro handled ⟨⟩
    rw [List.append_nil]
    exact (AccountsAll.one (hp p rfl).2).append (hps ps rfl)

theorem rounds_told (remaining iteration : Nat) (history : List PyValue)
    (records : List ToolCallRecord) :
    (loop.rounds setup remaining iteration history records).Traces fun outcome made =>
      ∀ result, outcome = .ok result → ∃ more, result.toolCalls = records ++ more ∧
        AccountsAll setup more made := by
  induction remaining generalizing iteration history records with
  | zero =>
    refine .pure ?_
    rintro result ⟨⟩
    exact ⟨[], (List.append_nil _).symm, .nil rfl⟩
  | succ remaining ih =>
    refine .history_bind fun log => .lift_bind_returned fun request hrequest => ?_
    obtain ⟨htarget, -, -⟩ := request_ok hrequest
    refine .bind_returned (execute_traces loop _ _ _) ?_
    rintro response made rfl
    have hside : toolSide [.execute request setup.context [] (.ok response)] = [] := by
      simp [toolSide, LoopCall.forTool, htarget]
    cases answered? response with
    | none =>
      refine .pure ?_
      rintro result ⟨⟩
      exact ⟨[], (List.append_nil _).symm, .nil (by rw [List.append_nil, hside])⟩
    | some answer =>
      obtain ⟨text, calls⟩ := answer
      simp only
      split
      · refine .pure ?_
        rintro result ⟨⟩
        exact ⟨[], (List.append_nil _).symm, .nil (by rw [List.append_nil, hside])⟩
      · refine .bind_returned (handleAll_told _ calls) fun handled made hhandled => ?_
        refine .lift_bind_returned fun results _ => ?_
        refine (ih _ _ _).mono fun outcome later hlater result hresult => ?_
        obtain ⟨more, htoolCalls, hmore⟩ := hlater result hresult
        refine ⟨handled.map Prod.snd ++ more, by rw [htoolCalls, List.append_assoc], ?_⟩
        exact (AccountsAll.nil hside).append ((hhandled handled rfl).append hmore)

theorem run_accounts {providerName : Str} {messages : List PyValue} {toolIds : List Str}
    {context : ExecutionContext} {options : ToolLoopOptions} {granted : List Str}
    {specs : List ToolSpec} (hspecs : loop.describe toolIds = .ok specs) :
    (loop.run providerName messages toolIds context options granted).Traces fun outcome made =>
      ∀ result, outcome = .ok result →
        AccountsAll ⟨providerName, specs, context, options, granted⟩ result.toolCalls made := by
  unfold ToolCallLoop.run
  split
  · exact .lift (r := .error _) nofun
  · split
    · exact .lift (r := .error _) nofun
    · rw [hspecs]
      refine .lift_bind_returned ?_
      rintro specs ⟨⟩
      refine .lift_bind_returned fun _ _ => ?_
      refine (rounds_told _ _ _ _).mono fun outcome made h result hresult => ?_
      obtain ⟨more, htoolCalls, hmore⟩ := h result hresult
      rw [htoolCalls]
      exact hmore

-- ---------------------------------------------------------------------------
-- What the messages say
-- ---------------------------------------------------------------------------

omit [Printing] in
theorem blocksOf_assistant (text : Str) (calls : List ToolCall) :
    blocksOf "tool_result" (assistantMessage text calls) = [] := by
  have hmessage : blocksOf "tool_result" (assistantMessage text calls) =
      (((assistantBlocks text calls).map PyValue.dict).filterMap PyValue.mapping?).filter
        fun block => (block.get? "type").bind PyValue.str? = some (lit "tool_result") := rfl
  rw [hmessage, mapping?_map_dict, List.filter_eq_nil_iff]
  intro block hblock
  rcases List.mem_append.mp hblock with hblock | hblock
  · split at hblock
    · cases hblock
    · simp [List.mem_singleton.mp hblock, textBlock, PyValue.str?]
  · obtain ⟨call, -, rfl⟩ := List.mem_map.mp hblock
    simp [toolUseBlock, PyValue.str?]

omit [Printing] in
theorem Turn.results_eq (turn : Turn) : turn.messages.flatMap (blocksOf "tool_result") =
    turn.records.map fun record => toolResultBlock record.block := by
  rw [Turn.messages, List.flatMap_cons, Turn.assistant, blocksOf_assistant, List.nil_append]
  unfold Turn.user
  split
  · rename_i hnone
    rw [List.isEmpty_iff.mp hnone]
    rfl
  · rw [Option.toList_some, List.flatMap_singleton, blocksOf_toolResults, List.map_map]
    rfl

omit [Printing] in
theorem turns_results (turns : List Turn) :
    (turns.flatMap Turn.messages).flatMap (blocksOf "tool_result") =
      (turns.flatMap Turn.records).map fun record => toolResultBlock record.block := by
  rw [List.flatMap_assoc, List.map_flatMap]
  exact List.flatMap_congr fun turn _ => turn.results_eq

/-- What the model reads is what the records say, and the records account for
all that was asked about tools. -/
structure Told (setup : LoopSetup) (messages : List PyValue) (result : ToolLoopResult)
    (log : List LoopCall) : Prop where
  shown : ∃ added, result.messages = messages ++ added ∧
    added.flatMap (blocksOf "tool_result") =
      result.toolCalls.map fun record => toolResultBlock record.block
  accounted : AccountsAll setup result.toolCalls log

/-- Every returning run tells the model and the caller what the hook and the
engine answered, and nothing else. -/
theorem run_told {providerName : Str} {messages : List PyValue} {toolIds : List Str}
    {context : ExecutionContext} {options : ToolLoopOptions} {granted : List Str}
    {result : ToolLoopResult} {log : List LoopCall}
    (h : (loop.run providerName messages toolIds context options granted).exec [] =
      (.ok result, log)) :
    ∃ specs, loop.describe toolIds = .ok specs ∧
      Told ⟨providerName, specs, context, options, granted⟩ messages result log := by
  obtain ⟨⟨e, he⟩, -⟩ | ⟨specs, hspecs, hrun⟩ := run_loopRun loop h
  · cases he
  obtain ⟨turns, hlaw⟩ := hrun.rounds rfl
  obtain ⟨made, hmade, haccounts⟩ := run_accounts hspecs []
  rw [h] at hmade haccounts
  obtain rfl : log = made := by simpa using hmade
  refine ⟨specs, hspecs, ⟨turns.flatMap Turn.messages, hlaw.messages, ?_⟩, haccounts result rfl⟩
  rw [turns_results, hlaw.toolCalls, List.nil_append]

end

theorem echoLoop_told : ∃ result log specs,
    @echoRun plainPrinting echoRequest [item "text" (.str (lit "Done."))] = (.ok result, log) ∧
    @Told plainPrinting ⟨lit "model", specs, ⟨0, 0, 0, 0⟩, echoOptions, []⟩
      [userMessage (lit "Hello.")] result log := by
  obtain ⟨result, log, hrun⟩ : ∃ result log,
      @echoRun plainPrinting echoRequest [item "text" (.str (lit "Done."))] = (.ok result, log) :=
    ⟨_, _, rfl⟩
  obtain ⟨specs, -, htold⟩ := @run_told plainPrinting _ _ _ _ _ _ _ _ _ hrun
  exact ⟨result, log, specs, hrun, htold⟩

end MellivorKernel
