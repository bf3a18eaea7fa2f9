import MellivorKernel.Execution.LoopRun

/-!
# What a tool loop returns

The transcript of a returning run, against the answers its provider rounds
got: which messages it appends, how tool results pair up with tool calls, and
which of its three ends it came to (`run_transcript`).
-/

namespace MellivorKernel

open Python Foundation Program

-- ---------------------------------------------------------------------------
-- Provider rounds in a log
-- ---------------------------------------------------------------------------

def LoopCall.providerAnswer? : LoopCall → Option (Except Exn ExecutionResult)
  | .execute request _ _ answer => if request.target = .provider then some answer else none
  | .publish _ | .consult .. => none

def providerAnswers (log : List LoopCall) : List (Except Exn ExecutionResult) :=
  log.filterMap LoopCall.providerAnswer?

def roundOf : Except Exn ExecutionResult → Option (Str × List ToolCall)
  | .ok response => answered? response
  | .error _ => none

-- ---------------------------------------------------------------------------
-- Turns
-- ---------------------------------------------------------------------------

structure Turn where
  text : Str
  records : List ToolCallRecord

def Turn.calls (turn : Turn) : List ToolCall := turn.records.map ToolCallRecord.call

def Turn.assistant (turn : Turn) : PyValue := assistantMessage turn.text turn.calls

def Turn.user (turn : Turn) : Option PyValue :=
  if turn.records.isEmpty then none else some (toolResults (turn.records.map ToolCallRecord.block))

def Turn.messages (turn : Turn) : List PyValue := turn.assistant :: turn.user.toList

/-- The results of a turn answer its calls one by one, under the same ids and
in the same order, and say what the records say. -/
structure Turn.Paired (turn : Turn) : Prop where
  user : turn.user.isSome ↔ blocksOf "tool_use" turn.assistant ≠ []
  uses : (blocksOf "tool_use" turn.assistant).map (·.get? "id") =
    turn.records.map fun record => some (.str record.call.id)
  results : ∀ user ∈ turn.user, (blocksOf "tool_result" user).map (·.get? "tool_call_id") =
    (blocksOf "tool_use" turn.assistant).map (·.get? "id")
  contents : ∀ user ∈ turn.user,
    (blocksOf "tool_result" user).map (fun block => (block.get? "content", block.get? "is_error")) =
      turn.records.map fun record => (some (.str record.result), some (.bool !record.success))

theorem Turn.user_of_records {turn : Turn} (h : turn.records ≠ []) :
    turn.user = some (toolResults (turn.records.map ToolCallRecord.block)) := by
  rw [Turn.user, if_neg (by simpa using h)]

theorem Turn.mem_user {turn : Turn} {user : PyValue} (h : user ∈ turn.user) :
    turn.records ≠ [] ∧ user = toolResults (turn.records.map ToolCallRecord.block) := by
  unfold Turn.user at h
  split at h
  · cases h
  · rename_i hne
    exact ⟨by simpa using hne, (Option.some.inj h).symm⟩

theorem Turn.paired (turn : Turn) : turn.Paired := by
  have huses : (blocksOf "tool_use" turn.assistant).map (·.get? "id") =
      turn.records.map fun record => some (.str record.call.id) := by
    simp [Turn.assistant, Turn.calls, blocksOf_assistantMessage, toolUseBlock]
  refine ⟨?_, huses, fun user h => ?_, fun user h => ?_⟩
  · simp [Turn.user, Turn.assistant, Turn.calls, blocksOf_assistantMessage]
  · rw [huses, (Turn.mem_user h).2]
    simp [blocksOf_toolResults, toolResultBlock, ToolCallRecord.block]
  · rw [(Turn.mem_user h).2]
    simp [blocksOf_toolResults, toolResultBlock, ToolCallRecord.block]

-- ---------------------------------------------------------------------------
-- The law
-- ---------------------------------------------------------------------------

section
variable {loop : ToolCallLoop} {setup : LoopSetup}

theorem mem_told {event : Event} {c : LoopCall} (h : c ∈ told .publish loop.eventBus event) :
    c = .publish event := by
  unfold told at h
  split at h
  · exact List.mem_singleton.mp h
  · cases h

theorem Handled.calls_providerAnswer {iteration : Nat} {x : Handled} (hfits : x.Fits setup)
    {c : LoopCall} (hc : c ∈ x.calls loop setup iteration) : c.providerAnswer? = none := by
  rw [Handled.calls, List.mem_append, List.mem_append, List.mem_flatMap] at hc
  rcases hc with (hc | hc) | ⟨event, -, hc⟩
  · rw [mem_told hc]
    rfl
  · obtain ⟨call, fate⟩ := x
    cases fate with
    | unoffered => cases hc
    | consulted answer =>
      obtain rfl := List.mem_singleton.mp hc
      rfl
    | executed decision request answer =>
      obtain ⟨-, -, htarget, -⟩ := hfits
      simp only [Handled.outside, List.mem_cons, List.not_mem_nil, or_false] at hc
      rcases hc with rfl | rfl
      · rfl
      · simp [LoopCall.providerAnswer?, htarget]
  · rw [mem_told hc]
    rfl

theorem providerAnswers_handled {iteration : Nat} {handled : List Handled}
    (hfits : ∀ x ∈ handled, x.Fits setup) {made : List LoopCall}
    (hmade : made <+: handled.flatMap (Handled.calls loop setup iteration)) :
    providerAnswers made = [] := by
  refine List.filterMap_eq_nil_iff.mpr fun c hc => ?_
  obtain ⟨x, hx, hc⟩ := List.mem_flatMap.mp (hmade.subset hc)
  exact Handled.calls_providerAnswer (hfits x hx) hc

theorem Asked.providerAnswers {history : List PyValue} {request : ExecutionRequest}
    (h : Asked setup history request) (answer : Except Exn ExecutionResult) (rest : List LoopCall) :
    providerAnswers (.execute request setup.context [] answer :: rest) =
      answer :: providerAnswers rest := by
  simp [MellivorKernel.providerAnswers, LoopCall.providerAnswer?, h.target]

theorem providerAnswers_append (xs ys : List LoopCall) :
    providerAnswers (xs ++ ys) = providerAnswers xs ++ providerAnswers ys :=
  List.filterMap_append

theorem forall₂_recorded {handled : List Handled} {records : List ToolCallRecord}
    (h : List.Forall₂ Recorded handled records) :
    handled.map Handled.call = records.map ToolCallRecord.call ∧
      (∀ record ∈ records, record.success = true → record.executed = true) ∧
      ∀ x ∈ handled, x.fate.answered = true := by
  induction h with
  | nil => exact ⟨rfl, by simp, by simp⟩
  | cons hx _ ih =>
    exact ⟨by rw [List.map_cons, List.map_cons, hx.call, ih.1],
      List.forall_mem_cons.mpr ⟨hx.success, ih.2.1⟩, List.forall_mem_cons.mpr ⟨hx.answered, ih.2.2⟩⟩

/-- What the rounds of a returning loop add to where they started. -/
structure RoundsLaw (remaining iteration : Nat) (history : List PyValue)
    (records : List ToolCallRecord) (result : ToolLoopResult)
    (answers : List (Except Exn ExecutionResult)) (turns : List Turn) : Prop where
  rounds : turns.map (fun turn => (turn.text, turn.calls)) = answers.filterMap roundOf
  messages : result.messages = history ++ turns.flatMap Turn.messages
  toolCalls : result.toolCalls = records ++ turns.flatMap Turn.records
  executed : ∀ turn ∈ turns, ∀ record ∈ turn.records, record.success = true → record.executed = true
  iterations : result.iterations = iteration + answers.length
  bounded : answers.length ≤ remaining
  earlier : ∀ answer ∈ answers.dropLast, ∃ text calls,
    roundOf answer = some (text, calls) ∧ calls ≠ []
  exhausted : result.exhausted = true ↔ answers.length = remaining ∧
    ∀ answer ∈ answers.getLast?, ∃ text calls, roundOf answer = some (text, calls) ∧ calls ≠ []
  success : result.success = true ↔ ∃ text, answers.getLast?.bind roundOf = some (text, [])
  text : ∀ text, result.text = some text ↔ answers.getLast?.bind roundOf = some (text, [])
  failed : result.success = false → ∃ message, result.error = some message

theorem LoopRun.rounds {remaining iteration : Nat} {history : List PyValue}
    {records : List ToolCallRecord} {outcome : Except Exn ToolLoopResult} {log : List LoopCall}
    (h : LoopRun loop setup remaining iteration history records outcome log)
    {result : ToolLoopResult} (hok : outcome = .ok result) :
    ∃ turns, RoundsLaw remaining iteration history records result (providerAnswers log) turns := by
  induction h with
  | spent =>
    cases hok
    exact ⟨[], rfl, by simp [budgetSpent], by simp [budgetSpent], nofun, rfl, le_rfl, nofun,
      iff_of_true rfl ⟨rfl, nofun⟩, iff_of_false nofun nofun, fun _ => iff_of_false nofun nofun,
      fun _ => ⟨_, rfl⟩⟩
  | unasked | raised | cut => cases hok
  | @failed remaining iteration history records request response hasked hanswer =>
    cases hok
    have hround : roundOf (.ok response) = none := hanswer
    refine ⟨[], ?_⟩
    rw [hasked.providerAnswers]
    refine ⟨by simp [providerAnswers, hround], by simp [providerFailed], by simp [providerFailed],
      nofun, rfl, by simp [providerAnswers], nofun, iff_of_false nofun ?_, iff_of_false nofun ?_,
      fun _ => iff_of_false nofun ?_, fun _ => ⟨_, rfl⟩⟩ <;>
    simp [providerAnswers, hround]
  | @answered remaining iteration history records request response text hasked hanswer =>
    cases hok
    have hround : roundOf (.ok response) = some (text, []) := hanswer
    refine ⟨[⟨text, []⟩], ?_⟩
    rw [hasked.providerAnswers]
    refine ⟨by simp [providerAnswers, hround, Turn.calls], ?_, by simp [finalAnswer],
      by simp, rfl, by simp [providerAnswers], nofun, iff_of_false nofun ?_, iff_of_true rfl ?_, ?_,
      nofun⟩
    · simp [finalAnswer, Turn.messages, Turn.assistant, Turn.user, Turn.calls]
    · simp [providerAnswers, hround]
    · simp [providerAnswers, hround]
    · simp [providerAnswers, hround, finalAnswer]
  | @next remaining iteration history records request response text outcome made handled more
      hasked hanswer hne hfits hrecords hrest ih =>
    obtain ⟨turns, hlaw⟩ := ih hok
    obtain ⟨hcalls, hexecuted, -⟩ := forall₂_recorded hrecords
    have hround : roundOf (.ok response) = some (text, handled.map Handled.call) := hanswer
    have hsome : more ≠ [] := by
      rintro rfl
      exact hne (List.forall₂_nil_right_iff.mp hrecords)
    -- the last round of the whole decides, unless nothing follows this one
    have hlast (t : Str) : (Except.ok response :: providerAnswers made).getLast?.bind roundOf =
        some (t, []) ↔ (providerAnswers made).getLast?.bind roundOf = some (t, []) := by
      cases providerAnswers made with
      | nil => simp [hround, hne]
      | cons answer rest => rw [List.getLast?_cons_cons]
    refine ⟨⟨text, more⟩ :: turns, ?_⟩
    rw [hasked.providerAnswers, providerAnswers_append,
      providerAnswers_handled hfits List.prefix_rfl, List.nil_append]
    refine ⟨?_, ?_, ?_, ?_, ?_, ?_, ?_, ?_, ?_, ?_, hlaw.failed⟩
    · rw [List.filterMap_cons_some hround, List.map_cons, hlaw.rounds, Turn.calls, hcalls]
    · rw [hlaw.messages, hcalls]
      simp [Turn.messages, Turn.assistant, Turn.user, Turn.calls, hsome]
    · rw [hlaw.toolCalls]
      simp
    · rintro turn (_ | ⟨_, hmem⟩)
      · exact hexecuted
      · exact hlaw.executed turn hmem
    · rw [hlaw.iterations, List.length_cons]
      omega
    · simpa using hlaw.bounded
    · have hearlier := hlaw.earlier
      cases hrest : providerAnswers made with
      | nil => nofun
      | cons answer rest =>
        rw [hrest] at hearlier
        exact List.forall_mem_cons.mpr ⟨⟨_, _, hround, by simpa using hne⟩, hearlier⟩
    · rw [hlaw.exhausted, List.length_cons, Nat.add_right_cancel_iff]
      refine and_congr_right fun _ => ?_
      cases providerAnswers made with
      | nil =>
        refine iff_of_true nofun ?_
        rintro answer ⟨⟩
        exact ⟨_, _, hround, by simpa using hne⟩
      | cons answer rest => rw [List.getLast?_cons_cons]
    · rw [hlaw.success]
      exact exists_congr fun t => (hlast t).symm
    · exact fun t => (hlaw.text t).trans (hlast t).symm

/-- What a returning run gives back, against what its provider rounds were
answered. -/
structure TranscriptLaw (messages : List PyValue) (options : ToolLoopOptions)
    (result : ToolLoopResult) (answers : List (Except Exn ExecutionResult)) (turns : List Turn) :
    Prop where
  rounds : turns.map (fun turn => (turn.text, turn.calls)) = answers.filterMap roundOf
  messages : result.messages = messages ++ turns.flatMap Turn.messages
  paired : ∀ turn ∈ turns, turn.Paired
  toolCalls : result.toolCalls = turns.flatMap Turn.records
  executed : ∀ record ∈ result.toolCalls, record.success = true → record.executed = true
  iterations : result.iterations = answers.length
  bounded : result.iterations ≤ options.maxIterations
  earlier : ∀ answer ∈ answers.dropLast, ∃ text calls,
    roundOf answer = some (text, calls) ∧ calls ≠ []
  exhausted : result.exhausted = true ↔ result.iterations = options.maxIterations ∧
    ∃ text calls, answers.getLast?.bind roundOf = some (text, calls) ∧ calls ≠ []
  success : result.success = true ↔ ∃ text, answers.getLast?.bind roundOf = some (text, [])
  text : ∀ text, result.text = some text ↔ answers.getLast?.bind roundOf = some (text, [])
  failed : result.success = false → ∃ message, result.error = some message

theorem TranscriptLaw.last {messages : List PyValue} {options : ToolLoopOptions}
    {result : ToolLoopResult} {answers : List (Except Exn ExecutionResult)} {turns : List Turn}
    (h : TranscriptLaw messages options result answers turns) {answer : Except Exn ExecutionResult}
    (hmem : answer ∈ answers) {text : Str} (hround : roundOf answer = some (text, [])) :
    answers.getLast? = some answer := by
  have hearlier := h.earlier
  rcases List.eq_nil_or_concat' answers with rfl | ⟨before, last, rfl⟩
  · cases hmem
  · rw [List.dropLast_concat] at hearlier
    rw [List.getLast?_concat]
    rcases List.mem_append.mp hmem with hmem | hmem
    · obtain ⟨text', calls, hcalls, hne⟩ := hearlier answer hmem
      rw [hround] at hcalls
      cases hcalls
      exact absurd rfl hne
    · rw [List.mem_singleton.mp hmem]

variable [Printing] in
/-- Every returning run keeps the transcript law. -/
theorem run_transcript {providerName : Str} {messages : List PyValue} {toolIds : List Str}
    {context : ExecutionContext} {options : ToolLoopOptions} {granted : List Str}
    {result : ToolLoopResult} {log : List LoopCall}
    (h : (loop.run providerName messages toolIds context options granted).exec [] =
      (.ok result, log)) :
    ∃ turns, TranscriptLaw messages options result (providerAnswers log) turns := by
  obtain ⟨⟨e, he⟩, -⟩ | ⟨specs, -, hrun⟩ := run_loopRun loop h
  · cases he
  obtain ⟨turns, hlaw⟩ := hrun.rounds rfl
  have hiterations : result.iterations = (providerAnswers log).length := by
    rw [hlaw.iterations, Nat.zero_add]
  refine ⟨turns, hlaw.rounds, hlaw.messages, fun turn _ => turn.paired, hlaw.toolCalls, ?_,
    hiterations, hiterations ▸ hlaw.bounded, hlaw.earlier, ?_, hlaw.success, hlaw.text, hlaw.failed⟩
  · intro record hrecord
    rw [hlaw.toolCalls, List.nil_append] at hrecord
    obtain ⟨turn, hturn, hmem⟩ := List.mem_flatMap.mp hrecord
    exact hlaw.executed turn hturn record hmem
  · rw [hlaw.exhausted, hiterations]
    refine and_congr_right fun hlength => ?_
    cases hlast : (providerAnswers log).getLast? with
    | none =>
      have hmax := options.maxIterations_ok
      rw [List.getLast?_eq_none_iff.mp hlast] at hlength
      exact absurd hlength (by simp; omega)
    | some answer => simp
end

-- ---------------------------------------------------------------------------
-- A loop with one tool
-- ---------------------------------------------------------------------------

def echoTool : BaseTool where
  id := lit "echo"
  description := lit "Say it again."
  inputSchema := [item "type" (.str (lit "object"))]
  permissions := []
  validate _ := .ok ()
  execute _ request := .ok ⟨true, some request, none, 0, [], outcomeOk_instant⟩
  elapsed _ := noTime

/-- A loop that offers one tool, which succeeds; the provider answers with
`first` and then with `second`. -/
def echoLoop (first second : Mapping) : ToolCallLoop where
  engine log request _ _ :=
    let payload := match request.target, log with
      | .tool, _ => request.payload
      | .provider, [] => first
      | .provider, _ => second
    .ok ⟨true, some payload, none, 0, [], outcomeOk_instant⟩
  tools := ⟨Dict.empty.set (lit "echo") echoTool, by
    rintro p (_ | ⟨_, ⟨⟩⟩)
    rfl⟩
  providers := ⟨Dict.empty.set (lit "model") {
    name := lit "model"
    supportsToolCalls := true
    invoke := .ok
    elapsed := fun _ => noTime }⟩
  eventBus := some fun _ => .ok ()
  loopId := lit "loop"
  newId _ := ⟨lit "id", by decide⟩

def echoOptions : ToolLoopOptions where
  maxIterations := 2
  system := none
  maxTokens := none
  beforeToolCall _ _ := .ok ⟨true, none⟩
  maxIterations_ok := by decide

def echoRun [Printing] (first second : Mapping) : Except Exn ToolLoopResult × List LoopCall :=
  ((echoLoop first second).run (lit "model") [userMessage (lit "Hello.")] [lit "echo"] ⟨0, 0, 0, 0⟩
    echoOptions []).exec []

def echoRequest : Mapping := [item "tool_calls" (.list [.toolCall (lit "c1") (lit "echo") (by decide)
  (by decide) [item "text" (.str (lit "again"))]])]

theorem echoLoop_transcript : ∃ result log turns,
    @echoRun plainPrinting echoRequest [item "text" (.str (lit "Done."))] = (.ok result, log) ∧
    TranscriptLaw [userMessage (lit "Hello.")] echoOptions result (providerAnswers log) turns := by
  obtain ⟨result, log, hrun⟩ : ∃ result log,
      @echoRun plainPrinting echoRequest [item "text" (.str (lit "Done."))] = (.ok result, log) :=
    ⟨_, _, rfl⟩
  obtain ⟨turns, hlaw⟩ := @run_transcript _ plainPrinting _ _ _ _ _ _ _ _ hrun
  exact ⟨result, log, turns, hrun, hlaw⟩

end MellivorKernel
