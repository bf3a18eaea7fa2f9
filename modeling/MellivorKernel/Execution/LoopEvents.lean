import MellivorKernel.Agents.Trace
import MellivorKernel.Execution.LoopEnforcement

/-!
# The events of a tool loop

What the loop and the engines behind it publish to one bus, as a grammar:
`CallTrace` for a call the model asked for, `LoopTrace` for the rounds. An
execution inside the loop has the events of any other execution (`StepTrace`).
Every run that returns is in the grammar, with the rounds it was answered and
the end it came to (`run_loopTrace`).
-/

namespace MellivorKernel

open Python Foundation Program

-- ---------------------------------------------------------------------------
-- The grammar
-- ---------------------------------------------------------------------------

/-- The events of a call the model asked for: it is announced, and then turned
down or executed, and announced again as what became of it. -/
inductive CallTrace (authorized : Bool) (loopId : Str) (iteration : Nat) (call : ToolCall) :
    List Event → Prop
  | rejected (reason : Str) : CallTrace authorized loopId iteration call
      [.toolCallRequested loopId call.id call.name iteration,
        .toolCallRejected loopId call.id call.name reason]
  | executed (request : ExecutionRequest) (htarget : request.target = .tool)
      (hoperation : request.operation = call.name)
      (h : StepTrace request authorized success events) :
      CallTrace authorized loopId iteration call
        (.toolCallRequested loopId call.id call.name iteration ::
          (events ++ [.toolCallCompleted loopId call.id call.name success]))

inductive CallsTrace (authorized : Bool) (loopId : Str) (iteration : Nat) :
    List ToolCall → List Event → Prop
  | done : CallsTrace authorized loopId iteration [] []
  | next {call : ToolCall} (h : CallTrace authorized loopId iteration call events)
      (hrest : CallsTrace authorized loopId iteration rest more) :
      CallsTrace authorized loopId iteration (call :: rest) (events ++ more)

inductive LoopEnd
  | spent
  | failed
  | answered
  deriving DecidableEq

def ToolLoopResult.ended (result : ToolLoopResult) : LoopEnd :=
  if result.exhausted then .spent else if result.success then .answered else .failed

/-- The events of the rounds after an iteration, by the calls each round but
the last asked for and the end they come to. -/
inductive LoopTrace (authorized : Bool) (loopId providerName : Str) :
    (iteration : Nat) → List (List ToolCall) → LoopEnd → List Event → Prop
  | spent : LoopTrace authorized loopId providerName iteration [] .spent []
  | failed (request : ExecutionRequest) (htarget : request.target = .provider)
      (hoperation : request.operation = providerName)
      (h : StepTrace request authorized false events) :
      LoopTrace authorized loopId providerName iteration [] .failed events
  | answered (request : ExecutionRequest) (htarget : request.target = .provider)
      (hoperation : request.operation = providerName)
      (h : StepTrace request authorized true events) :
      LoopTrace authorized loopId providerName iteration [] .answered events
  | next (request : ExecutionRequest) (htarget : request.target = .provider)
      (hoperation : request.operation = providerName)
      (h : StepTrace request authorized true events) (hne : calls ≠ [])
      (hcalls : CallsTrace authorized loopId (iteration + 1) calls handled)
      (hrest : LoopTrace authorized loopId providerName (iteration + 1) rounds ended more) :
      LoopTrace authorized loopId providerName iteration (calls :: rounds) ended
        (events ++ handled ++ more)

-- ---------------------------------------------------------------------------
-- What is published
-- ---------------------------------------------------------------------------

section
variable [Printing] (execution : List LoopCall → ExecutionEngine)

/-- The events of a call of a loop: its own, or those of the execution inside. -/
def LoopCall.events (before : List LoopCall) (c : LoopCall) : List Event :=
  match c with
  | .publish event => [event]
  | .consult .. => []
  | .execute .. => executionEvents (c.inner execution before)

def loopEventsAfter (before log : List LoopCall) : List Event :=
  (seenAfter (LoopCall.events execution) before log).flatten

def loopEvents (log : List LoopCall) : List Event := loopEventsAfter execution [] log

theorem loopEventsAfter_cons (before : List LoopCall) (c : LoopCall) (rest : List LoopCall) :
    loopEventsAfter execution before (c :: rest) =
      c.events execution before ++ loopEventsAfter execution (before ++ [c]) rest := rfl

theorem loopEventsAfter_append (before log more : List LoopCall) :
    loopEventsAfter execution before (log ++ more) =
      loopEventsAfter execution before log ++ loopEventsAfter execution (before ++ log) more := by
  rw [loopEventsAfter, seenAfter_append, List.flatten_append]
  rfl

end

-- ---------------------------------------------------------------------------
-- One call
-- ---------------------------------------------------------------------------

section
variable [Printing] {loop : ToolCallLoop} {setup : LoopSetup}
  {execution : List LoopCall → ExecutionEngine} {bus : EventBus} {authorized : Bool}
  {offered granted : List Str} {before : List LoopCall}

structure ToolCallLoop.On (loop : ToolCallLoop) (execution : List LoopCall → ExecutionEngine)
    (bus : EventBus) (authorized : Bool) : Prop where
  own : loop.eventBus = some bus
  executed : ∀ history, (execution history).On bus
  checked : ∀ history, (execution history).authorizer.isSome = authorized

theorem execution_stepTrace (hon : loop.On execution bus authorized) {request : ExecutionRequest}
    {context : ExecutionContext} {permissions : List Str} {result : ExecutionResult}
    (hsubmits : Submits (loop.over execution) offered granted before
      (.execute request context permissions (.ok result))) :
    StepTrace request authorized result.success
        ((LoopCall.execute request context permissions (.ok result)).events execution before) ∧
      (result.success = true → request.target = .provider → result.payload.isSome) := by
  have hresult : (((execution before).execute request context permissions).exec []).1 =
      .ok result := hsubmits.1.symm
  obtain ⟨made, hmade, htrace⟩ :=
    execute_stepTrace (hon.executed before) request context permissions []
  obtain ⟨reached, -, hfulfilled⟩ := execute_fulfilled (execution before) request context permissions []
  rw [LoopCall.events, LoopCall.inner, hmade, List.nil_append, ← hon.checked before]
  refine ⟨htrace result hresult, fun hsuccess hprovider => ?_⟩
  obtain ⟨provider, payload, -, -, hpayload⟩ :=
    hfulfilled.paid result hresult hsuccess hprovider
  rw [hpayload]
  rfl

theorem told_publish (hon : loop.On execution bus authorized) (event : Event) :
    told LoopCall.publish (loop.over execution).eventBus event = [.publish event] := by
  rw [told, show (loop.over execution).eventBus = some bus from hon.own]
  rfl

theorem handled_callTrace (hon : loop.On execution bus authorized) {iteration : Nat} {x : Handled}
    (hfits : x.Fits setup) (hanswered : x.fate.answered = true)
    (hfollows : FollowsAfter (Submits (loop.over execution) offered granted) before
      (x.calls (loop.over execution) setup iteration)) :
    CallTrace authorized loop.loopId iteration x.call
      (loopEventsAfter execution before (x.calls (loop.over execution) setup iteration)) := by
  obtain ⟨asked, fate⟩ := x
  match fate with
  | .unoffered =>
    rw [Handled.calls, told_publish hon]
    simp only [Handled.outside, Handled.closing, Option.toList, List.flatMap_cons, List.flatMap_nil,
      told_publish hon]
    exact .rejected _
  | .consulted (.ok decision) =>
    rw [Handled.calls, told_publish hon]
    simp only [Handled.outside, Handled.closing, Option.toList, List.flatMap_cons, List.flatMap_nil,
      told_publish hon]
    exact .rejected _
  | .executed decision request (.ok outcome) =>
    rw [Handled.calls, told_publish hon] at hfollows ⊢
    simp only [Handled.outside, Handled.closing, Option.toList, List.flatMap_cons, List.flatMap_nil,
      told_publish hon, List.cons_append, List.nil_append, List.append_nil] at hfollows ⊢
    obtain ⟨-, hfollows⟩ := followsAfter_cons.mp hfollows
    obtain ⟨-, hfollows⟩ := followsAfter_cons.mp hfollows
    obtain ⟨hsubmits, -⟩ := followsAfter_cons.mp hfollows
    obtain ⟨-, -, htarget, hoperation, -⟩ := hfits
    have htrace := (execution_stepTrace hon hsubmits).1
    rw [loopEventsAfter_cons, loopEventsAfter_cons, loopEventsAfter_cons]
    exact .executed request htarget hoperation htrace

theorem handled_callsTrace (hon : loop.On execution bus authorized) {iteration : Nat}
    {handled : List Handled} (hfits : ∀ x ∈ handled, x.Fits setup)
    (hanswered : ∀ x ∈ handled, x.fate.answered = true)
    (hfollows : FollowsAfter (Submits (loop.over execution) offered granted) before
      (handled.flatMap (Handled.calls (loop.over execution) setup iteration))) :
    CallsTrace authorized loop.loopId iteration (handled.map Handled.call)
      (loopEventsAfter execution before
        (handled.flatMap (Handled.calls (loop.over execution) setup iteration))) := by
  induction handled generalizing before with
  | nil => exact .done
  | cons x rest ih =>
    rw [List.flatMap_cons] at hfollows ⊢
    obtain ⟨hone, hrest⟩ := followsAfter_append.mp hfollows
    obtain ⟨hx, hfits⟩ := List.forall_mem_cons.mp hfits
    obtain ⟨hxa, hanswered⟩ := List.forall_mem_cons.mp hanswered
    rw [loopEventsAfter_append]
    exact .next (handled_callTrace hon hx hxa hone) (ih hfits hanswered hrest)

-- ---------------------------------------------------------------------------
-- The rounds
-- ---------------------------------------------------------------------------

theorem LoopRun.trace (hon : loop.On execution bus authorized) {remaining iteration : Nat}
    {history : List PyValue} {records : List ToolCallRecord}
    {outcome : Except Exn ToolLoopResult} {log : List LoopCall}
    (h : LoopRun (loop.over execution) setup remaining iteration history records outcome log)
    {result : ToolLoopResult} (hok : outcome = .ok result)
    (hfollows : FollowsAfter (Submits (loop.over execution) offered granted) before log) :
    ∃ rounds, LoopTrace authorized loop.loopId setup.providerName iteration rounds result.ended
        (loopEventsAfter execution before log) ∧
      rounds.flatten = requestedCalls log ∧
      result.iterations = iteration + rounds.length + (if result.ended = .spent then 0 else 1) := by
  induction h generalizing before with
  | spent =>
    cases hok
    exact ⟨[], .spent, rfl, rfl⟩
  | unasked | raised | cut => cases hok
  | @failed remaining iteration history records request response hasked hanswer =>
    cases hok
    obtain ⟨hsubmits, -⟩ := followsAfter_cons.mp hfollows
    obtain ⟨htrace, hpays⟩ := execution_stepTrace hon hsubmits
    have hfailed : response.success = false := by
      by_contra hsuccess
      rw [Bool.not_eq_false] at hsuccess
      have hpayload := hpays hsuccess hasked.target
      rw [answered?, if_pos hsuccess, Option.map_eq_none_iff] at hanswer
      rw [hanswer] at hpayload
      cases hpayload
    rw [hfailed] at htrace
    have hround : roundOf (.ok response) = none := hanswer
    refine ⟨[], ?_, ?_, rfl⟩
    · rw [loopEventsAfter_cons]
      exact .failed request hasked.target hasked.operation (by simpa [loopEventsAfter, seenAfter])
    · rw [requestedCalls, hasked.providerAnswers]
      simp [providerAnswers, hround]
  | @answered remaining iteration history records request response text hasked hanswer =>
    cases hok
    obtain ⟨hsubmits, -⟩ := followsAfter_cons.mp hfollows
    have htrace := (execution_stepTrace hon hsubmits).1
    have hround : roundOf (.ok response) = some (text, []) := hanswer
    have hsuccess : response.success = true := by
      rw [answered?] at hanswer
      split at hanswer
      · assumption
      · cases hanswer
    rw [hsuccess] at htrace
    refine ⟨[], ?_, ?_, rfl⟩
    · rw [loopEventsAfter_cons]
      exact .answered request hasked.target hasked.operation
        (by simpa [loopEventsAfter, seenAfter])
    · rw [requestedCalls, hasked.providerAnswers]
      simp [providerAnswers, hround]
  | @next remaining iteration history records request response text outcome made handled more
      hasked hanswer hne hfits hrecords hrest ih =>
    obtain ⟨hsubmits, hfollows⟩ := followsAfter_cons.mp hfollows
    obtain ⟨hhandled, hrest⟩ := followsAfter_append.mp hfollows
    obtain ⟨rounds, htrace, hrounds, hiterations⟩ := ih hok hrest
    have hsuccess : response.success = true := by
      rw [answered?] at hanswer
      split at hanswer
      · assumption
      · cases hanswer
    have hasks := (execution_stepTrace hon hsubmits).1
    rw [hsuccess] at hasks
    have hround : roundOf (.ok response) = some (text, handled.map Handled.call) := hanswer
    refine ⟨handled.map Handled.call :: rounds, ?_, ?_, ?_⟩
    · rw [loopEventsAfter_cons, loopEventsAfter_append, ← List.append_assoc]
      exact .next request hasked.target hasked.operation hasks (by simpa using hne)
        (handled_callsTrace hon hfits (forall₂_recorded hrecords).2.2 hhandled) htrace
    · rw [List.flatten_cons, hrounds, requestedCalls_round hasked hanswer hfits]
    · rw [hiterations, List.length_cons]
      omega

/-- Every run that returns, over engines on one bus, publishes a word of the
grammar: the rounds are those the provider answered, the end is the one the
result tells of, and there are as many as the iterations it counts. -/
theorem run_loopTrace (hon : loop.On execution bus authorized) {providerName : Str}
    {messages : List PyValue} {toolIds : List Str} {context : ExecutionContext}
    {options : ToolLoopOptions} {granted : List Str} {result : ToolLoopResult} {log : List LoopCall}
    (h : ((loop.over execution).run providerName messages toolIds context options granted).exec [] =
      (.ok result, log)) :
    ∃ rounds, LoopTrace authorized loop.loopId providerName 0 rounds result.ended
        (loopEvents execution log) ∧
      rounds.flatten = requestedCalls log ∧
      result.iterations = rounds.length + (if result.ended = .spent then 0 else 1) := by
  obtain ⟨⟨e, he⟩, -⟩ | ⟨specs, -, hrun⟩ := run_loopRun _ h
  · cases he
  · obtain ⟨new, hnew, hfollows⟩ := @run_abides (loop.over execution) _ providerName messages
      toolIds context options granted
    rw [h] at hnew
    obtain rfl : log = new := by simpa using hnew
    obtain ⟨rounds, htrace, hrounds, hiterations⟩ := hrun.trace hon rfl hfollows
    exact ⟨rounds, htrace, hrounds, by rw [hiterations, Nat.zero_add]⟩

end

-- ---------------------------------------------------------------------------
-- A loop that calls its tool once
-- ---------------------------------------------------------------------------

def echoEngine (history : List LoopCall) : ExecutionEngine where
  dispatcher := {
    toolRegistry := (echoLoop [] []).tools
    providerRegistry := ⟨Dict.empty.set (lit "model") {
      name := lit "model"
      supportsToolCalls := true
      invoke := fun _ =>
        .ok (if history.isEmpty then echoRequest else [item "text" (.str (lit "Done."))])
      elapsed := fun _ => noTime }⟩ }
  authorizer := none
  eventBus := some fun _ => .ok ()
  memory := none
  observability := none
  now := DateTime.epoch

theorem echoEngine_on :
    ToolCallLoop.On (echoLoop [] []) echoEngine (fun _ => .ok ()) false where
  own := rfl
  executed _ := ⟨rfl, nofun⟩
  checked _ := rfl

theorem echoEngine_loopTrace : ∃ result log rounds,
    (@ToolCallLoop.run plainPrinting (@ToolCallLoop.over plainPrinting (echoLoop [] []) echoEngine)
      (lit "model") [userMessage (lit "Hello.")] [lit "echo"] ⟨0, 0, 0, 0⟩ echoOptions []).exec [] =
        (.ok result, log) ∧ result.iterations = 2 ∧ result.ended = .answered ∧
    LoopTrace false (lit "loop") (lit "model") 0 rounds result.ended
      (@loopEvents plainPrinting echoEngine log) := by
  obtain ⟨result, log, hrun, hiterations, hended⟩ : ∃ result log,
      (@ToolCallLoop.run plainPrinting (@ToolCallLoop.over plainPrinting (echoLoop [] []) echoEngine)
        (lit "model") [userMessage (lit "Hello.")] [lit "echo"] ⟨0, 0, 0, 0⟩ echoOptions []).exec
          [] = (.ok result, log) ∧ result.iterations = 2 ∧ result.ended = .answered :=
    ⟨_, _, rfl, rfl, rfl⟩
  obtain ⟨rounds, htrace, -, -⟩ := @run_loopTrace plainPrinting _ _ _ _ echoEngine_on _ _ _ _ _ _ _ _ hrun
  exact ⟨result, log, rounds, hrun, hiterations, hended, htrace⟩

end MellivorKernel
