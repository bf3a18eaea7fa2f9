import MellivorKernel.Execution.ToolLoop

/-!
# How a tool loop unfolds

`LoopRun` describes what the rounds of a loop did and what they returned or
raised, round by round, with the fate of every tool call on the way. Every run
is one (`rounds_loopRun`); the laws of the loop are read off it by induction.
-/

namespace MellivorKernel

open Python Foundation Program

/-- What became of a tool call: refused by name, answered by the hook, or
submitted to the engine. -/
inductive Fate
  | unoffered
  | consulted (answer : Except Exn ToolCallDecision)
  | executed (decision : ToolCallDecision) (request : ExecutionRequest)
      (answer : Except Exn ExecutionResult)

structure Handled where
  call : ToolCall
  fate : Fate

def Fate.isExecuted : Fate → Bool
  | .executed .. => true
  | _ => false

/-- Nothing the call was taken to raised. -/
def Fate.answered : Fate → Bool
  | .consulted (.error _) | .executed _ _ (.error _) => false
  | _ => true

section
variable (loop : ToolCallLoop) (setup : LoopSetup)

/-- The fate is the one the offered tools and the hook's answer call for. -/
def Handled.Fits (x : Handled) : Prop :=
  match x.fate with
  | .unoffered => x.call.name ∉ setup.allowed
  | .consulted answer => x.call.name ∈ setup.allowed ∧
      ∀ decision, answer = .ok decision → decision.allowed = false
  | .executed decision request _ => x.call.name ∈ setup.allowed ∧ decision.allowed = true ∧
      request.target = .tool ∧ request.operation = x.call.name ∧
      request.payload = x.call.arguments

def Handled.closing (x : Handled) : Option Event :=
  match x.fate with
  | .unoffered => some (.toolCallRejected loop.loopId x.call.id x.call.name notOffered)
  | .consulted (.ok decision) =>
    some (.toolCallRejected loop.loopId x.call.id x.call.name decision.text)
  | .executed _ _ (.ok outcome) =>
    some (.toolCallCompleted loop.loopId x.call.id x.call.name outcome.success)
  | .consulted (.error _) | .executed _ _ (.error _) => none

def Handled.outside (x : Handled) : List LoopCall :=
  match x.fate with
  | .unoffered => []
  | .consulted answer => [.consult x.call answer]
  | .executed decision request answer => [.consult x.call (.ok decision),
      .execute request setup.context setup.grantedPermissions answer]

def Handled.calls (iteration : Nat) (x : Handled) : List LoopCall :=
  told .publish loop.eventBus (.toolCallRequested loop.loopId x.call.id x.call.name iteration) ++
    x.outside setup ++ (x.closing loop).toList.flatMap (told .publish loop.eventBus)

end

structure Recorded (x : Handled) (record : ToolCallRecord) : Prop where
  call : record.call = x.call
  answered : x.fate.answered = true
  executed : record.executed = x.fate.isExecuted
  success : record.success = true → record.executed = true

section
variable (loop : ToolCallLoop) (setup : LoopSetup)

-- ---------------------------------------------------------------------------
-- One tool call
-- ---------------------------------------------------------------------------

/-- What is said of handling one call: the calls made are an initial part of
those of its fate, all of them if it returns. -/
def HandleTrace (iteration : Nat) (call : ToolCall)
    (outcome : Except Exn (ToolResultBlock × ToolCallRecord)) (made : List LoopCall) : Prop :=
  ∃ x : Handled, x.call = call ∧ x.Fits setup ∧ made <+: x.calls loop setup iteration ∧
    ∀ p, outcome = .ok p → made = x.calls loop setup iteration ∧ p.1 = p.2.block ∧ Recorded x p.2

theorem publish_traces (event : Event) :
    (loop.publish event).Traces fun _ made => made = told .publish loop.eventBus event :=
  tell_traces rfl

theorem consult_traces (call : ToolCall) :
    (setup.consult call).Traces fun answer made => made = [.consult call answer] :=
  .history_bind fun _ => .call rfl

theorem execute_traces (request : ExecutionRequest) (context : ExecutionContext)
    (granted : List Str) :
    (loop.execute request context granted).Traces fun answer made =>
      made = [.execute request context granted answer] :=
  .history_bind fun _ => .call rfl

/-- A call that raises before it is closed has made an initial part. -/
theorem HandleTrace.raised {iteration : Nat} {x : Handled} (hfits : x.Fits setup) {e : Exn}
    {made : List LoopCall} (h : made <+: x.calls loop setup iteration) :
    HandleTrace loop setup iteration x.call (.error e) made :=
  ⟨x, rfl, hfits, h, nofun⟩

theorem reject_traces (iteration : Nat) {x : Handled} (hfits : x.Fits setup) {reason : Str}
    (hclosing : x.closing loop =
      some (.toolCallRejected loop.loopId x.call.id x.call.name reason))
    (hfate : x.fate.isExecuted = false) (hanswered : x.fate.answered = true) :
    (loop.reject x.call reason).Traces fun outcome made =>
      HandleTrace loop setup iteration x.call outcome
        (told .publish loop.eventBus
          (.toolCallRequested loop.loopId x.call.id x.call.name iteration) ++
          (x.outside setup ++ made)) := by
  have hcalls : told .publish loop.eventBus
      (.toolCallRequested loop.loopId x.call.id x.call.name iteration) ++ (x.outside setup ++
        told .publish loop.eventBus
          (.toolCallRejected loop.loopId x.call.id x.call.name reason)) =
      x.calls loop setup iteration := by
    simp [Handled.calls, hclosing]
  refine .bind (publish_traces loop _) ?_ ?_
  · rintro e made rfl
    exact .raised loop setup hfits ⟨[], by rw [List.append_nil, hcalls]⟩
  · rintro - made rfl
    refine .pure ⟨x, rfl, hfits, ⟨[], by rw [List.append_nil, List.append_nil, hcalls]⟩, ?_⟩
    rintro p heq
    cases heq
    exact ⟨by rw [List.append_nil, hcalls], rfl, rfl, hanswered, hfate.symm, nofun⟩

end

section
variable [Printing] (loop : ToolCallLoop) (setup : LoopSetup)

theorem handle_traces (iteration : Nat) (call : ToolCall) :
    (loop.handle setup iteration call).Traces (HandleTrace loop setup iteration call) := by
  refine .bind (publish_traces loop _) ?_ ?_
  · rintro e made rfl
    by_cases hname : call.name ∈ setup.allowed
    · exact .raised loop setup (x := ⟨call, .consulted (.error e)⟩) ⟨hname, nofun⟩
        ⟨_, (List.append_assoc ..).symm⟩
    · exact .raised loop setup (x := ⟨call, .unoffered⟩) hname ⟨_, (List.append_assoc ..).symm⟩
  · rintro - made rfl
    split
    · rename_i hname
      exact reject_traces loop setup iteration (x := ⟨call, .unoffered⟩) hname rfl rfl rfl
    · rename_i hname
      rw [not_not] at hname
      refine .bind (consult_traces setup call) ?_ ?_
      · rintro e made rfl
        exact .raised loop setup (x := ⟨call, .consulted (.error e)⟩) ⟨hname, nofun⟩
          ⟨[], by simp [Handled.calls, Handled.outside, Handled.closing]⟩
      · rintro decision made rfl
        split
        · rename_i hrefused
          have hrefused : decision.allowed = false := by simpa using hrefused
          exact reject_traces loop setup iteration (x := ⟨call, .consulted (.ok decision)⟩)
            ⟨hname, fun d hd => Except.ok.inj hd ▸ hrefused⟩ rfl rfl rfl
        · rename_i hallowed
          have hallowed : decision.allowed = true := by simpa using hallowed
          refine .history_bind fun log => ?_
          rw [ExecutionRequest.new_ok call.name_ok (loop.newId log).2]
          refine .lift_bind nofun ?_
          intro request hrequest
          have hfits (answer : Except Exn ExecutionResult) :
              Handled.Fits setup ⟨call, .executed decision request answer⟩ := by
            cases hrequest
            exact ⟨hname, hallowed, rfl, rfl, rfl⟩
          refine .bind (execute_traces loop _ _ _) ?_ ?_
          · rintro e made rfl
            exact .raised loop setup (hfits (.error e))
              ⟨[], by simp [Handled.calls, Handled.outside, Handled.closing]⟩
          · rintro outcome made rfl
            refine .lift_bind ?_ fun rendered _ => .bind (publish_traces loop _) ?_ ?_
            · -- a payload that cannot be printed: the call is left open
              rintro e -
              exact .raised loop setup (hfits (.ok outcome))
                ⟨told .publish loop.eventBus (.toolCallCompleted loop.loopId call.id call.name
                  outcome.success), by simp [Handled.calls, Handled.outside, Handled.closing]⟩
            · rintro e made rfl
              exact .raised loop setup (hfits (.ok outcome))
                ⟨[], by simp [Handled.calls, Handled.outside, Handled.closing]⟩
            · rintro - made rfl
              refine .pure ⟨_, rfl, hfits (.ok outcome), ?_, ?_⟩
              · simp [Handled.calls, Handled.outside, Handled.closing]
              · rintro p heq
                cases heq
                exact ⟨by simp [Handled.calls, Handled.outside, Handled.closing], rfl, rfl, rfl,
                  rfl, fun _ => rfl⟩

/-- The same of the calls of one turn; some were not turned to if it raises. -/
def HandleAllTrace (iteration : Nat) (calls : List ToolCall)
    (outcome : Except Exn (List (ToolResultBlock × ToolCallRecord))) (made : List LoopCall) : Prop :=
  ∃ handled : List Handled, handled.map Handled.call <+: calls ∧ (∀ x ∈ handled, x.Fits setup) ∧
    made <+: handled.flatMap (Handled.calls loop setup iteration) ∧
    ∀ ps, outcome = .ok ps → handled.map Handled.call = calls ∧
      made = handled.flatMap (Handled.calls loop setup iteration) ∧
      ps.map Prod.fst = ps.map (fun p => p.2.block) ∧ List.Forall₂ Recorded handled (ps.map Prod.snd)

theorem handleAll_traces (iteration : Nat) (calls : List ToolCall) :
    (loop.handleAll setup iteration calls).Traces (HandleAllTrace loop setup iteration calls) := by
  induction calls with
  | nil =>
    refine .pure ⟨[], List.nil_prefix, by simp, List.nil_prefix, ?_⟩
    rintro ps ⟨⟩
    exact ⟨rfl, rfl, rfl, .nil⟩
  | cons call rest ih =>
    refine .bind (handle_traces loop setup iteration call) ?_ ?_
    · rintro e made ⟨x, rfl, hfits, hmade, -⟩
      refine ⟨[x], ⟨rest, rfl⟩, by simpa using hfits, by simpa using hmade, nofun⟩
    · rintro p made ⟨x, rfl, hfits, -, hp⟩
      obtain ⟨rfl, hblock, hrecord⟩ := hp p rfl
      refine .bind ih ?_ ?_
      · rintro e more ⟨handled, hcalls, hall, hmore, -⟩
        refine ⟨x :: handled, ?_, by simpa using ⟨hfits, hall⟩, ?_, nofun⟩
        · simpa using hcalls
        · simpa using hmore
      · rintro ps more ⟨handled, hcalls, hall, hmore, hps⟩
        obtain ⟨rfl, rfl, hblocks, hrecords⟩ := hps ps rfl
        refine .pure ⟨x :: handled, by simp, by simpa using ⟨hfits, hall⟩, by simp, ?_⟩
        rintro qs ⟨⟩
        exact ⟨rfl, by simp, by simp [hblock, hblocks], .cons hrecord hrecords⟩

-- ---------------------------------------------------------------------------
-- The rounds
-- ---------------------------------------------------------------------------

structure Asked (history : List PyValue) (request : ExecutionRequest) : Prop where
  target : request.target = .provider
  operation : request.operation = setup.providerName
  payload : request.payload = providerPayload history setup.specs setup.options

/-- The rounds of a loop from an iteration, a history and the records so far:
the outcome and the calls. -/
inductive LoopRun : (remaining iteration : Nat) → List PyValue → List ToolCallRecord →
    Except Exn ToolLoopResult → List LoopCall → Prop
  | spent {iteration history records} : LoopRun 0 iteration history records
      (.ok (budgetSpent setup.options history records iteration)) []
  | unasked {remaining iteration history records e} :
      LoopRun (remaining + 1) iteration history records (.error e) []
  | raised {remaining iteration history records request e}
      (hasked : Asked setup history request) :
      LoopRun (remaining + 1) iteration history records (.error e)
        [.execute request setup.context [] (.error e)]
  | failed {remaining iteration history records request response}
      (hasked : Asked setup history request)
      (hanswer : answered? response = none) :
      LoopRun (remaining + 1) iteration history records
        (.ok (providerFailed response history records (iteration + 1)))
        [.execute request setup.context [] (.ok response)]
  | answered {remaining iteration history records request response text}
      (hasked : Asked setup history request)
      (hanswer : answered? response = some (text, [])) :
      LoopRun (remaining + 1) iteration history records
        (.ok (finalAnswer text (history ++ [assistantMessage text []]) records (iteration + 1)))
        [.execute request setup.context [] (.ok response)]
  | cut {remaining iteration history records request response text calls made e}
      {handled : List Handled}
      (hasked : Asked setup history request)
      (hanswer : answered? response = some (text, calls))
      (hcalls : handled.map Handled.call <+: calls) (hfits : ∀ x ∈ handled, x.Fits setup)
      (hmade : made <+: handled.flatMap (Handled.calls loop setup (iteration + 1))) :
      LoopRun (remaining + 1) iteration history records (.error e)
        (.execute request setup.context [] (.ok response) :: made)
  | next {remaining iteration history records request response text outcome made}
      {handled : List Handled} {more : List ToolCallRecord}
      (hasked : Asked setup history request)
      (hanswer : answered? response = some (text, handled.map Handled.call))
      (hne : handled ≠ []) (hfits : ∀ x ∈ handled, x.Fits setup)
      (hrecords : List.Forall₂ Recorded handled more)
      (hrest : LoopRun remaining (iteration + 1)
        (history ++ [assistantMessage text (handled.map Handled.call),
          toolResults (more.map ToolCallRecord.block)]) (records ++ more)
        outcome made) :
      LoopRun (remaining + 1) iteration history records outcome
        (.execute request setup.context [] (.ok response) ::
          (handled.flatMap (Handled.calls loop setup (iteration + 1)) ++ made))

theorem rounds_loopRun (remaining iteration : Nat) (history : List PyValue)
    (records : List ToolCallRecord) :
    (loop.rounds setup remaining iteration history records).Traces
      (LoopRun loop setup remaining iteration history records) := by
  induction remaining generalizing iteration history records with
  | zero => exact .pure .spent
  | succ remaining ih =>
    refine .history_bind fun log => .lift_bind (fun e _ => .unasked) fun request hrequest => ?_
    have hasked : Asked setup history request := by
      unfold ExecutionRequest.new at hrequest
      split at hrequest
      · split at hrequest <;> cases hrequest
        exact ⟨rfl, rfl, rfl⟩
      · cases hrequest
    refine .bind (execute_traces loop _ _ _) ?_ ?_
    · rintro e made rfl
      exact .raised hasked
    · rintro response made rfl
      split
      · rename_i hanswer
        exact .pure (.failed hasked hanswer)
      · rename_i text calls hanswer
        simp only
        split
        · rename_i hnone
          obtain rfl := List.isEmpty_iff.mp hnone
          exact .pure (.answered hasked hanswer)
        · rename_i hsome
          refine .bind (handleAll_traces loop setup _ _) ?_ ?_
          · rintro e made ⟨handled, hcalls, hfits, hmade, -⟩
            exact .cut hasked hanswer hcalls hfits hmade
          · rintro ps made ⟨handled, -, hfits, -, hps⟩
            obtain ⟨rfl, rfl, hblocks, hrecords⟩ := hps ps rfl
            have hne : handled ≠ [] := by
              rintro rfl
              exact hsome rfl
            have hmap : ps.map Prod.fst = (ps.map Prod.snd).map ToolCallRecord.block := by
              rw [hblocks, List.map_map]
              rfl
            rw [hmap]
            have hsome : (ps.map Prod.snd).map ToolCallRecord.block ≠ [] := by
              intro hnil
              rw [List.map_eq_nil_iff.mp hnil] at hrecords
              exact hne (List.forall₂_nil_right_iff.mp hrecords)
            rw [toolResultsMessage_ok hsome]
            refine .lift_bind nofun ?_
            rintro results ⟨⟩
            rw [List.append_assoc]
            exact (ih _ _ _).mono fun outcome more hrest =>
              .next hasked hanswer hne hfits hrecords hrest

/-- A run that gets past its checks is a run of the loop. -/
theorem run_loopRun {providerName : Str} {messages : List PyValue} {toolIds : List Str}
    {context : ExecutionContext} {options : ToolLoopOptions} {granted : List Str}
    {outcome : Except Exn ToolLoopResult} {log : List LoopCall}
    (h : (loop.run providerName messages toolIds context options granted).exec [] =
      (outcome, log)) :
    (∃ e, outcome = .error e) ∧ log = [] ∨
      ∃ specs, loop.describe toolIds = .ok specs ∧
        LoopRun loop ⟨providerName, specs, context, options, granted⟩ options.maxIterations 0
          messages [] outcome log := by
  have herror {e : Exn} (he : (Except.error e, []) = (outcome, log)) :
      (∃ e, outcome = .error e) ∧ log = [] := by
    cases he
    exact ⟨⟨e, rfl⟩, rfl⟩
  unfold ToolCallLoop.run at h
  split at h
  · exact .inl (herror h)
  · split at h
    · exact .inl (herror h)
    · rw [exec_bind, exec_lift] at h
      cases hspecs : loop.describe toolIds with
      | error e =>
        rw [hspecs] at h
        exact .inl (herror h)
      | ok specs =>
        rw [hspecs] at h
        simp only at h
        rw [exec_bind, exec_lift] at h
        cases hprovider : loop.requireToolCalls providerName with
        | error e =>
          rw [hprovider] at h
          exact .inl (herror h)
        | ok =>
          rw [hprovider] at h
          simp only at h
          obtain ⟨made, hmade, hrun⟩ := rounds_loopRun loop
            ⟨providerName, specs, context, options, granted⟩ options.maxIterations 0 messages [] []
          rw [h] at hmade hrun
          obtain rfl : log = made := by simpa using hmade
          exact .inr ⟨specs, rfl, hrun⟩

end

end MellivorKernel
