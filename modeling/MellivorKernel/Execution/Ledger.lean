import MellivorKernel.Execution.Terminal

/-!
# What an execution makes known

An execution that returns has announced and recorded what it returns: around
whatever the authorizer, the tool or the provider did, the bus got the start and
the end, the sink the observation of each, and the memory one entry that says
what the result says (`execute_booked`).
-/

namespace MellivorKernel

open Python Foundation Program

/-- A call that makes something known of the execution. -/
def Call.notice : Call → Bool
  | .publish _ | .emit _ | .remember _ => true
  | _ => false

def notices (calls : List Call) : List Call := calls.filter Call.notice

theorem notices_append (xs ys : List Call) : notices (xs ++ ys) = notices xs ++ notices ys :=
  List.filter_append _ _

theorem notices_told {α : Type} (entry : α → Call) (h : ∀ a, (entry a).notice = true)
    (sink : Option (α → Except Exn Unit)) (a : α) :
    notices (told entry sink a) = told entry sink a := by
  unfold told notices
  split <;> simp [h]

theorem notices_silent {calls : List Call} (h : ∀ c ∈ calls, c.notice = false) :
    notices calls = [] :=
  List.filter_eq_nil_iff.mpr fun c hc => by simp [h c hc]

theorem tell_told {α : Type} (entry : α → Call) (sink : Option (α → Except Exn Unit)) (a : α) :
    (tell entry sink a).Traces fun _ made => made = told entry sink a :=
  tell_traces rfl

section
variable [Printing]

def ExecutionEngine.entryOf (engine : ExecutionEngine) (request : ExecutionRequest)
    (result : ExecutionResult) : Except Exn MemoryEntry := do
  let content ← memoryContent result
  MemoryEntry.new request.requestId content {request.target.value}
    [item "operation" (.str request.operation), item "success" (.bool result.success)] engine.now

inductive ExecutionEngine.Keeps (engine : ExecutionEngine) (request : ExecutionRequest)
    (result : ExecutionResult) : List Call → Prop
  | nothing (hmemory : engine.memory = none) : Keeps engine request result []
  | entry {entry : MemoryEntry} (hmemory : engine.memory.isSome)
      (hentry : engine.entryOf request result = .ok entry) :
      Keeps engine request result [.remember entry]

structure Booked (engine : ExecutionEngine) (request : ExecutionRequest) (result : ExecutionResult)
    (made : List Call) : Prop where
  told : ∃ kept, engine.Keeps request result kept ∧ notices made =
    told .publish engine.eventBus
        (.executionStarted request.requestId request.target request.operation) ++
      told .emit engine.observability (observation request (lit "execution.started")
        (lit "Executing request " ++ request.requestId ++ lit ".") []) ++
      told .publish engine.eventBus (terminalEvent request result) ++
      told .emit engine.observability (terminalObservation request result) ++ kept

theorem resolve_silent (engine : ExecutionEngine) (request : ExecutionRequest)
    (context : ExecutionContext) (granted : List Str) :
    (engine.resolve request context granted).Traces fun _ made => notices made = [] := fun log => by
  have honly : (engine.resolve request context granted).Only fun c => c.notice = false :=
    resolve_only (fun _ => rfl) (fun _ => rfl)
      (dispatch_only (fun _ _ => rfl) (fun _ _ => rfl) (fun _ _ _ => rfl) request context)
  obtain ⟨new, hnew, hall⟩ := honly log
  exact ⟨new, hnew, notices_silent hall⟩

theorem remember_keeps (engine : ExecutionEngine) (request : ExecutionRequest)
    (result : ExecutionResult) :
    (engine.remember request result).Traces fun outcome made =>
      outcome = .ok () → engine.Keeps request result made := by
  unfold ExecutionEngine.remember
  cases hmemory : engine.memory with
  | none => exact .pure fun _ => .nothing hmemory
  | some store =>
    refine .lift_bind (fun _ _ => nofun) fun content hcontent => ?_
    refine .lift_bind (fun _ _ => nofun) fun entry hentry => ?_
    refine .attempt_call_bind (.pure fun _ => .entry (by rw [hmemory]; rfl) ?_)
    simp only [ExecutionEngine.entryOf, hcontent]
    exact hentry

theorem execute_booked (engine : ExecutionEngine) (request : ExecutionRequest)
    (context : ExecutionContext) (granted : List Str) :
    (engine.execute request context granted).Traces fun outcome made => ∀ result,
      outcome = .ok result → Booked engine request result made := by
  rw [ExecutionEngine.execute_eq]
  refine .bind_returned (tell_told _ _ _) ?_
  rintro - started rfl
  refine .bind_returned (tell_told _ _ _) ?_
  rintro - observed rfl
  refine .bind_returned (resolve_silent engine request context granted) ?_
  intro result resolved hsilent
  refine .bind_returned (tell_told _ _ _) ?_
  rintro - ended rfl
  refine .bind_returned (tell_told _ _ _) ?_
  rintro - observed' rfl
  refine .bind_returned (remember_keeps engine request result) fun _ kept hkept => ?_
  refine .pure ?_
  rintro _ ⟨⟩
  have hkeeps := hkept rfl
  have hnotices : notices kept = kept := by
    cases hkeeps <;> rfl
  refine ⟨kept, hkeeps, ?_⟩
  simp only [notices_append, notices_told .publish fun _ => rfl, notices_told .emit fun _ => rfl,
    hsilent, hnotices]
  simp [notices, List.append_assoc]

end

end MellivorKernel
