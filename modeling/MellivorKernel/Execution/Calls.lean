import MellivorKernel.Execution.Types
import MellivorKernel.Foundation.Program
import MellivorKernel.Memory.Entry

/-!
# What the kernel calls

The events the kernel publishes, the records it hands to its sinks, and
`Call`, the alphabet of calls one execution makes to code it does not own:
sinks, stores, tools and providers. A sink is the function from what it is
handed to whether it returns. Identifiers and times an `Event` mints for
itself are left out.
-/

namespace MellivorKernel

open Python Foundation

inductive Event
  | executionStarted (requestId : Str) (target : ExecutionTarget) (operation : Str)
  | executionCompleted (requestId : Str) (target : ExecutionTarget) (operation : Str)
      (executionTimeSeconds : Rat)
  | executionFailed (requestId : Str) (target : ExecutionTarget) (operation error : Str)
      (stage : Option Str)
  | toolCallRequested (loopId toolCallId toolId : Str) (iteration : Nat)
  | toolCallCompleted (loopId toolCallId toolId : Str) (success : Bool)
  | toolCallRejected (loopId toolCallId toolId reason : Str)
  | authorizationGranted (requestId : Str) (target : ExecutionTarget) (operation : Str)
      (grantedPermissions : List Str)
  | authorizationDenied (requestId : Str) (target : ExecutionTarget) (operation reason : Str)
  | workflowStarted (workflowId name : Str)
  | workflowCompleted (workflowId name : Str) (stepCount : Nat)
  | workflowFailed (workflowId name error : Str) (stoppedAt : Option Str)
  | agentStarted (agentId name : Str)
  | agentCompleted (agentId name : Str)
  | agentFailed (agentId name error : Str)
  deriving DecidableEq

structure StructuredObservationEvent where
  name : Str
  message : Str
  correlationId : Str
  attributes : Mapping

structure SecurityDecision where
  allowed : Bool
  reason : Str

structure AuditRecord where
  event : Str
  subject : Str
  action : Str
  decision : SecurityDecision

/-- A call to a collaborator. `publish` is the execution engine's own bus,
`authorizerPublish` the authorization engine's, which may be the same
object. A tool is named by the id it is registered under. -/
inductive Call
  | publish (event : Event)
  | authorizerPublish (event : Event)
  | emit (event : StructuredObservationEvent)
  | audit (record : AuditRecord)
  | validate (tool : Str) (request : Mapping)
  | execute (tool : Str) (request : Mapping)
  | invoke (provider : Str) (request : Mapping)
  | remember (entry : MemoryEntry)

/-- Kernel code as a program over those calls. -/
abbrev Kernel := Program Exn Call

abbrev EventBus := Event → Except Exn Unit

abbrev AuditSink := AuditRecord → Except Exn Unit

abbrev StructuredEventSink := StructuredObservationEvent → Except Exn Unit

abbrev MemoryStore := MemoryEntry → Except Exn Unit

section
variable {κ α : Type}

def Quiet (sink : Option (α → Except Exn Unit)) : Prop := ∀ s ∈ sink, ∀ a, s a = .ok ()

/-- Hand `a` to a sink if one is configured. -/
def tell (entry : α → κ) (sink : Option (α → Except Exn Unit)) (a : α) : Program Exn κ Unit :=
  match sink with
  | none => pure ()
  | some s => Program.call (entry a) (s a)

def told (entry : α → κ) (sink : Option (α → Except Exn Unit)) (a : α) : List κ :=
  if sink.isSome then [entry a] else []

def accepted (sink : Option (α → Except Exn Unit)) (a : α) : Except Exn Unit :=
  match sink with
  | none => .ok ()
  | some s => s a

theorem tell_exec (entry : α → κ) (sink : Option (α → Except Exn Unit)) (a : α) (h : List κ) :
    (tell entry sink a).exec h = (accepted sink a, h ++ told entry sink a) := by
  cases sink <;> simp [tell, told, accepted]

theorem tell_quiet {sink : Option (α → Except Exn Unit)} (hq : Quiet sink) (entry : α → κ) (a : α)
    (h : List κ) : (tell entry sink a).exec h = (.ok (), h ++ told entry sink a) := by
  rw [tell_exec]
  cases sink with
  | none => rfl
  | some s => rw [accepted, hq s rfl a]

theorem tell_traces {entry : α → κ} {sink : Option (α → Except Exn Unit)} {a : α}
    {Q : Except Exn Unit → List κ → Prop} (h : Q (accepted sink a) (told entry sink a)) :
    (tell entry sink a).Traces Q := fun log => by
  rw [tell_exec]
  exact ⟨_, rfl, h⟩

theorem record_iff {P : κ → Prop} {entry : MemoryEntry → κ} (hP : ∀ e, P (entry e))
    (store : MemoryStore) (id : Str) {content : Str} (hcontent : blank content = false)
    (tags : Finset Str) (metadata : Mapping) (now : DateTime) (log : List κ) :
    (∃ more, (do
      let e ← Program.lift (MemoryEntry.new id content tags metadata now)
      let _ ← (Program.call (entry e) (store e)).attempt
      pure () : Program Exn κ Unit).exec log = (.ok (), log ++ more) ∧ ∀ c ∈ more, P c) ↔
      blank id = false := by
  cases hid : blank id with
  | true =>
    refine iff_of_false ?_ nofun
    rintro ⟨more, heq, -⟩
    rw [MemoryEntry.new, dif_neg (by rw [hid]; nofun), Program.exec_bind, Program.exec_lift] at heq
    cases heq
  | false =>
    refine iff_of_true ?_ rfl
    rw [MemoryEntry.new_ok hid hcontent, Program.exec_bind, Program.exec_lift]
    exact ⟨[_], rfl, by simpa using hP _⟩

theorem tell_only {P : κ → Prop} {entry : α → κ} {a : α} (h : P (entry a))
    (sink : Option (α → Except Exn Unit)) : (tell entry sink a).Only P := by
  cases sink with
  | none => exact .pure ()
  | some s => exact .call h _

end

end MellivorKernel
