import MellivorKernel.Execution.Types
import MellivorKernel.Foundation.Dict
import MellivorKernel.Python.DateTime

/-!
# Workflows

The data of `workflow/`: steps, definitions, contexts, execution options and
results, each with the checks of its constructor. A request resolver is a
function, so that it is callable holds of every one here; metadata nothing
reads is left out.
-/

namespace MellivorKernel

open Python Foundation

structure WorkflowStep where
  name : Str
  request : ExecutionRequest
  grantedPermissions : List Str
  continueOnFailure : Bool
  name_ok : blank name = false

structure WorkflowDefinition where
  name : Str
  steps : List WorkflowStep
  name_ok : blank name = false
  steps_nodup : (steps.map WorkflowStep.name).Nodup

structure Workflow where
  definition : WorkflowDefinition
  workflowId : Str

structure WorkflowContext where
  executionContext : ExecutionContext
  stepResults : Dict Str ExecutionResult

/-- What a resolver returned: a request, or an object of another type. -/
inductive Candidate
  | request (request : ExecutionRequest)
  | other (typeName : Str)

abbrev RequestResolver := WorkflowContext → ExecutionRequest → Except Exn Candidate

-- ---------------------------------------------------------------------------
-- Options
-- ---------------------------------------------------------------------------

section
variable [Printing]

def validateStepName (stepName : Str) (fieldName : String) : Except Exn Unit :=
  if blank stepName then .error (.raised .workflowError
    (lit "WorkflowExecutionOptions." ++ lit fieldName ++ lit " step names cannot be blank."))
  else .ok ()

def checkGroup (groupedNames : List Str) : List Str → Except Exn (List Str)
  | [] => .ok groupedNames
  | stepName :: rest => do
    validateStepName stepName "parallel_groups"
    if stepName ∈ groupedNames then .error (.raised .workflowError
      (lit "WorkflowExecutionOptions step " ++ pyRepr stepName ++
        lit " cannot appear in more than one parallel group."))
    else checkGroup (stepName :: groupedNames) rest

def checkGroups (groupedNames : List Str) : List (List Str) → Except Exn (List Str)
  | [] => .ok groupedNames
  | group :: rest =>
    if group = [] then .error (.raised .workflowError
      (lit "WorkflowExecutionOptions.parallel_groups cannot be empty."))
    else do
      let groupedNames ← checkGroup groupedNames group
      checkGroups groupedNames rest

def checkNotBefore : List (Str × ZonedDateTime) → Except Exn Unit
  | [] => .ok ()
  | (stepName, scheduledAt) :: rest => do
    validateStepName stepName "not_before"
    if scheduledAt.tzinfo = none then .error (.raised .workflowError
      (lit "WorkflowExecutionOptions.not_before[" ++ pyRepr stepName ++
        lit "] must be timezone-aware."))
    else checkNotBefore rest

def checkOptions (requestResolvers : Dict Str RequestResolver) (parallelGroups : List (List Str))
    (notBefore : Dict Str ZonedDateTime) : Except Exn Unit := do
  requestResolvers.keys.forM fun stepName => validateStepName stepName "request_resolvers"
  let _ ← checkGroups [] parallelGroups
  checkNotBefore notBefore.entries

end

structure WorkflowExecutionOptions [Printing] where
  requestResolvers : Dict Str RequestResolver
  parallelGroups : List (List Str)
  notBefore : Dict Str ZonedDateTime
  checked : checkOptions requestResolvers parallelGroups notBefore = .ok ()

section
variable [Printing]

theorem checkOptions_ungrouped {requestResolvers : Dict Str RequestResolver}
    {parallelGroups : List (List Str)} {notBefore : Dict Str ZonedDateTime}
    (h : checkOptions requestResolvers parallelGroups notBefore = .ok ()) :
    checkOptions requestResolvers [] notBefore = .ok () := by
  simp only [checkOptions, bind, Except.bind] at h ⊢
  split at h
  · cases h
  · split at h
    · cases h
    · exact h

def WorkflowExecutionOptions.default : WorkflowExecutionOptions where
  requestResolvers := Dict.empty
  parallelGroups := []
  notBefore := Dict.empty
  checked := rfl

def WorkflowExecutionOptions.ungrouped (options : WorkflowExecutionOptions) :
    WorkflowExecutionOptions :=
  { options with parallelGroups := [], checked := checkOptions_ungrouped options.checked }

end

-- ---------------------------------------------------------------------------
-- Results
-- ---------------------------------------------------------------------------

structure WorkflowResult where
  success : Bool
  stepResults : Dict Str ExecutionResult
  error : Option Str
  stoppedAt : Option Str
  failed : success = false → errorMissing error = false
  succeeded : success = true → error = none
  unstopped : success = true → stoppedAt = none

def WorkflowResult.new (success : Bool) (stepResults : Dict Str ExecutionResult)
    (error stoppedAt : Option Str) : Except Exn WorkflowResult :=
  if hf : success = false → errorMissing error = false then
    if hs : success = true → error = none then
      if hu : success = true → stoppedAt = none then
        .ok ⟨success, stepResults, error, stoppedAt, hf, hs, hu⟩
      else .error (.raised .workflowError (lit "A successful WorkflowResult must not set `stopped_at`."))
    else .error (.raised .workflowError (lit "A successful WorkflowResult must not set `error`."))
  else .error (.raised .workflowError
    (lit "A failed WorkflowResult must include a non-empty `error` message."))

theorem WorkflowResult.new_stopped {message : Str} (stepResults : Dict Str ExecutionResult)
    (stoppedAt : Str) (h : blank message = false) :
    WorkflowResult.new false stepResults (some message) (some stoppedAt) =
      .ok ⟨false, stepResults, some message, some stoppedAt, fun _ => h, nofun, nofun⟩ := by
  simp [WorkflowResult.new, errorMissing, h]

theorem WorkflowResult.new_completed (stepResults : Dict Str ExecutionResult) :
    WorkflowResult.new true stepResults none none =
      .ok ⟨true, stepResults, none, none, nofun, fun _ => rfl, fun _ => rfl⟩ := by
  simp [WorkflowResult.new]

end MellivorKernel
