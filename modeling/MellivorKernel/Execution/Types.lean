import MellivorKernel.Python.Value

/-!
# Requests and results

`ExecutionRequest`, `ExecutionContext` and `ExecutionResult`. The invariants
their constructors check are fields, and `new` is the constructor that checks
them. `ToolResult` makes the same checks as `ExecutionResult` under its own
name, so the checks are one definition, `checkOutcome`.
-/

namespace MellivorKernel

open Python

/-- A kernel object passed along and never looked into. -/
abbrev Handle := Nat

inductive ExecutionTarget
  | tool
  | provider
  deriving DecidableEq

def ExecutionTarget.value : ExecutionTarget → Str
  | .tool => lit "tool"
  | .provider => lit "provider"

structure ExecutionContext where
  configuration : Handle
  logger : Handle
  runtime : Handle
  services : Handle
  deriving DecidableEq

structure ExecutionRequest where
  target : ExecutionTarget
  operation : Str
  payload : Mapping
  requestId : Str
  operation_ok : blank operation = false
  requestId_ok : blank requestId = false

def ExecutionRequest.new (target : ExecutionTarget) (operation : Str) (payload : Mapping)
    (requestId : Str) : Except Exn ExecutionRequest :=
  if ho : blank operation = false then
    if hr : blank requestId = false then
      .ok { target, operation, payload, requestId, operation_ok := ho, requestId_ok := hr }
    else .error (.raised .executionValidationError
      (lit "ExecutionRequest.request_id must not be blank."))
  else .error (.raised .executionValidationError
    (lit "ExecutionRequest.operation must not be blank."))

theorem ExecutionRequest.new_ok {target : ExecutionTarget} {operation requestId : Str}
    {payload : Mapping} (ho : blank operation = false) (hr : blank requestId = false) :
    ExecutionRequest.new target operation payload requestId =
      .ok { target, operation, payload, requestId, operation_ok := ho, requestId_ok := hr } := by
  rw [ExecutionRequest.new, dif_pos ho, dif_pos hr]

-- ---------------------------------------------------------------------------
-- Outcomes
-- ---------------------------------------------------------------------------

/-- `not (error and error.strip())`. -/
def errorMissing : Option Str → Bool
  | none => true
  | some e => blank e

/-- What both result classes promise of their fields. -/
structure OutcomeOk (success : Bool) (error : Option Str) (seconds : Rat) : Prop where
  failed : success = false → errorMissing error = false
  succeeded : success = true → error = none
  time : ¬ seconds < 0

instance : Decidable (OutcomeOk success error seconds) :=
  decidable_of_iff ((success = false → errorMissing error = false) ∧
    (success = true → error = none) ∧ ¬ seconds < 0)
    ⟨fun h => ⟨h.1, h.2.1, h.2.2⟩, fun h => ⟨h.1, h.2, h.3⟩⟩

section
variable [Printing]

/-- The checks of a result class named `label` that raises `cls`, in order. -/
def checkOutcome (cls : ExnClass) (label : String) (success : Bool) (error : Option Str)
    (seconds : Rat) : Except Exn (PLift (OutcomeOk success error seconds)) :=
  if h : OutcomeOk success error seconds then .ok ⟨h⟩
  else .error (.raised cls <|
    if success = false ∧ errorMissing error = true then
      lit "A failed " ++ lit label ++ lit " must include a non-empty `error` message."
    else if success = true ∧ error ≠ none then
      lit "A successful " ++ lit label ++ lit " must not set `error`."
    else
      lit "execution_time_seconds must be non-negative, got " ++ floatRepr seconds ++ lit ".")

theorem checkOutcome_ok (cls : ExnClass) (label : String) (h : OutcomeOk success error seconds) :
    checkOutcome cls label success error seconds = .ok ⟨h⟩ := dif_pos h

theorem checkOutcome_error (cls : ExnClass) (label : String)
    (h : ¬ OutcomeOk success error seconds) :
    ∃ message, checkOutcome cls label success error seconds = .error (.raised cls message) :=
  ⟨_, dif_neg h⟩

end

theorem outcomeOk_failed {message : Str} {seconds : Rat} (ht : 0 ≤ seconds) :
    OutcomeOk false (some message) seconds ↔ blank message = false :=
  ⟨fun h => h.failed rfl, fun h => ⟨fun _ => h, nofun, Rat.not_lt.mpr ht⟩⟩

theorem outcomeOk_succeeded {seconds : Rat} (ht : 0 ≤ seconds) : OutcomeOk true none seconds :=
  ⟨nofun, fun _ => rfl, Rat.not_lt.mpr ht⟩

theorem outcomeOk_instant : OutcomeOk true none 0 := outcomeOk_succeeded Rat.le_refl

structure ExecutionResult where
  success : Bool
  payload : Option Mapping
  error : Option Str
  executionTimeSeconds : Rat
  metadata : Mapping
  ok : OutcomeOk success error executionTimeSeconds

def ExecutionResult.new [Printing] (success : Bool) (payload : Option Mapping) (error : Option Str)
    (executionTimeSeconds : Rat) (metadata : Mapping) : Except Exn ExecutionResult :=
  match checkOutcome .executionValidationError "ExecutionResult" success error
      executionTimeSeconds with
  | .ok ⟨ok⟩ => .ok { success, payload, error, executionTimeSeconds, metadata, ok }
  | .error e => .error e

theorem ExecutionResult.new_ok [Printing] {success : Bool} {payload : Option Mapping}
    {error : Option Str} {seconds : Rat} {metadata : Mapping} (h : OutcomeOk success error seconds) :
    ExecutionResult.new success payload error seconds metadata =
      .ok { success, payload, error, executionTimeSeconds := seconds, metadata, ok := h } := by
  rw [ExecutionResult.new, checkOutcome_ok _ _ h]

theorem ExecutionResult.new_returns [Printing] {success : Bool} {payload : Option Mapping}
    {error : Option Str} {seconds : Rat} {metadata : Mapping} :
    (∃ result, ExecutionResult.new success payload error seconds metadata = .ok result) ↔
      OutcomeOk success error seconds := by
  constructor
  · rintro ⟨result, h⟩
    by_contra hok
    obtain ⟨message, hm⟩ := checkOutcome_error .executionValidationError "ExecutionResult" hok
    rw [ExecutionResult.new, hm] at h
    cases h
  · exact fun h => ⟨_, ExecutionResult.new_ok h⟩

theorem ExecutionResult.error_of_failed (r : ExecutionResult) (h : r.success = false) :
    ∃ e, r.error = some e ∧ blank e = false := by
  have hm := r.ok.failed h
  cases he : r.error with
  | none => rw [he] at hm; cases hm
  | some e => rw [he] at hm; exact ⟨e, rfl, hm⟩

theorem ExecutionResult.error_of_success (r : ExecutionResult) (h : r.success = true) :
    r.error = none := r.ok.succeeded h

end MellivorKernel
