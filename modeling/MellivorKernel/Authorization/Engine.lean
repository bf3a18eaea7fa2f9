import MellivorKernel.Tools.Pipeline

/-!
# Authorization

`PermissionResolver` and `AuthorizationEngine`. `authorize` is the pure
decision; `check` parses the claimed identifiers, decides, and reports the
decision to its bus and audit sink.
-/

namespace MellivorKernel

open Python Foundation

structure PermissionSet where
  permissions : List Permission

def PermissionSet.empty : PermissionSet := ⟨[]⟩

structure AuthorizationRequest where
  target : ExecutionTarget
  operation : Str
  grantedPermissions : PermissionSet
  operation_ok : blank operation = false

def AuthorizationRequest.new (target : ExecutionTarget) (operation : Str)
    (grantedPermissions : PermissionSet) : Except Exn AuthorizationRequest :=
  if h : blank operation = false then .ok ⟨target, operation, grantedPermissions, h⟩
  else .error (.raised .authorizationError
    (lit "AuthorizationRequest.operation must not be blank."))

structure AuthorizationResult where
  granted : Bool
  grantedPermissions : PermissionSet
  reason : Option Str
  denied_reason : granted = false → errorMissing reason = false
  granted_reason : granted = true → reason = none
  denied_permissions : granted = false → grantedPermissions.permissions = []

def AuthorizationResult.new (granted : Bool) (grantedPermissions : PermissionSet)
    (reason : Option Str) : Except Exn AuthorizationResult :=
  if h1 : granted = false → errorMissing reason = false then
    if h2 : granted = true → reason = none then
      if h3 : granted = false → grantedPermissions.permissions = [] then
        .ok ⟨granted, grantedPermissions, reason, h1, h2, h3⟩
      else .error (.raised .authorizationError
        (lit "A denied AuthorizationResult must not set `granted_permissions`."))
    else .error (.raised .authorizationError
      (lit "A granted AuthorizationResult must not set `reason`."))
  else .error (.raised .authorizationError
    (lit "A denied AuthorizationResult must include a non-empty `reason`."))

theorem AuthorizationResult.new_denied {message : Str} (h : blank message = false) :
    AuthorizationResult.new false PermissionSet.empty (some message) =
      .ok ⟨false, PermissionSet.empty, some message, fun _ => h, nofun, fun _ => rfl⟩ := by
  simp [AuthorizationResult.new, errorMissing, h, PermissionSet.empty]

theorem AuthorizationResult.new_granted (claimed : PermissionSet) :
    AuthorizationResult.new true claimed none = .ok ⟨true, claimed, none, nofun, fun _ => rfl, nofun⟩ := by
  simp [AuthorizationResult.new]

structure AuthorizationEngine where
  toolRegistry : ToolRegistry
  eventBus : Option EventBus
  auditSink : Option AuditSink

section
variable [Printing]

def resolveRequiredPermissions (registry : ToolRegistry) (target : ExecutionTarget)
    (operation : Str) : PermissionSet :=
  match target with
  | .provider => PermissionSet.empty
  | .tool => match registry.lookup operation with
    | .error _ => PermissionSet.empty
    | .ok tool => ⟨tool.permissions⟩

def AuthorizationEngine.authorize (engine : AuthorizationEngine) (request : AuthorizationRequest) :
    Except Exn AuthorizationResult :=
  let required := resolveRequiredPermissions engine.toolRegistry request.target request.operation
  let missing := missingPermissions required.permissions request.grantedPermissions.permissions
  if missing ≠ [] then
    AuthorizationResult.new false PermissionSet.empty (some
      (lit "Missing required permissions: " ++ join (lit ", ") (permissionNames missing) ++ lit "."))
  else AuthorizationResult.new true request.grantedPermissions none

def decisionRecord (request : ExecutionRequest) (result : AuthorizationResult) : AuditRecord where
  event := if result.granted then lit "authorization.granted" else lit "authorization.denied"
  subject := request.requestId
  action := request.target.value ++ lit ":" ++ request.operation
  decision := { allowed := result.granted, reason := result.reason.getD [] }

/-- `_audit`. -/
def AuthorizationEngine.recordDecision (engine : AuthorizationEngine) (request : ExecutionRequest)
    (result : AuthorizationResult) : Kernel Unit :=
  tell .audit engine.auditSink (decisionRecord request result)

def decisionEvent (request : ExecutionRequest) (result : AuthorizationResult) : Event :=
  if result.granted then
    .authorizationGranted request.requestId request.target request.operation
      (result.grantedPermissions.permissions.map Permission.value)
  else .authorizationDenied request.requestId request.target request.operation
    (result.reason.getD [])

/-- The decision `check` reaches, before it is reported. -/
def AuthorizationEngine.decide (engine : AuthorizationEngine) (request : ExecutionRequest)
    (grantedPermissions : List Str) : Except Exn AuthorizationResult :=
  match parsePermissions grantedPermissions with
  | .error exc =>
    if exc.isA .toolValidationError then
      AuthorizationResult.new false PermissionSet.empty (some exc.text)
    else .error exc
  | .ok claimed => do
    engine.authorize (← AuthorizationRequest.new request.target request.operation ⟨claimed⟩)

/-- `AuthorizationEngine.check`: both of its branches publish and audit the
decision they reached. -/
def AuthorizationEngine.check (engine : AuthorizationEngine) (request : ExecutionRequest)
    (grantedPermissions : List Str) : Kernel AuthorizationResult := do
  let result ← Program.lift (engine.decide request grantedPermissions)
  tell .authorizerPublish engine.eventBus (decisionEvent request result)
  engine.recordDecision request result
  pure result

-- ---------------------------------------------------------------------------
-- The decision
-- ---------------------------------------------------------------------------

/-- A request is authorized when every claim parses and the claims cover what
the registered target declares. -/
def Authorized (registry : ToolRegistry) (request : ExecutionRequest) (granted : List Str) : Prop :=
  (∀ value ∈ granted, permissionPattern value = true) ∧
  ∀ p ∈ (resolveRequiredPermissions registry request.target request.operation).permissions,
    p.value ∈ granted

theorem parsePermissions_isOk {granted : List Str}
    (h : ∀ value ∈ granted, permissionPattern value = true) :
    ∃ ps, parsePermissions granted = .ok ps := by
  induction granted with
  | nil => exact ⟨[], rfl⟩
  | cons value rest ih =>
    obtain ⟨ps, hps⟩ := ih fun v hv => h v (List.mem_cons_of_mem _ hv)
    have hp : Permission.new value = .ok ⟨value, h value (by simp)⟩ := Permission.new_ok.mpr rfl
    exact ⟨_, parsePermissions_cons.mpr ⟨_, _, hp, hps, rfl⟩⟩

theorem mem_parsed {granted : List Str} {ps : List Permission}
    (h : parsePermissions granted = .ok ps) (p : Permission) : p ∈ ps ↔ p.value ∈ granted := by
  rw [← parsePermissions_ok h, List.mem_map]
  constructor
  · exact fun hp => ⟨p, hp, rfl⟩
  · rintro ⟨q, hq, he⟩
    exact Permission.ext he ▸ hq

/-- The decision never raises, and grants exactly the authorized requests. -/
theorem AuthorizationEngine.decide_spec (engine : AuthorizationEngine) (request : ExecutionRequest)
    (granted : List Str) : ∃ result, engine.decide request granted = .ok result ∧
      (result.granted = true ↔ Authorized engine.toolRegistry request granted) := by
  cases hparse : parsePermissions granted with
  | error exc =>
    obtain ⟨message, rfl, hb⟩ := parsePermissions_error hparse
    have hdecide : engine.decide request granted =
        AuthorizationResult.new false PermissionSet.empty (some message) := by
      rw [AuthorizationEngine.decide, hparse]
      rfl
    refine ⟨_, hdecide.trans (AuthorizationResult.new_denied hb), nofun, ?_⟩
    rintro ⟨hall, -⟩
    obtain ⟨ps, hps⟩ := parsePermissions_isOk hall
    rw [hps] at hparse
    cases hparse
  | ok claimed =>
    have hreq : AuthorizationRequest.new request.target request.operation ⟨claimed⟩ =
        .ok ⟨request.target, request.operation, ⟨claimed⟩, request.operation_ok⟩ := by
      rw [AuthorizationRequest.new, dif_pos request.operation_ok]
    have hall : ∀ value ∈ granted, permissionPattern value = true := by
      intro value hv
      rw [← parsePermissions_ok hparse] at hv
      obtain ⟨p, -, rfl⟩ := List.mem_map.mp hv
      exact p.matched
    simp only [AuthorizationEngine.decide, hparse, hreq, bind, Except.bind,
      AuthorizationEngine.authorize]
    by_cases hm : missingPermissions (resolveRequiredPermissions engine.toolRegistry request.target
        request.operation).permissions claimed = []
    · rw [if_neg (by simpa using hm)]
      refine ⟨_, AuthorizationResult.new_granted _, ?_⟩
      have hcover := missingPermissions_nil.mp hm
      exact ⟨fun _ => ⟨hall, fun p hp => (mem_parsed hparse p).mp (hcover p hp)⟩, fun _ => rfl⟩
    · rw [if_pos hm]
      refine ⟨_, AuthorizationResult.new_denied
        (by rw [List.append_assoc]; exact blank_append_left (by decide) _), nofun, ?_⟩
      rintro ⟨-, hcover⟩
      exact absurd (missingPermissions_nil.mpr
        fun p hp => (mem_parsed hparse p).mpr (hcover p hp)) hm

theorem AuthorizationEngine.check_quiet (engine : AuthorizationEngine) {request : ExecutionRequest}
    {granted : List Str} {decision : AuthorizationResult} (hbus : Quiet engine.eventBus)
    (hsink : Quiet engine.auditSink) (hd : engine.decide request granted = .ok decision)
    (log : List Call) : ∃ log', (engine.check request granted).exec log = (.ok decision, log') := by
  unfold AuthorizationEngine.check AuthorizationEngine.recordDecision
  rw [hd, Program.exec_bind, Program.exec_lift]
  simp only
  rw [Program.exec_bind, tell_quiet hbus]
  simp only
  rw [Program.exec_bind, tell_quiet hsink]
  exact ⟨_, rfl⟩

end

end MellivorKernel
