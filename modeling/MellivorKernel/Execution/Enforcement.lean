import MellivorKernel.Execution.Engine

/-!
# Permission enforcement

A tool's `execute` runs only when everything it declares was granted. The
check is made twice, by the authorizer over a parsed set and by the pipeline
over the set the dispatcher parses again; the two agree, and neither leaves a
way around the other.
-/

namespace MellivorKernel

open Python Foundation Program

def Call.Reaches : Call → Prop
  | .validate .. | .execute .. | .invoke .. => True
  | _ => False

/-- Calls that run no tool under permissions the strings `granted` lack. -/
def Call.Covered (registry : ToolRegistry) (granted : List Str) [Printing] : Call → Prop
  | .execute toolId _ => ∃ tool, registry.lookup toolId = .ok tool ∧
      ∀ p ∈ tool.permissions, p.value ∈ granted
  | _ => True

/-- The permissions the engine forwards to the dispatcher. -/
def ExecutionEngine.effectivePermissions (engine : ExecutionEngine) (granted : List Str) : List Str :=
  if engine.authorizer.isSome then granted else []

theorem ExecutionEngine.effectivePermissions_subset (engine : ExecutionEngine) (granted : List Str) :
    engine.effectivePermissions granted ⊆ granted := by
  unfold ExecutionEngine.effectivePermissions
  split
  · exact List.Subset.refl granted
  · exact List.nil_subset granted

section
variable [Printing]

theorem Call.covered_of_own {c : Call} (h : ¬ c.Reaches) : c.Covered registry granted := by
  cases c <;> first | trivial | exact absurd trivial h

-- ---------------------------------------------------------------------------
-- The pipeline and the dispatcher
-- ---------------------------------------------------------------------------

/-- A pipeline run calls `validate`, and `execute` only under every declared
permission. -/
theorem runPipeline_only {P : Call → Prop} {toolId : Str} {tool : BaseTool} {request : Mapping}
    {granted : List Permission} (context : ToolContext) (hv : P (.validate toolId request))
    (he : (∀ p ∈ tool.permissions, p ∈ granted) → P (.execute toolId request)) :
    (runPipeline toolId tool context request granted).Only P := by
  unfold runPipeline
  refine .bind (.attempt (.call hv _)) ?_
  rintro (exc | _)
  · simp only
    split
    · exact .lift _
    · exact .throw _
  · simp only
    split
    · exact .lift _
    · rename_i hm
      refine .bind (.attempt (.call (he (missingPermissions_nil.mp (not_not.mp hm))) _)) ?_
      rintro (exc | result)
      · exact .lift _
      · exact .lift _

theorem dispatch_only {P : Call → Prop} {dispatcher : Dispatcher} {granted : List Str}
    (hv : ∀ toolId payload, P (.validate toolId payload))
    (hi : ∀ provider payload, P (.invoke provider payload))
    (he : ∀ toolId payload, Call.Covered dispatcher.toolRegistry granted (.execute toolId payload) →
      P (.execute toolId payload))
    (request : ExecutionRequest) (context : ExecutionContext) :
    (dispatcher.dispatch request context granted).Only P := by
  unfold Dispatcher.dispatch
  split
  · unfold Dispatcher.dispatchToTool
    split
    · exact .lift _
    · rename_i tool hlookup
      split
      · exact .lift _
      · rename_i resolved hparse
        refine .bind (runPipeline_only _ (hv _ _) fun hcover => he _ _ ?_) fun _ => .lift _
        exact ⟨tool, hlookup, fun p hp => (mem_parsed hparse p).mp (hcover p hp)⟩
  · unfold Dispatcher.dispatchToProvider
    split
    · exact .lift _
    · refine .bind (.attempt (.call (hi _ _) _)) ?_
      rintro (exc | response)
      · exact .lift _
      · exact .lift _

-- ---------------------------------------------------------------------------
-- The engine's own calls
-- ---------------------------------------------------------------------------

theorem remember_only {P : Call → Prop} (h : ∀ entry, P (.remember entry)) (engine : ExecutionEngine)
    (request : ExecutionRequest) (result : ExecutionResult) :
    (engine.remember request result).Only P := by
  unfold ExecutionEngine.remember
  split
  · exact .pure ()
  · exact .bind (.lift _) fun _ => .bind (.lift _) fun entry =>
      .bind (.attempt (.call (h entry) _)) fun _ => .pure ()

theorem finish_only {P : Call → Prop} (h : ∀ c, ¬ c.Reaches → P c) (engine : ExecutionEngine)
    (request : ExecutionRequest) (result : ExecutionResult) :
    (engine.finish request result).Only P :=
  .bind (tell_only (h (.publish _) not_false) _) fun _ =>
    .bind (tell_only (h (.emit _) not_false) _) fun _ =>
      .bind (remember_only (fun _ => h (.remember _) not_false) engine request result) fun _ =>
        .pure result

theorem check_only {P : Call → Prop} (hp : ∀ e, P (.authorizerPublish e)) (ha : ∀ r, P (.audit r))
    (engine : AuthorizationEngine) (request : ExecutionRequest) (granted : List Str) :
    (engine.check request granted).Only P :=
  .bind (.lift _) fun _ => .bind (tell_only (hp _) _) fun _ =>
    .bind (tell_only (ha _) _) fun _ => .pure _

theorem resolve_only {P : Call → Prop} (hp : ∀ e, P (.authorizerPublish e))
    (ha : ∀ r, P (.audit r)) {engine : ExecutionEngine} {request : ExecutionRequest}
    {context : ExecutionContext} {granted : List Str}
    (hd : (engine.dispatcher.dispatch request context (engine.effectivePermissions granted)).Only P) :
    (engine.resolve request context granted).Only P := by
  unfold ExecutionEngine.resolve
  unfold ExecutionEngine.effectivePermissions at hd
  cases h : engine.authorizer with
  | some authorizer =>
    rw [h] at hd
    refine .bind (check_only hp ha authorizer request granted) fun outcome => ?_
    split
    · exact hd
    · exact .lift _
  | none =>
    rw [h] at hd
    exact hd

/-- Around `resolve` the engine makes only calls of its own. -/
theorem execute_only {P : Call → Prop} (h : ∀ c, ¬ c.Reaches → P c) {engine : ExecutionEngine}
    {request : ExecutionRequest} {context : ExecutionContext} {granted : List Str}
    (hr : (engine.resolve request context granted).Only P) :
    (engine.execute request context granted).Only P := by
  rw [ExecutionEngine.execute_eq]
  exact .bind (tell_only (h (.publish _) not_false) _) fun _ =>
    .bind (tell_only (h (.emit _) not_false) _) fun _ =>
      .bind hr fun result => finish_only h engine request result

theorem execute_covered (engine : ExecutionEngine) (request : ExecutionRequest)
    (context : ExecutionContext) (granted : List Str) :
    (engine.execute request context granted).Only
      (Call.Covered engine.dispatcher.toolRegistry (engine.effectivePermissions granted)) :=
  execute_only (fun _ => Call.covered_of_own) <|
    resolve_only (fun _ => trivial) (fun _ => trivial) <|
      dispatch_only (fun _ _ => trivial) (fun _ _ => trivial) (fun _ _ h => h) request context

-- ---------------------------------------------------------------------------
-- The decision
-- ---------------------------------------------------------------------------

theorem check_returns {authorizer : AuthorizationEngine} {decision outcome : AuthorizationResult}
    (hd : authorizer.decide request granted = .ok decision)
    (h : ((authorizer.check request granted).exec log).1 = .ok outcome) : outcome = decision := by
  unfold AuthorizationEngine.check at h
  rw [hd, exec_bind, exec_lift] at h
  simp only at h
  rw [exec_bind] at h
  split at h
  · rw [exec_bind] at h
    split at h
    · simpa [eq_comm] using h
    · cases h
  · cases h

/-- A denied request reaches no tool and no provider. -/
theorem execute_denied {engine : ExecutionEngine} {authorizer : AuthorizationEngine}
    {decision : AuthorizationResult} (ha : engine.authorizer = some authorizer)
    (hd : authorizer.decide request granted = .ok decision) (hdenied : decision.granted = false)
    (context : ExecutionContext) :
    (engine.execute request context granted).Only fun c => ¬ c.Reaches := by
  refine execute_only (fun _ h => h) ?_
  unfold ExecutionEngine.resolve
  rw [ha]
  refine .bind_of (check_only (fun _ => not_false) (fun _ => not_false) authorizer request granted)
    fun outcome log hc => ?_
  obtain rfl : outcome = decision := check_returns hd hc
  simp only [hdenied, Bool.false_eq_true, if_false]
  exact .lift _

/-- What a grant over the dispatcher's own registry guarantees further down:
the claims parse, and the pipeline finds nothing missing. -/
theorem granted_dispatches {registry : ToolRegistry} {request : ExecutionRequest} {granted : List Str}
    (h : Authorized registry request granted) :
    ∃ permissions, parsePermissions granted = .ok permissions ∧
      (request.target = .tool → ∀ tool, registry.lookup request.operation = .ok tool →
        missingPermissions tool.permissions permissions = []) := by
  obtain ⟨permissions, hparse⟩ := parsePermissions_isOk h.1
  refine ⟨permissions, hparse, fun htarget tool hlookup => ?_⟩
  have hcover := h.2
  simp only [resolveRequiredPermissions, htarget, hlookup] at hcover
  exact missingPermissions_nil.mpr fun p hp => (mem_parsed hparse p).mpr (hcover p hp)

theorem not_authorized_of_malformed {registry : ToolRegistry} {request : ExecutionRequest}
    {granted : List Str} {value : Str} {e : Exn} (hv : value ∈ granted)
    (he : Permission.new value = .error e) : ¬ Authorized registry request granted := by
  rintro ⟨hall, -⟩
  rw [Permission.new, dif_pos (hall value hv)] at he
  cases he

-- ---------------------------------------------------------------------------
-- End to end
-- ---------------------------------------------------------------------------

/-- Permission enforcement, end to end: no tool runs without its permissions;
an authorizer over the dispatcher's registry denies malformed claims, its
denial reaches nothing and its grant is never revoked by the second check;
without an authorizer the claims are ignored and only tools that declare
nothing run. -/
theorem execute_enforcesPermissions (engine : ExecutionEngine) (request : ExecutionRequest)
    (context : ExecutionContext) (granted : List Str) (log : List Call) :
    ∃ outcome new, (engine.execute request context granted).exec log = (outcome, log ++ new) ∧
      (∀ toolId payload, Call.execute toolId payload ∈ new →
        ∃ tool, engine.dispatcher.toolRegistry.lookup toolId = .ok tool ∧
          ∀ p ∈ tool.permissions, p.value ∈ granted) ∧
      (∀ authorizer, engine.authorizer = some authorizer →
        authorizer.toolRegistry = engine.dispatcher.toolRegistry →
        ∃ decision, authorizer.decide request granted = .ok decision ∧
          (∀ log' returned, ((authorizer.check request granted).exec log').1 = .ok returned →
            returned = decision) ∧
          ((∃ value ∈ granted, ∃ e, Permission.new value = .error e) →
            decision.granted = false) ∧
          (decision.granted = false → ∀ c ∈ new, ¬ c.Reaches) ∧
          (decision.granted = true → ∃ permissions, parsePermissions granted = .ok permissions ∧
            (request.target = .tool →
              ∀ tool, engine.dispatcher.toolRegistry.lookup request.operation = .ok tool →
                missingPermissions tool.permissions permissions = []))) ∧
      (engine.authorizer = none →
        (∀ granted', (engine.execute request context granted').exec log =
          (engine.execute request context granted).exec log) ∧
        ∀ toolId payload, Call.execute toolId payload ∈ new →
          ∃ tool, engine.dispatcher.toolRegistry.lookup toolId = .ok tool ∧
            tool.permissions = []) := by
  obtain ⟨new, hnew, hcovered⟩ := execute_covered engine request context granted log
  refine ⟨_, new, Prod.ext rfl hnew, ?_, ?_, ?_⟩
  · intro toolId payload hmem
    obtain ⟨tool, hlookup, hperms⟩ := hcovered _ hmem
    refine ⟨tool, hlookup, fun p hp => ?_⟩
    exact engine.effectivePermissions_subset granted (hperms p hp)
  · intro authorizer ha hregistry
    obtain ⟨decision, hdecide, hgranted⟩ := authorizer.decide_spec request granted
    rw [hregistry] at hgranted
    refine ⟨decision, hdecide, fun log' returned => check_returns hdecide, ?_, ?_, ?_⟩
    · rintro ⟨value, hv, e, he⟩
      exact Bool.eq_false_iff.mpr fun h => not_authorized_of_malformed hv he (hgranted.mp h)
    · intro hdenied
      obtain ⟨new', hnew', hall⟩ := execute_denied ha hdecide hdenied context log
      rwa [List.append_cancel_left (hnew.symm.trans hnew')]
    · exact fun h => granted_dispatches (hgranted.mp h)
  · intro ha
    constructor
    · intro granted'
      simp only [ExecutionEngine.execute, ha]
    · intro toolId payload hmem
      obtain ⟨tool, hlookup, hperms⟩ := hcovered _ hmem
      refine ⟨tool, hlookup, List.eq_nil_iff_forall_not_mem.mpr fun p hp => ?_⟩
      have hp' := hperms p hp
      simp [ExecutionEngine.effectivePermissions, ha] at hp'

end

end MellivorKernel
