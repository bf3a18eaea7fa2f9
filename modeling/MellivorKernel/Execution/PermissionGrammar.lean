import MellivorKernel.Execution.Enforcement

/-!
# The permission grammar

What a permission should be, stated apart from the pattern, and what becomes
of a string that is none in `AuthorizationEngine.check` and in the dispatcher.
The pattern lets one newline through (`permissionLaw_iff`).
-/

namespace MellivorKernel

open Python Foundation Program

/-- A lowercase letter, then lowercase letters, digits and underscores. -/
def Segment (s : Str) : Prop :=
  ∃ first rest, s = first :: rest ∧ isLowercase first = true ∧ ∀ c ∈ rest, isWord c = true

/-- Two or more segments with dots between them. -/
def Grammatical (value : Str) : Prop :=
  ∃ segments, 2 ≤ segments.length ∧ (∀ s ∈ segments, Segment s) ∧
    value = join (lit ".") segments

-- ---------------------------------------------------------------------------
-- The scan
-- ---------------------------------------------------------------------------

theorem segment_cons {c : CodePoint} {s : Str} :
    Segment (c :: s) ↔ isLowercase c = true ∧ ∀ c ∈ s, isWord c = true := by
  constructor
  · rintro ⟨_, _, ⟨rfl⟩, h⟩
    exact h
  · exact fun h => ⟨c, s, rfl, h⟩

theorem not_segment_nil : ¬ Segment [] := by
  rintro ⟨_, _, h, -⟩
  cases h

theorem not_isWord_dot : isWord (cp '.') = false := by decide

/-- What is left of a text is the rest of a segment, and further segments. -/
def Scanned (fresh dotted : Bool) (s : Str) : Prop :=
  ∃ word others, s = word ++ others.flatMap (cp '.' :: ·) ∧
    (if fresh then Segment word else ∀ c ∈ word, isWord c = true) ∧
      (∀ other ∈ others, Segment other) ∧ (dotted = true ∨ others ≠ [])

theorem scanned_nil {fresh dotted : Bool} :
    Scanned fresh dotted [] ↔ fresh = false ∧ dotted = true := by
  constructor
  · rintro ⟨word, others, h, hword, -, hdotted⟩
    obtain ⟨rfl, hothers⟩ := List.append_eq_nil_iff.mp h.symm
    obtain rfl : others = [] := by
      cases others with
      | nil => rfl
      | cons => cases hothers
    cases fresh with
    | true => exact absurd hword not_segment_nil
    | false => exact ⟨rfl, hdotted.resolve_right (by simp)⟩
  · rintro ⟨rfl, rfl⟩
    exact ⟨[], [], rfl, by simp, by simp, .inl rfl⟩

theorem scanned_fresh {dotted : Bool} {c : CodePoint} {rest : Str} :
    Scanned true dotted (c :: rest) ↔ isLowercase c = true ∧ Scanned false dotted rest := by
  constructor
  · rintro ⟨word, others, h, hword, hothers⟩
    cases word with
    | nil => exact absurd hword not_segment_nil
    | cons first word =>
      obtain ⟨rfl, hrest⟩ := List.cons.inj h
      obtain ⟨hc, hword⟩ := segment_cons.mp hword
      exact ⟨hc, word, others, hrest, hword, hothers⟩
  · rintro ⟨hc, word, others, rfl, hword, hothers⟩
    exact ⟨c :: word, others, rfl, segment_cons.mpr ⟨hc, hword⟩, hothers⟩

theorem scanned_dot {dotted : Bool} {rest : Str} :
    Scanned false dotted (cp '.' :: rest) ↔ Scanned true true rest := by
  constructor
  · rintro ⟨word, others, h, hword, hothers, -⟩
    cases word with
    | nil =>
      cases others with
      | nil => cases h
      | cons other others =>
        obtain ⟨-, hrest⟩ := List.cons.inj h
        obtain ⟨hother, hothers⟩ := List.forall_mem_cons.mp hothers
        exact ⟨other, others, hrest, hother, hothers, .inl rfl⟩
    | cons c word =>
      obtain ⟨rfl, -⟩ := List.cons.inj h
      have hdot := hword _ List.mem_cons_self
      rw [not_isWord_dot] at hdot
      cases hdot
  · rintro ⟨word, others, rfl, hword, hothers, -⟩
    exact ⟨[], word :: others, rfl, by simp, List.forall_mem_cons.mpr ⟨hword, hothers⟩,
      .inr (by simp)⟩

theorem scanned_word {dotted : Bool} {c : CodePoint} {rest : Str} (hc : c ≠ cp '.') :
    Scanned false dotted (c :: rest) ↔ isWord c = true ∧ Scanned false dotted rest := by
  constructor
  · rintro ⟨word, others, h, hword, hothers⟩
    cases word with
    | nil =>
      cases others with
      | nil => cases h
      | cons other others => exact absurd (List.cons.inj h).1 hc
    | cons first word =>
      obtain ⟨rfl, hrest⟩ := List.cons.inj h
      obtain ⟨hfirst, hword⟩ := List.forall_mem_cons.mp hword
      exact ⟨hfirst, word, others, hrest, hword, hothers⟩
  · rintro ⟨hc, word, others, rfl, hword, hothers⟩
    exact ⟨c :: word, others, rfl, List.forall_mem_cons.mpr ⟨hc, hword⟩, hothers⟩

theorem scanPermission_iff {fresh dotted : Bool} {s : Str} :
    scanPermission fresh dotted s = true ↔ Scanned fresh dotted s := by
  fun_induction scanPermission fresh dotted s with
  | case1 fresh dotted => simp [scanned_nil]
  | case2 dotted c rest ih => simp [scanned_fresh, ih]
  | case3 dotted rest ih => rw [scanned_dot, ih]
  | case4 dotted c rest hc ih => simp [scanned_word hc, ih]

theorem join_dot (word : Str) (others : List Str) :
    join (lit ".") (word :: others) = word ++ others.flatMap (cp '.' :: ·) :=
  join_cons (lit ".") word others

theorem scanPermission_grammatical {value : Str} :
    scanPermission true false value = true ↔ Grammatical value := by
  rw [scanPermission_iff]
  constructor
  · rintro ⟨word, others, rfl, hword, hothers, hdotted⟩
    refine ⟨word :: others, ?_, List.forall_mem_cons.mpr ⟨hword, hothers⟩, (join_dot _ _).symm⟩
    have hlength := List.length_pos_of_ne_nil (hdotted.resolve_left (by simp))
    exact Nat.succ_le_succ hlength
  · rintro ⟨segments, hlength, hsegments, rfl⟩
    cases segments with
    | nil => simp at hlength
    | cons word others =>
      obtain ⟨hword, hothers⟩ := List.forall_mem_cons.mp hsegments
      refine ⟨word, others, join_dot _ _, hword, hothers, .inr ?_⟩
      rintro rfl
      simp at hlength

/-- The pattern accepts what is grammatical, and that with a newline. -/
theorem permissionPattern_iff {value : Str} : permissionPattern value = true ↔
    Grammatical value ∨ ∃ base, value = base ++ [cp '\n'] ∧ Grammatical base := by
  have hdollar : permissionPattern value = dollar (scanPermission true false) value := rfl
  simp only [hdollar, dollar_iff, scanPermission_grammatical]

theorem not_grammatical_newline (base : Str) : ¬ Grammatical (base ++ [cp '\n']) := by
  rw [← scanPermission_grammatical]
  have hscan (fresh dotted : Bool) : scanPermission fresh dotted (base ++ [cp '\n']) ≠ true := by
    induction base generalizing fresh dotted with
    | nil => cases fresh <;> simp [scanPermission, isLowercase, isWord, cp]
    | cons c base ih =>
      cases fresh with
      | true => simp [scanPermission, ih]
      | false =>
        by_cases h : c = cp '.' <;> simp [scanPermission, h, ih]
  exact hscan true false

-- ---------------------------------------------------------------------------
-- What becomes of other strings
-- ---------------------------------------------------------------------------

section
variable [Printing]

/-- The engine answers the request with a denial, unless a sink of its own
raises. -/
structure Denies (engine : AuthorizationEngine) (request : ExecutionRequest) (granted : List Str) :
    Prop where
  denied : ∀ log outcome, ((engine.check request granted).exec log).1 = .ok outcome →
    outcome.granted = false
  answers : Quiet engine.eventBus → Quiet engine.auditSink → ∀ log, ∃ outcome,
    ((engine.check request granted).exec log).1 = .ok outcome

def FailsCheck (dispatcher : Dispatcher) (request : ExecutionRequest) (context : ExecutionContext)
    (granted : List Str) : Prop :=
  ∀ log, ∃ result, (dispatcher.dispatch request context granted).exec log = (.ok result, log) ∧
    result.success = false ∧
      result.metadata = [targetItem .tool, item "stage" (.str (lit "permission_check"))]

/-- A permission is constructed of exactly the grammatical strings, and a claim
that is none is denied, and keeps the dispatcher from running a tool. -/
structure PermissionLaw (value : Str) : Prop where
  constructs : (∃ permission, Permission.new value = .ok permission) ↔ Grammatical value
  denies : ¬ Grammatical value → ∀ engine request granted, value ∈ granted →
    Denies engine request granted
  fails : ¬ Grammatical value → ∀ (dispatcher : Dispatcher) (request : ExecutionRequest) context
    granted tool, request.target = .tool →
      dispatcher.toolRegistry.lookup request.operation = .ok tool → value ∈ granted →
        FailsCheck dispatcher request context granted

theorem Permission.new_returns {value : Str} :
    (∃ permission, Permission.new value = .ok permission) ↔ permissionPattern value = true := by
  simp only [Permission.new_ok]
  exact ⟨fun ⟨permission, h⟩ => h ▸ permission.matched, fun h => ⟨⟨value, h⟩, rfl⟩⟩

variable {value : Str} {granted : List Str} {request : ExecutionRequest}

theorem denies_malformed {engine : AuthorizationEngine} (hmem : value ∈ granted)
    (h : permissionPattern value = false) : Denies engine request granted := by
  obtain ⟨decision, hdecide, hgranted⟩ := engine.decide_spec request granted
  refine ⟨fun log outcome houtcome => ?_, fun hbus hsink log => ?_⟩
  · rw [check_returns hdecide houtcome, Bool.eq_false_iff]
    intro hdecision
    have hmatched := (hgranted.mp hdecision).1 value hmem
    rw [h] at hmatched
    cases hmatched
  · obtain ⟨log', hcheck⟩ := engine.check_quiet hbus hsink hdecide log
    exact ⟨decision, congrArg Prod.fst hcheck⟩

theorem failsCheck_malformed {dispatcher : Dispatcher} {context : ExecutionContext} {tool : BaseTool}
    (htarget : request.target = .tool)
    (hlookup : dispatcher.toolRegistry.lookup request.operation = .ok tool)
    (hmem : value ∈ granted) (h : permissionPattern value = false) :
    FailsCheck dispatcher request context granted := by
  intro log
  obtain ⟨exc, hparse⟩ := parsePermissions_malformed hmem h
  obtain ⟨message, rfl, hblank⟩ := parsePermissions_error hparse
  have hok : OutcomeOk false (some message) 0 := ⟨fun _ => hblank, by simp, lt_irrefl 0⟩
  refine ⟨⟨false, none, some message, 0, _, hok⟩, ?_, rfl, rfl⟩
  rw [Dispatcher.dispatch, htarget]
  simp only [Dispatcher.dispatchToTool, hlookup, hparse, Exn.text]
  rw [exec_lift, ExecutionResult.new_ok hok]

/-- The law holds of every string but a permission with a newline after it. -/
theorem permissionLaw_iff (value : Str) :
    PermissionLaw value ↔ ¬ ∃ base, value = base ++ [cp '\n'] ∧ Grammatical base := by
  constructor
  · rintro ⟨hconstructs, -, -⟩ ⟨base, rfl, hbase⟩
    rw [Permission.new_returns, permissionPattern_iff] at hconstructs
    exact not_grammatical_newline base (hconstructs.mp (.inr ⟨base, rfl, hbase⟩))
  · intro hvalue
    have hpattern : permissionPattern value = true ↔ Grammatical value := by
      rw [permissionPattern_iff]
      exact or_iff_left hvalue
    refine ⟨Permission.new_returns.trans hpattern, fun h _ _ _ hmem => ?_,
      fun h _ _ _ _ _ htarget hlookup hmem => ?_⟩
    · exact denies_malformed hmem (Bool.eq_false_iff.mpr (mt hpattern.mp h))
    · exact failsCheck_malformed htarget hlookup hmem (Bool.eq_false_iff.mpr (mt hpattern.mp h))

end

/-- A newline after a permission does not keep it from being one. -/
theorem newline_constructs :
    (∃ permission, @Permission.new plainPrinting (lit "filesystem.read\n") = .ok permission) ∧
      ¬ @PermissionLaw plainPrinting (lit "filesystem.read\n") := by
  let _ : Printing := plainPrinting
  have hmatched : permissionPattern (lit "filesystem.read\n") = true := by decide
  have hconstructs := Permission.new_returns.mpr hmatched
  refine ⟨hconstructs, fun hlaw => ?_⟩
  exact not_grammatical_newline (lit "filesystem.read") (hlaw.constructs.mp hconstructs)

end MellivorKernel
