import MellivorKernel.Foundation.History
import MellivorKernel.Foundation.Machine
import MellivorKernel.Foundation.Returns
import MellivorKernel.Plugins.Lifecycle

/-!
# The hooks a lifecycle calls

Any sequence of calls of one `PluginLifecycle`, whatever the hooks do. The
state is known from the last hook that was called and from whether it raised
(`stateAfter`). From this follows which hook may be called after which, and
that a call of the lifecycle that does not reach a hook changes nothing
(`hookTrace_lawful`).
-/

namespace MellivorKernel

open Python Foundation

structure Invocation where
  hook : Hook
  returned : Bool
  deriving DecidableEq

def hookTrace (answers : Answers) : List HookCall → List Invocation :=
  seen fun calls c => ⟨c.hook, (answers calls c).isOk⟩

-- ---------------------------------------------------------------------------
-- The law of traces
-- ---------------------------------------------------------------------------

/-- What the hook calls before one of them must have been. -/
structure MayFollow (before : List Invocation) (invoked : Invocation) : Prop where
  initializePlugin : invoked.hook = .initializePlugin →
    ∀ earlier ∈ before, earlier.hook ≠ .initializePlugin ∧ earlier.hook ≠ .start
  start : invoked.hook = .start → ⟨.initializePlugin, true⟩ ∈ before ∧
    (before.getLast? = some ⟨.initializePlugin, true⟩ ∨ before.getLast? = some ⟨.stop, true⟩)
  stop : invoked.hook = .stop → before.getLast? = some ⟨.start, true⟩
  raised : (∃ earlier ∈ before, earlier.returned = false) → invoked.hook = .dispose
  disposed : ⟨.dispose, true⟩ ∉ before

structure TraceLaw (trace : List Invocation) : Prop where
  once : trace.countP (·.hook = .initializePlugin) ≤ 1
  follows : Follows MayFollow trace

def Hook.leadsTo : Hook → PluginLifecycleState
  | .initializePlugin => .initialized
  | .start => .running
  | .stop => .stopped
  | .dispose => .disposed

def Hook.allowedIn : Hook → List PluginLifecycleState
  | .initializePlugin => [.registered]
  | .start => [.initialized, .stopped]
  | .stop => [.running]
  | .dispose => [.registered, .initialized, .stopped, .failed]

def stateAfter (trace : List Invocation) : PluginLifecycleState :=
  match trace.getLast? with
  | none => .registered
  | some invoked => if invoked.returned then invoked.hook.leadsTo else .failed

@[simp] theorem stateAfter_concat (trace : List Invocation) (invoked : Invocation) :
    stateAfter (trace ++ [invoked]) =
      if invoked.returned then invoked.hook.leadsTo else .failed := by
  simp [stateAfter]

theorem stateAfter_eq_leadsTo {trace : List Invocation} {hook : Hook} :
    stateAfter trace = hook.leadsTo ↔ trace.getLast? = some ⟨hook, true⟩ := by
  unfold stateAfter
  rcases trace.getLast? with _ | ⟨last, _ | _⟩
  · cases hook <;> simp [Hook.leadsTo]
  · cases hook <;> simp [Hook.leadsTo]
  · cases hook <;> cases last <;> simp [Hook.leadsTo]

theorem stateAfter_registered {trace : List Invocation} :
    stateAfter trace = .registered ↔ trace = [] := by
  rw [← List.getLast?_eq_none_iff]
  unfold stateAfter
  rcases trace.getLast? with _ | ⟨last, _ | _⟩
  · simp
  · simp
  · cases last <;> simp [Hook.leadsTo]

/-- A trace that keeps to the law, and what is known of it from the state. -/
structure LawfulTrace (trace : List Invocation) : Prop where
  follows : Follows MayFollow trace
  initialized : stateAfter trace ∈ Hook.start.allowedIn ++ Hook.stop.allowedIn →
    ⟨.initializePlugin, true⟩ ∈ trace
  raised : (∃ earlier ∈ trace, earlier.returned = false) →
    stateAfter trace = .failed ∨ stateAfter trace = .disposed
  disposed : ⟨.dispose, true⟩ ∈ trace → stateAfter trace = .disposed

theorem lawful_nil : LawfulTrace [] := by
  refine ⟨follows_nil, ?_, ?_, ?_⟩ <;> simp [stateAfter, Hook.allowedIn]

theorem LawfulTrace.mayFollow {trace : List Invocation} (h : LawfulTrace trace) {hook : Hook}
    (hallowed : stateAfter trace ∈ hook.allowedIn) (returned : Bool) :
    MayFollow trace ⟨hook, returned⟩ where
  initializePlugin := by
    rintro rfl
    have hnil : trace = [] := stateAfter_registered.mp (by simpa [Hook.allowedIn] using hallowed)
    simp [hnil]
  start := by
    rintro rfl
    refine ⟨h.initialized (List.mem_append_left _ hallowed), ?_⟩
    rw [← stateAfter_eq_leadsTo, ← stateAfter_eq_leadsTo]
    simpa [Hook.allowedIn, Hook.leadsTo] using hallowed
  stop := by
    rintro rfl
    rw [← stateAfter_eq_leadsTo]
    simpa [Hook.allowedIn, Hook.leadsTo] using hallowed
  raised hraised := by
    rcases h.raised hraised with hstate | hstate <;> rw [hstate] at hallowed <;> cases hook <;>
      simp [Hook.allowedIn] at hallowed ⊢
  disposed hdisposed := by
    rw [h.disposed hdisposed] at hallowed
    cases hook <;> simp [Hook.allowedIn] at hallowed

theorem LawfulTrace.concat {trace : List Invocation} (h : LawfulTrace trace) {hook : Hook}
    (hallowed : stateAfter trace ∈ hook.allowedIn) (returned : Bool) :
    LawfulTrace (trace ++ [⟨hook, returned⟩]) := by
  have hmay := h.mayFollow hallowed returned
  refine ⟨follows_concat.mpr ⟨h.follows, hmay⟩, fun hstate => ?_, fun hraised => ?_, fun hmem => ?_⟩
  · rw [stateAfter_concat] at hstate
    cases hook with
    | initializePlugin => cases returned <;> simp [Hook.allowedIn] at hstate ⊢
    | start => simp [(hmay.start rfl).1]
    | stop =>
      have hrunning := stateAfter_eq_leadsTo.mpr (hmay.stop rfl)
      simp [h.initialized (by simp [hrunning, Hook.leadsTo, Hook.allowedIn])]
    | dispose => cases returned <;> simp [Hook.leadsTo, Hook.allowedIn] at hstate
  · rw [stateAfter_concat]
    cases returned with
    | false => simp
    | true =>
      have hdispose : hook = .dispose := hmay.raised (by simpa using hraised)
      simp [hdispose, Hook.leadsTo]
  · have hlast := (List.mem_append.mp hmem).resolve_left hmay.disposed
    rw [stateAfter_concat]
    obtain ⟨rfl, rfl⟩ : Hook.dispose = hook ∧ true = returned := by simpa using hlast
    rfl

theorem LawfulTrace.law {trace : List Invocation} (h : LawfulTrace trace) : TraceLaw trace := by
  refine ⟨h.follows.countP_le_one fun before invoked hmay hinitialize earlier hmem => ?_, h.follows⟩
  have hnot := hmay.initializePlugin (by simpa using hinitialize) earlier hmem
  simp [hnot.1]

-- ---------------------------------------------------------------------------
-- Calls of the lifecycle
-- ---------------------------------------------------------------------------

section
variable [Printing] (answers : Answers)

/-- A lifecycle with the hook calls made so far, called through the method of
this name. -/
def lifecycleMachine : Machine (PluginLifecycle × List HookCall) Hook (Except Exn Unit)
  | (lifecycle, calls), .initializePlugin => lifecycle.initializePlugin answers calls
  | (lifecycle, calls), .start => lifecycle.start answers calls
  | (lifecycle, calls), .stop => lifecycle.stop answers calls
  | (lifecycle, calls), .dispose => lifecycle.dispose answers calls

def LifecycleRefuses (outcome : Except Exn Unit) : Prop :=
  ∃ message, outcome = .error (.raised .pluginLifecycleError message)

/-- How a call of the lifecycle ends: it calls the hook and raises if the hook
does, or it leaves everything as it is. -/
inductive Answered (hook : Hook) (lifecycle : PluginLifecycle) (calls : List HookCall) :
    Driven PluginLifecycle → Prop
  | returned (h : lifecycle.state ∈ hook.allowedIn)
      (hreturns : (answers calls ⟨lifecycle.plugin, hook⟩).isOk = true) :
      Answered hook lifecycle calls
        (.ok (), ⟨lifecycle.plugin, hook.leadsTo⟩, calls ++ [⟨lifecycle.plugin, hook⟩])
  | raised (h : lifecycle.state ∈ hook.allowedIn)
      (hraises : (answers calls ⟨lifecycle.plugin, hook⟩).isOk = false) (outcome : Except Exn Unit)
      (hrefuses : LifecycleRefuses outcome) :
      Answered hook lifecycle calls
        (outcome, ⟨lifecycle.plugin, .failed⟩, calls ++ [⟨lifecycle.plugin, hook⟩])
  | refused (outcome : Except Exn Unit) (hrefuses : LifecycleRefuses outcome) :
      Answered hook lifecycle calls (outcome, lifecycle, calls)
  | disposed (h : lifecycle.state = .disposed) (hdispose : hook = .dispose) :
      Answered hook lifecycle calls (.ok (), lifecycle, calls)

theorem transition_answered (hook : Hook) (action : String) (lifecycle : PluginLifecycle)
    (calls : List HookCall) :
    Answered answers hook lifecycle calls
      (PluginLifecycle.transition answers hook.allowedIn action hook hook.leadsTo lifecycle calls) := by
  obtain ⟨-, _, heq⟩ | ⟨h, hanswer, heq⟩ | ⟨h, _, _, hanswer, heq⟩ :=
    PluginLifecycle.transition_cases answers hook.allowedIn action hook hook.leadsTo lifecycle calls
  · exact heq ▸ .refused _ ⟨_, rfl⟩
  · exact heq ▸ .returned h (by rw [hanswer]; rfl)
  · exact heq ▸ .raised h (by rw [hanswer]; rfl) _ ⟨_, rfl⟩

theorem lifecycleMachine_answered (hook : Hook) (s : PluginLifecycle × List HookCall) :
    Answered answers hook s.1 s.2 (lifecycleMachine answers s hook) := by
  obtain ⟨lifecycle, calls⟩ := s
  cases hook with
  | initializePlugin => exact transition_answered answers .initializePlugin "initialize" lifecycle calls
  | start => exact transition_answered answers .start "start" lifecycle calls
  | stop => exact transition_answered answers .stop "stop" lifecycle calls
  | dispose =>
    simp only [lifecycleMachine, PluginLifecycle.dispose]
    split
    · rename_i h
      exact .disposed h rfl
    · exact transition_answered answers .dispose "dispose" lifecycle calls

/-- One call of the lifecycle: what the hook raises surfaces as
`PluginLifecycleError`, and where no hook is called, the call raises that and
leaves the state, or it is `dispose` on a disposed plugin. -/
def CallLaw (s : PluginLifecycle × List HookCall) (hook : Hook) : Prop :=
  let (outcome, lifecycle, calls) := lifecycleMachine answers s hook
  (calls = s.2 ++ [⟨s.1.plugin, hook⟩] ∧
    ((answers s.2 ⟨s.1.plugin, hook⟩).isOk = false → LifecycleRefuses outcome)) ∨
  (calls = s.2 ∧ lifecycle = s.1 ∧
    ((hook = .dispose ∧ ⟨.dispose, true⟩ ∈ hookTrace answers s.2) ∨ LifecycleRefuses outcome))

structure Traced (s : PluginLifecycle × List HookCall) : Prop where
  lawful : LawfulTrace (hookTrace answers s.2)
  state : s.1.state = stateAfter (hookTrace answers s.2)

omit [Printing] in
theorem hookTrace_concat (calls : List HookCall) (plugin : Plugin) (hook : Hook) :
    hookTrace answers (calls ++ [⟨plugin, hook⟩]) =
      hookTrace answers calls ++ [⟨hook, (answers calls ⟨plugin, hook⟩).isOk⟩] :=
  seen_concat _ _ _

variable {answers}

theorem Traced.step {s : PluginLifecycle × List HookCall} (hook : Hook) (h : Traced answers s) :
    CallLaw answers s hook ∧ Traced answers (lifecycleMachine answers s hook).2 := by
  have hanswered := lifecycleMachine_answered answers hook s
  obtain ⟨lifecycle, calls⟩ := s
  unfold CallLaw
  generalize lifecycleMachine answers (lifecycle, calls) hook = answered at hanswered ⊢
  have hlawful (hallowed : lifecycle.state ∈ hook.allowedIn) :
      LawfulTrace (hookTrace answers (calls ++ [⟨lifecycle.plugin, hook⟩])) := by
    rw [hookTrace_concat]
    exact h.lawful.concat (h.state ▸ hallowed) _
  cases hanswered with
  | returned hallowed hreturns =>
    refine ⟨.inl ⟨rfl, fun hraises => ?_⟩, hlawful hallowed, ?_⟩
    · rw [hreturns] at hraises
      cases hraises
    · simp [hookTrace_concat, hreturns]
  | raised hallowed hraises outcome hrefuses =>
    refine ⟨.inl ⟨rfl, fun _ => hrefuses⟩, hlawful hallowed, ?_⟩
    simp [hookTrace_concat, hraises]
  | refused outcome hrefuses => exact ⟨.inr ⟨rfl, rfl, .inr hrefuses⟩, h⟩
  | disposed hdisposed hdispose =>
    refine ⟨.inr ⟨rfl, rfl, .inl ⟨hdispose, ?_⟩⟩, h⟩
    have hlast : stateAfter (hookTrace answers calls) = Hook.dispose.leadsTo :=
      h.state.symm.trans hdisposed
    exact List.mem_of_getLast? (stateAfter_eq_leadsTo.mp hlast)

/-- Whatever the hooks do, in every sequence of calls the hooks are called in a
lawful order, and every call that does not reach its hook is lawful too. -/
theorem hookTrace_lawful (answers : Answers) (plugin : Plugin) (ops : List Hook) :
    TraceLaw (hookTrace answers ((lifecycleMachine answers).after (.new plugin, []) ops).2) ∧
      (lifecycleMachine answers).Along (CallLaw answers) (.new plugin, []) ops := by
  have hstart : Traced answers (.new plugin, []) := ⟨lawful_nil, rfl⟩
  obtain ⟨halong, hlast⟩ := Machine.along_of_invariant (fun _ hook => Traced.step hook) ops hstart
  exact ⟨hlast.lawful.law, halong⟩

end

end MellivorKernel
