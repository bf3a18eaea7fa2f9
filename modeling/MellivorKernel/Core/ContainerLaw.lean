import MellivorKernel.Core.Container
import MellivorKernel.Foundation.Trail

/-!
# What the container promises

Every call the scripts make is lawful, and the calls in the order they end are a
trail from the new container to the last one. Registrations and kept objects
only grow along it, which is what carries the promises: a singleton completes
once and stays, and a failed `resolve` leaves its type as it found it.
-/

namespace MellivorKernel

open Python Foundation

variable {τ α : Type} [DecidableEq τ]

namespace ServiceContainer

/-- Every factory has its flag, no flag is there without a registration, and
what has an object is a singleton. -/
structure Consistent (container : ServiceContainer τ α) : Prop where
  flagged : ∀ serviceType ∈ container.factories, serviceType ∈ container.singletons
  owned : ∀ serviceType ∈ container.singletons, container.isRegistered serviceType = true
  singleton : ∀ serviceType instance', container.instances.get? serviceType = some instance' →
    container.singletons.get? serviceType = some true

/-- Nothing registered or kept in the first container is overwritten or lost in
the second. -/
structure Kept (container later : ServiceContainer τ α) : Prop where
  factories : ∀ serviceType factory, container.factories.get? serviceType = some factory →
    later.factories.get? serviceType = some factory
  singletons : ∀ serviceType flag, container.singletons.get? serviceType = some flag →
    later.singletons.get? serviceType = some flag
  instances : ∀ serviceType instance', container.instances.get? serviceType = some instance' →
    later.instances.get? serviceType = some instance'

/-- A `resolve` of the type will call its factory. -/
def Waiting (container : ServiceContainer τ α) (serviceType : τ) : Prop :=
  serviceType ∈ container.factories ∧ container.instances.get? serviceType = none

theorem Kept.refl (container : ServiceContainer τ α) : container.Kept container :=
  ⟨fun _ _ h => h, fun _ _ h => h, fun _ _ h => h⟩

theorem Kept.trans {a b c : ServiceContainer τ α} (h : a.Kept b) (h' : b.Kept c) : a.Kept c where
  factories _ _ hget := h'.factories _ _ (h.factories _ _ hget)
  singletons _ _ hget := h'.singletons _ _ (h.singletons _ _ hget)
  instances _ _ hget := h'.instances _ _ (h.instances _ _ hget)

theorem consistent_new : (new : ServiceContainer τ α).Consistent :=
  ⟨by simp [new, Dict.mem_def], by simp [new, Dict.mem_def], by simp [new]⟩

theorem isRegistered_iff {container : ServiceContainer τ α} {serviceType : τ} :
    container.isRegistered serviceType = true ↔
      serviceType ∈ container.factories ∨ serviceType ∈ container.instances := by
  simp [isRegistered]

theorem isRegistered_false {container : ServiceContainer τ α} {serviceType : τ} :
    container.isRegistered serviceType = false ↔
      container.factories.get? serviceType = none ∧
        container.instances.get? serviceType = none := by
  simp [isRegistered, Dict.get?_eq_none, Dict.mem_def]

theorem Consistent.unflagged {container : ServiceContainer τ α} (h : container.Consistent)
    {serviceType : τ} (hnew : container.isRegistered serviceType = false) :
    container.singletons.get? serviceType = none := by
  rw [Dict.get?_eq_none]
  intro hmem
  rw [h.owned serviceType hmem] at hnew
  cases hnew

end ServiceContainer

open ServiceContainer

section
variable (typeRepr : τ → Str)

/-- What a call does: the container its caller and its factory left, and what
it adds to it. -/
inductive EndedCall.Lawful : EndedCall τ α → Prop
  | registered {container : ServiceContainer τ α} {serviceType : τ} (factory : Factory)
      (singleton : Bool) (h : container.isRegistered serviceType = false) :
      Lawful ⟨.register serviceType factory singleton, container, none, container, .ok none,
        { container with
          factories := container.factories.set serviceType factory
          singletons := container.singletons.set serviceType singleton }⟩
  | registeredInstance {container : ServiceContainer τ α} {serviceType : τ} (instance' : α)
      (h : container.isRegistered serviceType = false) :
      Lawful ⟨.registerInstance serviceType instance', container, none, container, .ok none,
        { container with
          instances := container.instances.set serviceType instance'
          singletons := container.singletons.set serviceType true }⟩
  | refused {container : ServiceContainer τ α} {serviceType : τ} {call : ServiceCall τ α}
      (hcall : (∃ factory singleton, call = .register serviceType factory singleton) ∨
        ∃ instance', call = .registerInstance serviceType instance')
      (h : container.isRegistered serviceType = true) :
      Lawful ⟨call, container, none, container, .error (alreadyRegistered typeRepr serviceType),
        container⟩
  | unregistered {container : ServiceContainer τ α} {serviceType : τ}
      (h : container.isRegistered serviceType = false) :
      Lawful ⟨.resolve serviceType, container, none, container,
        .error (notRegistered typeRepr serviceType), container⟩
  | cached {container : ServiceContainer τ α} {serviceType : τ} {instance' : α}
      (h : container.instances.get? serviceType = some instance') :
      Lawful ⟨.resolve serviceType, container, none, container, .ok (some instance'), container⟩
  | raised {container during : ServiceContainer τ α} {serviceType : τ} {factory : Factory}
      (exc : Exn) (hfactory : container.factories.get? serviceType = some factory)
      (hbefore : container.Waiting serviceType) (hduring : during.Waiting serviceType) :
      Lawful ⟨.resolve serviceType, container, some (factory, .error exc), during, .error exc,
        during⟩
  | made {container during : ServiceContainer τ α} {serviceType : τ} {factory : Factory}
      {flag : Bool} (instance' : α)
      (hfactory : container.factories.get? serviceType = some factory)
      (hbefore : container.Waiting serviceType) (hduring : during.Waiting serviceType)
      (hflag : during.singletons.get? serviceType = some flag) :
      Lawful ⟨.resolve serviceType, container, some (factory, .ok instance'), during,
        .ok (some instance'),
        if flag then { during with instances := during.instances.set serviceType instance' }
        else during⟩

def EndedCall.completes (handled : EndedCall τ α) (serviceType : τ) : Bool :=
  match handled.call, handled.factoryRun with
  | .resolve serviceType', some (_, .ok _) => serviceType' = serviceType
  | _, _ => false

end

/-- The calls lead from one container to the other. -/
abbrev CallTrail : ServiceContainer τ α → List (EndedCall τ α) → ServiceContainer τ α → Prop :=
  Trail EndedCall.during EndedCall.after

abbrev Begun : ServiceContainer τ α → List (EndedCall τ α) → Prop :=
  Opened EndedCall.during EndedCall.after EndedCall.before

-- ---------------------------------------------------------------------------
-- What one call keeps
-- ---------------------------------------------------------------------------

section
variable {typeRepr : τ → Str} {handled : EndedCall τ α}

/-- A key that had no value has only gained one. -/
theorem get?_set_of_none {β : Type} {d : Dict τ β} {key key' : τ} {value value' : β}
    (hnone : d.get? key = none) (hget : d.get? key' = some value') :
    (d.set key value).get? key' = some value' := by
  rw [Dict.get?_set_ne _ _, hget]
  rintro rfl
  rw [hnone] at hget
  cases hget

theorem EndedCall.Lawful.kept (h : handled.Lawful typeRepr) (hc : handled.during.Consistent) :
    handled.during.Kept handled.after := by
  cases h with
  | registered factory singleton hnew =>
    have hfree := isRegistered_false.mp hnew
    exact ⟨fun _ _ => get?_set_of_none hfree.1, fun _ _ => get?_set_of_none (hc.unflagged hnew),
      fun _ _ hget => hget⟩
  | registeredInstance instance' hnew =>
    have hfree := isRegistered_false.mp hnew
    exact ⟨fun _ _ hget => hget, fun _ _ => get?_set_of_none (hc.unflagged hnew),
      fun _ _ => get?_set_of_none hfree.2⟩
  | refused hcall hknown => exact Kept.refl _
  | unregistered hnew => exact Kept.refl _
  | cached hget => exact Kept.refl _
  | raised exc hfactory hbefore hduring => exact Kept.refl _
  | @made container during serviceType factory flag instance' hfactory hbefore hduring hflag =>
    cases flag with
    | false => exact Kept.refl _
    | true => exact ⟨fun _ _ hget => hget, fun _ _ hget => hget,
        fun _ _ => get?_set_of_none hduring.2⟩

theorem EndedCall.Lawful.consistent (h : handled.Lawful typeRepr) (hc : handled.during.Consistent) :
    handled.after.Consistent := by
  cases h with
  | @registered container serviceType factory singleton hnew =>
    refine ⟨fun t ht => ?_, fun t ht => ?_, fun t instance' hget => ?_⟩
    · rw [Dict.mem_set] at ht ⊢
      exact ht.imp_right (hc.flagged t)
    · rw [isRegistered_iff, Dict.mem_set]
      rcases Dict.mem_set.mp ht with heq | hold
      · exact .inl (.inl heq)
      · exact (isRegistered_iff.mp (hc.owned t hold)).imp_left .inr
    · exact get?_set_of_none (hc.unflagged hnew) (hc.singleton t instance' hget)
  | @registeredInstance container serviceType instance' hnew =>
    refine ⟨fun t ht => ?_, fun t ht => ?_, fun t other hget => ?_⟩
    · exact Dict.mem_set.mpr (.inr (hc.flagged t ht))
    · rw [isRegistered_iff, Dict.mem_set]
      rcases Dict.mem_set.mp ht with heq | hold
      · exact .inr (.inl heq)
      · exact (isRegistered_iff.mp (hc.owned t hold)).imp_right .inr
    · simp only [Dict.get?_set] at hget ⊢
      split
      · rfl
      · rename_i hne
        rw [if_neg hne] at hget
        exact hc.singleton t other hget
  | refused hcall hknown => exact hc
  | unregistered hnew => exact hc
  | cached hget => exact hc
  | raised exc hfactory hbefore hduring => exact hc
  | @made container during serviceType factory flag instance' hfactory hbefore hduring hflag =>
    cases flag with
    | false => exact hc
    | true =>
      refine ⟨hc.flagged, fun t ht => ?_, fun t other hget => ?_⟩
      · exact isRegistered_iff.mpr ((isRegistered_iff.mp (hc.owned t ht)).imp_right
          fun hold => Dict.mem_set.mpr (.inr hold))
      · simp only [if_true, Dict.get?_set] at hget ⊢
        split at hget
        · rename_i heq
          rw [heq]
          exact hflag
        · exact hc.singleton t other hget

/-- A call that completes no `resolve` of a waiting type leaves it waiting. -/
theorem EndedCall.Lawful.waiting (h : handled.Lawful typeRepr) {serviceType : τ}
    (hw : handled.during.Waiting serviceType) (hother : handled.completes serviceType = false) :
    handled.after.Waiting serviceType := by
  cases h with
  | registered factory singleton hnew => exact ⟨Dict.mem_set.mpr (.inr hw.1), hw.2⟩
  | @registeredInstance container other instance' hnew =>
    refine ⟨hw.1, ?_⟩
    rw [Dict.get?_set_ne _ _]
    · exact hw.2
    · rintro rfl
      exact absurd hw.1 (Dict.get?_eq_none.mp (isRegistered_false.mp hnew).1)
  | refused hcall hknown => exact hw
  | unregistered hnew => exact hw
  | cached hget => exact hw
  | raised exc hfactory hbefore hduring => exact hw
  | @made container during other factory flag instance' hfactory hbefore hduring hflag =>
    have hne : other ≠ serviceType := by simpa [EndedCall.completes] using hother
    cases flag with
    | false => exact hw
    | true => exact ⟨hw.1, by simpa [Dict.get?_set_ne _ hne.symm] using hw.2⟩

end

-- ---------------------------------------------------------------------------
-- What a run keeps
-- ---------------------------------------------------------------------------

/-- What running code comes to on a container, while the factories of `running`
are running. -/
structure Served.Sound (typeRepr : τ → Str) (running : List τ) (container : ServiceContainer τ α)
    (served : Served τ α) : Prop where
  trail : CallTrail container served.2.2 served.2.1
  begun : Begun container served.2.2
  lawful : ∀ handled ∈ served.2.2, handled.Lawful typeRepr
  spared : ∀ serviceType ∈ running, ∀ handled ∈ served.2.2, handled.completes serviceType = false

section
variable {typeRepr : τ → Str} {running : List τ} {container : ServiceContainer τ α}
  {served : Served τ α}

/-- Along a trail of lawful calls nothing is lost. -/
theorem trail_kept {calls : List (EndedCall τ α)} {last : ServiceContainer τ α}
    (htrail : CallTrail container calls last) (hlawful : ∀ handled ∈ calls, handled.Lawful typeRepr)
    (hc : container.Consistent) : container.Kept last ∧ last.Consistent := by
  refine htrail.invariant (fun c => container.Kept c ∧ c.Consistent) ?_ ⟨.refl _, hc⟩
  rintro handled hmem ⟨hkept, hc'⟩
  have h := hlawful handled hmem
  exact ⟨hkept.trans (h.kept hc'), h.consistent hc'⟩

theorem trail_waiting {calls : List (EndedCall τ α)} {last : ServiceContainer τ α}
    (htrail : CallTrail container calls last) (hlawful : ∀ handled ∈ calls, handled.Lawful typeRepr)
    {serviceType : τ} (hspared : ∀ handled ∈ calls, handled.completes serviceType = false)
    (hw : container.Waiting serviceType) : last.Waiting serviceType :=
  htrail.invariant (fun c => c.Waiting serviceType)
    (fun handled hmem h => (hlawful handled hmem).waiting h (hspared handled hmem)) hw

namespace Served.Sound

theorem none (outcome : Except Exn α) : Sound typeRepr running container (outcome, container, []) :=
  ⟨rfl, .nil, by simp, by simp⟩

theorem call {handled : EndedCall τ α} (outcome : Except Exn α) (hlawful : handled.Lawful typeRepr)
    (hbefore : handled.before = handled.during) (hrun : handled.factoryRun = Option.none) :
    Sound typeRepr running handled.during (outcome, handled.after, [handled]) where
  trail := .single handled
  begun := by
    have h : Begun handled.before ([] ++ [handled]) := .closed .nil hbefore
    rwa [hbefore] at h
  lawful := by simpa using hlawful
  spared serviceType _ := by simp [EndedCall.completes, hrun]

theorem append (h : served.Sound typeRepr running container) (hc : container.Consistent)
    (hw : ∀ serviceType ∈ running, container.Waiting serviceType) {outcome : Except Exn α}
    {last : ServiceContainer τ α} {more : List (EndedCall τ α)}
    (hnext : served.2.1.Consistent → (∀ serviceType ∈ running, served.2.1.Waiting serviceType) →
      Sound typeRepr running served.2.1 (outcome, last, more)) :
    Sound typeRepr running container (outcome, last, served.2.2 ++ more) := by
  have hmore := hnext (trail_kept h.trail h.lawful hc).2 fun t ht =>
    trail_waiting h.trail h.lawful (h.spared t ht) (hw t ht)
  refine ⟨h.trail.append hmore.trail, h.begun.append h.trail hmore.begun, ?_, ?_⟩
  · exact fun _ hmem => (List.mem_append.mp hmem).elim (h.lawful _) (hmore.lawful _)
  · exact fun _ hrunning _ hmem =>
      (List.mem_append.mp hmem).elim (h.spared _ hrunning _) (hmore.spared _ hrunning _)

theorem called {handled : EndedCall τ α} {made : Except Exn α} {calls : List (EndedCall τ α)}
    (outcome : Except Exn α) (hlawful : handled.Lawful typeRepr) {serviceType : τ}
    (h : Sound typeRepr (serviceType :: running) handled.before (made, handled.during, calls))
    (hcall : handled.call = .resolve serviceType) (hnot : serviceType ∉ running) :
    Sound typeRepr running handled.before (outcome, handled.after, calls ++ [handled]) where
  trail := h.trail.append (.single _)
  begun := h.begun.closed h.trail
  lawful := by simpa [or_imp, forall_and] using ⟨h.lawful, hlawful⟩
  spared other hrunning ended hmem := by
    rcases List.mem_append.mp hmem with hmem | hmem
    · exact h.spared other (List.mem_cons_of_mem _ hrunning) ended hmem
    · cases List.mem_singleton.mp hmem
      have hne : serviceType ≠ other := fun heq => hnot (heq ▸ hrunning)
      simp only [EndedCall.completes, hcall]
      split <;> simp_all

end Served.Sound

theorem register_lawful (typeRepr : τ → Str) (container : ServiceContainer τ α) (serviceType : τ)
    (factory : Factory) (singleton : Bool) :
    EndedCall.Lawful typeRepr ⟨.register serviceType factory singleton, container, none, container,
      (container.register typeRepr serviceType factory singleton).1.map fun _ => none,
      (container.register typeRepr serviceType factory singleton).2⟩ := by
  unfold ServiceContainer.register
  split
  · rename_i hknown
    exact .refused (.inl ⟨factory, singleton, rfl⟩) hknown
  · rename_i hnew
    exact .registered factory singleton (by simpa using hnew)

theorem registerInstance_lawful (typeRepr : τ → Str) (container : ServiceContainer τ α)
    (serviceType : τ) (instance' : α) :
    EndedCall.Lawful typeRepr ⟨.registerInstance serviceType instance', container, none, container,
      (container.registerInstance typeRepr serviceType instance').1.map fun _ => none,
      (container.registerInstance typeRepr serviceType instance').2⟩ := by
  unfold ServiceContainer.registerInstance
  split
  · rename_i hknown
    exact .refused (.inr ⟨instance', rfl⟩) hknown
  · rename_i hnew
    exact .registeredInstance instance' (by simpa using hnew)

theorem keep_lawful (typeRepr : τ → Str) {during : ServiceContainer τ α} {serviceType : τ}
    {factory : Factory}
    (hfactory : container.factories.get? serviceType = some factory)
    (hbefore : container.Waiting serviceType) (hduring : during.Waiting serviceType)
    (hc : during.Consistent) (made : Except Exn α) :
    EndedCall.Lawful typeRepr ⟨.resolve serviceType, container, some (factory, made), during,
      (during.keep typeRepr serviceType made).1.map some,
      (during.keep typeRepr serviceType made).2⟩ := by
  cases made with
  | error exc => exact .raised exc hfactory hbefore hduring
  | ok instance' =>
    obtain ⟨flag, hflag⟩ := Dict.mem_keys.mp (hc.flagged serviceType hduring.1)
    have h : EndedCall.Lawful typeRepr _ := .made instance' hfactory hbefore hduring hflag
    simp only [keep, hflag]
    cases flag with
    | false => exact h
    | true => exact h

/-- `resolve`, where calling the factory of a waiting type is sound with that
type running as well. -/
theorem resolve_sound (running : List τ) (hc : container.Consistent) (serviceType : τ)
    (callFactory : ServiceContainer τ α → Served τ α)
    (hcall : container.Waiting serviceType → serviceType ∉ running ∧
      (callFactory container).Sound typeRepr (serviceType :: running) container) :
    (container.resolve typeRepr serviceType callFactory).Sound typeRepr running container := by
  unfold ServiceContainer.resolve
  split
  · rename_i instance' hcached
    exact .call _ (.cached hcached) rfl rfl
  · rename_i hfree
    split
    · rename_i hunknown
      exact .call _ (.unregistered (isRegistered_false.mpr ⟨hunknown, hfree⟩)) rfl rfl
    · rename_i factory hfactory
      have hw : container.Waiting serviceType := ⟨Dict.mem_keys.mpr ⟨_, hfactory⟩, hfree⟩
      obtain ⟨hnot, hsound⟩ := hcall hw
      have hw' := trail_waiting hsound.trail hsound.lawful
        (hsound.spared serviceType List.mem_cons_self) hw
      have hlawful := keep_lawful typeRepr hfactory hw hw'
        (trail_kept hsound.trail hsound.lawful hc).2 (callFactory container).1
      exact .called _ hlawful hsound rfl hnot

theorem ServiceScript.run_sound (script : ServiceScript τ α) (running : List τ)
    (container : ServiceContainer τ α) (hc : container.Consistent)
    (hw : ∀ serviceType ∈ running, container.Waiting serviceType)
    (h : script.Acyclic typeRepr running container) :
    (script.run typeRepr container).Sound typeRepr running container := by
  induction script generalizing running container with
  | returns instance' => exact .none _
  | raises exc => exact .none _
  | register serviceType factory singleton next ih =>
    have hcall : Served.Sound typeRepr running container (.error (.group [] []), _, [_]) :=
      .call _ (register_lawful typeRepr container serviceType factory singleton) rfl rfl
    exact hcall.append hc hw fun hc' hw' => ih _ running _ hc' hw' h
  | registerInstance serviceType instance' next ih =>
    have hcall : Served.Sound typeRepr running container (.error (.group [] []), _, [_]) :=
      .call _ (registerInstance_lawful typeRepr container serviceType instance') rfl rfl
    exact hcall.append hc hw fun hc' hw' => ih _ running _ hc' hw' h
  | resolve serviceType made next ihmade ih =>
    obtain ⟨hmade, hnext⟩ := h
    have hcall := resolve_sound running hc serviceType (made.run typeRepr)
      fun hwaiting => by
        obtain ⟨hnot, hacyclic⟩ := hmade hwaiting.2 hwaiting.1
        refine ⟨hnot, ihmade _ container hc ?_ hacyclic⟩
        exact List.forall_mem_cons.mpr ⟨hwaiting, hw⟩
    exact hcall.append hc hw fun hc' hw' => ih _ running _ hc' hw' hnext

end

-- ---------------------------------------------------------------------------
-- The promises
-- ---------------------------------------------------------------------------

def EndedCall.Gives (handled : EndedCall τ α) (serviceType : τ) (instance' : α) : Prop :=
  handled.call = .resolve serviceType ∧ handled.outcome = .ok (some instance') ∨
    handled.call = .registerInstance serviceType instance' ∧ handled.outcome = .ok none

def EndedCall.Failed (handled : EndedCall τ α) (serviceType : τ) : Prop :=
  handled.call = .resolve serviceType ∧
    ∃ factory exc, handled.factoryRun = some (factory, .error exc)

/-- What the container promises of the calls made of it from the first one on,
in the order they ended. -/
structure ContainerLaw (typeRepr : τ → Str) (calls : List (EndedCall τ α))
    (last : ServiceContainer τ α) : Prop where
  trail : CallTrail .new calls last
  begun : Begun .new calls
  lawful : ∀ handled ∈ calls, handled.Lawful typeRepr
  kept : ∀ handled ∈ calls, handled.before.Kept handled.during ∧
    handled.during.Kept handled.after ∧ handled.after.Kept last
  completedOnce : ∀ serviceType, last.singletons.get? serviceType = some true →
    (calls.filter (·.completes serviceType)).length ≤ 1
  sameObject : ∀ serviceType, last.singletons.get? serviceType = some true →
    ∀ first ∈ calls, ∀ second ∈ calls, ∀ a b, first.Gives serviceType a →
      second.Gives serviceType b → a = b
  ranEach : ∀ serviceType, last.singletons.get? serviceType = some false →
    ∀ handled ∈ calls, ∀ instance', handled.Gives serviceType instance' →
      ∃ factory, last.factories.get? serviceType = some factory ∧
        handled.factoryRun = some (factory, .ok instance')
  /-- A waiting type has its factory called and gets what that returns or
  raises; the lookup of its flag does not fail. -/
  answered : ∀ handled ∈ calls, ∀ serviceType, handled.call = .resolve serviceType →
    handled.before.Waiting serviceType → ∃ factory made,
      handled.before.factories.get? serviceType = some factory ∧
      handled.factoryRun = some (factory, made) ∧ handled.outcome = made.map some ∧
      serviceType ∈ handled.during.singletons
  /-- After a failed `resolve` the type waits until a `resolve` of it completes. -/
  uncached : ∀ before failed between after serviceType container,
    calls = before ++ failed :: (between ++ after) → failed.Failed serviceType →
    CallTrail failed.after between container →
    (∀ handled ∈ between, handled.completes serviceType = false) → container.Waiting serviceType
  unknown : ∀ handled ∈ calls, ∀ serviceType, handled.call = .resolve serviceType →
    handled.before.isRegistered serviceType = false →
      handled.outcome = .error (notRegistered typeRepr serviceType) ∧
      handled.factoryRun = none ∧ handled.after = handled.before

section
variable {typeRepr : τ → Str} {handled : EndedCall τ α}

theorem EndedCall.Lawful.of_completes (h : handled.Lawful typeRepr) {serviceType : τ}
    (hc : handled.completes serviceType = true) :
    handled.during.Waiting serviceType ∧ ∃ instance', handled.Gives serviceType instance' := by
  cases h with
  | @made container during other factory flag instance' hfactory hbefore hduring hflag =>
    obtain rfl : other = serviceType := by simpa [EndedCall.completes] using hc
    exact ⟨hduring, instance', .inl ⟨rfl, rfl⟩⟩
  | refused hcall hknown => simp [EndedCall.completes] at hc
  | _ => simp [EndedCall.completes] at hc

theorem EndedCall.Lawful.gives_kept (h : handled.Lawful typeRepr) {serviceType : τ} {instance' : α}
    (hg : handled.Gives serviceType instance')
    (hflag : ∀ flag, handled.after.singletons.get? serviceType = some flag → flag = true) :
    handled.after.instances.get? serviceType = some instance' := by
  cases h with
  | registeredInstance other hnew =>
    obtain ⟨hcall, -⟩ | ⟨hcall, -⟩ := hg
    · cases hcall
    · cases hcall
      exact Dict.get?_set_self _ _ _
  | cached hget =>
    obtain ⟨hcall, hout⟩ | ⟨hcall, -⟩ := hg
    · cases hcall
      cases hout
      exact hget
    · cases hcall
  | @made container during other factory flag a hfactory hbefore hduring hget =>
    obtain ⟨hcall, hout⟩ | ⟨hcall, -⟩ := hg
    · cases hcall
      cases hout
      cases flag with
      | false => exact absurd (hflag false hget) Bool.false_ne_true
      | true => exact Dict.get?_set_self _ _ _
    · cases hcall
  | registered factory singleton hnew => simp [EndedCall.Gives] at hg
  | refused hcall hknown => simp [EndedCall.Gives] at hg
  | unregistered hnew => simp [EndedCall.Gives] at hg
  | raised exc hfactory hbefore hduring => simp [EndedCall.Gives] at hg

structure EndedCall.Placed (handled : EndedCall τ α) (last : ServiceContainer τ α) : Prop where
  before : handled.before.Consistent
  during : handled.during.Consistent
  ran : handled.before.Kept handled.during
  added : handled.during.Kept handled.after
  rest : handled.after.Kept last

variable {calls : List (EndedCall τ α)} {last : ServiceContainer τ α}

theorem placed (htrail : CallTrail .new calls last) (hbegun : Begun .new calls)
    (hlawful : ∀ handled ∈ calls, handled.Lawful typeRepr) (hmem : handled ∈ calls) :
    handled.Placed last := by
  obtain ⟨before, after, rfl⟩ := List.append_of_mem hmem
  obtain ⟨outer, inner, rfl, houter, hinner⟩ := hbegun before handled after rfl
  have hstart := trail_kept houter (fun k hk => hlawful k (by simp [hk])) consistent_new
  have hran := trail_kept hinner (fun k hk => hlawful k (by simp [hk])) hstart.2
  have h := hlawful handled (by simp)
  refine ⟨hstart.2, hran.2, hran.1, h.kept hran.2, ?_⟩
  exact (trail_kept htrail.split.2 (fun k hk => hlawful k (by simp [hk])) (h.consistent hran.2)).1

theorem completed_once (htrail : CallTrail .new calls last) (hbegun : Begun .new calls)
    (hlawful : ∀ handled ∈ calls, handled.Lawful typeRepr) {serviceType : τ}
    (hflag : last.singletons.get? serviceType = some true) :
    (calls.filter (·.completes serviceType)).length ≤ 1 := by
  have hplaced {handled} (hmem : handled ∈ calls) := placed htrail hbegun hlawful hmem
  have hpair := htrail.pairwise (R := Kept) .refl .trans fun k hk => (hplaced hk).added
  have hnever : (calls.filter (·.completes serviceType)).Pairwise fun _ _ => False := by
    rw [List.pairwise_filter]
    refine hpair.imp_of_mem fun {first second} hfirst hsecond hkept hc hc' => ?_
    obtain ⟨-, instance', hgives⟩ := (hlawful first hfirst).of_completes hc
    have hget := (hlawful first hfirst).gives_kept hgives fun flag hf => by
      simpa [hflag] using ((hplaced hfirst).rest.singletons _ _ hf).symm
    have hfree := ((hlawful second hsecond).of_completes hc').1.2
    rw [hkept.instances _ _ hget] at hfree
    cases hfree
  generalize calls.filter (·.completes serviceType) = done at hnever ⊢
  cases hnever with
  | nil => simp
  | cons hrest _ => simp [List.eq_nil_iff_forall_not_mem.mpr hrest]

theorem same_object (htrail : CallTrail .new calls last) (hbegun : Begun .new calls)
    (hlawful : ∀ handled ∈ calls, handled.Lawful typeRepr) {serviceType : τ}
    (hflag : last.singletons.get? serviceType = some true) (hmem : handled ∈ calls)
    {instance' : α} (hgives : handled.Gives serviceType instance') :
    last.instances.get? serviceType = some instance' := by
  have hplaced := placed htrail hbegun hlawful hmem
  refine hplaced.rest.instances _ _ ((hlawful handled hmem).gives_kept hgives fun flag hf => ?_)
  simpa [hflag] using (hplaced.rest.singletons _ _ hf).symm

theorem ran_each (h : handled.Lawful typeRepr) (hplaced : handled.Placed last) {serviceType : τ}
    (hflag : last.singletons.get? serviceType = some false) {instance' : α}
    (hgives : handled.Gives serviceType instance') :
    ∃ factory, last.factories.get? serviceType = some factory ∧
      handled.factoryRun = some (factory, .ok instance') := by
  cases h with
  | registeredInstance other hnew =>
    obtain ⟨hcall, -⟩ | ⟨hcall, -⟩ := hgives
    · cases hcall
    · cases hcall
      have htrue := hplaced.rest.singletons serviceType true (Dict.get?_set_self _ _ _)
      rw [hflag] at htrue
      cases htrue
  | cached hget =>
    obtain ⟨hcall, -⟩ | ⟨hcall, -⟩ := hgives
    · cases hcall
      have htrue := hplaced.rest.singletons serviceType true (hplaced.during.singleton _ _ hget)
      rw [hflag] at htrue
      cases htrue
    · cases hcall
  | @made container during other factory flag a hfactory hbefore hduring hget =>
    obtain ⟨hcall, hout⟩ | ⟨hcall, -⟩ := hgives
    · cases hcall
      cases hout
      exact ⟨factory, (hplaced.ran.trans (hplaced.added.trans hplaced.rest)).factories _ _ hfactory,
        rfl⟩
    · cases hcall
  | registered factory singleton hnew => simp [EndedCall.Gives] at hgives
  | refused hcall hknown => simp [EndedCall.Gives] at hgives
  | unregistered hnew => simp [EndedCall.Gives] at hgives
  | raised exc hfactory hbefore hduring => simp [EndedCall.Gives] at hgives

theorem EndedCall.Lawful.answered (h : handled.Lawful typeRepr) {serviceType : τ}
    (hcall : handled.call = .resolve serviceType) (hw : handled.before.Waiting serviceType)
    (hc : handled.during.Consistent) : ∃ factory made,
      handled.before.factories.get? serviceType = some factory ∧
      handled.factoryRun = some (factory, made) ∧ handled.outcome = made.map some ∧
      serviceType ∈ handled.during.singletons := by
  cases h with
  | unregistered hnew =>
    cases hcall
    exact absurd hw.1 (Dict.get?_eq_none.mp (isRegistered_false.mp hnew).1)
  | cached hget =>
    cases hcall
    exact absurd (hw.2.symm.trans hget) (by simp)
  | raised exc hfactory hbefore hduring =>
    cases hcall
    exact ⟨_, .error exc, hfactory, rfl, rfl, hc.flagged _ hduring.1⟩
  | made instance' hfactory hbefore hduring hflag =>
    cases hcall
    exact ⟨_, .ok instance', hfactory, rfl, rfl, hc.flagged _ hduring.1⟩
  | refused hregisters hknown =>
    obtain ⟨factory, singleton, rfl⟩ | ⟨instance', rfl⟩ := hregisters <;> cases hcall
  | _ => cases hcall

theorem EndedCall.Lawful.failed_waits (h : handled.Lawful typeRepr) {serviceType : τ}
    (hf : handled.Failed serviceType) : handled.after.Waiting serviceType := by
  obtain ⟨hcall, factory, exc, hrun⟩ := hf
  cases h with
  | raised exc hfactory hbefore hduring =>
    cases hcall
    exact hduring
  | _ => cases hrun

theorem EndedCall.Lawful.unknown (h : handled.Lawful typeRepr) {serviceType : τ}
    (hcall : handled.call = .resolve serviceType)
    (hnew : handled.before.isRegistered serviceType = false) :
    handled.outcome = .error (notRegistered typeRepr serviceType) ∧
      handled.factoryRun = none ∧ handled.after = handled.before := by
  obtain ⟨hfactory, hfree⟩ := isRegistered_false.mp hnew
  cases h with
  | unregistered => cases hcall; exact ⟨rfl, rfl, rfl⟩
  | cached hget =>
    cases hcall
    exact absurd (hfree.symm.trans hget) (by simp)
  | raised exc hget hbefore hduring =>
    cases hcall
    exact absurd (hfactory.symm.trans hget) (by simp)
  | made instance' hget hbefore hduring hflag =>
    cases hcall
    exact absurd (hfactory.symm.trans hget) (by simp)
  | refused hregisters hknown =>
    obtain ⟨factory, singleton, rfl⟩ | ⟨instance', rfl⟩ := hregisters <;> cases hcall
  | _ => cases hcall

end

/-- A factory that resolves type 1 and passes on what that raises. -/
def nestedFactory (made : ServiceScript Nat Nat) : ServiceScript Nat Nat :=
  .resolve 1 made fun
    | .ok _ => .returns 7
    | .error exc => .raises exc

/-- Type 1 cannot be made the first time, so neither can type 0. -/
def retriedServices : ServiceScript Nat Nat :=
  .register 0 10 true fun _ => .register 1 11 true fun _ =>
    .resolve 0 (nestedFactory (.raises (.raised .valueError (lit "no")))) fun _ =>
      .resolve 0 (nestedFactory (.returns 5)) fun _ => .resolve 0 (.returns 9) fun _ => .returns 0

end MellivorKernel
