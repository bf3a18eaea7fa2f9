import MellivorKernel.Foundation.History
import MellivorKernel.Foundation.Program

/-!
# Programs that are watched

A program may tell others what it is doing. `Shadows` compares it with a
program that does not: they return the same and ask the same, unless the
telling raises, which ends the first of them early. A `View` says which calls
ask something, and what each of them asks after the calls before it; telling is
a call that asks nothing.
-/

namespace Foundation.Program

variable {ε κ ω α β : Type}

/-- What is compared of a program that is watched and one that is not. -/
structure View (κ ω : Type) where
  asks : κ → Bool
  watched : List κ → κ → List ω
  plain : List κ → κ → List ω
  silent : ∀ {c : κ}, asks c = false → ∀ before, watched before c = []

def asking (asks : κ → Bool) (calls : List κ) : List κ := calls.filter asks

def questions (asked : List κ → κ → List ω) (before calls : List κ) : List ω :=
  (seenAfter asked before calls).flatten

section
variable {asks : κ → Bool} {asked : List κ → κ → List ω} {calls more before : List κ}

theorem asking_append : asking asks (calls ++ more) = asking asks calls ++ asking asks more :=
  List.filter_append _ _

theorem asking_eq_nil (h : ∀ c ∈ calls, asks c = false) : asking asks calls = [] := by
  rw [asking, List.filter_eq_nil_iff]
  intro c hc
  rw [h c hc]
  exact Bool.false_ne_true

theorem questions_cons (c : κ) : questions asked before (c :: calls) =
    asked before c ++ questions asked (before ++ [c]) calls := rfl

theorem questions_singleton (c : κ) : questions asked before [c] = asked before c :=
  List.append_nil _

theorem questions_append : questions asked before (calls ++ more) =
    questions asked before calls ++ questions asked (before ++ calls) more := by
  rw [questions, seenAfter_append, List.flatten_append]
  rfl

theorem questions_toList (ask : κ → Option ω) :
    questions (fun _ c => (ask c).toList) before calls = calls.filterMap ask := by
  induction calls generalizing before with
  | nil => rfl
  | cons c rest ih =>
    rw [questions_cons, ih]
    cases hc : ask c with
    | none => simp [hc]
    | some w => simp [hc]

end

section
variable {view : View κ ω} {Fault : ε → Prop} {before before' calls more : List κ}

theorem questions_eq_nil (h : ∀ c ∈ calls, view.asks c = false) :
    questions view.watched before calls = [] := by
  induction calls generalizing before with
  | nil => rfl
  | cons c rest ih =>
    rw [questions_cons, view.silent (h c List.mem_cons_self), List.nil_append]
    exact ih fun c hc => h c (List.mem_cons_of_mem _ hc)

/-- The runs end alike after the same calls that ask, or the first was ended by
a fault and had asked no more than the second. -/
inductive Alike (view : View κ ω) (Fault : ε → Prop) (before before' : List κ)
    (outcome : Except ε α) (made : List κ) (outcome' : Except ε α) (made' : List κ) : Prop
  | same (houtcome : outcome = outcome') (hmade : asking view.asks made = asking view.asks made')
      (hasked : questions view.watched before made = questions view.plain before' made')
  | faulted {e : ε} (houtcome : outcome = .error e) (hfault : Fault e)
      (hasked : questions view.watched before made <+: questions view.plain before' made')

theorem Alike.after {made made' : List κ} (hmade : asking view.asks made = asking view.asks made')
    (hasked : questions view.watched before made = questions view.plain before' made')
    {outcome outcome' : Except ε α}
    (halike : Alike view Fault (before ++ made) (before' ++ made') outcome calls outcome' more) :
    Alike view Fault before before' outcome (made ++ calls) outcome' (made' ++ more) := by
  cases halike with
  | same houtcome hsame hquestions =>
    refine .same houtcome ?_ ?_
    · rw [asking_append, asking_append, hmade, hsame]
    · rw [questions_append, questions_append, hasked, hquestions]
  | faulted houtcome hfault hfewer =>
    refine .faulted houtcome hfault ?_
    rw [questions_append, questions_append, hasked]
    exact (List.prefix_append_right_inj _).mpr hfewer

/-- A program that only tells: it asks nothing, and what it raises is a fault. -/
def Asides (asks : κ → Bool) (Fault : ε → Prop) (m : Program ε κ Unit) : Prop :=
  m.Traces fun outcome made => (∀ c ∈ made, asks c = false) ∧ ∀ e, outcome = .error e → Fault e

/-- From the histories `h` and `h'`, `m` runs as `plain` does, but for what it
tells and for a fault of that. -/
def ShadowsAt (view : View κ ω) (Fault : ε → Prop) (h h' : List κ) (m plain : Program ε κ α) :
    Prop :=
  ∃ made made', (m.exec h).2 = h ++ made ∧ (plain.exec h').2 = h' ++ made' ∧
    Alike view Fault h h' (m.exec h).1 made (plain.exec h').1 made'

/-- The same from all histories in which the same was asked. -/
def Shadows (view : View κ ω) (Fault : ε → Prop) (m plain : Program ε κ α) : Prop :=
  ∀ h h', asking view.asks h = asking view.asks h' → ShadowsAt view Fault h h' m plain

variable {m plain : Program ε κ α} {h h' : List κ}

namespace ShadowsAt

theorem call {entry : κ} (hasked : view.watched h entry = view.plain h' entry)
    (answer : Except ε α) : ShadowsAt view Fault h h' (call entry answer) (call entry answer) :=
  ⟨[entry], [entry], rfl, rfl, .same rfl rfl (by rwa [questions_singleton, questions_singleton])⟩

theorem call_faulted {entry entry' : κ} {e : ε}
    (hasked : view.watched h entry <+: view.plain h' entry') (hfault : Fault e)
    (answer' : Except ε α) :
    ShadowsAt view Fault h h' (Program.call entry (.error e)) (Program.call entry' answer') :=
  ⟨[entry], [entry'], rfl, rfl,
    .faulted rfl hfault (by rwa [questions_singleton, questions_singleton])⟩

/-- The continuation only has to be considered at what `m` returns. -/
theorem bind_of {f f' : α → Program ε κ β} (heq : asking view.asks h = asking view.asks h')
    (hm : ShadowsAt view Fault h h' m plain) (hplain : ∀ a, (f' a).Only fun _ => True)
    (hf : ∀ a, (m.exec h).1 = .ok a → Shadows view Fault (f a) (f' a)) :
    ShadowsAt view Fault h h' (m >>= f) (plain >>= f') := by
  obtain ⟨made, made', hmade, hmade', halike⟩ := hm
  rw [ShadowsAt, exec_bind, exec_bind]
  cases hrun : m.exec h with
  | mk r log =>
    cases hrun' : plain.exec h' with
    | mk r' log' =>
      rw [hrun] at hmade halike
      rw [hrun'] at hmade' halike
      obtain rfl : log = h ++ made := hmade
      obtain rfl : log' = h' ++ made' := hmade'
      cases halike with
      | same houtcome hsame hasked =>
        obtain rfl : r = r' := houtcome
        cases r with
        | error e => exact ⟨made, made', rfl, rfl, .same rfl hsame hasked⟩
        | ok a =>
          have heq' : asking view.asks (h ++ made) = asking view.asks (h' ++ made') := by
            rw [asking_append, asking_append, heq, hsame]
          obtain ⟨more, more', hmore, hmore', halike'⟩ := hf a (by rw [hrun]) _ _ heq'
          exact ⟨made ++ more, made' ++ more', by rw [hmore, List.append_assoc],
            by rw [hmore', List.append_assoc], halike'.after hsame hasked⟩
      | faulted houtcome hfault hfewer =>
        obtain rfl : r = .error _ := houtcome
        cases r' with
        | error e => exact ⟨made, made', rfl, rfl, .faulted rfl hfault hfewer⟩
        | ok a =>
          -- the plain program goes on alone
          obtain ⟨more', hmore', -⟩ := hplain a (h' ++ made')
          refine ⟨made, made' ++ more', rfl, by rw [hmore', List.append_assoc],
            .faulted rfl hfault ?_⟩
          rw [questions_append]
          exact hfewer.trans (List.prefix_append _ _)

end ShadowsAt

namespace Shadows

theorem lift (r : Except ε α) : Shadows view Fault (lift r) (lift r) := by
  intro h h' _
  rw [ShadowsAt, exec_lift, exec_lift]
  exact ⟨[], [], by simp, by simp, .same rfl rfl rfl⟩

theorem pure (a : α) : Shadows view Fault (pure a) (pure a) := lift (.ok a)

theorem throw (e : ε) : Shadows view Fault (throw e : Program ε κ α) (throw e) := lift (.error e)

theorem plain_only (hm : Shadows view Fault m plain) : plain.Only fun _ => True := fun h =>
  let ⟨_, made', _, hmade', _⟩ := hm h h rfl
  ⟨made', hmade', fun _ _ => trivial⟩

theorem bind_of {f f' : α → Program ε κ β} (hm : Shadows view Fault m plain)
    (hplain : ∀ a, (f' a).Only fun _ => True)
    (hf : ∀ a h, (m.exec h).1 = .ok a → Shadows view Fault (f a) (f' a)) :
    Shadows view Fault (m >>= f) (plain >>= f') := fun h h' heq =>
  (hm h h' heq).bind_of heq hplain fun a => hf a h

theorem bind {f f' : α → Program ε κ β} (hm : Shadows view Fault m plain)
    (hf : ∀ a, Shadows view Fault (f a) (f' a)) : Shadows view Fault (m >>= f) (plain >>= f') :=
  hm.bind_of (fun a => (hf a).plain_only) fun a _ _ => hf a

theorem attempt_call_bind {entry : κ} {answer : Except ε β} {f f' : Except ε β → Program ε κ α}
    (hasked : ∀ h h', view.watched h entry = view.plain h' entry)
    (hf : Shadows view Fault (f answer) (f' answer)) :
    Shadows view Fault (attempt (Program.call entry answer) >>= f)
      (attempt (Program.call entry answer) >>= f') := by
  intro h h' heq
  have heq' : asking view.asks (h ++ [entry]) = asking view.asks (h' ++ [entry]) := by
    rw [asking_append, asking_append, heq]
  obtain ⟨made, made', hmade, hmade', halike⟩ := hf _ _ heq'
  rw [ShadowsAt, exec_bind, exec_bind, exec_attempt, exec_attempt, exec_call, exec_call]
  have hentry : questions view.watched h [entry] = questions view.plain h' [entry] := by
    rw [questions_singleton, questions_singleton, hasked h h']
  exact ⟨entry :: made, entry :: made', by rw [hmade, List.append_assoc]; rfl,
    by rw [hmade', List.append_assoc]; rfl, halike.after rfl hentry⟩

theorem history_bind {f f' : List κ → Program ε κ α}
    (hf : ∀ h h', asking view.asks h = asking view.asks h' →
      ShadowsAt view Fault h h' (f h) (f' h')) :
    Shadows view Fault (history >>= f) (history >>= f') := fun h h' heq => by
  rw [ShadowsAt, exec_bind, exec_bind, exec_history, exec_history]
  exact hf h h' heq

theorem aside {tells : Program ε κ Unit} {f : Unit → Program ε κ α}
    (ht : tells.Asides view.asks Fault) (hf : Shadows view Fault (f ()) plain) :
    Shadows view Fault (tells >>= f) plain := by
  intro h h' heq
  obtain ⟨told, htold, hunasked, hfault⟩ := ht h
  have hnone : questions view.watched h told = [] := questions_eq_nil hunasked
  rw [ShadowsAt, exec_bind]
  cases hrun : tells.exec h with
  | mk r log =>
    rw [hrun] at htold hfault
    obtain rfl : log = h ++ told := htold
    cases r with
    | error e =>
      obtain ⟨-, made', -, hmade', -⟩ := hf h h' heq
      refine ⟨told, made', rfl, hmade', .faulted rfl (hfault e rfl) ?_⟩
      rw [hnone]
      exact List.nil_prefix
    | ok u =>
      have hsilent : asking view.asks told = [] := asking_eq_nil hunasked
      have heq' : asking view.asks (h ++ told) = asking view.asks h' := by
        rw [asking_append, hsilent, List.append_nil, heq]
      obtain ⟨made, made', hmade, hmade', halike⟩ := hf _ _ heq'
      have hlater : Alike view Fault (h ++ told) (h' ++ []) ((f ()).exec (h ++ told)).1 made
          (plain.exec h').1 made' := by rwa [List.append_nil]
      exact ⟨told ++ made, made', by rw [hmade, List.append_assoc], hmade',
        hlater.after hsilent hnone⟩

end Shadows

end

end Foundation.Program
