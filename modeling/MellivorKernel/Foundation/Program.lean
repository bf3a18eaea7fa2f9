/-!
# Programs that call out

A `Program` runs against collaborators it does not control. Every call to one
is logged, and the collaborator answers with a value or an exception; the
answer may depend on the whole history of calls, which is how a stateful
collaborator is described. A program only ever extends the history it starts
from; `Only` bounds what it can add, one rule for each way to build a program.
-/

namespace Foundation

/-- Computations over a call history `List κ` that return `α` or raise `ε`. -/
abbrev Program (ε κ : Type) := ExceptT ε (StateM (List κ))

namespace Program

variable {ε κ α β : Type}

def exec (m : Program ε κ α) (h : List κ) : Except ε α × List κ := m.run.run h

/-- One call: it is logged whatever the answer. -/
def call (entry : κ) (answer : Except ε α) : Program ε κ α :=
  ExceptT.mk fun h => (answer, h ++ [entry])

def history : Program ε κ (List κ) := ExceptT.mk fun h => (.ok h, h)

/-- Run `m` and hand its exception over as a value. -/
def attempt (m : Program ε κ α) : Program ε κ (Except ε α) :=
  ExceptT.mk fun h => let (r, h') := m.exec h; (.ok r, h')

/-- Raise what a checked construction raises, or return what it built. -/
def lift : Except ε α → Program ε κ α
  | .ok a => pure a
  | .error e => throw e

@[simp] theorem exec_pure (a : α) (h : List κ) : (pure a : Program ε κ α).exec h = (.ok a, h) := rfl

@[simp] theorem exec_throw (e : ε) (h : List κ) :
    (throw e : Program ε κ α).exec h = (.error e, h) := rfl

@[simp] theorem exec_call (entry : κ) (answer : Except ε α) (h : List κ) :
    (call entry answer).exec h = (answer, h ++ [entry]) := rfl

@[simp] theorem exec_history (h : List κ) :
    (history : Program ε κ (List κ)).exec h = (.ok h, h) := rfl

@[simp] theorem exec_attempt (m : Program ε κ α) (h : List κ) :
    (attempt m).exec h = (.ok (m.exec h).1, (m.exec h).2) := rfl

@[simp] theorem exec_lift (r : Except ε α) (h : List κ) :
    (lift r : Program ε κ α).exec h = (r, h) := by
  cases r <;> rfl

theorem exec_bind (m : Program ε κ α) (f : α → Program ε κ β) (h : List κ) :
    (m >>= f).exec h = match m.exec h with
      | (.ok a, h') => (f a).exec h'
      | (.error e, h') => (.error e, h') := by
  simp only [exec, ExceptT.run, StateT.run, bind, ExceptT.bind, ExceptT.mk, StateT.bind,
    ExceptT.bindCont]
  cases m h with
  | mk r h' => cases r <;> rfl

theorem exec_bind_ok {m : Program ε κ α} {h h' : List κ} (hm : m.exec h = (.ok a, h'))
    (f : α → Program ε κ β) : (m >>= f).exec h = (f a).exec h' := by
  rw [exec_bind, hm]

theorem exec_bind_error {m : Program ε κ α} {h h' : List κ} (hm : m.exec h = (.error e, h'))
    (f : α → Program ε κ β) : (m >>= f).exec h = (.error e, h') := by
  rw [exec_bind, hm]

/-- Where what follows does not depend on the calls made, outcomes compose. -/
theorem fst_bind {m : Program ε κ α} {f : α → Program ε κ β} {r : α → Except ε β}
    (hf : ∀ a h, ((f a).exec h).1 = r a) (h : List κ) :
    ((m >>= f).exec h).1 = (m.exec h).1.bind r := by
  rw [exec_bind]
  cases m.exec h with
  | mk a h' => cases a with
    | error e => rfl
    | ok a => exact hf a h'

theorem bind_returns {m : Program ε κ α} {f : α → Program ε κ β} {h : List κ} :
    (∃ b, ((m >>= f).exec h).1 = .ok b) ↔
      ∃ a, (m.exec h).1 = .ok a ∧ ∃ b, ((f a).exec (m.exec h).2).1 = .ok b := by
  rw [exec_bind]
  rcases m.exec h with ⟨e | a, h'⟩ <;> simp

/-- The outcome of `m` does not depend on the calls made before. -/
def Steady (m : Program ε κ α) : Prop := ∀ h h', (m.exec h).1 = (m.exec h').1

namespace Steady

theorem lift (r : Except ε α) : Steady (lift r : Program ε κ α) := fun h h' => by simp

theorem call (entry : κ) (answer : Except ε α) : Steady (call entry answer) := fun _ _ => rfl

theorem attempt {m : Program ε κ α} (hm : Steady m) : Steady (attempt m) := fun h h' => by
  simp [hm h h']

theorem bind {m : Program ε κ α} {f : α → Program ε κ β} (hm : Steady m)
    (hf : ∀ a, Steady (f a)) : Steady (m >>= f) := fun h h' => by
  have hsame := hm h h'
  rw [exec_bind, exec_bind]
  generalize m.exec h = run at hsame ⊢
  generalize m.exec h' = run' at hsame ⊢
  obtain ⟨r, log⟩ := run
  obtain ⟨r', log'⟩ := run'
  obtain rfl : r = r' := hsame
  cases r with
  | error e => rfl
  | ok a => exact hf a log log'

end Steady

-- ---------------------------------------------------------------------------
-- Which calls a program can make
-- ---------------------------------------------------------------------------

def Only (P : κ → Prop) (m : Program ε κ α) : Prop :=
  ∀ h, ∃ new, (m.exec h).2 = h ++ new ∧ ∀ c ∈ new, P c

namespace Only

variable {P : κ → Prop} {m : Program ε κ α}

theorem pure (a : α) : Only P (pure a : Program ε κ α) := fun h => ⟨[], by simp, by simp⟩

theorem throw (e : ε) : Only P (throw e : Program ε κ α) := fun h => ⟨[], by simp, by simp⟩

theorem lift (r : Except ε α) : Only P (lift r) := by
  cases r with
  | ok a => exact pure a
  | error e => exact throw e

theorem call {entry : κ} (h : P entry) (answer : Except ε α) : Only P (call entry answer) :=
  fun _ => ⟨[entry], rfl, by simpa using h⟩

theorem attempt (hm : Only P m) : Only P (attempt m) := hm

/-- The continuation only has to be considered at what `m` returns. -/
theorem bind_of {f : α → Program ε κ β} (hm : Only P m)
    (hf : ∀ a h, (m.exec h).1 = .ok a → Only P (f a)) : Only P (m >>= f) := by
  intro h
  obtain ⟨new, hnew, hall⟩ := hm h
  rw [exec_bind]
  cases hr : m.exec h with
  | mk r h' =>
    have hnew' : h' = h ++ new := by rw [hr] at hnew; exact hnew
    cases r with
    | error e => exact ⟨new, hnew', hall⟩
    | ok a =>
      obtain ⟨more, hmore, hall'⟩ := hf a h (by rw [hr]) h'
      refine ⟨new ++ more, hmore.trans (by rw [hnew', List.append_assoc]), fun c hc => ?_⟩
      exact (List.mem_append.mp hc).elim (hall c) (hall' c)

theorem bind {f : α → Program ε κ β} (hm : Only P m) (hf : ∀ a, Only P (f a)) :
    Only P (m >>= f) := hm.bind_of fun a _ _ => hf a

end Only

-- ---------------------------------------------------------------------------
-- What a program returns and calls
-- ---------------------------------------------------------------------------

/-- From every history, the outcome of `m` and the calls it makes are related
by `Q`. -/
def Traces (m : Program ε κ α) (Q : Except ε α → List κ → Prop) : Prop :=
  ∀ h, ∃ made, (m.exec h).2 = h ++ made ∧ Q (m.exec h).1 made

namespace Traces

variable {m : Program ε κ α} {f : α → Program ε κ β} {Q : Except ε α → List κ → Prop}
  {R : Except ε β → List κ → Prop}

theorem pure {a : α} (h : Q (.ok a) []) : Traces (pure a) Q := fun _ => ⟨[], by simp, h⟩

theorem lift {r : Except ε α} (h : Q r []) : Traces (lift r) Q := fun log => by
  rw [exec_lift]
  exact ⟨[], (List.append_nil _).symm, h⟩

theorem call {entry : κ} {answer : Except ε α} (h : Q answer [entry]) :
    Traces (call entry answer) Q := fun _ => ⟨[entry], rfl, h⟩

theorem bind (hm : Traces m Q) (herror : ∀ e made, Q (.error e) made → R (.error e) made)
    (hok : ∀ a made, Q (.ok a) made → Traces (f a) fun r more => R r (made ++ more)) :
    Traces (m >>= f) R := by
  intro h
  obtain ⟨made, hmade, hq⟩ := hm h
  rw [exec_bind]
  cases hr : m.exec h with
  | mk r h' =>
    rw [hr] at hmade hq
    obtain rfl : h' = h ++ made := hmade
    cases r with
    | error e => exact ⟨made, rfl, herror e made hq⟩
    | ok a =>
      obtain ⟨more, hmore, hr'⟩ := hok a made hq (h ++ made)
      exact ⟨made ++ more, by rw [hmore, List.append_assoc], hr'⟩

/-- For what `m >>= f` returns, the runs in which `m` raises do not matter. -/
theorem bind_returned {R : β → List κ → Prop} (hm : Traces m Q) (hok : ∀ a made, Q (.ok a) made →
    Traces (f a) fun r more => ∀ b, r = .ok b → R b (made ++ more)) :
    Traces (m >>= f) fun r made => ∀ b, r = .ok b → R b made :=
  hm.bind (fun _ _ _ _ h => by cases h) hok

theorem history_bind {f : List κ → Program ε κ β} (h : ∀ log, Traces (f log) R) :
    Traces (history >>= f) R := fun log => by
  rw [exec_bind, exec_history]
  exact h log log

theorem lift_bind {r : Except ε α} (herror : ∀ e, r = .error e → R (.error e) [])
    (hok : ∀ a, r = .ok a → Traces (f a) R) : Traces (Program.lift r >>= f) R := by
  refine bind (lift (Q := fun r' made => r' = r ∧ made = []) ⟨rfl, rfl⟩) ?_ ?_
  · rintro e made ⟨he, rfl⟩
    exact herror e he.symm
  · rintro a made ⟨ha, rfl⟩
    exact hok a ha.symm

theorem lift_bind_returned {r : Except ε α} {R : β → List κ → Prop} (hok : ∀ a, r = .ok a →
    Traces (f a) fun r made => ∀ b, r = .ok b → R b made) :
    Traces (Program.lift r >>= f) fun r made => ∀ b, r = .ok b → R b made :=
  lift_bind (fun _ _ _ h => by cases h) hok

theorem attempt_call_bind {entry : κ} {answer : Except ε α} {f : Except ε α → Program ε κ β}
    (h : Traces (f answer) fun r more => R r (entry :: more)) :
    Traces (attempt (Program.call entry answer) >>= f) R := fun log => by
  rw [exec_bind, exec_attempt, exec_call]
  obtain ⟨made, hmade, hr⟩ := h (log ++ [entry])
  exact ⟨entry :: made, by rw [hmade, List.append_assoc]; rfl, hr⟩

theorem mono {Q' : Except ε α → List κ → Prop} (hm : Traces m Q)
    (h : ∀ r made, Q r made → Q' r made) : Traces m Q' := fun log =>
  let ⟨made, hmade, hq⟩ := hm log
  ⟨made, hmade, h _ _ hq⟩

end Traces

-- ---------------------------------------------------------------------------
-- Two runs
-- ---------------------------------------------------------------------------

/-- The second run ends as the first does, after the same calls and then some
that satisfy `P`. -/
def Extends (P : κ → Prop) (run run' : Except ε α × List κ) : Prop :=
  run'.1 = run.1 ∧ ∃ more, run'.2 = run.2 ++ more ∧ ∀ c ∈ more, P c

/-- What is run after `m`, for its calls alone, extends the run of `m` exactly
if it returns and makes such calls. -/
theorem extends_then_iff {P : κ → Prop} {m : Program ε κ α} {after : α → Program ε κ Unit}
    {h h' : List κ} (hm : m.exec h = (.ok a, h')) :
    Extends P (.ok a, h') ((do let r ← m; after r; pure r : Program ε κ α).exec h) ↔
      ∃ more, (after a).exec h' = (.ok (), h' ++ more) ∧ ∀ c ∈ more, P c := by
  rw [exec_bind_ok hm, exec_bind]
  cases hr : (after a).exec h' with
  | mk r h'' =>
    cases r with
    | error e =>
      refine iff_of_false ?_ ?_
      · rintro ⟨heq, -⟩
        cases heq
      · rintro ⟨more, heq, -⟩
        cases heq
    | ok u =>
      constructor
      · rintro ⟨-, more, rfl, hall⟩
        exact ⟨more, rfl, hall⟩
      · rintro ⟨more, heq, hall⟩
        cases heq
        exact ⟨rfl, more, rfl, hall⟩

end Program

end Foundation
