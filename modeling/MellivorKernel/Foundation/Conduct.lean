import MellivorKernel.Foundation.History
import MellivorKernel.Foundation.Program

/-!
# What a program calls next

`Program.Abides` bounds each call of a program by the history it is made in,
where `Only` bounds the calls alone: one rule for each way to build a program,
and what follows a program is judged from the history that it left.
-/

namespace Foundation

-- ---------------------------------------------------------------------------
-- Continuing a history
-- ---------------------------------------------------------------------------

section
variable {κ : Type} {May : List κ → κ → Prop} {before : List κ}

def FollowsAfter (May : List κ → κ → Prop) (before events : List κ) : Prop :=
  ∀ earlier event later, events = earlier ++ event :: later → May (before ++ earlier) event

theorem followsAfter_nil : FollowsAfter May before [] := by
  intro earlier event later h
  simp at h

theorem followsAfter_cons {event : κ} {rest : List κ} :
    FollowsAfter May before (event :: rest) ↔
      May before event ∧ FollowsAfter May (before ++ [event]) rest := by
  constructor
  · intro h
    refine ⟨by simpa using h [] event rest rfl, fun earlier other later heq => ?_⟩
    have hother := h (event :: earlier) other later (by rw [heq]; rfl)
    rwa [List.append_assoc]
  · rintro ⟨hevent, hrest⟩ earlier other later heq
    cases earlier with
    | nil =>
      cases heq
      simpa using hevent
    | cons first earlier =>
      cases heq
      have hother := hrest earlier other later rfl
      rwa [List.append_assoc] at hother

theorem followsAfter_append {events more : List κ} :
    FollowsAfter May before (events ++ more) ↔
      FollowsAfter May before events ∧ FollowsAfter May (before ++ events) more := by
  induction events generalizing before with
  | nil => simp [followsAfter_nil]
  | cons event rest ih =>
    rw [List.cons_append, followsAfter_cons, followsAfter_cons, ih, List.append_assoc, and_assoc]
    rfl

end

-- ---------------------------------------------------------------------------
-- Programs
-- ---------------------------------------------------------------------------

namespace Program

variable {ε κ α β : Type}

/-- From the history `h`, every call `m` makes may follow those before it. -/
def Abides (May : List κ → κ → Prop) (m : Program ε κ α) (h : List κ) : Prop :=
  ∃ new, (m.exec h).2 = h ++ new ∧ FollowsAfter May h new

namespace Abides

variable {May : List κ → κ → Prop} {m : Program ε κ α} {h : List κ}

theorem pure (a : α) : Abides May (pure a : Program ε κ α) h :=
  ⟨[], by simp, followsAfter_nil⟩

theorem throw (e : ε) : Abides May (throw e : Program ε κ α) h :=
  ⟨[], by simp, followsAfter_nil⟩

theorem lift (r : Except ε α) : Abides May (lift r) h := by
  cases r with
  | ok a => exact pure a
  | error e => exact throw e

theorem call {entry : κ} (hmay : May h entry) (answer : Except ε α) :
    Abides May (call entry answer) h :=
  ⟨[entry], rfl, followsAfter_cons.mpr ⟨hmay, followsAfter_nil⟩⟩

theorem bind {f : α → Program ε κ β} (hm : Abides May m h)
    (hf : ∀ a h', m.exec h = (.ok a, h') → Abides May (f a) h') : Abides May (m >>= f) h := by
  obtain ⟨new, hnew, hfollows⟩ := hm
  unfold Abides
  rw [exec_bind]
  cases hr : m.exec h with
  | mk r h' =>
    obtain rfl : h' = h ++ new := by rw [hr] at hnew; exact hnew
    cases r with
    | error e => exact ⟨new, rfl, hfollows⟩
    | ok a =>
      obtain ⟨more, hmore, hrest⟩ := hf a _ hr
      exact ⟨new ++ more, by rw [hmore, List.append_assoc],
        followsAfter_append.mpr ⟨hfollows, hrest⟩⟩

theorem history_bind {f : List κ → Program ε κ β} (hf : Abides May (f h) h) :
    Abides May (history >>= f) h :=
  bind ⟨[], by simp, followsAfter_nil⟩ fun a h' heq => by
    cases heq
    exact hf

theorem lift_bind {r : Except ε α} {f : α → Program ε κ β}
    (hf : ∀ a, r = .ok a → Abides May (f a) h) : Abides May (Program.lift r >>= f) h :=
  bind (lift r) fun a h' heq => by
    rw [exec_lift] at heq
    cases heq
    exact hf a rfl

end Abides

end Program

end Foundation
