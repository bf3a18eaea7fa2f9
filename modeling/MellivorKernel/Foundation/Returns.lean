import Mathlib.Data.List.Forall2
import Mathlib.Data.List.Basic

/-!
# Computations that return

When a computation that may raise returns, one rule for each way to build it.
-/

namespace Foundation

variable {ε α β : Type}

def Returns (m : Except ε α) : Prop := ∃ a, m = .ok a

theorem returns_ok (a : α) : Returns (.ok a : Except ε α) := ⟨a, rfl⟩

theorem not_returns_error (e : ε) : ¬ Returns (.error e : Except ε α) := nofun

theorem returns_iff_isOk {m : Except ε α} : Returns m ↔ m.isOk = true := by
  cases m with
  | error e => exact iff_of_false nofun nofun
  | ok a => exact iff_of_true ⟨a, rfl⟩ rfl

theorem returns_bind {m : Except ε α} {f : α → Except ε β} :
    Returns (m >>= f) ↔ ∃ a, m = .ok a ∧ Returns (f a) := by
  cases m with
  | error e => exact iff_of_false nofun nofun
  | ok a => exact ⟨fun h => ⟨a, rfl, h⟩, fun ⟨a', heq, h⟩ => Except.ok.inj heq ▸ h⟩

theorem bind_eq_ok {m : Except ε α} {f : α → Except ε β} {b : β} :
    m >>= f = .ok b ↔ ∃ a, m = .ok a ∧ f a = .ok b := by
  cases m with
  | error e => exact iff_of_false nofun nofun
  | ok a => exact ⟨fun h => ⟨a, rfl, h⟩, fun ⟨a', heq, h⟩ => Except.ok.inj heq ▸ h⟩

theorem returns_bind_and {m : Except ε α} {f : α → Except ε β} {p : Prop}
    (hf : ∀ a, Returns (f a) ↔ p) : Returns (m >>= f) ↔ Returns m ∧ p := by
  rw [returns_bind]
  simp only [hf]
  exact ⟨fun ⟨a, h, hp⟩ => ⟨⟨a, h⟩, hp⟩, fun ⟨⟨a, h⟩, hp⟩ => ⟨a, h, hp⟩⟩

theorem returns_bind_of {m : Except ε α} {f : α → Except ε β} (hf : ∀ a, Returns (f a)) :
    Returns (m >>= f) ↔ Returns m := by
  rw [returns_bind_and fun a => iff_true_intro (hf a), and_true]

theorem returns_mapM {f : α → Except ε β} {xs : List α} :
    Returns (xs.mapM f) ↔ ∀ x ∈ xs, Returns (f x) := by
  induction xs with
  | nil => exact iff_of_true ⟨[], rfl⟩ nofun
  | cons x xs ih =>
    have hrest (y : β) : Returns (do let ys ← xs.mapM f; pure (y :: ys)) ↔ Returns (xs.mapM f) :=
      returns_bind_of fun _ => returns_ok _
    rw [List.mapM_cons, returns_bind_and hrest, ih, List.forall_mem_cons]

/-- A loop that undoes what was done to every element. -/
theorem mapM_map_eq_ok {f : β → Except ε α} {g : α → β} {xs : List α}
    (h : ∀ x ∈ xs, f (g x) = .ok x) : (xs.map g).mapM f = .ok xs := by
  induction xs with
  | nil => rfl
  | cons x xs ih =>
    obtain ⟨hx, hrest⟩ := List.forall_mem_cons.mp h
    rw [List.map_cons, List.mapM_cons, hx, ih hrest]
    rfl

theorem mapM_eq_ok {f : α → Except ε β} {xs : List α} {ys : List β} :
    xs.mapM f = .ok ys ↔ xs.map f = ys.map .ok := by
  induction xs generalizing ys with
  | nil => cases ys <;> simp [pure, Except.pure]
  | cons x xs ih =>
    rw [List.mapM_cons, bind_eq_ok]
    simp only [bind_eq_ok, ih]
    constructor
    · rintro ⟨y, hy, ys, hys, heq⟩
      cases heq
      rw [List.map_cons, List.map_cons, hy, hys]
    · intro h
      cases ys with
      | nil => cases h
      | cons y ys =>
        obtain ⟨hy, hys⟩ := List.cons.inj h
        exact ⟨y, hy, ys, hys, rfl⟩

theorem mapM_eq_ok_iff_forall₂ {f : α → Except ε β} {xs : List α} {ys : List β} :
    xs.mapM f = .ok ys ↔ List.Forall₂ (fun x y => f x = .ok y) xs ys := by
  rw [mapM_eq_ok, ← List.forall₂_eq_eq_eq, List.forall₂_map_left_iff, List.forall₂_map_right_iff]

theorem mapM_eq_ok_of_forall₂ {f : α → Except ε β} {P : γ → Prop} {g : γ → β} {xs : List α}
    {zs : List γ} (h : List.Forall₂ (fun x z => ∀ b, f x = .ok b ↔ P z ∧ g z = b) xs zs)
    {ys : List β} : xs.mapM f = .ok ys ↔ (∀ z ∈ zs, P z) ∧ zs.map g = ys := by
  induction h generalizing ys with
  | nil => simp [pure, Except.pure]
  | cons hx _ ih =>
    rw [List.mapM_cons, bind_eq_ok]
    simp only [hx, bind_eq_ok, ih, List.forall_mem_cons, List.map_cons, pure, Except.pure,
      Except.ok.injEq]
    constructor
    · rintro ⟨_, ⟨hz, rfl⟩, _, ⟨hzs, rfl⟩, rfl⟩
      exact ⟨⟨hz, hzs⟩, rfl⟩
    · rintro ⟨⟨hz, hzs⟩, rfl⟩
      exact ⟨_, ⟨hz, rfl⟩, _, ⟨hzs, rfl⟩, rfl⟩

theorem mapM_isSome {f : α → Option β} {xs : List α} :
    (xs.mapM f).isSome = true ↔ ∀ x ∈ xs, (f x).isSome = true := by
  induction xs with
  | nil => simp
  | cons x xs ih =>
    rw [List.mapM_cons, List.forall_mem_cons, ← ih]
    cases f x <;> cases xs.mapM f <;> simp

-- ---------------------------------------------------------------------------
-- What is raised
-- ---------------------------------------------------------------------------

theorem toOption_eq_some {m : Except ε α} {a : α} : m.toOption = some a ↔ m = .ok a := by
  cases m <;> simp [Except.toOption]

def RaisesOnly (P : ε → Prop) (m : Except ε α) : Prop := ∀ e, m = .error e → P e

section
variable {P : ε → Prop}

@[simp] theorem raisesOnly_ok (a : α) : RaisesOnly P (.ok a) := nofun

@[simp] theorem raisesOnly_error {e : ε} : RaisesOnly P (.error e : Except ε α) ↔ P e :=
  ⟨fun h => h e rfl, fun h _ heq => Except.error.inj heq ▸ h⟩

instance [DecidablePred P] : (m : Except ε α) → Decidable (RaisesOnly P m)
  | .ok a => isTrue (raisesOnly_ok a)
  | .error _ => decidable_of_iff _ raisesOnly_error.symm

theorem raisesOnly_of_returns {m : Except ε α} (h : Returns m) : RaisesOnly P m := by
  obtain ⟨a, rfl⟩ := h
  exact raisesOnly_ok a

theorem raisesOnly_bind {m : Except ε α} {f : α → Except ε β} :
    RaisesOnly P (m >>= f) ↔ RaisesOnly P m ∧ ∀ a, m = .ok a → RaisesOnly P (f a) := by
  cases m with
  | error e =>
    simp only [raisesOnly_error]
    exact ⟨fun h => ⟨h e rfl, nofun⟩, fun h e' heq => Except.error.inj heq ▸ h.1⟩
  | ok a => exact ⟨fun h => ⟨nofun, fun a' heq => Except.ok.inj heq ▸ h⟩, fun h => h.2 a rfl⟩

theorem raisesOnly_bind_of {m : Except ε α} {f : α → Except ε β} (hf : ∀ a, RaisesOnly P (f a)) :
    RaisesOnly P (m >>= f) ↔ RaisesOnly P m :=
  raisesOnly_bind.trans (and_iff_left fun a _ => hf a)

theorem RaisesOnly.bind {m : Except ε α} {f : α → Except ε β} (h : RaisesOnly P m)
    (hf : ∀ a, RaisesOnly P (f a)) : RaisesOnly P (m >>= f) :=
  (raisesOnly_bind_of hf).mpr h

theorem raisesOnly_mapM_cons {f : α → Except ε β} {x : α} {xs : List α} :
    RaisesOnly P ((x :: xs).mapM f) ↔
      RaisesOnly P (f x) ∧ (Returns (f x) → RaisesOnly P (xs.mapM f)) := by
  rw [List.mapM_cons, raisesOnly_bind]
  refine and_congr_right fun _ => ?_
  have hrest (b : β) : RaisesOnly P (do let bs ← xs.mapM f; pure (b :: bs)) ↔
      RaisesOnly P (xs.mapM f) := raisesOnly_bind_of fun bs => raisesOnly_ok _
  simp only [hrest]
  exact ⟨fun h ⟨b, hb⟩ => h b hb, fun h b hb => h ⟨b, hb⟩⟩

theorem raisesOnly_mapM {f : α → Except ε β} {xs : List α} (h : ∀ x ∈ xs, RaisesOnly P (f x)) :
    RaisesOnly P (xs.mapM f) := by
  induction xs with
  | nil => exact raisesOnly_ok []
  | cons x xs ih =>
    obtain ⟨hx, hrest⟩ := List.forall_mem_cons.mp h
    exact raisesOnly_mapM_cons.mpr ⟨hx, fun _ => ih hrest⟩

/-- An element that is bad comes behind good ones only. -/
def Reaches (good bad : α → Prop) (xs : List α) : Prop :=
  ∃ before x after, xs = before ++ x :: after ∧ (∀ y ∈ before, good y) ∧ bad x

theorem not_reaches_nil {good bad : α → Prop} : ¬ Reaches good bad [] := by
  rintro ⟨before, x, after, h, -⟩
  simp at h

theorem reaches_cons {good bad : α → Prop} {x : α} {xs : List α} :
    Reaches good bad (x :: xs) ↔ bad x ∨ good x ∧ Reaches good bad xs := by
  constructor
  · rintro ⟨before, y, after, hsplit, hbefore, hbad⟩
    cases before with
    | nil =>
      cases hsplit
      exact .inl hbad
    | cons z before =>
      cases hsplit
      obtain ⟨hx, hbefore⟩ := List.forall_mem_cons.mp hbefore
      exact .inr ⟨hx, before, y, after, rfl, hbefore, hbad⟩
  · rintro (hbad | ⟨hx, before, y, after, rfl, hbefore, hbad⟩)
    · exact ⟨[], x, xs, rfl, by simp, hbad⟩
    · exact ⟨x :: before, y, after, rfl, List.forall_mem_cons.mpr ⟨hx, hbefore⟩, hbad⟩

theorem raisesOnly_check {m : Except ε α} {f : α → Except ε β} {good bad R : Prop}
    (hm : RaisesOnly P m ↔ ¬ bad) (hgood : Returns m ↔ good) (hf : ∀ a, RaisesOnly P (f a) ↔ R) :
    RaisesOnly P (m >>= f) ↔ ¬ bad ∧ (good → R) := by
  rw [raisesOnly_bind, hm, ← hgood]
  simp only [hf]
  exact and_congr_right fun _ => ⟨fun h ⟨a, ha⟩ => h a ha, fun h a ha => h ⟨a, ha⟩⟩

/-- A loop raises another kind where it reaches a bad element. -/
theorem raisesOnly_mapM_iff {f : α → Except ε β} {good bad : α → Prop}
    (hbad : ∀ x, RaisesOnly P (f x) ↔ ¬ bad x) (hgood : ∀ x, Returns (f x) ↔ good x)
    {xs : List α} : RaisesOnly P (xs.mapM f) ↔ ¬ Reaches good bad xs := by
  induction xs with
  | nil => exact iff_of_true (raisesOnly_ok []) not_reaches_nil
  | cons x xs ih => rw [raisesOnly_mapM_cons, hbad, hgood, ih, reaches_cons, not_or, not_and]

theorem raisesOnly_foldlM_iff {f : β → α → Except ε β} {xs : List α} {b : β} :
    RaisesOnly P (xs.foldlM f b) ↔ ∀ before x after c, xs = before ++ x :: after →
      before.foldlM f b = .ok c → RaisesOnly P (f c x) := by
  induction xs generalizing b with
  | nil => simp [pure, Except.pure]
  | cons x xs ih =>
    rw [List.foldlM_cons, raisesOnly_bind]
    constructor
    · rintro ⟨hx, hrest⟩ before y after c hsplit hbefore
      cases before with
      | nil =>
        cases hsplit
        cases hbefore
        exact hx
      | cons _ before =>
        cases hsplit
        obtain ⟨d, hd, hbefore⟩ := bind_eq_ok.mp hbefore
        exact ih.mp (hrest d hd) before y after c rfl hbefore
    · intro h
      refine ⟨h [] x xs b rfl rfl, fun d hd => ih.mpr fun before y after c hsplit hbefore => ?_⟩
      refine h (x :: before) y after c (by rw [hsplit]; rfl) ?_
      rw [List.foldlM_cons, hd]
      exact hbefore

end

-- ---------------------------------------------------------------------------
-- Against what should be returned
-- ---------------------------------------------------------------------------

/-- The computation returns what is given, or raises an exception of this kind
where nothing is. -/
inductive Yields (P : ε → Prop) : Except ε α → Option α → Prop
  | returned (a : α) : Yields P (.ok a) (some a)
  | raised {e : ε} (h : P e) : Yields P (.error e) none

namespace Yields

variable {P : ε → Prop} {m : Except ε α} {o : Option α}

theorem raisesOnly_bind (h : Yields P m o) {f : α → Except ε β} :
    RaisesOnly P (m >>= f) ↔ ∀ a, o = some a → RaisesOnly P (f a) := by
  cases h with
  | returned a => exact ⟨fun h a' heq => Option.some.inj heq ▸ h, fun h => h a rfl⟩
  | raised he => exact iff_of_true (raisesOnly_error.mpr he) nofun

theorem map (h : Yields P m o) (f : α → β) : Yields P (m.map f) (o.map f) := by
  cases h with
  | returned a => exact .returned (f a)
  | raised h => exact .raised h

theorem guard {p : Prop} [Decidable p] {e : ε} (he : P e) (h : ¬ p → Yields P m o) :
    Yields P (if p then .error e else m) (if p then none else o) := by
  split
  · exact .raised he
  · exact h ‹_›

/-- A loop that decodes items one after the other and stops at one that cannot
be decoded, is not good, or has the key of one before. -/
theorem distinct {σ κ : Type} [DecidableEq κ] {check : List κ → List σ → Except ε (List β)}
    (decode : σ → Option β) (good : β → Prop) [DecidablePred good] (key : β → κ)
    (hnil : ∀ seen, check seen [] = .ok [])
    (hgo : ∀ seen x rest b, decode x = some b → good b → key b ∉ seen →
      check seen (x :: rest) = (check (key b :: seen) rest).map (b :: ·))
    (hstop : ∀ seen x rest, (∀ b, decode x = some b → good b → key b ∈ seen) →
      ∃ e, check seen (x :: rest) = .error e ∧ P e) (seen : List κ) (items : List σ) :
    Yields P (check seen items) ((items.mapM decode).filter fun found =>
      (∀ b ∈ found, good b ∧ key b ∉ seen) ∧ (found.map key).Nodup) := by
  induction items generalizing seen with
  | nil =>
    rw [hnil]
    exact .returned []
  | cons x rest ih =>
    rw [List.mapM_cons]
    by_cases h : ∃ b, decode x = some b ∧ good b ∧ key b ∉ seen
    · obtain ⟨b, hb, hgood, hkey⟩ := h
      have hrest := (ih (key b :: seen)).map (b :: ·)
      rw [hgo seen x rest b hb hgood hkey, hb]
      cases hm : rest.mapM decode with
      | none => simpa [hm] using hrest
      | some found =>
        have hiff : ((∀ b' ∈ b :: found, good b' ∧ key b' ∉ seen) ∧
              ((b :: found).map key).Nodup) ↔
            (∀ b' ∈ found, good b' ∧ key b' ∉ key b :: seen) ∧ (found.map key).Nodup := by
          rw [List.forall_mem_cons, List.map_cons, List.nodup_cons]
          simp only [List.mem_map, List.mem_cons, not_or, not_exists, not_and]
          constructor
          · rintro ⟨⟨-, hall⟩, hnew, hn⟩
            exact ⟨fun b' hb' => ⟨(hall b' hb').1, hnew b' hb', (hall b' hb').2⟩, hn⟩
          · rintro ⟨hall, hn⟩
            exact ⟨⟨⟨hgood, hkey⟩, fun b' hb' => ⟨(hall b' hb').1, (hall b' hb').2.2⟩⟩,
              fun b' hb' => (hall b' hb').2.1, hn⟩
        rw [hm, Option.filter_some, apply_ite (Option.map _)] at hrest
        change Yields P _ (Option.filter _ (some (b :: found)))
        rw [Option.filter_some, decide_eq_decide.mpr hiff]
        exact hrest
    · obtain ⟨e, he, hP⟩ := hstop seen x rest fun b hb hgood => by
        by_contra hkey
        exact h ⟨b, hb, hgood, hkey⟩
      rw [he]
      cases hx : decode x with
      | none => exact .raised hP
      | some b =>
        cases hm : rest.mapM decode with
        | none => exact .raised hP
        | some found =>
          change Yields P _ (Option.filter _ (some (b :: found)))
          rw [Option.filter_some, if_neg]
          · exact .raised hP
          · rw [decide_eq_true_eq]
            rintro ⟨hall, -⟩
            exact h ⟨b, hx, hall b List.mem_cons_self⟩

end Yields

-- ---------------------------------------------------------------------------
-- Unless something escapes
-- ---------------------------------------------------------------------------

/-- The computation raises what escapes; where nothing does, it yields what is
given. -/
def YieldsUnless (P : ε → Prop) (escape : Option ε) (m : Except ε α) (o : Option α) : Prop :=
  match escape with
  | some e => m = .error e
  | none => Yields P m o

/-- What escapes a loop: the first escape before an element that yields
nothing. -/
def firstEscape (escape : α → Option ε) (g : α → Option β) : List α → Option ε
  | [] => none
  | x :: xs =>
    match escape x with
    | some e => some e
    | none => if (g x).isSome then firstEscape escape g xs else none

theorem mem_of_firstEscape {escape : α → Option ε} {g : α → Option β} {xs : List α} {e : ε}
    (h : firstEscape escape g xs = some e) : ∃ x ∈ xs, escape x = some e := by
  induction xs with
  | nil => cases h
  | cons x xs ih =>
    rw [firstEscape] at h
    split at h
    · rename_i hx
      exact ⟨x, List.mem_cons_self, hx.trans h⟩
    · split at h
      · obtain ⟨y, hy, hescape⟩ := ih h
        exact ⟨y, List.mem_cons_of_mem _ hy, hescape⟩
      · cases h

namespace YieldsUnless

variable {P Q : ε → Prop} {escape : Option ε} {m : Except ε α} {o : Option α}

/-- Where only the second of two computations lets anything escape. -/
theorem after {f : α → Except ε β} {g : α → Option β} {escape' : α → Option ε}
    (h : Yields P m o) (hf : ∀ a, YieldsUnless P (escape' a) (f a) (g a)) :
    YieldsUnless P (o.bind escape') (m >>= f) (o.bind g) := by
  cases h with
  | returned a => exact hf a
  | raised he => exact Yields.raised he

theorem bind_map {γ : Type} {put : β → α} {f : α → Except ε γ} {g : β → Option γ} {o : Option β}
    (h : YieldsUnless P escape m (o.map put)) (hf : ∀ b, Yields P (f (put b)) (g b)) :
    YieldsUnless P escape (m >>= f) (o.bind g) := by
  cases escape with
  | some e =>
    cases (show m = .error e from h)
    rfl
  | none =>
    cases o with
    | none =>
      cases (show Yields P m none from h) with
      | raised he => exact Yields.raised he
    | some b =>
      cases (show Yields P m (some (put b)) from h)
      exact hf b

theorem map (h : YieldsUnless P escape m o) (f : α → β) :
    YieldsUnless P escape (m.map f) (o.map f) := by
  cases escape with
  | some e =>
    cases (show m = .error e from h)
    rfl
  | none => exact Yields.map h f

theorem mapM {f : α → Except ε β} {escape : α → Option ε} {g : α → Option β}
    (h : ∀ x, YieldsUnless P (escape x) (f x) (g x)) (xs : List α) :
    YieldsUnless P (firstEscape escape g xs) (xs.mapM f) (xs.mapM g) := by
  induction xs with
  | nil => exact Yields.returned []
  | cons x xs ih =>
    have hx := h x
    rw [List.mapM_cons, List.mapM_cons, firstEscape]
    cases he : escape x with
    | some e =>
      rw [he] at hx
      rw [show f x = .error e from hx]
      rfl
    | none =>
      rw [he] at hx
      generalize f x = r, g x = o at hx ⊢
      cases (show Yields P r o from hx) with
      | returned b =>
        change YieldsUnless P _ (do let bs ← xs.mapM f; pure (b :: bs))
          (do let bs ← xs.mapM g; pure (b :: bs))
        rw [bind_pure_comp, bind_pure_comp]
        exact ih.map (b :: ·)
      | raised hP => exact Yields.raised hP

theorem foldlM {γ : Type} {f : γ → α → Except ε γ} {escape : α → Option ε} {g : α → Option β}
    {put : γ → β → γ} (h : ∀ c x, YieldsUnless P (escape x) (f c x) ((g x).map (put c)))
    (xs : List α) (c : γ) :
    YieldsUnless P (firstEscape escape g xs) (xs.foldlM f c)
      ((xs.mapM g).map (List.foldl put c)) := by
  induction xs generalizing c with
  | nil => exact Yields.returned c
  | cons x xs ih =>
    have hx := h c x
    rw [List.foldlM_cons, List.mapM_cons, firstEscape]
    cases he : escape x with
    | some e =>
      rw [he] at hx
      rw [show f c x = .error e from hx]
      rfl
    | none =>
      rw [he] at hx
      cases hg : g x with
      | none =>
        rw [hg] at hx
        generalize f c x = r at hx ⊢
        cases (show Yields P r none from hx) with
        | raised hP => exact Yields.raised hP
      | some b =>
        rw [hg] at hx
        generalize f c x = r at hx ⊢
        cases (show Yields P r (some (put c b)) from hx)
        refine Eq.mp (congrArg _ ?_) (ih (put c b))
        cases xs.mapM g <;> rfl

theorem raisesOnly_iff (h : YieldsUnless P escape m o) (hPQ : ∀ e, P e → Q e) :
    RaisesOnly Q m ↔ ∀ e, escape = some e → Q e := by
  cases escape with
  | some e =>
    cases (show m = .error e from h)
    simp
  | none =>
    refine iff_of_true ?_ nofun
    cases (show Yields P m o from h) with
    | returned a => exact raisesOnly_ok a
    | raised he => exact raisesOnly_error.mpr (hPQ _ he)

theorem of_ok {a : α} (h : YieldsUnless P escape (.ok a) o) : escape = none ∧ o = some a := by
  cases escape with
  | some e => exact nomatch (show Except.ok a = .error e from h)
  | none =>
    cases (show Yields P (.ok a) o from h)
    exact ⟨rfl, rfl⟩

theorem returns_iff (h : YieldsUnless P escape m o) :
    Returns m ↔ escape = none ∧ o.isSome = true := by
  constructor
  · rintro ⟨a, rfl⟩
    obtain ⟨he, ho⟩ := h.of_ok
    exact ⟨he, by rw [ho]; rfl⟩
  · rintro ⟨rfl, ho⟩
    cases (show Yields P m o from h) with
    | returned a => exact returns_ok a
    | raised => cases ho

end YieldsUnless

end Foundation
