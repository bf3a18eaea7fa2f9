import Mathlib.Data.List.Nodup

/-!
# Registration

Items are entered one after the other, each under a key that the first item
entered under it takes for good. Entering a list of items ends at the first
whose key is taken, and what was entered before it stays.
-/

namespace Foundation

section
variable {σ α κ ε : Type*} (step : σ → α → Except ε Unit × σ)

/-- Take the items in turn until one is refused. -/
def takeEach : σ → List α → Except ε Unit × σ
  | s, [] => (.ok (), s)
  | s, a :: rest =>
    match step s a with
    | (.error e, t) => (.error e, t)
    | (.ok (), t) => takeEach t rest

variable {step}

theorem takeEach_append (s : σ) (before after : List α) :
    takeEach step s (before ++ after) =
      match takeEach step s before with
      | (.error e, t) => (.error e, t)
      | (.ok (), t) => takeEach step t after := by
  induction before generalizing s with
  | nil => rfl
  | cons a before ih =>
    simp only [List.cons_append, takeEach]
    split
    · rfl
    · exact ih _

theorem takeEach_map {β : Type*} (f : β → α) (s : σ) (items : List β) :
    takeEach (fun s b => step s (f b)) s items = takeEach step s (items.map f) := by
  induction items generalizing s with
  | nil => rfl
  | cons b rest ih =>
    simp only [takeEach, List.map_cons]
    split
    · rfl
    · exact ih _

/-- A step enters an item under its key unless the key is taken. -/
structure Registration (step : σ → α → Except ε Unit × σ) (key : α → κ) (taken : σ → κ → Prop)
    (refusal : α → ε) : Prop where
  refuses : ∀ s a, taken s (key a) → step s a = (.error (refusal a), s)
  enters : ∀ s a, ¬ taken s (key a) → (step s a).1 = .ok ()
  takes : ∀ s a, ¬ taken s (key a) → ∀ k, taken (step s a).2 k ↔ k = key a ∨ taken s k

/-- The items have keys that are free and differ. -/
def Free (key : α → κ) (taken : σ → κ → Prop) (s : σ) (items : List α) : Prop :=
  (items.map key).Nodup ∧ ∀ a ∈ items, ¬ taken s (key a)

variable {key : α → κ} {taken : σ → κ → Prop} {refusal : α → ε}

namespace Registration

theorem step_eq (h : Registration step key taken refusal) {s : σ} {a : α}
    (hfree : ¬ taken s (key a)) : step s a = (.ok (), (step s a).2) :=
  Prod.ext (h.enters s a hfree) rfl

theorem free_cons (h : Registration step key taken refusal) {s : σ} {a : α} {rest : List α} :
    Free key taken s (a :: rest) ↔ ¬ taken s (key a) ∧ Free key taken (step s a).2 rest := by
  unfold Free
  rw [List.map_cons, List.nodup_cons, List.forall_mem_cons]
  constructor
  · rintro ⟨⟨hnew, hnodup⟩, ha, hrest⟩
    refine ⟨ha, hnodup, fun b hb => ?_⟩
    rw [h.takes s a ha, not_or]
    exact ⟨fun heq => hnew (heq ▸ List.mem_map_of_mem hb), hrest b hb⟩
  · rintro ⟨ha, hnodup, hrest⟩
    have hfree (b : α) (hb : b ∈ rest) : key b ≠ key a ∧ ¬ taken s (key b) := by
      rw [← not_or, ← h.takes s a ha]
      exact hrest b hb
    refine ⟨⟨fun hmem => ?_, hnodup⟩, ha, fun b hb => (hfree b hb).2⟩
    obtain ⟨b, hb, heq⟩ := List.mem_map.mp hmem
    exact (hfree b hb).1 heq

theorem takeEach_cons (h : Registration step key taken refusal) {s : σ} {a : α} {rest : List α}
    (hfree : ¬ taken s (key a)) : takeEach step s (a :: rest) = takeEach step (step s a).2 rest := by
  rw [takeEach, h.step_eq hfree]

theorem taken_iff (h : Registration step key taken refusal) {s : σ} {items : List α}
    (hfree : Free key taken s items) (k : κ) :
    taken (takeEach step s items).2 k ↔ k ∈ items.map key ∨ taken s k := by
  induction items generalizing s with
  | nil => simp [takeEach]
  | cons a rest ih =>
    obtain ⟨ha, hrest⟩ := h.free_cons.mp hfree
    rw [h.takeEach_cons ha, ih hrest, h.takes s a ha, List.map_cons, List.mem_cons]
    tauto

theorem takeEach_ok_iff (h : Registration step key taken refusal) {s : σ} {items : List α} :
    (takeEach step s items).1 = .ok () ↔ Free key taken s items := by
  induction items generalizing s with
  | nil => simp [takeEach, Free]
  | cons a rest ih =>
    rw [h.free_cons]
    by_cases ha : taken s (key a)
    · simp [takeEach, h.refuses s a ha, ha]
    · rw [h.takeEach_cons ha, ih]
      simp [ha]

theorem takeEach_taken (h : Registration step key taken refusal) {s : σ} {before after : List α}
    {a : α} (hbefore : Free key taken s before)
    (ha : key a ∈ before.map key ∨ taken s (key a)) :
    takeEach step s (before ++ a :: after) =
      (.error (refusal a), (takeEach step s before).2) := by
  have hok : takeEach step s before = (.ok (), (takeEach step s before).2) :=
    Prod.ext (h.takeEach_ok_iff.mpr hbefore) rfl
  rw [takeEach_append, hok]
  simp only [takeEach, h.refuses _ a ((h.taken_iff hbefore _).mpr ha)]

/-- Either all items are free, or one is the first that is not. -/
theorem free_or_taken (h : Registration step key taken refusal) (s : σ) (items : List α) :
    Free key taken s items ∨ ∃ before a after, items = before ++ a :: after ∧
      Free key taken s before ∧ (key a ∈ before.map key ∨ taken s (key a)) := by
  induction items generalizing s with
  | nil => exact .inl ⟨List.nodup_nil, nofun⟩
  | cons a rest ih =>
    by_cases ha : taken s (key a)
    · exact .inr ⟨[], a, rest, rfl, ⟨List.nodup_nil, nofun⟩, .inr ha⟩
    · rcases ih (step s a).2 with hfree | ⟨before, b, after, rfl, hbefore, hb⟩
      · exact .inl (h.free_cons.mpr ⟨ha, hfree⟩)
      · refine .inr ⟨a :: before, b, after, rfl, h.free_cons.mpr ⟨ha, hbefore⟩, ?_⟩
        rw [h.takes s a ha] at hb
        rw [List.map_cons, List.mem_cons]
        tauto

end Registration

end

end Foundation
