import MellivorKernel.Python.Doubles
import MellivorKernel.Python.JsonExact

/-!
# What decoding gives

Every value that `json.loads` returns can be encoded, and comes back from it
as it is: of a repeated key there is only the last value left, an integer has
no more digits than can be converted, and a float is one (`loads_settled`).
-/

namespace Python

open Foundation

section
variable [Printing]

/-- The value can be encoded, and decoding gives it back. -/
structure PyValue.Settled (v : PyValue) : Prop where
  jsonable : v.jsonable .lenient = true
  reread : v.reread .lenient = v

theorem PyValue.Settled.loads_dumps {v : PyValue} (h : v.Settled) :
    ∃ text, v.dumps .lenient = .ok text ∧ loads text = .ok v := by
  obtain ⟨text, htext⟩ := v.dumps_returns.mpr h.jsonable
  exact ⟨text, htext, (Python.loads_dumps htext).trans (by rw [h.reread])⟩

-- ---------------------------------------------------------------------------
-- Containers
-- ---------------------------------------------------------------------------

theorem settled_list {items : List PyValue} (h : ∀ v ∈ items, v.Settled) :
    (PyValue.list items).Settled := by
  have hitems : jsonableItems .lenient items = true ∧ rereadItems .lenient items = items := by
    induction items with
    | nil => exact ⟨rfl, rfl⟩
    | cons v rest ih =>
      obtain ⟨hv, hrest⟩ := List.forall_mem_cons.mp h
      obtain ⟨hjsonable, hreread⟩ := ih hrest
      exact ⟨by rw [jsonableItems, hv.jsonable, hjsonable]; rfl,
        by rw [rereadItems, hv.reread, hreread]⟩
  exact ⟨hitems.1, by rw [PyValue.reread, hitems.2]⟩

theorem settled_dict {items : Mapping} (hn : (items.map Prod.fst).Nodup)
    (h : ∀ p ∈ items, (∃ k, p.1 = .str k) ∧ p.2.Settled) : (PyValue.dict items).Settled := by
  have hjsonable : jsonablePairs .lenient items = true := by
    clear hn
    induction items with
    | nil => rfl
    | cons p rest ih =>
      obtain ⟨⟨⟨k, hk⟩, hv⟩, hrest⟩ := List.forall_mem_cons.mp h
      rw [jsonablePairs, hk, hv.jsonable, ih hrest]
      rfl
  refine ⟨hjsonable, ?_⟩
  rw [PyValue.reread, reread_dict hn ?_ fun p hp => (h p hp).2.reread]
  intro p hp
  obtain ⟨⟨k, hk⟩, -⟩ := h p hp
  rw [hk]
  rfl

omit [Printing] in
theorem Mapping.mem_put {m : Mapping} {k : Str} {v : PyValue} {p : PyKey × PyValue}
    (h : p ∈ m.put (.str k) v) : p = (.str k, v) ∨ p ∈ m := by
  induction m with
  | nil => exact .inl (List.mem_singleton.mp h)
  | cons q m ih =>
    obtain ⟨key, value⟩ := q
    rw [Mapping.put] at h
    split at h
    · rename_i hkey
      obtain rfl := norm_eq_str.mp hkey
      exact (List.mem_cons.mp h).imp_right (List.mem_cons_of_mem _)
    · rcases List.mem_cons.mp h with rfl | hmem
      · exact .inr List.mem_cons_self
      · exact (ih hmem).imp_right (List.mem_cons_of_mem _)

omit [Printing] in
theorem mem_foldl_put {pairs : List (Str × PyValue)} {m : Mapping} {p : PyKey × PyValue}
    (h : p ∈ pairs.foldl (fun m p => m.put (.str p.1) p.2) m) :
    p ∈ m ∨ ∃ q ∈ pairs, p = (.str q.1, q.2) := by
  induction pairs generalizing m with
  | nil => exact .inl h
  | cons q pairs ih =>
    rcases ih h with hput | ⟨r, hr, rfl⟩
    · rcases Mapping.mem_put hput with rfl | hmem
      · exact .inr ⟨q, List.mem_cons_self, rfl⟩
      · exact .inl hmem
    · exact .inr ⟨r, List.mem_cons_of_mem _ hr, rfl⟩

theorem settled_ofPairs {pairs : List (Str × PyValue)} (h : ∀ p ∈ pairs, p.2.Settled) :
    (PyValue.dict (ofPairs pairs)).Settled := by
  refine settled_dict (nodup_foldl_put pairs (by simp)) fun p hp => ?_
  rcases mem_foldl_put hp with hnone | ⟨q, hq, rfl⟩
  · cases hnone
  · exact ⟨⟨q.1, rfl⟩, h q hq⟩

-- ---------------------------------------------------------------------------
-- The scanner
-- ---------------------------------------------------------------------------

def Gives (P : α → Prop) (r : Scan (α × Str)) : Prop := ∀ a rest, r = .ok (a, rest) → P a

omit [Printing] in
theorem scanItems_gives {P : α → Prop} {item : Str → Scan (α × Str)} (h : ∀ s, Gives P (item s))
    (close : CodePoint) (fuel : Nat) (s : Str) :
    Gives (fun xs => ∀ x ∈ xs, P x) (scanItems item close fuel s) := by
  induction fuel generalizing s with
  | zero => nofun
  | succ fuel ih =>
    intro xs rest hscan
    obtain ⟨⟨x, s₁⟩, hitem, hscan⟩ := bind_eq_ok.mp hscan
    obtain ⟨⟨closed, s₂⟩, -, hscan⟩ := bind_eq_ok.mp hscan
    have hx := h s x s₁ hitem
    cases closed with
    | true =>
      cases hscan
      simpa using hx
    | false =>
      obtain ⟨⟨more, s₃⟩, hmore, hscan⟩ := bind_eq_ok.mp hscan
      cases hscan
      exact List.forall_mem_cons.mpr ⟨hx, ih s₂ more _ hmore⟩

theorem scanAtom_settled (hprinting : Printing.Faithful) (s : Str) :
    Gives PyValue.Settled (scanAtom s) := by
  intro v rest h
  unfold scanAtom at h
  split at h
  · rename_i found hfound
    cases h
    obtain ⟨⟨word, w⟩, hmem, hword⟩ := List.exists_of_findSome?_eq_some hfound
    obtain ⟨s', -, heq⟩ := Option.map_eq_some_iff.mp hword
    cases heq
    simp only [jsonConstants, List.mem_cons, List.not_mem_nil, Prod.mk.injEq, or_false] at hmem
    rcases hmem with ⟨-, rfl⟩ | ⟨-, rfl⟩ | ⟨-, rfl⟩ | ⟨-, rfl⟩ | ⟨-, rfl⟩ | ⟨-, rfl⟩ <;>
      exact ⟨rfl, rfl⟩
  · unfold scanNumber at h
    split at h
    · cases h
    · rename_i t rest' hnumber
      split at h
      · cases h
        refine ⟨rfl, congrArg PyValue.float ?_⟩
        cases hvalue : t.toFloat with
        | finite q => exact hprinting _ q hvalue
        | _ => rfl
      · split at h
        · rename_i hconvertible
          cases h
          exact ⟨hconvertible, rfl⟩
        · cases h

section
variable {scan : Str → Scan (PyValue × Str)} (hscan : ∀ s, Gives PyValue.Settled (scan s))
include hscan

theorem scanArray_settled (s : Str) : Gives PyValue.Settled (scanArray scan s) := by
  intro v rest h
  unfold scanArray at h
  split at h
  · cases h
  · split at h
    · cases h
      exact ⟨rfl, rfl⟩
    · obtain ⟨⟨vs, s'⟩, hitems, h⟩ := bind_eq_ok.mp h
      cases h
      exact settled_list (scanItems_gives hscan _ _ _ vs _ hitems)

theorem scanMember_settled (s : Str) :
    Gives (fun p : Str × PyValue => p.2.Settled) (scanMember scan s) := by
  intro p rest h
  obtain ⟨⟨key, s₁⟩, -, h⟩ := bind_eq_ok.mp h
  obtain ⟨⟨v, s₂⟩, hv, h⟩ := bind_eq_ok.mp h
  cases h
  exact hscan s₁ v _ hv

theorem scanObject_settled (s : Str) : Gives PyValue.Settled (scanObject scan s) := by
  intro v rest h
  unfold scanObject at h
  split at h
  · cases h
  · split at h
    · cases h
      exact ⟨rfl, rfl⟩
    · obtain ⟨⟨members, s'⟩, hmembers, h⟩ := bind_eq_ok.mp h
      cases h
      exact settled_ofPairs (scanItems_gives (scanMember_settled hscan) _ _ _ members _ hmembers)

end

theorem scanOnce_settled (hprinting : Printing.Faithful) (depth : Nat) (s : Str) :
    Gives PyValue.Settled (scanOnce depth s) := by
  induction depth generalizing s with
  | zero => nofun
  | succ depth ih =>
    cases s with
    | nil => nofun
    | cons c rest =>
      unfold scanOnce
      split
      · intro v rest' h
        obtain ⟨⟨text, s'⟩, -, h⟩ := bind_eq_ok.mp h
        cases h
        exact ⟨rfl, rfl⟩
      · split
        · exact scanObject_settled ih rest
        · split
          · exact scanArray_settled ih rest
          · exact scanAtom_settled hprinting _

/-- A value that was decoded can be encoded, and is decoded again from that. -/
theorem loads_settled (hprinting : Printing.Faithful) {s : Str} {v : PyValue}
    (h : loads s = .ok v) : v.Settled := by
  unfold loads at h
  split at h
  · cases h
  · cases hdecode : decode s with
    | error e =>
      rw [hdecode] at h
      cases e <;> cases h
    | ok w =>
      rw [hdecode] at h
      cases h
      obtain ⟨⟨v, rest⟩, hscan, hdecode⟩ := bind_eq_ok.mp hdecode
      simp only at hdecode
      split at hdecode
      · cases hdecode
        exact scanOnce_settled hprinting _ _ v rest hscan
      · cases hdecode

end

end Python
