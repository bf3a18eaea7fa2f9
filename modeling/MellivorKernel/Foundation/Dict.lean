import Mathlib.Data.List.Forall2
import Mathlib.Data.List.Nodup

/-!
# Insertion-ordered maps

A `Dict` is the finite map a scripting language calls a dictionary: keys are
distinct, iteration follows first insertion, overwriting a key keeps its
place, and a key deleted and added again goes to the end. The distinctness of
the keys is carried by the structure, so every operation here preserves it by
construction.
-/

namespace Foundation

/-- Entries in insertion order, one for each key. -/
@[ext] structure Dict (κ α : Type*) where
  entries : List (κ × α)
  nodup : (entries.map Prod.fst).Nodup

namespace Dict

variable {κ α : Type*}

def empty : Dict κ α := ⟨[], by simp⟩

def keys (d : Dict κ α) : List κ := d.entries.map Prod.fst

def values (d : Dict κ α) : List α := d.entries.map Prod.snd

instance : Membership κ (Dict κ α) := ⟨fun d k => k ∈ d.keys⟩

theorem mem_def {d : Dict κ α} {k : κ} : k ∈ d ↔ k ∈ d.keys := Iff.rfl

@[simp] theorem entries_empty : (empty : Dict κ α).entries = [] := rfl

@[simp] theorem keys_empty : (empty : Dict κ α).keys = [] := rfl

variable [DecidableEq κ]

instance (k : κ) (d : Dict κ α) : Decidable (k ∈ d) := inferInstanceAs (Decidable (k ∈ d.keys))

instance [DecidableEq α] : DecidableEq (Dict κ α) := fun _ _ =>
  decidable_of_iff _ ⟨Dict.ext, congrArg Dict.entries⟩

-- ---------------------------------------------------------------------------
-- Association lists
-- ---------------------------------------------------------------------------

def lookup : List (κ × α) → κ → Option α
  | [], _ => none
  | (key, value) :: rest, k => if key = k then some value else lookup rest k

def put : List (κ × α) → κ → α → List (κ × α)
  | [], k, a => [(k, a)]
  | (key, value) :: rest, k, a =>
    if key = k then (key, a) :: rest else (key, value) :: put rest k a

theorem lookup_put (l : List (κ × α)) (k k' : κ) (a : α) :
    lookup (put l k a) k' = if k' = k then some a else lookup l k' := by
  induction l with
  | nil => simp [put, lookup, eq_comm]
  | cons p rest ih =>
    obtain ⟨key, value⟩ := p
    by_cases hk : key = k
    · subst hk
      by_cases h : key = k'
      · simp [put, lookup, h]
      · simp [put, lookup, h, Ne.symm h]
    · by_cases h : key = k'
      · subst h; simp [put, lookup, hk]
      · simp [put, lookup, hk, h, ih]

theorem keys_put (l : List (κ × α)) (k : κ) (a : α) :
    (put l k a).map Prod.fst =
      if k ∈ l.map Prod.fst then l.map Prod.fst else l.map Prod.fst ++ [k] := by
  induction l with
  | nil => simp [put]
  | cons p rest ih =>
    obtain ⟨key, value⟩ := p
    by_cases hk : key = k
    · simp [put, hk]
    · simp only [put, hk, if_false, List.map_cons, ih, List.mem_cons, Ne.symm hk, false_or]
      split <;> simp

theorem lookup_eq_none {l : List (κ × α)} {k : κ} : lookup l k = none ↔ k ∉ l.map Prod.fst := by
  induction l with
  | nil => simp [lookup]
  | cons p rest ih =>
    obtain ⟨key, value⟩ := p
    by_cases hk : key = k
    · simp [lookup, hk]
    · simp only [lookup, hk, if_false, ih, List.map_cons, List.mem_cons, Ne.symm hk, false_or]

theorem lookup_eq_some {l : List (κ × α)} (hn : (l.map Prod.fst).Nodup) {k : κ} {a : α} :
    lookup l k = some a ↔ (k, a) ∈ l := by
  induction l with
  | nil => simp [lookup]
  | cons p rest ih =>
    obtain ⟨key, value⟩ := p
    simp only [List.map_cons, List.nodup_cons] at hn
    by_cases hk : key = k
    · subst hk
      have hout : (key, a) ∉ rest := fun h => hn.1 (List.mem_map.mpr ⟨_, h, rfl⟩)
      simp [lookup, hout, eq_comm]
    · simp [lookup, hk, Ne.symm hk, ih hn.2]

theorem lookup_append (l m : List (κ × α)) (k : κ) :
    lookup (l ++ m) k = (lookup l k).or (lookup m k) := by
  induction l with
  | nil => rfl
  | cons p rest ih =>
    obtain ⟨key, value⟩ := p
    by_cases hk : key = k
    · simp [lookup, hk]
    · simp [lookup, hk, ih]

theorem put_of_not_mem {l : List (κ × α)} {k : κ} (h : k ∉ l.map Prod.fst) (a : α) :
    put l k a = l ++ [(k, a)] := by
  induction l with
  | nil => rfl
  | cons p rest ih =>
    obtain ⟨key, value⟩ := p
    simp only [List.map_cons, List.mem_cons, not_or] at h
    simp [put, Ne.symm h.1, ih h.2]

theorem put_of_mem {l : List (κ × α)} (hn : (l.map Prod.fst).Nodup) {k : κ}
    (h : k ∈ l.map Prod.fst) (a : α) :
    put l k a = l.map fun p => if p.1 = k then (p.1, a) else p := by
  induction l with
  | nil => cases h
  | cons p rest ih =>
    obtain ⟨key, value⟩ := p
    simp only [List.map_cons, List.nodup_cons] at hn
    by_cases hk : key = k
    · subst hk
      have hrest : (rest.map fun p => if p.1 = key then (p.1, a) else p) = rest := by
        refine (List.map_congr_left fun p hp => ?_).trans (List.map_id _)
        exact if_neg fun he => hn.1 (List.mem_map.mpr ⟨p, hp, he⟩)
      simp [put, hrest]
    · have hmem : k ∈ rest.map Prod.fst := by simpa [Ne.symm hk] using h
      simp [put, hk, ih hn.2 hmem]

-- ---------------------------------------------------------------------------
-- Operations
-- ---------------------------------------------------------------------------

def get? (d : Dict κ α) (k : κ) : Option α := lookup d.entries k

/-- `d[k] = a`: an existing key keeps its place, a new one goes last. -/
def set (d : Dict κ α) (k : κ) (a : α) : Dict κ α where
  entries := put d.entries k a
  nodup := by
    rw [keys_put]
    split
    · exact d.nodup
    · rename_i hk
      exact d.nodup.append (by simp) (by simpa using hk)

/-- `del d[k]`; a missing key leaves the map alone. -/
def erase (d : Dict κ α) (k : κ) : Dict κ α where
  entries := d.entries.filter fun p => p.1 ≠ k
  nodup := (List.filter_sublist.map Prod.fst).nodup d.nodup

def update (d e : Dict κ α) : Dict κ α := e.entries.foldl (fun acc p => acc.set p.1 p.2) d

/-- A dictionary display or comprehension: a later duplicate overwrites. -/
def ofList (l : List (κ × α)) : Dict κ α := l.foldl (fun acc p => acc.set p.1 p.2) empty

@[simp] theorem get?_empty (k : κ) : (empty : Dict κ α).get? k = none := rfl

theorem get?_set (d : Dict κ α) (k k' : κ) (a : α) :
    (d.set k a).get? k' = if k' = k then some a else d.get? k' := lookup_put d.entries k k' a

@[simp] theorem get?_set_self (d : Dict κ α) (k : κ) (a : α) : (d.set k a).get? k = some a := by
  simp [get?_set]

theorem get?_set_ne (d : Dict κ α) {k k' : κ} (h : k' ≠ k) (a : α) :
    (d.set k a).get? k' = d.get? k' := by
  simp [get?_set, h]

theorem get?_eq_none {d : Dict κ α} {k : κ} : d.get? k = none ↔ k ∉ d.keys := lookup_eq_none

theorem get?_eq_some {d : Dict κ α} {k : κ} {a : α} : d.get? k = some a ↔ (k, a) ∈ d.entries :=
  lookup_eq_some d.nodup

theorem mem_keys {d : Dict κ α} {k : κ} : k ∈ d.keys ↔ ∃ a, d.get? k = some a := by
  rw [← Option.isSome_iff_exists, Option.isSome_iff_ne_none, ne_eq, get?_eq_none, not_not]

theorem keys_set (d : Dict κ α) (k : κ) (a : α) :
    (d.set k a).keys = if k ∈ d.keys then d.keys else d.keys ++ [k] := keys_put d.entries k a

theorem mem_set {d : Dict κ α} {k k' : κ} {a : α} : k' ∈ d.set k a ↔ k' = k ∨ k' ∈ d := by
  rw [mem_def, keys_set]
  split
  · rename_i h
    exact ⟨.inr, fun hk => hk.elim (fun heq => heq ▸ h) id⟩
  · simp [mem_def, or_comm]

theorem entries_set_of_not_mem {d : Dict κ α} {k : κ} (h : k ∉ d.keys) (a : α) :
    (d.set k a).entries = d.entries ++ [(k, a)] := put_of_not_mem h a

theorem entries_erase (d : Dict κ α) (k : κ) :
    (d.erase k).entries = d.entries.filter fun p => p.1 ≠ k := rfl

theorem entries_set_of_mem {d : Dict κ α} {k : κ} (h : k ∈ d.keys) (a : α) :
    (d.set k a).entries = d.entries.map fun p => if p.1 = k then (p.1, a) else p :=
  put_of_mem d.nodup h a

theorem get?_middle {d e : Dict κ α} {pre post : List (κ × α)} {k : κ}
    (h : d.entries = pre ++ (e.entries ++ post)) (hpre : k ∉ pre.map Prod.fst)
    (hpost : k ∉ post.map Prod.fst) : d.get? k = e.get? k := by
  rw [get?, h, lookup_append, lookup_append, lookup_eq_none.mpr hpre, lookup_eq_none.mpr hpost]
  simp [get?]

theorem get?_erase (d : Dict κ α) (k k' : κ) :
    (d.erase k).get? k' = if k' = k then none else d.get? k' := by
  by_cases h : k' = k
  · subst h
    simp [get?_eq_none, erase, keys]
  · rw [if_neg h]
    refine Option.ext fun a => ?_
    simp [get?_eq_some, erase, h]

-- ---------------------------------------------------------------------------
-- Loops
-- ---------------------------------------------------------------------------

theorem foldl_set_entries (l : List (κ × α)) (d : Dict κ α)
    (hn : (d.keys ++ l.map Prod.fst).Nodup) :
    (l.foldl (fun acc p => acc.set p.1 p.2) d).entries = d.entries ++ l := by
  induction l generalizing d with
  | nil => simp
  | cons p rest ih =>
    have hp : p.1 ∉ d.keys := fun h =>
      (List.nodup_append.mp hn).2.2 _ h _ (List.mem_map.mpr ⟨p, by simp, rfl⟩) rfl
    have hkeys : (d.set p.1 p.2).keys = d.keys ++ [p.1] := by rw [keys_set, if_neg hp]
    rw [List.foldl_cons, ih _ (by simpa [hkeys] using hn), entries_set_of_not_mem hp]
    simp

theorem get?_foldl_set {σ : Type*} (key : σ → κ) (value : σ → α) {l : List σ}
    (hn : (l.map key).Nodup) (d : Dict κ α) (k : κ) :
    (l.foldl (fun acc x => acc.set (key x) (value x)) d).get? k =
      ((l.find? (key · = k)).map value).or (d.get? k) := by
  induction l generalizing d with
  | nil => simp
  | cons x rest ih =>
    obtain ⟨hx, hrest⟩ := List.nodup_cons.mp hn
    rw [List.foldl_cons, ih hrest, get?_set, List.find?_cons]
    by_cases hk : key x = k
    · have hnone : rest.find? (key · = k) = none := by
        refine List.find?_eq_none.mpr fun y hy heq => hx ?_
        rw [hk, ← of_decide_eq_true heq]
        exact List.mem_map_of_mem hy
      simp [hk, hnone]
    · simp [hk, Ne.symm hk]

theorem get?_foldl_erase (l : List κ) (d : Dict κ α) (k : κ) :
    (l.foldl erase d).get? k = if k ∈ l then none else d.get? k := by
  induction l generalizing d with
  | nil => simp
  | cons x rest ih =>
    rw [List.foldl_cons, ih, get?_erase]
    by_cases hx : k = x
    · simp [hx]
    · simp [hx]

theorem entries_update (d e : Dict κ α) (h : ∀ k ∈ e.keys, k ∉ d.keys) :
    (d.update e).entries = d.entries ++ e.entries :=
  foldl_set_entries _ _ (List.nodup_append.mpr
    ⟨d.nodup, e.nodup, fun _ hd _ he hk => h _ he (hk ▸ hd)⟩)

theorem entries_ofList {l : List (κ × α)} (hn : (l.map Prod.fst).Nodup) :
    (ofList l).entries = l := by
  simpa [ofList] using foldl_set_entries l empty (by simpa using hn)

theorem keys_ofList {l : List (κ × α)} (hn : (l.map Prod.fst).Nodup) :
    (ofList l).keys = l.map Prod.fst := by
  rw [keys, entries_ofList hn]

theorem get?_update (d e : Dict κ α) (h : ∀ k ∈ e.keys, k ∉ d.keys) (k : κ) :
    (d.update e).get? k = (d.get? k).or (e.get? k) := by
  rw [get?, entries_update d e h, lookup_append]
  rfl

theorem entries_eq_map {σ : Type*} {d : Dict κ α} {l : List σ} {key : σ → κ} {f : σ → α}
    (hk : d.keys = l.map key) (hf : ∀ x ∈ l, d.get? (key x) = some (f x)) :
    d.entries = l.map fun x => (key x, f x) := by
  refine List.ext_getElem ?_ fun i hi hj => ?_
  · simpa [keys] using congrArg List.length hk
  · have hlt : i < l.length := by simpa using hj
    have hkey : d.entries[i].1 = key l[i] := by
      have h := congrArg (fun ks : List κ => ks[i]?) hk
      simpa [keys, List.getElem?_eq_getElem hi, List.getElem?_eq_getElem hlt] using h
    have hget : d.get? (key l[i]) = some d.entries[i].2 := by
      rw [get?_eq_some, ← hkey]
      exact List.getElem_mem hi
    rw [hf _ (List.getElem_mem hlt)] at hget
    rw [List.getElem_map]
    exact Prod.ext hkey (Option.some.inj hget).symm

-- ---------------------------------------------------------------------------
-- Comprehensions
-- ---------------------------------------------------------------------------

/-- `{key(x): f(x) for x in l if f(x) is present}`. -/
def collect {σ : Type*} (key : σ → κ) (f : σ → Option α) (l : List σ) : Dict κ α :=
  ofList (l.filterMap fun x => (f x).map fun a => (key x, a))

section
variable {σ : Type*} {key : σ → κ} {f : σ → Option α} {l : List σ}

omit [DecidableEq κ] in
theorem map_fst_collect :
    (l.filterMap fun x => (f x).map fun a => (key x, a)).map Prod.fst =
      (l.filter fun x => (f x).isSome).map key := by
  induction l with
  | nil => rfl
  | cons x rest ih => cases hx : f x <;> simp [hx, ih]

theorem entries_collect (hn : (l.map key).Nodup) :
    (collect key f l).entries = l.filterMap fun x => (f x).map fun a => (key x, a) := by
  refine entries_ofList ?_
  rw [map_fst_collect]
  exact (List.filter_sublist.map key).nodup hn

theorem keys_collect (hn : (l.map key).Nodup) :
    (collect key f l).keys = (l.filter fun x => (f x).isSome).map key := by
  rw [keys, entries_collect hn, map_fst_collect]

theorem get?_collect (hn : (l.map key).Nodup) {x : σ} (hx : x ∈ l) :
    (collect key f l).get? (key x) = f x := by
  refine Option.ext fun a => ?_
  rw [get?_eq_some, entries_collect hn, List.mem_filterMap]
  constructor
  · rintro ⟨y, hy, hya⟩
    obtain ⟨b, hb, hba⟩ := Option.map_eq_some_iff.mp hya
    obtain ⟨hk, rfl⟩ := Prod.mk.injEq .. ▸ hba
    rwa [← List.inj_on_of_nodup_map hn hy hx hk]
  · exact fun ha => ⟨x, hx, by rw [ha]; rfl⟩

end

-- ---------------------------------------------------------------------------
-- Related maps
-- ---------------------------------------------------------------------------

def Related (R : κ → α → β → Prop) (d : Dict κ α) (e : Dict κ β) : Prop :=
  List.Forall₂ (fun p q => p.1 = q.1 ∧ R p.1 p.2 q.2) d.entries e.entries

section
variable {β : Type*} {R : κ → α → β → Prop} {d : Dict κ α} {e : Dict κ β}

omit [DecidableEq κ] in
theorem related_empty : Related R (empty : Dict κ α) (empty : Dict κ β) := .nil

theorem forall₂_put {l : List (κ × α)} {m : List (κ × β)}
    (h : List.Forall₂ (fun p q => p.1 = q.1 ∧ R p.1 p.2 q.2) l m) {k : κ} {a : α} {b : β}
    (hab : R k a b) :
    List.Forall₂ (fun p q => p.1 = q.1 ∧ R p.1 p.2 q.2) (put l k a) (put m k b) := by
  induction h with
  | nil => exact .cons ⟨rfl, hab⟩ .nil
  | @cons p q l m hpq hlm ih =>
    obtain ⟨key, value⟩ := p
    obtain ⟨_, value'⟩ := q
    obtain ⟨rfl, hR⟩ := hpq
    by_cases hk : key = k
    · subst hk
      simpa [put] using ⟨hab, hlm⟩
    · simpa [put, hk] using ⟨hR, ih⟩

theorem forall₂_lookup {l : List (κ × α)} {m : List (κ × β)}
    (h : List.Forall₂ (fun p q => p.1 = q.1 ∧ R p.1 p.2 q.2) l m) (k : κ) :
    Option.Rel (R k) (lookup l k) (lookup m k) := by
  induction h with
  | nil => exact .none
  | @cons p q l m hpq hlm ih =>
    obtain ⟨key, value⟩ := p
    obtain ⟨_, value'⟩ := q
    obtain ⟨rfl, hR⟩ := hpq
    by_cases hk : key = k
    · subst hk
      simpa [lookup] using Option.Rel.some hR
    · simpa [lookup, hk] using ih

theorem Related.set (h : Related R d e) {k : κ} {a : α} {b : β} (hab : R k a b) :
    Related R (d.set k a) (e.set k b) := forall₂_put h hab

theorem Related.erase (h : Related R d e) (k : κ) : Related R (d.erase k) (e.erase k) :=
  List.rel_filter (fun _ _ hpq => by simp [hpq.1]) h

theorem Related.get? (h : Related R d e) (k : κ) : Option.Rel (R k) (d.get? k) (e.get? k) :=
  forall₂_lookup h k

theorem Related.mem_keys (h : Related R d e) {k : κ} : k ∈ d.keys ↔ k ∈ e.keys := by
  have hk := h.get? k
  rw [← not_iff_not, ← get?_eq_none, ← get?_eq_none]
  cases hd : d.get? k <;> cases he : e.get? k <;> simp_all

end

end Dict

end Foundation
