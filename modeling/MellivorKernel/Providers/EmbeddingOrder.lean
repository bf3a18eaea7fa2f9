import MellivorKernel.Foundation.Placement
import MellivorKernel.Providers.Embeddings
import MellivorKernel.Providers.Transport
import MellivorKernel.Python.JsonInverse

/-!
# Embeddings in the order of the texts

The items of a response may come in any order. The loop keeps the slots that
the items so far are placed in; where it ends, the indices are a permutation,
and every text has the vector of the item with its index.
-/

namespace MellivorKernel

open Python Foundation

namespace Embeddings

def IsEmbedding (exc : Exn) : Prop := exc.isA .embeddingError = true

theorem isEmbedding (message : Str) : IsEmbedding (embeddingError message) :=
  (by decide : ExnClass.isA .embeddingError .embeddingError = true)

-- ---------------------------------------------------------------------------
-- What a response lists
-- ---------------------------------------------------------------------------

/-- The item has an index and a vector: in JSON, a list of numbers. -/
def Gives (item : PyValue) (entry : Nat × List Rat) : Prop :=
  ∃ fields embedding values, item = .dict fields ∧
    Mapping.get? fields "index" = some (.int entry.1) ∧
    Mapping.get? fields "embedding" = some embedding ∧ embedding.sequence? = some values ∧
    values.map PyValue.real? = entry.2.map some ∧ entry.2 ≠ []

def Level (entries : List (Nat × List Rat)) : Prop :=
  ∀ entry ∈ entries, ∀ entry' ∈ entries, entry.2.length = entry'.2.length

/-- The body is an object with this model and one item for each of the texts. -/
def Lists (payload : PyValue) (model : Str) (texts : Nat) (entries : List (Nat × List Rat)) :
    Prop :=
  ∃ fields data, payload = .dict fields ∧ Mapping.get? fields "model" = some (.str model) ∧
    Mapping.get? fields "data" = some (.list data) ∧ data.length = texts ∧
    List.Forall₂ Gives data entries ∧ (entries.map Prod.fst).Perm (List.range texts) ∧
    Level entries

-- ---------------------------------------------------------------------------
-- The loop
-- ---------------------------------------------------------------------------

structure Fits (texts : Nat) (entries : List (Nat × List Rat)) : Prop where
  places : Places texts entries
  level : Level entries

theorem fits_concat {texts : Nat} {entries : List (Nat × List Rat)} {entry : Nat × List Rat} :
    Fits texts (entries ++ [entry]) ↔ Fits texts entries ∧ entry.1 < texts ∧
      entry.1 ∉ entries.map Prod.fst ∧ ∀ e ∈ entries, e.2.length = entry.2.length := by
  constructor
  · intro h
    obtain ⟨hplaces, hbound, hnew⟩ := places_concat.mp h.places
    refine ⟨⟨hplaces, fun e he e' he' => ?_⟩, hbound, hnew, fun e he => ?_⟩
    · exact h.level e (List.mem_append_left _ he) e' (List.mem_append_left _ he')
    · exact h.level e (List.mem_append_left _ he) entry (by simp)
  · rintro ⟨h, hbound, hnew, hlength⟩
    refine ⟨places_concat.mpr ⟨h.places, hbound, hnew⟩, fun e he e' he' => ?_⟩
    have hall : ∀ e ∈ entries ++ [entry], e.2.length = entry.2.length := by
      simpa [or_imp, forall_and] using hlength
    rw [hall e he, hall e' he']

theorem Fits.of_append {texts : Nat} {entries more : List (Nat × List Rat)}
    (h : Fits texts (entries ++ more)) : Fits texts entries := by
  refine ⟨h.places.of_append, fun e he e' he' => ?_⟩
  exact h.level e (List.mem_append_left _ he) e' (List.mem_append_left _ he')

def slotsOf (texts : Nat) (entries : List (Nat × List Rat)) : Slots :=
  ⟨filledSlots texts entries, entries.head?.map fun entry => entry.2.length⟩

theorem slotsOf_concat {texts : Nat} {entries : List (Nat × List Rat)} {index : Nat}
    {vector : List Rat} (hnew : index ∉ entries.map Prod.fst)
    (hlength : ∀ entry ∈ entries, entry.2.length = vector.length) :
    slotsOf texts (entries ++ [(index, vector)]) =
      ⟨(filledSlots texts entries).set index (some vector), some vector.length⟩ := by
  rw [slotsOf, filledSlots_concat vector hnew]
  cases entries with
  | nil => rfl
  | cons entry rest => simp [hlength entry (by simp)]

theorem inconsistent_eq_none {entries : List (Nat × List Rat)} (h : Level entries) (length : Nat) :
    ((entries.head?.map fun entry => entry.2.length).filter (· ≠ length)) = none ↔
      ∀ entry ∈ entries, entry.2.length = length := by
  cases entries with
  | nil => simp
  | cons entry rest =>
    have hfirst : ∀ e ∈ entry :: rest, e.2.length = entry.2.length := fun e he =>
      h e he entry (by simp)
    constructor
    · intro hnone e he
      rw [hfirst e he]
      simpa using Option.filter_eq_none_iff.mp hnone entry.2.length rfl
    · intro hlength
      simp [Option.filter_some, hlength entry (by simp)]

theorem sequence?_getD {field : Option PyValue} {values : List PyValue} :
    (field.getD .none).sequence? = some values ↔
      ∃ value, field = some value ∧ value.sequence? = some values := by
  cases field <;> simp [PyValue.sequence?]

theorem place_eq_ok {texts : Nat} {entries : List (Nat × List Rat)} (h : Fits texts entries)
    {item : PyValue} {slots : Slots} : (slotsOf texts entries).place item = .ok slots ↔
      ∃ entry, Gives item entry ∧ Fits texts (entries ++ [entry]) ∧
        slots = slotsOf texts (entries ++ [entry]) := by
  constructor
  · intro hplace
    unfold Slots.place at hplace
    split at hplace
    · rename_i fields
      split at hplace
      · rename_i index hindex
        split at hplace
        · cases hplace
        · cases hplace
        · rename_i hslot
          obtain ⟨vector, hvector, hplace⟩ := bind_eq_ok.mp hplace
          split at hplace
          · cases hplace
          · rename_i hlength
            cases hplace
            obtain ⟨⟨values, hsequence, hvalues⟩, hinhabited, -⟩ := normalizeVector_eq_ok.mp hvector
            have hbound : index < texts := by
              simpa [slotsOf] using (List.getElem?_eq_some_iff.mp hslot).1
            have hnew : index ∉ entries.map Prod.fst := by
              rw [slotsOf, getElem?_filledSlots hbound, Option.some_inj] at hslot
              exact Dict.lookup_eq_none.mp hslot
            have hlength := (inconsistent_eq_none h.level _).mp hlength
            obtain ⟨embedding, hembedding, hsequence⟩ := sequence?_getD.mp hsequence
            exact ⟨(index, vector),
              ⟨fields, embedding, values, rfl, hindex, hembedding, hsequence, hvalues, hinhabited⟩,
              fits_concat.mpr ⟨h, hbound, hnew, hlength⟩, (slotsOf_concat hnew hlength).symm⟩
      · cases hplace
    · cases hplace
  · rintro ⟨⟨index, vector⟩, hgives, hfits, rfl⟩
    obtain ⟨fields, embedding, values, rfl, hindex, hembedding, hgives⟩ := hgives
    obtain ⟨-, hbound, hnew, hlength⟩ := fits_concat.mp hfits
    have hslot : (slotsOf texts entries).ordered[index]? = some none := by
      rw [slotsOf, getElem?_filledSlots hbound, Dict.lookup_eq_none.mpr hnew]
    have hvector : normalizeVector embedding none (lit "response vector") = .ok vector :=
      normalizeVector_eq_ok.mpr ⟨⟨values, hgives.1, hgives.2.1⟩, hgives.2.2, by simp⟩
    have hindex : Mapping.get? fields "index" = some (.int (.ofNat index)) := hindex
    unfold Slots.place
    simp only [hindex, hslot, hembedding, Option.getD_some, hvector, bind, Except.bind]
    rw [slotsOf, (inconsistent_eq_none h.level _).mpr hlength, slotsOf_concat hnew hlength]

theorem foldlM_place_eq_ok {texts : Nat} {entries : List (Nat × List Rat)} (h : Fits texts entries)
    {items : List PyValue} {slots : Slots} :
    items.foldlM Slots.place (slotsOf texts entries) = .ok slots ↔
      ∃ more, List.Forall₂ Gives items more ∧ Fits texts (entries ++ more) ∧
        slots = slotsOf texts (entries ++ more) := by
  induction items generalizing entries slots with
  | nil =>
    constructor
    · intro hslots
      cases hslots
      exact ⟨[], .nil, by simpa using h, by simp⟩
    · rintro ⟨_, ⟨⟩, -, rfl⟩
      simp [pure, Except.pure]
  | cons item items ih =>
    rw [List.foldlM_cons, bind_eq_ok]
    constructor
    · rintro ⟨placed, hplaced, hrest⟩
      obtain ⟨entry, hgives, hfits, rfl⟩ := (place_eq_ok h).mp hplaced
      obtain ⟨more, hmore, hfits, rfl⟩ := (ih hfits).mp hrest
      exact ⟨entry :: more, .cons hgives hmore, by simpa using hfits, by simp⟩
    · rintro ⟨_, hmore, hfits, rfl⟩
      cases hmore with
      | @cons _ entry _ more hgives hmore =>
        rw [List.append_cons] at hfits ⊢
        exact ⟨_, (place_eq_ok h).mpr ⟨entry, hgives, hfits.of_append, rfl⟩,
          (ih hfits.of_append).mpr ⟨more, hmore, hfits, rfl⟩⟩

-- ---------------------------------------------------------------------------
-- The result
-- ---------------------------------------------------------------------------

structure InOrder (entries : List (Nat × List Rat)) (result : EmbeddingResult) : Prop where
  length : result.vectors.length = entries.length
  vectors : ∀ entry ∈ entries, result.vectors[entry.1]? = some entry.2
  dimensions : ∀ entry ∈ entries, entry.2.length = result.dimensions

theorem new_toTuple {vectors : List (List Rat)} {model : Str} {dimensions : Nat}
    (hmodel : blank model = false) (hdimensions : 0 < dimensions) (hinhabited : vectors ≠ [])
    (hlength : ∀ vector ∈ vectors, vector.length = dimensions) :
    EmbeddingResult.new (toTuple vectors) model dimensions =
      .ok ⟨vectors, model, dimensions, hmodel, hdimensions, hinhabited, hlength⟩ := by
  have hnormalized : normalizeVectors dimensions (vectors.map fun vector =>
      .tuple (vector.map fun q => .float (.finite q))) = .ok vectors := by
    refine mapM_map_eq_ok fun vector hvector => normalizeVector_eq_ok.mpr ⟨⟨_, rfl, ?_⟩, ?_, ?_⟩
    · rw [List.map_map]
      rfl
    · exact List.ne_nil_of_length_pos (by rwa [hlength vector hvector])
    · rintro _ ⟨⟩
      exact hlength vector hvector
  cases vectors with
  | nil => exact absurd rfl hinhabited
  | cons first more =>
    rw [EmbeddingResult.new, dif_pos hmodel, dif_pos hdimensions]
    simp only [toTuple, List.map_cons] at hnormalized ⊢
    split
    · rename_i normalized h
      cases hnormalized.symm.trans h
      rfl
    · rename_i exc h
      cases hnormalized.symm.trans h

theorem result_returns {texts : Nat} {entries : List (Nat × List Rat)} {model : Str}
    (hmodel : blank model = false) (h : Fits texts entries) (hlength : entries.length = texts)
    (htexts : 0 < texts) (hinhabited : ∀ entry ∈ entries, entry.2 ≠ []) :
    ∃ result, (slotsOf texts entries).result model texts = .ok result ∧ result.model = model ∧
      InOrder entries result := by
  obtain ⟨vectors, hplaced, hvectors, hat⟩ := h.places.full hlength
  obtain ⟨first, rest, rfl⟩ := List.exists_cons_of_length_pos (hlength ▸ htexts)
  have hlevel : ∀ vector ∈ vectors, vector.length = first.2.length := by
    intro vector hvector
    have hmem : some vector ∈ filledSlots texts (first :: rest) := by
      rw [hplaced]
      exact List.mem_map_of_mem hvector
    obtain ⟨index, hentry⟩ := h.places.exists_of_mem hmem
    exact h.level _ hentry first (by simp)
  have hdimensions : 0 < first.2.length := List.length_pos_iff.mpr (hinhabited first (by simp))
  have hsome : vectors ≠ [] := List.ne_nil_of_length_pos (hvectors ▸ htexts)
  refine ⟨⟨vectors, model, first.2.length, hmodel, hdimensions, hsome, hlevel⟩, ?_, rfl,
    hvectors.trans hlength.symm, hat, fun entry hentry => h.level entry hentry first (by simp)⟩
  have hcollect : (vectors.map some).filterMap id = vectors := by simp
  simp only [Slots.result, slotsOf, List.head?_cons, Option.map_some, hplaced, hcollect]
  rw [if_neg (by simp), new_toTuple hmodel hdimensions hsome hlevel]
  exact if_neg (not_not.mpr hvectors)

-- ---------------------------------------------------------------------------
-- The response
-- ---------------------------------------------------------------------------

theorem responseFields_eq_ok {response : Response} {payload : PyValue} {fields : Mapping}
    (hbody : response.json = .ok payload) :
    responseFields response = .ok fields ↔ payload = .dict fields := by
  unfold responseFields
  rw [hbody]
  cases payload <;> simp

theorem checkModel_eq_ok {fields : Mapping} {configuredModel model : Str}
    (h : blank configuredModel = false) : checkModel fields configuredModel = .ok model ↔
      fields.get? "model" = some (.str configuredModel) ∧ model = configuredModel := by
  unfold checkModel
  split
  · rename_i text hfilter
    obtain ⟨hbind, -⟩ := Option.filter_eq_some_iff.mp hfilter
    obtain ⟨value, hvalue, hstr⟩ := Option.bind_eq_some_iff.mp hbind
    rw [PyValue.str?_eq_some.mp hstr] at hvalue
    rw [hvalue]
    by_cases heq : text = configuredModel
    · simp [heq, eq_comm]
    · simp [heq]
  · rename_i hnone
    simp only [reduceCtorEq, false_iff]
    rintro ⟨hmodel, -⟩
    simp [hmodel, PyValue.str?, Option.filter_some, h] at hnone

theorem checkData_eq_ok {fields : Mapping} {texts : Nat} {data : List PyValue} :
    checkData fields texts = .ok data ↔
      fields.get? "data" = some (.list data) ∧ data.length = texts := by
  unfold checkData
  split
  · rename_i items hdata
    simp only [hdata]
    split
    · rename_i hlength
      constructor
      · rintro ⟨⟩
        exact ⟨rfl, hlength⟩
      · rintro ⟨⟨⟩, -⟩
        rfl
    · rename_i hlength
      simp only [reduceCtorEq, false_iff]
      rintro ⟨⟨⟩, h⟩
      exact hlength h
  · rename_i hnone
    simp only [reduceCtorEq, false_iff]
    exact fun h => hnone data h.1

theorem slotsOf_nil (texts : Nat) : slotsOf texts [] = ⟨List.replicate texts none, none⟩ := by
  simp [slotsOf]

theorem inhabited_of_gives {items : List PyValue} {entries : List (Nat × List Rat)}
    (h : List.Forall₂ Gives items entries) : ∀ entry ∈ entries, entry.2 ≠ [] := by
  induction h with
  | nil => simp
  | cons hgives _ ih =>
    obtain ⟨_, _, _, -, -, -, -, -, hinhabited⟩ := hgives
    exact List.forall_mem_cons.mpr ⟨hinhabited, ih⟩

theorem normalizeResponse_of_lists {response : Response} {payload : PyValue}
    {request : EmbeddingRequest} {model : Str} {entries : List (Nat × List Rat)}
    (hbody : response.json = .ok payload) (hmodel : blank model = false)
    (h : Lists payload model request.texts.length entries) :
    ∃ result, normalizeResponse response request model = .ok result ∧ result.model = model ∧
      InOrder entries result := by
  obtain ⟨fields, data, rfl, hfield, hdata, hlength, hgives, hperm, hlevel⟩ := h
  have hfits : Fits request.texts.length ([] ++ entries) := ⟨places_of_perm hperm, hlevel⟩
  obtain ⟨result, hresult, hrest⟩ := result_returns hmodel hfits
    (hgives.length_eq.symm.trans hlength) (List.length_pos_iff.mpr request.inhabited)
    (inhabited_of_gives hgives)
  have hslots := (foldlM_place_eq_ok hfits.of_append).mpr ⟨entries, hgives, hfits, rfl⟩
  refine ⟨result, ?_, hrest⟩
  unfold normalizeResponse
  simp only [(responseFields_eq_ok hbody).mpr rfl, (checkModel_eq_ok hmodel).mpr ⟨hfield, rfl⟩,
    checkData_eq_ok.mpr ⟨hdata, hlength⟩, ← slotsOf_nil, hslots, bind, Except.bind]
  exact hresult

theorem lists_of_returns {response : Response} {payload : PyValue} {request : EmbeddingRequest}
    {model : Str} (hbody : response.json = .ok payload) (hmodel : blank model = false)
    (h : Returns (normalizeResponse response request model)) :
    ∃ entries, Lists payload model request.texts.length entries := by
  unfold normalizeResponse at h
  obtain ⟨fields, hfields, h⟩ := returns_bind.mp h
  obtain ⟨_, hfield, h⟩ := returns_bind.mp h
  obtain ⟨data, hdata, h⟩ := returns_bind.mp h
  obtain ⟨slots, hslots, -⟩ := returns_bind.mp h
  rw [← slotsOf_nil] at hslots
  have hempty : Fits request.texts.length [] := ⟨places_nil, by simp [Level]⟩
  obtain ⟨entries, hgives, hfits, -⟩ := (foldlM_place_eq_ok hempty).mp hslots
  obtain ⟨hdata, hlength⟩ := checkData_eq_ok.mp hdata
  exact ⟨entries, fields, data, (responseFields_eq_ok hbody).mp hfields,
    ((checkModel_eq_ok hmodel).mp hfield).1, hdata, hlength, hgives,
    hfits.places.perm (hgives.length_eq.symm.trans hlength), hfits.level⟩

-- ---------------------------------------------------------------------------
-- What is raised
-- ---------------------------------------------------------------------------

theorem not_isEmbedding_overflow (message : Str) :
    ¬ IsEmbedding (.raised .overflowError message) := by
  simp [IsEmbedding, ExnClass.isA, ExnClass.bases]

theorem normalizeVector_raises_iff {vector : PyValue} (dimensions : Option Nat) (fieldName : Str) :
    RaisesOnly IsEmbedding (normalizeVector vector dimensions fieldName) ↔
      vector.overflows = false := by
  refine (raisesOnly_bind_of fun _ => ?_).trans
    (vectorComponents_raises_iff isEmbedding not_isEmbedding_overflow)
  split <;> simp [isEmbedding]

/-- The item has an index that is free and a vector that `float` raises at. -/
def Oversteps (texts : Nat) (entries : List (Nat × List Rat)) (item : PyValue) : Prop :=
  ∃ fields index embedding, item = .dict fields ∧
    Mapping.get? fields "index" = some (.int (.ofNat index)) ∧ index < texts ∧
    index ∉ entries.map Prod.fst ∧ Mapping.get? fields "embedding" = some embedding ∧
    embedding.overflows = true

theorem place_raises_iff {texts : Nat} (entries : List (Nat × List Rat)) {item : PyValue} :
    RaisesOnly IsEmbedding ((slotsOf texts entries).place item) ↔
      ¬ Oversteps texts entries item := by
  constructor
  · rintro hraises ⟨fields, index, embedding, rfl, hindex, hbound, hnew, hembedding, hoverflows⟩
    have hslot : (slotsOf texts entries).ordered[index]? = some none := by
      rw [slotsOf, getElem?_filledSlots hbound, Dict.lookup_eq_none.mpr hnew]
    unfold Slots.place at hraises
    simp only [hindex, hslot, hembedding, Option.getD_some] at hraises
    have hfits := (normalizeVector_raises_iff none _).mp (raisesOnly_bind.mp hraises).1
    simp [hfits] at hoverflows
  · intro hnone
    unfold Slots.place
    split
    · rename_i fields
      split
      · rename_i index hindex
        split
        · simp [isEmbedding]
        · simp [isEmbedding]
        · rename_i hslot
          have hbound : index < texts := by
            simpa [slotsOf] using (List.getElem?_eq_some_iff.mp hslot).1
          have hnew : index ∉ entries.map Prod.fst := by
            rw [slotsOf, getElem?_filledSlots hbound, Option.some_inj] at hslot
            exact Dict.lookup_eq_none.mp hslot
          refine RaisesOnly.bind ((normalizeVector_raises_iff _ _).mpr ?_) fun _ => ?_
          · cases hembedding : Mapping.get? fields "embedding" with
            | none => rfl
            | some embedding =>
              exact Bool.eq_false_iff.mpr fun hoverflows =>
                hnone ⟨fields, index, embedding, rfl, hindex, hbound, hnew, hembedding, hoverflows⟩
          · split <;> simp [isEmbedding]
      · simp [isEmbedding]
    · simp [isEmbedding]

def OverstepsAt (payload : PyValue) (model : Str) (texts : Nat) : Prop :=
  ∃ fields before item after entries, payload = .dict fields ∧
    Mapping.get? fields "model" = some (.str model) ∧
    Mapping.get? fields "data" = some (.list (before ++ item :: after)) ∧
    (before ++ item :: after).length = texts ∧ List.Forall₂ Gives before entries ∧
    Fits texts entries ∧ Oversteps texts entries item

theorem json_of_responseFields {response : Response} {fields : Mapping}
    (h : responseFields response = .ok fields) : response.json = .ok (.dict fields) := by
  unfold responseFields at h
  split at h
  · split at h <;> cases h
  · rename_i hjson
    cases h
    exact hjson
  · cases h

theorem responseFields_raises (response : Response) :
    RaisesOnly IsEmbedding (responseFields response) := by
  unfold responseFields
  split
  · rename_i exc hjson
    rw [if_pos (json_raises hjson)]
    simp [isEmbedding]
  · simp
  · simp [isEmbedding]

theorem checkModel_raises (fields : Mapping) (configuredModel : Str) :
    RaisesOnly IsEmbedding (checkModel fields configuredModel) := by
  unfold checkModel
  split
  · split <;> simp [isEmbedding]
  · simp [isEmbedding]

theorem checkData_raises (fields : Mapping) (texts : Nat) :
    RaisesOnly IsEmbedding (checkData fields texts) := by
  unfold checkData
  split
  · split <;> simp [isEmbedding]
  · simp [isEmbedding]

theorem normalizeResponse_raises_iff {response : Response} {request : EmbeddingRequest}
    {model : Str} (hmodel : blank model = false) :
    RaisesOnly IsEmbedding (normalizeResponse response request model) ↔
      ∀ payload, response.json = .ok payload →
        ¬ OverstepsAt payload model request.texts.length := by
  have hempty : Fits request.texts.length [] := ⟨places_nil, by simp [Level]⟩
  constructor
  · rintro hraises _ hbody
      ⟨fields, before, item, after, entries, rfl, hfield, hdata, hlength, hgives, hfits, hitem⟩
    have hbefore := (foldlM_place_eq_ok hempty).mpr ⟨entries, hgives, hfits, rfl⟩
    rw [slotsOf_nil, List.nil_append] at hbefore
    unfold normalizeResponse at hraises
    simp only [(responseFields_eq_ok hbody).mpr rfl, (checkModel_eq_ok hmodel).mpr ⟨hfield, rfl⟩,
      checkData_eq_ok.mpr ⟨hdata, hlength⟩, bind, Except.bind] at hraises
    have hloop := (raisesOnly_bind.mp hraises).1
    exact (place_raises_iff entries).mp
      (raisesOnly_foldlM_iff.mp hloop before item after _ rfl hbefore) hitem
  · intro hnone
    refine raisesOnly_bind.mpr ⟨responseFields_raises response, fun fields hfields => ?_⟩
    refine raisesOnly_bind.mpr ⟨checkModel_raises fields model, fun _ hchecked => ?_⟩
    obtain ⟨hfield, rfl⟩ := (checkModel_eq_ok hmodel).mp hchecked
    refine raisesOnly_bind.mpr ⟨checkData_raises fields _, fun data hdata => ?_⟩
    obtain ⟨hdata, hlength⟩ := checkData_eq_ok.mp hdata
    rw [← slotsOf_nil]
    refine raisesOnly_bind.mpr ⟨raisesOnly_foldlM_iff.mpr ?_, fun slots hslots => ?_⟩
    · rintro before item after slots rfl hbefore
      obtain ⟨entries, hgives, hfits, rfl⟩ := (foldlM_place_eq_ok hempty).mp hbefore
      refine (place_raises_iff entries).mpr fun hitem => ?_
      have hbody := json_of_responseFields hfields
      exact hnone _ hbody ⟨fields, before, item, after, entries, rfl, hfield, hdata, hlength,
        hgives, hfits, hitem⟩
    · -- the loop has filled the slots, so nothing more is raised
      obtain ⟨entries, hgives, hfits, rfl⟩ := (foldlM_place_eq_ok hempty).mp hslots
      obtain ⟨result, hresult, -⟩ := result_returns hmodel hfits
        (hgives.length_eq.symm.trans hlength) (List.length_pos_iff.mpr request.inhabited)
        (inhabited_of_gives hgives)
      exact raisesOnly_of_returns ⟨result, hresult⟩

theorem not_overstepsAt_of_floatable {payload : PyValue} (h : payload.floatable = true)
    (model : Str) (texts : Nat) : ¬ OverstepsAt payload model texts := by
  rintro ⟨fields, before, item, after, entries, rfl, -, hdata, -, -, -, hitem⟩
  obtain ⟨parts, index, embedding, rfl, -, -, -, hembedding, hoverflows⟩ := hitem
  have hitems := floatableItems_iff.mp (floatable_of_find h hdata)
  have hparts : floatablePairs parts = true := hitems (.dict parts) (by simp)
  have hfloatable := floatable_of_find hparts hembedding
  simp [overflows_of_floatable hfloatable] at hoverflows

/-- A provider makes a result of a decoded body if it lists one vector for each
text, all of one length; the vectors are then in the order of the texts. Of any
other body whose numbers can be converted it makes an `EmbeddingError`. -/
theorem normalizeResponse_inOrder (provider : OpenAICompatibleEmbeddingProvider)
    (request : EmbeddingRequest) {response : Response} {payload : PyValue}
    (hbody : response.json = .ok payload) (hnumbers : payload.floatable = true) :
    (Returns (normalizeResponse response request provider.model) ↔
        ∃ entries, Lists payload provider.model request.texts.length entries) ∧
      (∀ result, normalizeResponse response request provider.model = .ok result →
        ∀ entries, Lists payload provider.model request.texts.length entries →
          result.model = provider.model ∧ InOrder entries result) ∧
      RaisesOnly IsEmbedding (normalizeResponse response request provider.model) := by
  refine ⟨⟨lists_of_returns hbody provider.model_ok, ?_⟩, ?_, ?_⟩
  · rintro ⟨entries, hlists⟩
    obtain ⟨result, hresult, -⟩ := normalizeResponse_of_lists hbody provider.model_ok hlists
    exact ⟨result, hresult⟩
  · intro result hresult entries hlists
    obtain ⟨_, hreturns, hrest⟩ := normalizeResponse_of_lists hbody provider.model_ok hlists
    cases hresult.symm.trans hreturns
    exact hrest
  · refine (normalizeResponse_raises_iff provider.model_ok).mpr fun _ hpayload => ?_
    cases hbody.symm.trans hpayload
    exact not_overstepsAt_of_floatable hnumbers _ _

-- ---------------------------------------------------------------------------
-- The second text first
-- ---------------------------------------------------------------------------

def unitProvider : OpenAICompatibleEmbeddingProvider :=
  ⟨lit "http://embedding.internal:8000/v1/embeddings", lit "embed-model", 0, by decide⟩

def twoTexts : EmbeddingRequest where
  texts := [lit "first", lit "second"]
  inhabited := List.cons_ne_nil _ _
  texts_ok := by decide

def givenItem (index : Int) (vector : List Rat) : PyValue :=
  .dict [item "index" (.int index),
    item "embedding" (.list (vector.map fun q => .float (.finite q)))]

def swapped : PyValue :=
  .dict [item "model" (.str (lit "embed-model")),
    item "data" (.list [givenItem 1 [0, 1], givenItem 0 [1, 0]])]

theorem swapped_lists :
    Lists swapped unitProvider.model twoTexts.texts.length [(1, [0, 1]), (0, [1, 0])] := by
  refine ⟨_, [givenItem 1 [0, 1], givenItem 0 [1, 0]], rfl, rfl, rfl, rfl, ?_, ?_, ?_⟩
  · exact .cons ⟨_, _, _, rfl, rfl, rfl, rfl, rfl, by simp⟩
      (.cons ⟨_, _, _, rfl, rfl, rfl, rfl, rfl, by simp⟩ .nil)
  · exact .swap 0 1 []
  · simp [Level]

theorem swapped_inOrder : ∃ response result, response.json = .ok swapped ∧
    normalizeResponse response twoTexts unitProvider.model = .ok result ∧
      InOrder [(1, [0, 1]), (0, [1, 0])] result := by
  obtain ⟨text, -, hbody⟩ := @loads_dumps_isJson plainPrinting swapped (by decide +kernel)
  have hanswer := normalizeResponse_inOrder unitProvider twoTexts
    (show Response.json ⟨200, some text⟩ = .ok swapped from hbody) (by decide +kernel)
  obtain ⟨result, hresult⟩ := hanswer.1.mpr ⟨_, swapped_lists⟩
  exact ⟨⟨200, some text⟩, result, hbody, hresult, (hanswer.2.1 result hresult _ swapped_lists).2⟩

end Embeddings

end MellivorKernel
