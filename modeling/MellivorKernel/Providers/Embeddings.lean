import MellivorKernel.Providers.Local
import MellivorKernel.Python.RealNumbers

/-!
# The embedding provider

`OpenAICompatibleEmbeddingProvider` of
`providers/_embeddings/openai_compatible.py` over a transport, with the values
of `_embeddings/contracts.py`. The transport is that of `LocalProvider`.
-/

namespace MellivorKernel

open Python Foundation

def embeddingError (message : Str) : Exn := .raised .embeddingError message

namespace Embeddings

-- ---------------------------------------------------------------------------
-- Contracts
-- ---------------------------------------------------------------------------

def normalizeVector (vector : PyValue) (dimensions : Option Nat) (fieldName : Str) :
    Except Exn (List Rat) := do
  let normalized ← vectorComponents embeddingError (lit "Embedding " ++ fieldName) vector
  match dimensions.filter (· ≠ normalized.length) with
  | some dimensions => .error (embeddingError (lit "Embedding " ++ fieldName ++
      lit " must contain exactly " ++ decimal dimensions ++ lit " dimensions."))
  | none => .ok normalized

theorem normalizeVector_eq_ok {vector : PyValue} {dimensions : Option Nat} {fieldName : Str}
    {components : List Rat} : normalizeVector vector dimensions fieldName = .ok components ↔
      (∃ values, vector.sequence? = some values ∧
        values.map PyValue.real? = components.map some) ∧
      components ≠ [] ∧ ∀ d ∈ dimensions, components.length = d := by
  have hfilter (length : Nat) : dimensions.filter (· ≠ length) = none ↔
      ∀ d ∈ dimensions, length = d := by
    rw [Option.filter_eq_none_iff]
    exact forall₂_congr fun d _ => by simp [@eq_comm Nat d]
  simp only [normalizeVector, bind_eq_ok, vectorComponents_eq_ok]
  constructor
  · rintro ⟨normalized, ⟨hvalues, hinhabited⟩, hchecks⟩
    split at hchecks
    · cases hchecks
    · rename_i hdimensions
      cases hchecks
      exact ⟨hvalues, hinhabited, (hfilter _).mp hdimensions⟩
  · rintro ⟨hvalues, hinhabited, hdimensions⟩
    refine ⟨components, ⟨hvalues, hinhabited⟩, ?_⟩
    rw [(hfilter _).mpr hdimensions]

structure EmbeddingRequest where
  texts : List Str
  inhabited : texts ≠ []
  texts_ok : ∀ text ∈ texts, blank text = false

structure EmbeddingResult where
  vectors : List (List Rat)
  model : Str
  dimensions : Nat
  model_ok : blank model = false
  dimensions_ok : 0 < dimensions
  inhabited : vectors ≠ []
  vectors_ok : ∀ vector ∈ vectors, vector.length = dimensions

def toTuple (vectors : List (List Rat)) : PyValue :=
  .tuple (vectors.map fun vector => .tuple (vector.map fun q => .float (.finite q)))

def normalizeVectors (dimensions : Nat) (vectors : List PyValue) : Except Exn (List (List Rat)) :=
  vectors.mapM fun vector => normalizeVector vector (some dimensions) (lit "result vector")

theorem normalizeVectors_inhabited {dimensions : Nat} {first : PyValue} {more : List PyValue}
    {normalized : List (List Rat)}
    (h : normalizeVectors dimensions (first :: more) = .ok normalized) : normalized ≠ [] := by
  rintro rfl
  cases mapM_eq_ok.mp h

theorem normalizeVectors_length {dimensions : Nat} {vectors : List PyValue}
    {normalized : List (List Rat)} (h : normalizeVectors dimensions vectors = .ok normalized) :
    ∀ vector ∈ normalized, vector.length = dimensions := by
  intro vector hvector
  have hmem := List.mem_map_of_mem (f := Except.ok (ε := Exn)) hvector
  rw [← mapM_eq_ok.mp h] at hmem
  obtain ⟨_, -, hvector⟩ := List.mem_map.mp hmem
  exact (normalizeVector_eq_ok.mp hvector).2.2 dimensions rfl

def EmbeddingResult.new (vectors : PyValue) (model : Str) (dimensions : Nat) :
    Except Exn EmbeddingResult :=
  if hmodel : blank model = false then
    if hdimensions : 0 < dimensions then
      match vectors with
      | .tuple (first :: more) =>
        match h : normalizeVectors dimensions (first :: more) with
        | .ok normalized => .ok ⟨normalized, model, dimensions, hmodel, hdimensions,
            normalizeVectors_inhabited h, normalizeVectors_length h⟩
        | .error exc => .error exc
      | _ => .error (embeddingError (lit "EmbeddingResult.vectors must be a non-empty tuple."))
    else .error (embeddingError (lit "EmbeddingResult.dimensions must be a positive integer."))
  else .error (embeddingError (lit "EmbeddingResult.model must be a non-blank string."))

-- ---------------------------------------------------------------------------
-- Responses
-- ---------------------------------------------------------------------------

def responseFields (response : Response) : Except Exn Mapping :=
  match response.json with
  | .error exc =>
    if exc.isA .valueError then
      .error (embeddingError (lit "Embedding endpoint returned invalid JSON."))
    else .error exc
  | .ok (.dict fields) => .ok fields
  | .ok _ => .error (embeddingError (lit "Embedding endpoint returned a non-object response."))

def checkModel (fields : Mapping) (configuredModel : Str) : Except Exn Str :=
  match ((fields.get? "model").bind PyValue.str?).filter (blank · = false) with
  | some model =>
    if model ≠ configuredModel then .error (embeddingError
      (lit "Embedding response model did not match the configured model."))
    else .ok model
  | none => .error (embeddingError
      (lit "Embedding response field 'model' must be a non-blank string."))

/-- `data`, if it has one item for each text. -/
def checkData (fields : Mapping) (texts : Nat) : Except Exn (List PyValue) :=
  match fields.get? "data" with
  | some (.list data) =>
    if data.length = texts then .ok data
    else .error (embeddingError (lit "Embedding response did not contain one item per input."))
  | _ => .error (embeddingError (lit "Embedding response did not contain one item per input."))

/-- `ordered` and `dimensions` of the loop. -/
structure Slots where
  ordered : List (Option (List Rat))
  dimensions : Option Nat

def Slots.place (slots : Slots) (item : PyValue) : Except Exn Slots :=
  match item with
  | .dict fields =>
    match Mapping.get? fields "index" with
    | some (.int (.ofNat index)) =>
      match slots.ordered[index]? with
      | none => .error (embeddingError (lit "Embedding response contained an invalid item index."))
      | some (some _) =>
        .error (embeddingError (lit "Embedding response contained a duplicate item index."))
      | some none => do
        let vector ← normalizeVector ((Mapping.get? fields "embedding").getD .none) none
          (lit "response vector")
        match slots.dimensions.filter (· ≠ vector.length) with
        | some _ => .error (embeddingError
            (lit "Embedding response vectors had inconsistent dimensions."))
        | none => .ok ⟨slots.ordered.set index (some vector), some vector.length⟩
    | _ => .error (embeddingError (lit "Embedding response contained an invalid item index."))
  | _ => .error (embeddingError (lit "Embedding response items must be objects."))

def Slots.result (slots : Slots) (model : Str) (texts : Nat) : Except Exn EmbeddingResult :=
  match slots.dimensions with
  | none => .error (embeddingError
      (lit "Embedding response omitted one or more input indices."))
  | some dimensions =>
    if none ∈ slots.ordered then .error (embeddingError
      (lit "Embedding response omitted one or more input indices."))
    else do
      let result ← EmbeddingResult.new (toTuple (slots.ordered.filterMap id)) model dimensions
      if result.vectors.length ≠ texts then .error (embeddingError
        (lit "Embedding response did not preserve the input batch size."))
      else .ok result

def normalizeResponse (response : Response) (request : EmbeddingRequest) (configuredModel : Str) :
    Except Exn EmbeddingResult := do
  let texts := request.texts.length
  let fields ← responseFields response
  let model ← checkModel fields configuredModel
  let data ← checkData fields texts
  let slots ← data.foldlM Slots.place ⟨List.replicate texts none, none⟩
  slots.result model texts

-- ---------------------------------------------------------------------------
-- The provider
-- ---------------------------------------------------------------------------

/-- The retry loop from an attempt on, `left` of them before it is exhausted. -/
def postFrom (attempts : Nat) (outcomes : Nat → TransportOutcome) :
    (left attempt : Nat) → Except Exn Response
  | 0, _ => .error (.raised .assertionError
      (lit "bounded embedding retry loop exhausted unexpectedly"))
  | left + 1, attempt =>
    match outcomes attempt with
    | .response response => .ok response
    | .timeoutException =>
      if attempt + 1 = attempts then .error (embeddingError
        (lit "Embedding endpoint timed out after " ++ decimal attempts ++ lit " attempt(s)."))
      else postFrom attempts outcomes left (attempt + 1)
    | .transportError =>
      if attempt + 1 = attempts then .error (embeddingError
        (lit "Could not reach embedding endpoint after " ++ decimal attempts ++
          lit " attempt(s)."))
      else postFrom attempts outcomes left (attempt + 1)

end Embeddings

structure OpenAICompatibleEmbeddingProvider where
  endpoint : Str
  model : Str
  maxRetries : Nat
  model_ok : blank model = false

namespace OpenAICompatibleEmbeddingProvider

open Embeddings

def name : Str := lit "openai-compatible-embedding"

def post (provider : OpenAICompatibleEmbeddingProvider) (client : Client) (payload : Mapping) :
    Except Exn Response :=
  let attempts := provider.maxRetries + 1
  Embeddings.postFrom attempts (client provider.endpoint payload) attempts 0

def embed (provider : OpenAICompatibleEmbeddingProvider) (client : Client)
    (request : EmbeddingRequest) : Except Exn EmbeddingResult := do
  let response ← provider.post client [item "model" (.str provider.model),
    item "input" (.list (request.texts.map .str))]
  if response.statusCode = 401 ∨ response.statusCode = 403 then
    .error (embeddingError (lit "Embedding endpoint rejected the configured credential (HTTP " ++
      decimal response.statusCode ++ lit ")."))
  else if response.isSuccess then Embeddings.normalizeResponse response request provider.model
  else .error (embeddingError (lit "Embedding endpoint request failed with HTTP " ++
    decimal response.statusCode ++ lit "."))

def healthRequest : EmbeddingRequest where
  texts := [lit "health"]
  inhabited := List.cons_ne_nil _ _
  texts_ok := by decide

def checkHealth (provider : OpenAICompatibleEmbeddingProvider) (client : Client) :
    Except Exn ProviderHealthCheck :=
  match provider.embed client healthRequest with
  | .ok _ => .ok ⟨true, name, []⟩
  | .error exc =>
    if exc.isA .embeddingError then .ok ⟨false, name, exc.text⟩
    else .error exc

end OpenAICompatibleEmbeddingProvider

end MellivorKernel
