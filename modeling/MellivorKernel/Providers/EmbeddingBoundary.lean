import MellivorKernel.Memory.VectorBoundary
import MellivorKernel.Providers.EmbeddingOrder

/-!
# The error boundary of vectors

JSON numbers are unbounded and floats are not. An integer that is too large for
`float` is the one thing that leaves the error boundaries of both vector
contracts, of `embed`, and of `check_health`, which is not to raise at all. It
counts only where the code reaches it.
-/

namespace MellivorKernel

open Python Foundation

namespace Embeddings

theorem postFrom_eq_retryLoop (attempts : Nat) (outcomes : Nat → TransportOutcome)
    (left attempt : Nat) : postFrom attempts outcomes left attempt =
      retryLoop (embeddingError (lit "Embedding endpoint timed out after " ++ decimal attempts ++
          lit " attempt(s)."))
        (embeddingError (lit "Could not reach embedding endpoint after " ++ decimal attempts ++
          lit " attempt(s)."))
        (.raised .assertionError (lit "bounded embedding retry loop exhausted unexpectedly"))
        attempts outcomes left attempt := by
  induction left generalizing attempt with
  | zero => rfl
  | succ left ih =>
    rw [postFrom, retryLoop]
    cases outcomes attempt <;> simp only [ih]

end Embeddings

namespace OpenAICompatibleEmbeddingProvider

open Embeddings

variable (provider : OpenAICompatibleEmbeddingProvider) (client : Client)
  (request : EmbeddingRequest)

theorem post_yields (payload : Mapping) : Yields IsEmbedding (provider.post client payload)
    (received (client provider.endpoint payload) (provider.maxRetries + 1) 0) := by
  unfold post
  dsimp only
  rw [Embeddings.postFrom_eq_retryLoop]
  exact retryLoop_yields _ (isEmbedding _) (isEmbedding _) (Nat.zero_add _)

/-- The first response to a request, unless it reports a failure. -/
def answer : Option Response :=
  (received (client provider.endpoint [item "model" (.str provider.model),
    item "input" (.list (request.texts.map .str))]) (provider.maxRetries + 1) 0).filter
      Response.isSuccess

/-- The answer's body has a vector that `float` raises at. -/
def Oversteps : Prop :=
  ∃ response payload, provider.answer client request = some response ∧
    response.json = .ok payload ∧ OverstepsAt payload provider.model request.texts.length

theorem embed_raises_iff : RaisesOnly IsEmbedding (provider.embed client request) ↔
    ¬ provider.Oversteps client request := by
  unfold embed Oversteps answer
  rw [(provider.post_yields client _).raisesOnly_bind]
  simp only [Option.filter_eq_some_iff, not_exists, not_and]
  refine forall_congr' fun response => ?_
  by_cases hrejected : response.statusCode = 401 ∨ response.statusCode = 403
  · have hfailure : response.isSuccess = false := by
      rcases hrejected with h | h <;> simp [Response.isSuccess, h]
    simp [hrejected, hfailure, isEmbedding]
  · by_cases hsuccess : response.isSuccess = true
    · simp only [if_neg hrejected, hsuccess, if_true, normalizeResponse_raises_iff
        provider.model_ok]
      exact ⟨fun h payload hresponse => h hresponse.1 payload,
        fun h hresponse payload => h payload ⟨hresponse, trivial⟩⟩
    · simp [hrejected, hsuccess, isEmbedding]

theorem checkHealth_returns_iff : Returns (provider.checkHealth client) ↔
    ¬ provider.Oversteps client healthRequest := by
  rw [← embed_raises_iff]
  unfold checkHealth
  cases provider.embed client healthRequest with
  | ok result => exact iff_of_true (returns_ok _) (raisesOnly_ok _)
  | error exc =>
    refine Iff.trans ?_ raisesOnly_error.symm
    by_cases h : exc.isA .embeddingError = true
    · simp only [h, if_true]
      exact iff_of_true (returns_ok _) h
    · simp only [h]
      exact iff_of_false (not_returns_error _) h

end OpenAICompatibleEmbeddingProvider

-- ---------------------------------------------------------------------------
-- All boundaries
-- ---------------------------------------------------------------------------

/-- Vectors, records, queries, embeddings and health checks stay inside their
error boundaries if `float` raises at no integer they come to. -/
theorem vectors_contained_iff {S : Type} [LinearOrder S] (score : List Rat → List Rat → S) :
    (∀ vector dimensions fieldName,
      RaisesOnly Embeddings.IsEmbedding
        (Embeddings.normalizeVector vector dimensions fieldName) ↔ vector.overflows = false) ∧
    (∀ vector dimensions subject,
      RaisesOnly IsVectorStoreError (normalizeVector vector dimensions subject) ↔
        vector.overflows = false) ∧
    (∀ id vector metadata,
      RaisesOnly IsVectorStoreError (VectorRecord.new id vector metadata) ↔
        ((∃ s, id = .str s ∧ blank s = false) → vector.overflows = false)) ∧
    (∀ (store : InMemoryVectorStore) vector space limit,
      RaisesOnly IsVectorStoreError (store.query score vector space limit) ↔
        ((∃ s, space = .str s ∧ matchesNamespace s = true) → (∃ n, limit = .int n ∧ 0 < n) →
          vector.overflows = false)) ∧
    (∀ (provider : OpenAICompatibleEmbeddingProvider) client request,
      RaisesOnly Embeddings.IsEmbedding (provider.embed client request) ↔
        ¬ provider.Oversteps client request) ∧
    (∀ (provider : OpenAICompatibleEmbeddingProvider) client,
      Returns (provider.checkHealth client) ↔
        ¬ provider.Oversteps client OpenAICompatibleEmbeddingProvider.healthRequest) := by
  refine ⟨fun vector dimensions fieldName => ?_, fun vector dimensions subject => ?_,
    fun id vector metadata => ?_, fun store vector space limit => ?_,
    fun provider client request => ?_, fun provider client => ?_⟩
  · exact Embeddings.normalizeVector_raises_iff dimensions fieldName
  · exact normalizeVector_raises_iff dimensions subject
  · exact vectorRecord_raises_iff
  · exact query_raises_iff score
  · exact provider.embed_raises_iff client request
  · exact provider.checkHealth_returns_iff client

-- ---------------------------------------------------------------------------
-- A component of 401 digits
-- ---------------------------------------------------------------------------

def hugeVector : PyValue := .list [.int ((10 ^ 400 : Nat) : Int)]

def hugePayload : PyValue :=
  .dict [item "model" (.str (lit "embed-model")),
    item "data" (.list [.dict [item "index" (.int 0), item "embedding" hugeVector]])]

theorem hugeVector_overflows : hugeVector.overflows = true := by decide +kernel

theorem hugePayload_overstepsAt :
    Embeddings.OverstepsAt hugePayload Embeddings.unitProvider.model 1 := by
  refine ⟨_, [], _, [], [], rfl, rfl, rfl, rfl, .nil, ?_, ?_⟩
  · exact ⟨places_nil, by simp [Embeddings.Level]⟩
  · exact ⟨_, 0, hugeVector, rfl, rfl, Nat.one_pos, by simp, rfl, hugeVector_overflows⟩

theorem hugeVector_escapes :
    ¬ RaisesOnly Embeddings.IsEmbedding
        (Embeddings.normalizeVector hugeVector none (lit "vector")) ∧
      ¬ RaisesOnly IsVectorStoreError (normalizeVector hugeVector none (lit "Vector")) ∧
      ∃ response, response.json = .ok hugePayload ∧
        ¬ Returns (Embeddings.unitProvider.checkHealth fun _ _ _ => .response response) := by
  refine ⟨?_, ?_, ?_⟩
  · simp [Embeddings.normalizeVector_raises_iff, hugeVector_overflows]
  · simp [normalizeVector_raises_iff, hugeVector_overflows]
  · obtain ⟨text, -, hbody⟩ := @loads_dumps_isJson plainPrinting hugePayload (by decide +kernel)
    refine ⟨⟨200, some text⟩, hbody, ?_⟩
    rw [OpenAICompatibleEmbeddingProvider.checkHealth_returns_iff, not_not]
    exact ⟨⟨200, some text⟩, hugePayload, rfl, hbody, hugePayload_overstepsAt⟩

end MellivorKernel
