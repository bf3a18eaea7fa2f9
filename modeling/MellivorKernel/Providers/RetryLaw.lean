import MellivorKernel.Foundation.Retry
import MellivorKernel.Providers.EmbeddingBoundary

/-!
# The retry law

`_post` of both HTTP adapters with the posts it makes. What `client.post` comes
to is given attempt by attempt, and the exceptions it raises are of the classes
of `httpx`. The headers, the same for all attempts, are left out.
-/

namespace MellivorKernel

open Python Foundation

def transportErrorClass : ExnClass :=
  .foreign (lit "TransportError")
    (.foreign (lit "RequestError") (.foreign (lit "HTTPError") .exception))

def timeoutExceptionClass : ExnClass := .foreign (lit "TimeoutException") transportErrorClass

/-- What the attempts to post come to, one after the other without end: a
response, a timeout or another transport error. -/
structure Transport where
  answers : Nat → Except Exn Response
  raises : ∀ attempt exc, answers attempt = .error exc →
    exc.isA timeoutExceptionClass = true ∨ exc.isA transportErrorClass = true

structure PostCall where
  endpoint : Str
  json : Mapping

/-- The `except` clauses around a post: what an attempt raises of what was
raised to it, if it is not to be passed over. -/
def exceptClauses (timedOut unreachable : Exn) (attempts attempt : Nat) (exc : Exn) : Option Exn :=
  if exc.isA timeoutExceptionClass then
    if attempt + 1 = attempts then some timedOut else none
  else if exc.isA transportErrorClass then
    if attempt + 1 = attempts then some unreachable else none
  else some exc

def postRetrying (call : PostCall) (timedOut unreachable exhausted : Exn) (maxRetries : Nat)
    (transport : Transport) : Program Exn PostCall Response :=
  let attempts := maxRetries + 1
  Program.retry call transport.answers (exceptClauses timedOut unreachable attempts) exhausted
    attempts 0

namespace LocalProvider

def timedOut (attempts : Nat) : Exn :=
  .raised .localTimeoutError
    (lit "Local inference endpoint timed out after " ++ decimal attempts ++ lit " attempt(s).")

def unreachable (attempts : Nat) : Exn :=
  .raised .localConnectionError (lit "Could not reach local inference endpoint after " ++
    decimal attempts ++ lit " attempt(s).")

def postCalls (provider : LocalProvider) (transport : Transport) (payload : Mapping) :
    Program Exn PostCall Response :=
  postRetrying ⟨provider.endpoint, payload⟩ (timedOut (provider.maxRetries + 1))
    (unreachable (provider.maxRetries + 1))
    (.raised .assertionError (lit "bounded local-provider retry loop exhausted unexpectedly"))
    provider.maxRetries transport

end LocalProvider

namespace OpenAICompatibleEmbeddingProvider

def timedOut (attempts : Nat) : Exn :=
  embeddingError (lit "Embedding endpoint timed out after " ++ decimal attempts ++
    lit " attempt(s).")

def unreachable (attempts : Nat) : Exn :=
  embeddingError (lit "Could not reach embedding endpoint after " ++ decimal attempts ++
    lit " attempt(s).")

def postCalls (provider : OpenAICompatibleEmbeddingProvider) (transport : Transport)
    (payload : Mapping) : Program Exn PostCall Response :=
  postRetrying ⟨provider.endpoint, payload⟩ (timedOut (provider.maxRetries + 1))
    (unreachable (provider.maxRetries + 1))
    (.raised .assertionError (lit "bounded embedding retry loop exhausted unexpectedly"))
    provider.maxRetries transport

end OpenAICompatibleEmbeddingProvider

-- ---------------------------------------------------------------------------
-- The law
-- ---------------------------------------------------------------------------

def Transport.Responds (transport : Transport) (attempt : Nat) : Prop :=
  ∃ response, transport.answers attempt = .ok response

def Transport.TimesOut (transport : Transport) (attempt : Nat) : Prop :=
  ∃ exc, transport.answers attempt = .error exc ∧ exc.isA timeoutExceptionClass = true

/-- The position of the first response among the attempts, counted from one. -/
noncomputable def Transport.firstResponse (transport : Transport) : ℕ∞ :=
  firstTime transport.Responds

/-- A run posts up to the first response, but no more than once and once for
each retry. It returns that response, or raises what its last attempt came
to. -/
structure RetryLaw (transport : Transport) (maxRetries : Nat) (call : PostCall)
    (timedOut unreachable : Exn) (log : List PostCall)
    (run : Except Exn Response × List PostCall) : Prop where
  posts : ∃ made : Nat, run.2 = log ++ List.replicate made call ∧
    (made : ℕ∞) = min transport.firstResponse (maxRetries + 1)
  returns : transport.firstResponse ≤ maxRetries + 1 → ∃ (attempt : Nat) (response : Response),
    transport.firstResponse = attempt + 1 ∧ transport.answers attempt = .ok response ∧
      run.1 = .ok response
  timesOut : maxRetries + 1 < transport.firstResponse → transport.TimesOut maxRetries →
    run.1 = .error timedOut
  disconnects : maxRetries + 1 < transport.firstResponse → ¬ transport.TimesOut maxRetries →
    run.1 = .error unreachable
  notExhausted : ∀ exc, run.1 = .error exc → exc.isA .assertionError = false

-- ---------------------------------------------------------------------------
-- Attempts
-- ---------------------------------------------------------------------------

section
variable {transport : Transport} {attempts attempt : Nat} {timedOut unreachable exhausted exc : Exn}

/-- A timeout is a transport error: the clauses overlap. -/
theorem isA_transportError_of_timeout (h : exc.isA timeoutExceptionClass = true) :
    exc.isA transportErrorClass = true := by
  have hclass (c : ExnClass) : c.isA timeoutExceptionClass = true →
      c.isA transportErrorClass = true := by
    induction c with
    | foreign name base ih =>
      simp only [ExnClass.isA_foreign, Bool.or_eq_true, decide_eq_true_eq]
      rintro (heq | hbase)
      · obtain ⟨-, rfl⟩ := ExnClass.foreign.inj heq
        exact .inr (by decide)
      · exact .inr (ih hbase)
    | _ => decide
  cases exc with
  | raised cls message => exact hclass cls h
  | group message members => cases h

theorem Transport.isA_transportError (h : transport.answers attempt = .error exc) :
    exc.isA transportErrorClass = true :=
  (transport.raises attempt exc h).elim isA_transportError_of_timeout id

theorem exceptClauses_passed (h : exc.isA transportErrorClass = true)
    (hmore : attempt + 1 ≠ attempts) :
    exceptClauses timedOut unreachable attempts attempt exc = none := by
  simp [exceptClauses, h, hmore]

theorem exceptClauses_last (h : exc.isA transportErrorClass = true) :
    exceptClauses timedOut unreachable (attempt + 1) attempt exc =
      some (if exc.isA timeoutExceptionClass then timedOut else unreachable) := by
  simp only [exceptClauses, h, if_true]
  split <;> rfl

theorem Transport.exists_error (h : ¬ transport.Responds attempt) :
    ∃ exc, transport.answers attempt = .error exc ∧ exc.isA transportErrorClass = true := by
  cases hanswer : transport.answers attempt with
  | ok response => exact absurd ⟨response, hanswer⟩ h
  | error exc => exact ⟨exc, rfl, Transport.isA_transportError hanswer⟩

-- ---------------------------------------------------------------------------
-- Runs
-- ---------------------------------------------------------------------------

variable {call : PostCall} {maxRetries : Nat} {log : List PostCall}

/-- Attempts without a response before the last are posts that are passed
over. -/
theorem exec_postRetrying (hle : attempt ≤ maxRetries)
    (h : ∀ earlier < attempt, ¬ transport.Responds earlier) :
    (postRetrying call timedOut unreachable exhausted maxRetries transport).exec log =
      (Program.retry call transport.answers (exceptClauses timedOut unreachable (maxRetries + 1))
        exhausted (maxRetries - attempt + 1) attempt).exec
          (log ++ List.replicate attempt call) := by
  have hpassed : ∀ i < attempt, ∃ exc, transport.answers (0 + i) = .error exc ∧
      exceptClauses timedOut unreachable (maxRetries + 1) (0 + i) exc = none := by
    intro i hi
    rw [Nat.zero_add]
    obtain ⟨exc, hanswer, hexc⟩ := Transport.exists_error (h i hi)
    exact ⟨exc, hanswer, exceptClauses_passed hexc (by omega)⟩
  have hsplit : maxRetries + 1 = attempt + (maxRetries - attempt + 1) := by omega
  rw [postRetrying]
  nth_rewrite 2 [hsplit]
  rw [Program.exec_retry_add hpassed, Nat.zero_add]

theorem exec_postRetrying_ok {response : Response} (hle : attempt ≤ maxRetries)
    (h : ∀ earlier < attempt, ¬ transport.Responds earlier)
    (hanswer : transport.answers attempt = .ok response) :
    (postRetrying call timedOut unreachable exhausted maxRetries transport).exec log =
      (.ok response, log ++ List.replicate (attempt + 1) call) := by
  rw [exec_postRetrying hle h, Program.exec_retry_ok hanswer, List.append_assoc,
    List.replicate_succ']

theorem exec_postRetrying_error (h : ∀ attempt ≤ maxRetries, ¬ transport.Responds attempt)
    (hanswer : transport.answers maxRetries = .error exc) :
    (postRetrying call timedOut unreachable exhausted maxRetries transport).exec log =
      (.error (if exc.isA timeoutExceptionClass then timedOut else unreachable),
        log ++ List.replicate (maxRetries + 1) call) := by
  have hlast : exceptClauses timedOut unreachable (maxRetries + 1) maxRetries exc =
      some (if exc.isA timeoutExceptionClass then timedOut else unreachable) :=
    exceptClauses_last (Transport.isA_transportError hanswer)
  rw [exec_postRetrying le_rfl fun earlier hlt => h earlier hlt.le,
    Program.exec_retry_refused hanswer hlast, List.append_assoc, List.replicate_succ']

theorem retryLaw_of_response {response : Response} (hle : attempt ≤ maxRetries)
    (hbefore : ∀ earlier < attempt, ¬ transport.Responds earlier)
    (hanswer : transport.answers attempt = .ok response) :
    RetryLaw transport maxRetries call timedOut unreachable log
      ((postRetrying call timedOut unreachable exhausted maxRetries transport).exec log) := by
  have hfirst : transport.firstResponse = ((attempt + 1 : ℕ) : ℕ∞) :=
    firstTime_eq ⟨response, hanswer⟩ hbefore
  have hintime : transport.firstResponse ≤ maxRetries + 1 := by
    rw [hfirst]
    exact_mod_cast Nat.succ_le_succ hle
  rw [exec_postRetrying_ok hle hbefore hanswer]
  refine ⟨⟨_, rfl, ?_⟩, fun _ => ⟨attempt, response, ?_, hanswer, rfl⟩, fun hlt => ?_, fun hlt => ?_,
    ?_⟩
  · rw [min_eq_left hintime, hfirst]
  · rw [hfirst]
    push_cast
    rfl
  · exact absurd hintime (not_le.mpr hlt)
  · exact absurd hintime (not_le.mpr hlt)
  · intro exc hexc
    cases hexc

theorem retryLaw_of_none (h : ∀ attempt ≤ maxRetries, ¬ transport.Responds attempt)
    (htimedOut : timedOut.isA .assertionError = false)
    (hunreachable : unreachable.isA .assertionError = false) :
    RetryLaw transport maxRetries call timedOut unreachable log
      ((postRetrying call timedOut unreachable exhausted maxRetries transport).exec log) := by
  have hfirst : (maxRetries + 1 : ℕ∞) < transport.firstResponse := by
    exact_mod_cast lt_firstTime_iff.mpr fun i hi => h i (Nat.lt_succ_iff.mp hi)
  obtain ⟨exc, hanswer, -⟩ := Transport.exists_error (h maxRetries le_rfl)
  rw [exec_postRetrying_error h hanswer]
  refine ⟨⟨maxRetries + 1, rfl, ?_⟩, fun hle => absurd hle (not_le.mpr hfirst), ?_, ?_, ?_⟩
  · rw [min_eq_right hfirst.le]
    push_cast
    rfl
  · rintro - ⟨exc', hanswer', htimeout⟩
    cases hanswer.symm.trans hanswer'
    exact congrArg Except.error (if_pos htimeout)
  · intro _ htimeout
    exact congrArg Except.error (if_neg fun hexc => htimeout ⟨exc, hanswer, hexc⟩)
  · intro exc' hexc
    cases hexc
    split
    · exact htimedOut
    · exact hunreachable

theorem postRetrying_law (htimedOut : timedOut.isA .assertionError = false)
    (hunreachable : unreachable.isA .assertionError = false) :
    RetryLaw transport maxRetries call timedOut unreachable log
      ((postRetrying call timedOut unreachable exhausted maxRetries transport).exec log) := by
  classical
  by_cases h : ∃ attempt ≤ maxRetries, transport.Responds attempt
  · obtain ⟨attempt, hle, hresponds⟩ := h
    have hex : ∃ attempt, transport.Responds attempt := ⟨attempt, hresponds⟩
    obtain ⟨response, hanswer⟩ := Nat.find_spec hex
    have hleast : Nat.find hex ≤ maxRetries := (Nat.find_min' hex hresponds).trans hle
    exact retryLaw_of_response hleast (fun _ => Nat.find_min hex) hanswer
  · push Not at h
    exact retryLaw_of_none h htimedOut hunreachable

end

-- ---------------------------------------------------------------------------
-- Without the posts
-- ---------------------------------------------------------------------------

def Transport.outcome (transport : Transport) (attempt : Nat) : TransportOutcome :=
  match transport.answers attempt with
  | .ok response => .response response
  | .error exc => if exc.isA timeoutExceptionClass then .timeoutException else .transportError

theorem retry_refines {transport : Transport} {call : PostCall} {timedOut unreachable exhausted : Exn}
    {attempts : Nat} (left attempt : Nat) (log : List PostCall) :
    ((Program.retry call transport.answers (exceptClauses timedOut unreachable attempts) exhausted
      left attempt).exec log).1 =
        retryLoop timedOut unreachable exhausted attempts transport.outcome left attempt := by
  induction left generalizing attempt log with
  | zero => rfl
  | succ left ih =>
    rw [retryLoop, Transport.outcome]
    cases hanswer : transport.answers attempt with
    | ok response => rw [Program.exec_retry_ok hanswer]
    | error exc =>
      have hexc := Transport.isA_transportError hanswer
      by_cases hlast : attempt + 1 = attempts
      · subst hlast
        rw [Program.exec_retry_refused hanswer (exceptClauses_last hexc)]
        by_cases htimeout : exc.isA timeoutExceptionClass = true <;> simp [htimeout]
      · rw [Program.exec_retry_passed hanswer (exceptClauses_passed hexc hlast), ih]
        by_cases htimeout : exc.isA timeoutExceptionClass = true <;> simp [htimeout, hlast]

theorem LocalProvider.postCalls_refines (provider : LocalProvider) (transport : Transport)
    (payload : Mapping) (log : List PostCall) :
    ((provider.postCalls transport payload).exec log).1 =
      provider.post (fun _ _ => transport.outcome) payload :=
  (retry_refines _ _ _).trans (postFrom_eq_retryLoop _ _ _ _).symm

theorem OpenAICompatibleEmbeddingProvider.postCalls_refines
    (provider : OpenAICompatibleEmbeddingProvider) (transport : Transport) (payload : Mapping)
    (log : List PostCall) : ((provider.postCalls transport payload).exec log).1 =
      provider.post (fun _ _ => transport.outcome) payload :=
  (retry_refines _ _ _).trans (Embeddings.postFrom_eq_retryLoop _ _ _ _).symm

-- ---------------------------------------------------------------------------
-- Both adapters
-- ---------------------------------------------------------------------------

/-- Both adapters retry by the law, whatever the transport comes to. -/
theorem bounded_retry_law (transport : Transport) (payload : Mapping) (log : List PostCall) :
    (∀ provider : LocalProvider, RetryLaw transport provider.maxRetries ⟨provider.endpoint, payload⟩
      (LocalProvider.timedOut (provider.maxRetries + 1))
      (LocalProvider.unreachable (provider.maxRetries + 1)) log
      ((provider.postCalls transport payload).exec log)) ∧
    ∀ provider : OpenAICompatibleEmbeddingProvider,
      RetryLaw transport provider.maxRetries ⟨provider.endpoint, payload⟩
        (OpenAICompatibleEmbeddingProvider.timedOut (provider.maxRetries + 1))
        (OpenAICompatibleEmbeddingProvider.unreachable (provider.maxRetries + 1)) log
        ((provider.postCalls transport payload).exec log) := by
  have htimeout : ExnClass.isA .localTimeoutError .assertionError = false := by decide
  have hconnection : ExnClass.isA .localConnectionError .assertionError = false := by decide
  have hembedding : ExnClass.isA .embeddingError .assertionError = false := by decide
  exact ⟨fun provider => postRetrying_law htimeout hconnection,
    fun provider => postRetrying_law hembedding hembedding⟩

end MellivorKernel
