import MellivorKernel.Providers.Local
import MellivorKernel.Python.JsonErrors

/-!
# What the transport comes to

Both HTTP adapters send a request in the same bounded loop, each with errors of
its own. The loop returns the first response among its attempts, or raises at
the last attempt; it is never exhausted.
-/

namespace MellivorKernel

open Python Foundation

def received (outcomes : Nat → TransportOutcome) : (left attempt : Nat) → Option Response
  | 0, _ => none
  | left + 1, attempt =>
    match outcomes attempt with
    | .response response => some response
    | _ => received outcomes left (attempt + 1)

/-- The loop with the errors of an adapter. -/
def retryLoop (timedOut unreachable exhausted : Exn) (attempts : Nat)
    (outcomes : Nat → TransportOutcome) : (left attempt : Nat) → Except Exn Response
  | 0, _ => .error exhausted
  | left + 1, attempt =>
    match outcomes attempt with
    | .response response => .ok response
    | .timeoutException =>
      if attempt + 1 = attempts then .error timedOut
      else retryLoop timedOut unreachable exhausted attempts outcomes left (attempt + 1)
    | .transportError =>
      if attempt + 1 = attempts then .error unreachable
      else retryLoop timedOut unreachable exhausted attempts outcomes left (attempt + 1)

theorem retryLoop_yields {P : Exn → Prop} {timedOut unreachable exhausted : Exn} {attempts : Nat}
    (outcomes : Nat → TransportOutcome) (htimedOut : P timedOut) (hunreachable : P unreachable)
    {left attempt : Nat} (h : attempt + (left + 1) = attempts) :
    Yields P (retryLoop timedOut unreachable exhausted attempts outcomes (left + 1) attempt)
      (received outcomes (left + 1) attempt) := by
  induction left generalizing attempt with
  | zero =>
    rw [retryLoop, received]
    cases outcomes attempt with
    | response response => exact .returned response
    | timeoutException => simpa only [if_pos h] using .raised htimedOut
    | transportError => simpa only [if_pos h] using .raised hunreachable
  | succ left ih =>
    have hnext : attempt + 1 ≠ attempts := by omega
    rw [retryLoop, received]
    cases outcomes attempt with
    | response response => exact .returned response
    | timeoutException | transportError =>
      simp only [if_neg hnext]
      exact ih (by omega)

theorem postFrom_eq_retryLoop (attempts : Nat) (outcomes : Nat → TransportOutcome)
    (left attempt : Nat) : postFrom attempts outcomes left attempt =
      retryLoop (.raised .localTimeoutError (lit "Local inference endpoint timed out after " ++
          decimal attempts ++ lit " attempt(s)."))
        (.raised .localConnectionError (lit "Could not reach local inference endpoint after " ++
          decimal attempts ++ lit " attempt(s)."))
        (.raised .assertionError (lit "bounded local-provider retry loop exhausted unexpectedly"))
        attempts outcomes left attempt := by
  induction left generalizing attempt with
  | zero => rfl
  | succ left ih =>
    rw [postFrom, retryLoop]
    cases outcomes attempt <;> simp only [ih]

theorem json_raises {response : Response} {exc : Exn} (h : response.json = .error exc) :
    exc.isA .valueError = true := by
  unfold Response.json at h
  split at h
  · exact loads_raises h
  · cases h
    exact (by decide : ExnClass.isA (.foreign (lit "UnicodeDecodeError") .valueError) .valueError =
      true)

end MellivorKernel
