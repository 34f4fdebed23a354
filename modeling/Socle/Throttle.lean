import Mathlib.Algebra.Order.Ring.Rat
import Socle.Procedures
import Socle.TokenExchange

/-!
The envelope of every provider call: a budget of attempts counted in windows of a
minute, retries after 429 and 5xx, and the waits between them.  The procedure
awaits the commands of the counter, the waits and the attempts themselves.
-/

namespace Socle.Throttle

open Socle.Procedures
open Socle.TokenExchange

/-- A number of seconds, as a Python float. -/
inductive Seconds where
  | finite (seconds : ℚ)
  | infinite
  | negInfinite
  | nan
  deriving DecidableEq

/-- What leaves `run_with_backoff`.  `asleep` is no exception: the call waits for
ever. -/
inductive Raised where
  | providerResponse (statusCode : Nat) (retryAfter : Option Seconds)
  | providerUnavailable (message : String)
  | valueError
  | asleep
  | other (failure : Failure)
  deriving DecidableEq

/-- The awaits; `α` is what an attempt brings back. -/
inductive Request where
  | incr
  | expire
  | ttl
  | sleep (seconds : ℚ)
  | jitter
  | attempt

@[reducible] def Answer (α : Type) : Request → Type
  | .incr => Nat
  | .expire => Unit
  | .ttl => Int
  | .sleep _ => Unit
  | .jitter => ℚ
  | .attempt => α

abbrev Throttling (α : Type) : Interface := ⟨Request, Answer α⟩

abbrev Act (α β : Type) := Proc (Throttling α) Raised β

def ask {α : Type} (r : Request) : Act α (Answer α r) := request (I := Throttling α) r

/-- `WINDOW_SECONDS`. -/
def windowSeconds : ℚ := 60

/-- `MAX_ATTEMPTS`. -/
def maxAttempts : Nat := 5

section Envelope

variable {α β : Type}

/-- `_budget_delay`: `none` when a slot is free, else the wait. -/
def budgetDelay (requestsPerMinute : Nat) : Act α (Option ℚ) := do
  let count ← ask .incr
  if count = 1 then
    ask .expire
  if requestsPerMinute < count then
    let ttl ← ask .ttl
    return some ((max ttl 1 : Int) : ℚ)
  return none

/-- `asyncio.sleep`: a wait that is not positive ends at once; a number that is
none is refused. -/
def sleep : Seconds → Act α Unit
  | .finite seconds => ask (.sleep seconds)
  | .negInfinite => ask (.sleep 0)
  | .infinite => throw .asleep
  | .nan => throw .valueError

/-- `_backoff_delay`. -/
def backoffDelay (attemptNo : Nat) : Act α ℚ := do
  return 2 ^ attemptNo / 2 + (← ask .jitter)

/-- The wait before an attempt of a caller that is over budget. -/
def awaitBudget (requestsPerMinute : Nat) : Act α Unit := do
  match ← budgetDelay requestsPerMinute with
  | some wait => sleep (.finite wait)
  | none => return ()

/-- The wait after a failure that can be retried. -/
def awaitRetry (retryAfter : Option Seconds) (attemptNo : Nat) : Act α Unit := do
  match retryAfter with
  | some seconds => sleep seconds
  | none => sleep (.finite (← backoffDelay attemptNo))

/-- The `try` of the loop: a response error that can be retried is waited out
before the rest of the loop, every other outcome ends the call. -/
def settle (attemptNo : Nat) (rest : Act α β) : Except Raised β → Act α β
  | .ok result => return result
  | .error (.providerResponse statusCode retryAfter) =>
      if retryable statusCode then do
        awaitRetry retryAfter attemptNo
        rest
      else throw (.providerResponse statusCode retryAfter)
  | .error e => throw e

/-- The loop of `run_with_backoff` from attempt `attemptNo` on, with `remaining`
attempts to go.  `convert` is what the attempt makes of its answer. -/
def retryLoop (provider : ConnectorProvider) (requestsPerMinute : Nat)
    (convert : α → Except Raised β) (attemptNo : Nat) : Nat → Act α β
  | 0 => throw (.providerUnavailable
      s!"Provider {provider.value} indisponible après {maxAttempts} tentatives.")
  | remaining + 1 => do
      awaitBudget requestsPerMinute
      let answer ← ask .attempt
      settle attemptNo (retryLoop provider requestsPerMinute convert (attemptNo + 1) remaining)
        (convert answer)

/-- `run_with_backoff`. -/
def runWithBackoff (provider : ConnectorProvider) (requestsPerMinute : Nat)
    (convert : α → Except Raised β) : Act α β :=
  retryLoop provider requestsPerMinute convert 0 maxAttempts

end Envelope

end Socle.Throttle
