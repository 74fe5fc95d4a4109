import Intake.Duration
/-!
# Retry — how often and how soon a failed call is made again

The wait doubles from one attempt to the next, up to a limit.  Only a fault that may pass is a reason to try again.
-/
namespace Intake

/-- How often and how soon a call that failed for a passing reason is made again. -/
structure RetryPolicy where
  maxRetries : Nat := 3
  base : Duration := .ofMillis 200
  limit : Duration := .ofSeconds 5
  deriving DecidableEq, Repr

namespace RetryPolicy

def once : RetryPolicy := { maxRetries := 0 }

/-- The most by which the first wait is multiplied. -/
def maxFactor : Nat := Nat.pow 2 32 - 1

/-- **The wait before a call is made again after attempt number `attempt`, counted from 0.** -/
def backoff (policy : RetryPolicy) (attempt : Nat) : Duration :=
  min (policy.base * (if attempt < 32 then Nat.pow 2 attempt else maxFactor)) policy.limit

variable {m : Type → Type} [Monad m] {ε α : Type}

/-- Makes a call, with so many retries left, after so many attempts. -/
def runFrom (policy : RetryPolicy) (sleep : Duration → m Unit) (isTransient : ε → Bool)
    (call : (attempt : Nat) → m (Except ε α)) : (left attempt : Nat) → m (Except ε α)
  | left, attempt => do
    match ← call attempt with
    | .ok a => return .ok a
    | .error fault =>
      match left with
      | 0 => return .error fault
      | left + 1 =>
        if isTransient fault then
          sleep (policy.backoff attempt)
          policy.runFrom sleep isTransient call left (attempt + 1)
        else return .error fault

/-- **Makes a call, and makes it again while it fails for a passing reason and retries are left.** -/
def run (policy : RetryPolicy) (sleep : Duration → m Unit) (isTransient : ε → Bool)
    (call : (attempt : Nat) → m (Except ε α)) : m (Except ε α) :=
  policy.runFrom sleep isTransient call policy.maxRetries 0

end RetryPolicy
end Intake
