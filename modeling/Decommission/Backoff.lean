import Decommission.Duration

/-! Sequences of delays between attempts. -/
namespace Decommission

inductive Backoff where
  | fixed (delay : Duration)
  | exponential (initial max : Duration)
  deriving DecidableEq, Repr

/-- Twice the delay while it is below `max`, and never more than `max`. -/
def doubledUpTo (max delay : Duration) : Duration :=
  if delay < max then min delay.doubled max else max

namespace Backoff

/-- The delay after the first attempt. -/
def first : Backoff → Duration
  | .fixed delay => delay
  | .exponential initial _ => initial

/-- The delay after a delay of `d`. -/
def following : Backoff → Duration → Duration
  | .fixed delay, _ => delay
  | .exponential _ max, d => doubledUpTo max d

end Backoff

/-- How often something is attempted, and the delays between. -/
structure RetryPolicy where
  maxAttempts : Nat
  backoff : Backoff
  deriving DecidableEq, Repr

namespace RetryPolicy

def fixed (maxAttempts : Nat) (delay : Duration) : RetryPolicy := ⟨maxAttempts, .fixed delay⟩

def exponential (maxAttempts : Nat) (initial max : Duration) : RetryPolicy :=
  ⟨maxAttempts, .exponential initial max⟩

/-- One attempt. -/
def never : RetryPolicy := fixed 1 0

/-- At least one attempt is made. -/
def attempts (p : RetryPolicy) : Nat := max p.maxAttempts 1

end RetryPolicy

end Decommission
