import Decommission.Backoff
import Decommission.Program.Timed

/-! Attempting something several times. -/
namespace Decommission.RetryPolicy

variable {I : Interface} {ε α : Type}

/-- Attempts once, and as long as an error may be retried, up to `more` times more. The next pause
has the length `delay`. -/
def runFrom (backoff : Backoff) (retryable : ε → Bool) (attempt : Task I (Except ε α)) :
    Nat → Duration → Task I (Except ε α)
  | 0, _ => attempt
  | more + 1, delay => attempt.bind fun
    | .ok a => .done (.ok a)
    | .error e =>
      if retryable e then
        (Task.pause delay).bind fun _ =>
          runFrom backoff retryable attempt more (backoff.following delay)
      else .done (.error e)

/-- Attempts until a success, an error that may not be retried, or the last attempt. -/
def run (policy : RetryPolicy) (retryable : ε → Bool) (attempt : Task I (Except ε α)) :
    Task I (Except ε α) :=
  runFrom policy.backoff retryable attempt (policy.attempts - 1) policy.backoff.first

/-- As `runFrom`, of an attempt that keeps a state from one time to the next. -/
def runKeepingFrom {τ : Type} (backoff : Backoff) (retryable : ε → Bool)
    (attempt : τ → Task I (Except ε α × τ)) : Nat → Duration → τ → Task I (Except ε α × τ)
  | 0, _, t => attempt t
  | more + 1, delay, t => (attempt t).bind fun
    | (.ok a, t) => .done (.ok a, t)
    | (.error e, t) =>
      if retryable e then
        (Task.pause delay).bind fun _ =>
          runKeepingFrom backoff retryable attempt more (backoff.following delay) t
      else .done (.error e, t)

/-- As `run`, of an attempt that keeps a state from one time to the next. -/
def runKeeping {τ : Type} (policy : RetryPolicy) (retryable : ε → Bool)
    (attempt : τ → Task I (Except ε α × τ)) (t : τ) : Task I (Except ε α × τ) :=
  runKeepingFrom policy.backoff retryable attempt (policy.attempts - 1) policy.backoff.first t

end Decommission.RetryPolicy
