import Decommission.Backoff
import Decommission.Failure
import Decommission.Program.Timed
import Decommission.Settings

/-!
Waiting for something to settle. It is checked again and again until it has settled, a check fails,
the time is up or a stop is asked for. The first three delays between checks grow and have a random
part; all later ones have the greatest length.
-/
namespace Decommission

/-- Why waiting ended without a value. -/
inductive WaitError where
  | timeout (resource : String) (timeout : Duration) (attempts : Nat)
  | stopped (resource : String)
  | check (resource : String) (failure : Failure)
  deriving DecidableEq, Repr

namespace WaitError

def message : WaitError → String
  | timeout resource length attempts =>
    "Timeout waiting for " ++ resource ++ " after " ++ Duration.text length ++ " (" ++
      toString attempts ++ " attempts)"
  | stopped resource => "Wait for " ++ resource ++ " cancelled"
  | check resource _ => "Check for " ++ resource ++ " failed"

/-- All messages from the outermost inward. -/
def messages : WaitError → List String
  | e@(check _ failure) => e.message :: failure.messages
  | e => [e.message]

end WaitError

namespace WaitSettings

/-- More rounds than waiting can take: past the third, each rests for the greatest delay, for as long
as a timer runs, or up to the end. Where that delay is zero the clock may stand still, and the bound is
an arbitrary one. -/
def roundLimit (s : WaitSettings) : Nat :=
  if s.maxDelay = 0 then 1000000 else s.timeout / s.maxDelay.onTimer + 5

end WaitSettings

/-- The delays that are still to grow, and the one that comes next. -/
structure Growth where
  left : Nat
  delay : Duration
  deriving DecidableEq, Repr

/-- How far waiting has come: the rounds so far, the time left, and the delays to come. -/
structure Waiting where
  rounds : Nat
  remaining : Duration
  growth : Growth
  deriving DecidableEq, Repr

namespace Growth

variable {I : Interface}

/-- The first delays. -/
def start (s : WaitSettings) : Growth := ⟨3, s.initialDelay⟩

def next (s : WaitSettings) (g : Growth) : Growth := ⟨g.left - 1, doubledUpTo s.maxDelay g.delay⟩

/-- The next delay: a growing one with a random part of less than its own length, or the greatest. -/
def pick (s : WaitSettings) (g : Growth) : Task I Duration :=
  if g.left = 0 then .done s.maxDelay
  else (Task.jitter g.delay).bind fun extra => .done (g.delay + extra)

end Growth

namespace Waiting

variable {I : Interface} {α : Type}

def start (s : WaitSettings) : Waiting := ⟨0, s.timeout, .start s⟩

/-- The rounds from here on, at most `limit` of them. -/
def poll (s : WaitSettings) (resource : String) (check : Task I (Except Failure (Option α))) :
    Nat → Waiting → Task I (Except WaitError α)
  | 0, _ => .stalled
  | limit + 1, w => Task.stopRequested.bind fun asked =>
    if asked then .done (.error (.stopped resource))
    else if w.remaining = 0 then .done (.error (.timeout resource s.timeout (w.rounds + 1)))
    else (Task.within w.remaining check).bind fun
      | .expired => .done (.error (.timeout resource s.timeout (w.rounds + 1)))
      | .stopped => .done (.error (.stopped resource))
      | .finished _ (.ok (some a)) => .done (.ok a)
      | .finished _ (.error failure) => .done (.error (.check resource failure))
      | .finished elapsed (.ok none) => (w.growth.pick s).bind fun wish =>
        let left := w.remaining - elapsed
        (Task.rest (min wish left)).bind fun
          | none => .done (.error (.stopped resource))
          | some rested =>
            poll s resource check limit ⟨w.rounds + 1, left - rested, w.growth.next s⟩

end Waiting

/-- Waits until `check` gives a value. -/
def waitFor {I : Interface} {α : Type} (s : WaitSettings) (resource : String)
    (check : Task I (Except Failure (Option α))) : Task I (Except WaitError α) :=
  Waiting.poll s resource check s.roundLimit (.start s)

end Decommission
