import Decommission.Duration
import Decommission.Program

/-!
Programs that take time. Beside the calls of an interface they may pause, and they may be asked to
stop. A call within a limit is given up when an alarm for the limit goes off or a stop is asked for;
every other call is carried out to its end.
-/
namespace Decommission

/-- How something under a limit ended. -/
inductive Cut (α : Type) where
  | finished (elapsed : Duration) (value : α)
  | expired
  | stopped

namespace Timed

inductive Call (I : Interface) where
  /-- Carries the call out. -/
  | act (call : I.Call)
  /-- Carries the call out, if it ends before an alarm for the limit goes off, or just then. -/
  | actWithin (limit : Duration) (call : I.Call)
  /-- Lets at least this time pass, or as much of it as a timer runs for. -/
  | pause (length : Duration)
  /-- Lets time pass like `pause`, and tells how much it was. A stop that is asked for meanwhile ends
  it, and the answer is `none`. -/
  | rest (length : Duration)
  /-- Tells whether a stop was asked for. -/
  | stopRequested
  /-- A length of time at random, less than `bound` unless that is zero. -/
  | jitter (bound : Duration)

abbrev Answer (I : Interface) : Call I → Type
  | .act c => I.Answer c
  | .actWithin _ c => Cut (I.Answer c)
  | .pause _ => Unit
  | .rest _ => Option Duration
  | .stopRequested => Bool
  | .jitter bound => Fin (max bound 1)

end Timed

/-- The interface `I` with time. -/
abbrev Timed (I : Interface) : Interface := ⟨Timed.Call I, Timed.Answer I⟩

/-- A program over the calls of `I` that takes time. -/
abbrev Task (I : Interface) (α : Type) : Type := Program (Timed I) α

namespace Task

variable {I J : Interface} {α β : Type}

def act (c : I.Call) : Task I (I.Answer c) := Program.call (I := Timed I) (.act c)

def pause (length : Duration) : Task I Unit := Program.call (I := Timed I) (.pause length)

def rest (length : Duration) : Task I (Option Duration) := Program.call (I := Timed I) (.rest length)

def stopRequested : Task I Bool := Program.call (I := Timed I) .stopRequested

def jitter (bound : Duration) : Task I Duration :=
  Program.bind (Program.call (I := Timed I) (.jitter bound)) fun extra => .done extra.val

/-- The task under a limit, of which `spent` is used up. What it was doing at the end of the limit,
or when a stop is asked for, is given up there. -/
def withinFrom (limit spent : Duration) : Task I α → Task I (Cut α)
  | .done a => .done (.finished spent a)
  | .stalled => .stalled
  | .ask (.act c) next => .ask (.actWithin (limit - spent) c) fun
    | .finished elapsed a => withinFrom limit (spent + elapsed) (next a)
    | .expired => .done .expired
    | .stopped => .done .stopped
  | .ask (.actWithin inner c) next => .ask (.actWithin (min inner (limit - spent)) c) fun
    | .finished elapsed a => withinFrom limit (spent + elapsed) (next (.finished elapsed a))
    | .expired =>
      if inner ≤ limit - spent then withinFrom limit (spent + inner) (next .expired)
      else .done .expired
    | .stopped => .done .stopped
  | .ask (.pause length) next => .ask (.rest (min length.onTimer (limit - spent))) fun
    | none => .done .stopped
    | some elapsed =>
      if length.onTimer ≤ limit - spent then withinFrom limit (spent + elapsed) (next ())
      else .done .expired
  | .ask (.rest length) next => .ask (.rest (min length.onTimer (limit - spent))) fun
    | none => .done .stopped
    | some elapsed =>
      if length.onTimer ≤ limit - spent then withinFrom limit (spent + elapsed) (next (some elapsed))
      else .done .expired
  | .ask .stopRequested next => .ask .stopRequested fun asked => withinFrom limit spent (next asked)
  | .ask (.jitter bound) next =>
    .ask (.jitter bound) fun extra => withinFrom limit spent (next extra)

/-- The task under a limit. -/
def within (limit : Duration) (task : Task I α) : Task I (Cut α) := withinFrom limit 0 task

/-- The task with each call carried out by a task over another interface. -/
def implement (carryOut : (c : J.Call) → Task I (J.Answer c)) : Task J α → Task I α
  | .done a => .done a
  | .stalled => .stalled
  | .ask (.act c) next => (carryOut c).bind fun a => implement carryOut (next a)
  | .ask (.actWithin limit c) next =>
    (within limit (carryOut c)).bind fun a => implement carryOut (next a)
  | .ask (.pause length) next => .ask (.pause length) fun a => implement carryOut (next a)
  | .ask (.rest length) next => .ask (.rest length) fun a => implement carryOut (next a)
  | .ask .stopRequested next => .ask .stopRequested fun a => implement carryOut (next a)
  | .ask (.jitter bound) next => .ask (.jitter bound) fun a => implement carryOut (next a)

end Task

end Decommission
