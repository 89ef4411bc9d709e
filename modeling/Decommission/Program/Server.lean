import Decommission.Program.Timed

/-! Running a task against surroundings with a state, on a clock that only the run moves. -/
namespace Decommission

/-- What answers the calls of an interface: each call is given the time, and takes some itself. -/
structure Server (I : Interface) (σ : Type) where
  serve : Duration → (c : I.Call) → σ → (Duration × I.Answer c) × σ
  /-- The random lengths of time. -/
  draw : (bound : Duration) → σ → Fin (max bound 1) × σ

namespace Server

/-- Random lengths that are all zero. -/
def noDraw {σ : Type} (bound : Duration) (state : σ) : Fin (max bound 1) × σ :=
  (⟨0, by omega⟩, state)

end Server

/-- When a task is asked to stop: never, before it starts, or at a time. -/
inductive Stop where
  | never
  | beforehand
  | timed (moment : Duration)
  deriving DecidableEq, Repr

/-- The stop that a timer set to `length` asks for. -/
def Stop.after (length : Duration) : Stop := .timed length.onTimer

/-- The time, the stop, the length that timers end on multiples of, and the state of the surroundings.
Timers are exact where `tick` is 0. -/
structure World (σ : Type) where
  now : Duration
  stop : Stop
  tick : Duration
  state : σ

namespace World

variable {σ : Type}

/-- Whether the task has been asked to stop by `moment`. What happens at the very time of the stop
comes before it. -/
def stopsBefore (w : World σ) (moment : Duration) : Bool :=
  match w.stop with
  | .never => false
  | .beforehand => true
  | .timed t => t < moment

/-- Whether a stop comes before `length` has passed. -/
def stopsWithin (w : World σ) (length : Duration) : Bool := w.stopsBefore (w.now + length)

def isStopped (w : World σ) : Bool := w.stopsBefore w.now

/-- The world when a stop is asked for. -/
def atStop (w : World σ) : World σ :=
  match w.stop with
  | .timed t => { w with now := max w.now t }
  | _ => w

def after (w : World σ) (length : Duration) : World σ := { w with now := w.now + length }

/-- How long it takes until an alarm for `length` from now goes off: also the time up to the next
tick. -/
def alarmLength (w : World σ) (length : Duration) : Duration :=
  length + (w.tick - (w.now + length) % w.tick) % w.tick

/-- How long a pause of `length` takes. -/
def pauseLength (w : World σ) (length : Duration) : Duration := w.alarmLength length.onTimer

end World

namespace Task

variable {I : Interface} {σ α : Type}

/-- The result of the task, and the world afterwards. There is no result if the task stalls. -/
def run (server : Server I σ) : Task I α → World σ → Option α × World σ
  | .done a, w => (some a, w)
  | .stalled, w => (none, w)
  | .ask (.act c) next, w =>
    let ((elapsed, a), state) := server.serve w.now c w.state
    run server (next a) ({ w with state }.after elapsed)
  | .ask (.actWithin limit c) next, w =>
    let ((elapsed, a), state) := server.serve w.now c w.state
    let w := { w with state }
    let cut := w.alarmLength limit
    if w.stopsWithin (min elapsed cut) then run server (next .stopped) w.atStop
    else if elapsed ≤ cut then run server (next (.finished elapsed a)) (w.after elapsed)
    else run server (next .expired) (w.after cut)
  | .ask (.pause length) next, w => run server (next ()) (w.after (w.pauseLength length))
  | .ask (.rest length) next, w =>
    let elapsed := w.pauseLength length
    if w.stopsWithin elapsed then run server (next none) w.atStop
    else run server (next (some elapsed)) (w.after elapsed)
  | .ask .stopRequested next, w => run server (next w.isStopped) w
  | .ask (.jitter bound) next, w =>
    let (extra, state) := server.draw bound w.state
    run server (next extra) { w with state }

end Task

end Decommission
