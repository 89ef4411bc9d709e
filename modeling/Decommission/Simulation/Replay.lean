import Decommission.Program.Server

/-! Attempts whose outcomes are written down beforehand. -/
namespace Decommission.Simulation

/-- One kind of call, with answers of type `α`. -/
abbrev Attempt (α : Type) : Interface := ⟨Unit, fun _ => α⟩

/-- Outcomes, each after a timer of its own; the last one repeats. -/
structure Replay (α : Type) where
  current : Duration × α
  later : List (Duration × α)

/-- The outcomes that are left, and the times at which attempts started. -/
structure Attempts (α : Type) where
  replay : Replay α
  startedAt : List Duration

namespace Replay

variable {α : Type}

/-- The outcomes after the current one. -/
def advance : Replay α → Replay α
  | ⟨current, []⟩ => ⟨current, []⟩
  | ⟨_, next :: later⟩ => ⟨next, later⟩

def server : Server (Attempt α) (Attempts α) where
  serve now _ s :=
    let (length, outcome) := s.replay.current
    ((length.onTimer, outcome), ⟨s.replay.advance, s.startedAt ++ [now]⟩)
  draw := Server.noDraw

end Replay

/-- One attempt. -/
def attempt {α : Type} : Task (Attempt α) α := Task.act (I := Attempt α) ()

end Decommission.Simulation
