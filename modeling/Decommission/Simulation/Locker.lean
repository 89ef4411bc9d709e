import Decommission.MachineLock
import Decommission.Simulation.Replay

/-! A locker whose answers are written down beforehand, with sessions that collect notes. -/
namespace Decommission.Simulation

open MachineLock

structure Session where
  machine : String
  mode : Mode
  notes : List String
  deriving DecidableEq, Repr

def Session.note (s : Session) (text : String) : Session := { s with notes := s.notes ++ [text] }

inductive LockAnswer where
  | granted
  | busy (message : String)
  | missing (machine : String)
  | other (failure : Failure)
  deriving DecidableEq, Repr

/-- The answer to an attempt at a lock on the machine. -/
def LockAnswer.toResult (machine : String) (mode : Mode) : LockAnswer → Except Refusal Session
  | .granted => .ok ⟨machine, mode, []⟩
  | .busy message => .error (.busy machine message)
  | .missing id => .error (.notFound id)
  | .other failure => .error (.other machine failure)

inductive LockEvent where
  | lock (machine : String) (mode : Mode)
  | apply (machine : String)
  | unlock (session : Session)
  deriving DecidableEq, Repr

structure LockState where
  answers : Replay LockAnswer
  events : List LockEvent

/-- The locker, with the work that is done under its locks. -/
def lockServer {α : Type} (work : Session → Session × Ending α) :
    Server (Locker Session α) LockState where
  serve
    | _, .lock machine mode, s =>
      ((0, s.answers.current.2.toResult machine mode),
        ⟨s.answers.advance, s.events ++ [.lock machine mode]⟩)
    | _, .apply session, s =>
      ((0, work session), { s with events := s.events ++ [.apply session.machine] })
    | _, .unlock session, s => ((0, ()), { s with events := s.events ++ [.unlock session] })
  draw := Server.noDraw

end Decommission.Simulation
