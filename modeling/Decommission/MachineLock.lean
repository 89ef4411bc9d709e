import Decommission.Failure
import Decommission.Retry

/-!
Locks on machines. A lock is tried for under a retry policy, the work is done on the session that it
gives, and the lock is released however the work ends.
-/
namespace Decommission.MachineLock

inductive Mode where
  | write
  | shared
  deriving DecidableEq, Repr

def Mode.label : Mode → String
  | .write => "write"
  | .shared => "shared"

/-- Why a machine is not locked, or work under its lock not done. -/
inductive Refusal where
  | notFound (machine : String)
  /-- Another session holds the machine. -/
  | busy (machine message : String)
  /-- So many attempts have all met with a machine that is busy. -/
  | exhausted (machine : String) (mode : Mode) (attempts : Nat) (last : Refusal)
  | other (machine : String) (failure : Failure)
  deriving DecidableEq, Repr

namespace Refusal

def message : Refusal → String
  | notFound machine => "Could not find a registered machine named " ++ machine
  | busy machine text => "Machine " ++ machine ++ " is busy: " ++ text
  | exhausted machine mode attempts _ =>
    "Error locking " ++ machine ++ " with " ++ mode.label ++ " lock after " ++ toString attempts ++
      " attempts"
  | other machine _ => "Error locking " ++ machine

/-- All messages from the outermost inward. -/
def messages : Refusal → List String
  | e@(exhausted _ _ _ last) => e.message :: last.messages
  | e@(other _ failure) => e.message :: failure.messages
  | e => [e.message]

/-- Only a busy machine is worth another attempt. -/
def isRetryable : Refusal → Bool
  | busy .. => true
  | _ => false

end Refusal

/-- Why work under a lock was not done. -/
abbrev Error : Type := Refusal

/-- The very refusal of a locker, as the error of work under its lock. -/
@[match_pattern] abbrev Error.refused (refusal : Refusal) : Error := refusal

/-- How work on a session ended. -/
inductive Ending (α : Type) where
  | returned (value : α)
  | aborted (message : String)
  deriving DecidableEq, Repr

/-- The calls to a locker with sessions of type `σ`, and to the work that is done under its locks. -/
inductive Call (σ : Type) where
  | lock (machine : String) (mode : Mode)
  | apply (session : σ)
  | unlock (session : σ)

abbrev Answer (σ α : Type) : Call σ → Type
  | .lock .. => Except Refusal σ
  | .apply _ => σ × Ending α
  | .unlock _ => Unit

/-- The interface of a locker, and of work that gives values of type `α`. -/
abbrev Locker (σ α : Type) : Interface := ⟨Call σ, Answer σ α⟩

variable {σ α : Type}

/-- One attempt at the lock. -/
def acquire (machine : String) (mode : Mode) : Task (Locker σ α) (Except Refusal σ) :=
  Task.act (I := Locker σ α) (.lock machine mode)

/-- One attempt at the lock, which is counted. -/
def acquireCounted (machine : String) (mode : Mode) (attempts : Nat) :
    Task (Locker σ α) (Except Refusal σ × Nat) :=
  (acquire machine mode).bind fun answer => .done (answer, attempts + 1)

def release (session : σ) : Task (Locker σ α) Unit :=
  Task.act (I := Locker σ α) (.unlock session)

/-- Does the work on a locked session, and releases the lock. -/
def applyAndRelease (session : σ) : Task (Locker σ α) (Ending α) :=
  (Task.act (I := Locker σ α) (.apply session)).bind fun (answer : σ × Ending α) =>
    (release answer.1).bind fun _ => .done answer.2

/-- What follows the last attempt that is made, with their number. -/
def conclude (machine : String) (mode : Mode) :
    Except Refusal σ × Nat → Task (Locker σ α) (Except Error (Option (Ending α)))
  | (.ok session, _) => (applyAndRelease session).bind fun ending => .done (.ok (some ending))
  | (.error (.notFound _), _) => .done (.ok none)
  | (.error (.busy id text), attempts) =>
    .done (.error (.exhausted machine mode attempts (.busy id text)))
  | (.error refusal, _) => .done (.error (.refused refusal))

/-- Does the work under a lock. The result is `none` if there is no such machine. -/
def withLock (machine : String) (mode : Mode) (policy : RetryPolicy) :
    Task (Locker σ α) (Except Error (Option (Ending α))) :=
  (policy.runKeeping Refusal.isRetryable (acquireCounted machine mode) 0).bind
    (conclude machine mode)

/-- Locks the machine at the first attempt, changes the session, and releases the lock. -/
def holdOnce (machine : String) (mode : Mode) (change : σ → σ) :
    Task (Locker σ α) (Except Refusal Unit) :=
  (acquire machine mode).bind fun
    | .error refusal => .done (.error refusal)
    | .ok session => (release (change session)).bind fun _ => .done (.ok ())

end Decommission.MachineLock
