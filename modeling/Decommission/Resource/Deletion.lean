/-! How a deletion goes on after it was asked for. -/
namespace Decommission

/-- The state of an operation that the control plane carries out on its own time. -/
inductive OperationStatus where
  | inProgress
  | succeeded
  | failed
  deriving DecidableEq, Repr

/-- An operation in a terminal state does not change any more. -/
def OperationStatus.isTerminal : OperationStatus → Bool
  | .inProgress => false
  | _ => true

/-- The first answer to a deletion. A pending one is followed at the address of its operation. -/
inductive Deletion where
  | alreadyAbsent
  | deleted
  | pending (operation : String)
  deriving DecidableEq, Repr

end Decommission
