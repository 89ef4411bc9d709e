import Decommission.Failure
import Decommission.Program

/-! The calls of a blob service. A store is what opening one gives, of a type `σ` of the service. -/
namespace Decommission.Blob

inductive Call (σ : Type) where
  | openStore (account key : String)
  /-- Deletes a container, and tells whether it existed. -/
  | deleteContainer (store : σ) (container : String)
  /-- Tells whether the account holds images captured by users. -/
  | customImageExists (store : σ)
  | close (store : σ)
  deriving DecidableEq, Repr

/-- What each call answers; only closing a store cannot fail. -/
abbrev Answer (σ : Type) : Call σ → Type
  | .openStore .. => Except Failure σ
  | .deleteContainer .. => Except Failure Bool
  | .customImageExists _ => Except Failure Bool
  | .close _ => Unit

/-- The interface of a blob service with stores of type `σ`. -/
abbrev Service (σ : Type) : Interface := ⟨Call σ, Answer σ⟩

end Decommission.Blob
