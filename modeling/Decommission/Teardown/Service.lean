import Decommission.Blob.Store
import Decommission.ControlPlane.Call

/-! What a teardown calls: a control plane, and a blob service with stores of type `σ`. -/
namespace Decommission.Teardown

inductive Call (σ : Type) where
  | plane (call : ControlPlane.Call)
  | blob (call : Blob.Call σ)
  deriving DecidableEq, Repr

abbrev Answer (σ : Type) : Call σ → Type
  | .plane call => Except Failure (ControlPlane.Result call)
  | .blob call => Blob.Answer σ call

abbrev Service (σ : Type) : Interface := ⟨Call σ, Answer σ⟩

/-- The call with each store replaced, as it is written in a log. -/
def Call.mapStore {σ τ : Type} (f : σ → τ) : Call σ → Call τ
  | .plane call => .plane call
  | .blob (.openStore account key) => .blob (.openStore account key)
  | .blob (.deleteContainer store container) => .blob (.deleteContainer (f store) container)
  | .blob (.customImageExists store) => .blob (.customImageExists (f store))
  | .blob (.close store) => .blob (.close (f store))

end Decommission.Teardown
