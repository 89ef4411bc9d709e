import Decommission.Blob.Client
import Decommission.ControlPlane.Client
import Decommission.Teardown.Sequence

/-! Teardowns with both services over one HTTP transport. -/
namespace Decommission.Teardown

/-- A control plane and the gateway to the blob service of its accounts. -/
structure Services where
  plane : ControlPlane.Connection
  blobs : Blob.Gateway

namespace Services

/-- The blob service is reached with the same limits and retries as the control plane. -/
def ofConnection (c : ControlPlane.Connection) (suffix : String) : Services where
  plane := c
  blobs := { suffix, requestTimeout := c.requestTimeout, retry := c.retry }

def carryOut (s : Services) :
    (call : Call Blob.Client) → Task Http.Transport (Answer Blob.Client call)
  | .plane call => s.plane.carryOut call
  | .blob call => s.blobs.carryOut call

/-- The action over HTTP. -/
def perform {α : Type} (s : Services) (action : Action Blob.Client α) :
    Task Http.Transport (Except Error α) :=
  Task.implement (J := Service Blob.Client) s.carryOut action.run

end Services

end Decommission.Teardown
