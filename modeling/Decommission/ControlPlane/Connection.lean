import Decommission.ControlPlane.Address
import Decommission.Failure
import Decommission.Settings

/-! A control plane that is reached at an endpoint with a bearer token. -/
namespace Decommission.ControlPlane

structure Connection where
  root : Root
  accessToken : String
  requestTimeout : Duration
  retry : RetryPolicy
  /-- More pages than a listing is followed through. -/
  pageLimit : Nat := 1000000
  deriving DecidableEq, Repr

/-- The connection that the settings describe; the subscription and the token are needed. -/
def Connection.ofSettings (s : ConnectionSettings) : Except Failure Connection :=
  if s.subscription = "" then .error (.of (.plain "subscription id cannot be empty"))
  else if s.accessToken = "" then .error (.of (.plain "access token cannot be empty"))
  else .ok {
    root := .ofEndpoint s.endpoint s.subscription
    accessToken := s.accessToken
    requestTimeout := s.requestTimeout
    retry := s.retry }

end Decommission.ControlPlane
