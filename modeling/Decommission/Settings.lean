import Decommission.Defaults

/-! What a user chooses. -/
namespace Decommission

/-- How often a pending operation is looked at, and for how long. -/
structure WaitSettings where
  initialDelay : Duration := .seconds 1
  maxDelay : Duration := .seconds 15
  timeout : Duration := .seconds Defaults.deleteTimeoutSeconds
  deriving DecidableEq, Repr

/-- How the control plane is reached. -/
structure ConnectionSettings where
  endpoint : String := Defaults.endpoint
  subscription : String := ""
  accessToken : String := ""
  requestTimeout : Duration := Defaults.requestTimeout
  retry : RetryPolicy := Defaults.requestRetry
  deriving DecidableEq, Repr

/-- What a teardown looks for, and how long it waits. -/
structure TeardownSettings where
  groupPrefix : String := Defaults.groupPrefix
  diskContainer : String := Defaults.diskContainer
  wait : WaitSettings := {}
  deriving DecidableEq, Repr

end Decommission
