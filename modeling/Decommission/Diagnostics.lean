import Decommission.Blob.Signature
import Decommission.ControlPlane.Connection
import Decommission.Settings
import Decommission.Text.Quoted

/-! Diagnostic texts of values. Secrets are not shown: two dots stand for what is left out. -/
namespace Decommission.Diagnostics

/-- A name and the shown fields. `partly` tells that there are more. -/
def record (name : String) (fields : List (String × String)) (partly : Bool) : String :=
  let shown := fields.map (fun p => p.1 ++ ": " ++ p.2) ++ (if partly then [".."] else [])
  name ++ " \x7b " ++ String.intercalate ", " shown ++ " \x7d"

def backoff : Backoff → String
  | .fixed delay => "Fixed(" ++ Duration.text delay ++ ")"
  | .exponential initial max =>
    record "Exponential" [("initial", Duration.text initial), ("max", Duration.text max)] false

def retryPolicy (p : RetryPolicy) : String :=
  record "RetryPolicy"
    [("max_attempts", toString p.maxAttempts), ("backoff", backoff p.backoff)] false

/-- The access token is left out. -/
def settings (s : ConnectionSettings) : String :=
  record "ArmConfig" [("endpoint", Text.quoted s.endpoint),
    ("subscription_id", Text.quoted s.subscription),
    ("request_timeout", Duration.text s.requestTimeout), ("retry", retryPolicy s.retry)] true

/-- The access token is left out. -/
def connection (c : ControlPlane.Connection) : String :=
  record "ArmContext" [("endpoint", Text.quoted c.root.endpoint),
    ("subscription_id", Text.quoted c.root.subscription)] true

/-- The key is left out. -/
def credential (c : Blob.Credential) : String :=
  record "SharedKeyCredential" [("account", Text.quoted c.account)] true

/-- Both keys are left out. -/
def storageKeys : String := record "StorageServiceKeys" [] true

end Decommission.Diagnostics
