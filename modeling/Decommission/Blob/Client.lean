import Decommission.Blob.Signature
import Decommission.Blob.Store
import Decommission.Defaults
import Decommission.Http.Message
import Decommission.Retry
import Decommission.Text.Segment

/-! A blob store that is reached over HTTP with signed requests. -/
namespace Decommission.Blob

open Http (Transport Request Reply Method)

/-- How stores are reached. -/
structure Gateway where
  suffix : String := Defaults.blobSuffix
  requestTimeout : Duration
  retry : RetryPolicy
  deriving DecidableEq, Repr

/-- An open store, or one that was closed. -/
structure Client where
  credential : Credential
  base : String
  requestTimeout : Duration
  retry : RetryPolicy
  closed : Bool := false
  deriving DecidableEq

/-- A store for the account, if the key can be read. -/
def Gateway.openStore (g : Gateway) (account key : String) : Except Failure Client :=
  match Credential.ofKey account key with
  | .error e =>
    .error ((Failure.of (.invalidKey e)).inContext
      ("Invalid key for storage account " ++ account))
  | .ok credential => .ok {
    credential
    base := "https://" ++ account ++ "." ++ g.suffix
    requestTimeout := g.requestTimeout
    retry := g.retry }

/-- Busy or failing services and transient faults are tried again. -/
def isRetryable (f : Failure) : Bool :=
  match f.cause with
  | .blobStatus _ _ status _ => status == 429 || 500 ≤ status
  | .blobClosed _ => false
  | _ => f.isTransient

namespace Client

def close (c : Client) : Client := { c with closed := true }

/-- The headers of the service on a request sent at this date. -/
def serviceHeaders (date : String) : List (String × String) :=
  [("x-ms-date", date), ("x-ms-version", serviceVersion)]

/-- The request signed for this date. -/
def request (c : Client) (method : Method) (path : String) (query : List (String × String))
    (date : String) : Request where
  method
  url := Http.withQuery (c.base ++ path) query
  headers := ("authorization", c.credential.authorization {
      method := method.label, path, query, headers := serviceHeaders date, contentLength := 0 }) ::
    ("user-agent", Http.userAgent) :: serviceHeaders date
  body := none

/-- A reply that is a success or says that the resource does not exist. -/
def judge (c : Client) (method : Method) (path : String) :
    Except TransportFault Reply → Except Failure Reply
  | .error fault => .error ((Failure.of (.transport fault)).inContext
      (method.label ++ " " ++ path ++ " on " ++ c.base ++ " failed"))
  | .ok reply =>
    if reply.isSuccess || reply.status == 404 then .ok reply
    else .error (.of (.blobStatus method.label path reply.status
      ((reply.header? "x-ms-error-code").getD "Unknown")))

/-- One attempt, with a date of its own. A closed store sends nothing. -/
def sendOnce (c : Client) (method : Method) (path : String) (query : List (String × String)) :
    Task Transport (Except Failure Reply) :=
  if c.closed then .done (.error (.of (.blobClosed c.credential.account)))
  else (Task.act (I := Transport) .date).bind fun (now : Calendar.Instant) =>
    (Task.act (I := Transport)
      (.send (c.request method path query now.httpDate) c.requestTimeout)).bind fun answer =>
        .done (c.judge method path answer)

def send (c : Client) (method : Method) (path : String) (query : List (String × String)) :
    Task Transport (Except Failure Reply) :=
  c.retry.run isRetryable (c.sendOnce method path query)

def deleteContainer (c : Client) (container : String) : Task Transport (Except Failure Bool) :=
  (c.send .delete ("/" ++ container) [("restype", "container")]).bind fun answer =>
    .done (answer.map fun reply => reply.status != 404)

/-- The query of a listing of images, cut off after one. -/
def imageQuery : List (String × String) :=
  [("restype", "container"), ("comp", "list"), ("prefix", Defaults.customImagePath),
    ("maxresults", "1")]

/-- Whether a listing names a blob. -/
def listsBlob (listing : String) : Bool := Text.hasPart "<Blob>".toList listing.toList

def customImageExists (c : Client) : Task Transport (Except Failure Bool) :=
  (c.send .get ("/" ++ Defaults.imageContainer) imageQuery).bind fun
    | .error f => .done (.error f)
    | .ok reply => .done <|
      if reply.status = 404 then .ok false
      else match reply.body with
        | .ok listing => .ok (listsBlob listing)
        | .error fault =>
          .error ((Failure.of (.transport fault)).inContext "Failed to read blob listing")

end Client

/-- Each call of a blob service over this gateway. A closed client is not used any more, so closing
needs nothing from the transport. -/
def Gateway.carryOut (g : Gateway) : (call : Call Client) → Task Transport (Answer Client call)
  | .openStore account key => .done (g.openStore account key)
  | .deleteContainer store container => store.deleteContainer container
  | .customImageExists store => store.customImageExists
  | .close _ => .done ()

end Decommission.Blob
