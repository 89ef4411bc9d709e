import Decommission.Calendar
import Decommission.Duration
import Decommission.Encoding.Form
import Decommission.Failure
import Decommission.Http.Status
import Decommission.Program

/-! Requests and replies of HTTP, and the interface of a transport. -/
namespace Decommission.Http

inductive Method where
  | get
  | delete
  | post
  deriving DecidableEq, Repr

def Method.label : Method → String
  | .get => "GET"
  | .delete => "DELETE"
  | .post => "POST"

structure Request where
  method : Method
  url : String
  headers : List (String × String)
  body : Option String
  deriving DecidableEq, Repr

/-- A reply; its body may turn out to be unreadable. -/
structure Reply where
  status : Nat
  headers : List (String × String)
  body : Except TransportFault String
  deriving Repr

/-- The name that this program sends in the `User-Agent` header. -/
def userAgent : String := "armsweep/0.1.0"

/-- The address with the pairs added to its query. -/
def withQuery (url : String) (pairs : List (String × String)) : String :=
  url ++ (if '?' ∈ url.toList then "&" else "?") ++ Form.encode pairs

/-- Control characters other than the tab may not stand in a header. -/
def isHeaderChar (c : Char) : Bool := c == '\t' || (0x20 ≤ c.toNat && c.toNat != 0x7F)

def isHeaderValue (s : String) : Bool := s.toList.all isHeaderChar

/-- A header value can be read as text if it is visible ASCII with blanks and tabs. -/
def isReadable (s : String) : Bool :=
  s.toList.all fun c => c == '\t' || (0x20 ≤ c.toNat && c.toNat < 0x7F)

/-- Header names are alike in any ASCII case. -/
def sameName (a b : String) : Bool := a.toList.map Char.toLower == b.toList.map Char.toLower

namespace Reply

/-- The first value of the header, if it can be read. -/
def header? (r : Reply) (name : String) : Option String :=
  (r.headers.find? fun p => sameName p.1 name).bind fun p =>
    if isReadable p.2 then some p.2 else none

def isSuccess (r : Reply) : Bool := Http.isSuccess r.status

end Reply

/-- A transport sends requests, each with its own limit of time, and knows the date. -/
inductive Call where
  | send (request : Request) (timeout : Duration)
  | date

/-- The interface of a transport. -/
abbrev Transport : Interface where
  Call := Call
  Answer
    | .send .. => Except TransportFault Reply
    | .date => Calendar.Instant

end Decommission.Http
