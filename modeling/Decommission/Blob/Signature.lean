import Decommission.Digest.Hmac
import Decommission.Encoding.Base64
import Decommission.Text.Blank

/-!
Signatures of requests to the blob service. A request is written in a canonical form, and the
signature is the keyed digest of that text under the account's key.
-/
namespace Decommission.Blob

/-- The version of the blob service that requests name. -/
def serviceVersion : String := "2015-04-05"

/-- The parts of a request that its signature covers. -/
structure Signable where
  method : String
  path : String
  query : List (String × String)
  headers : List (String × String)
  contentLength : Nat
  deriving DecidableEq, Repr

def lowerAscii (s : String) : String := String.ofList (s.toList.map Char.toLower)

def upperAscii (s : String) : String := String.ofList (s.toList.map Char.toUpper)

/-- The order of pairs by the first text and then by the second. -/
def pairLe (p q : String × String) : Bool := p.1 < q.1 || (p.1 == q.1 && !(q.2 < p.2))

def sortPairs (pairs : List (String × String)) : List (String × String) := pairs.mergeSort pairLe

/-- The headers of the service, with lower-case names and no blanks around, in order. -/
def canonicalHeaders (headers : List (String × String)) : List (String × String) :=
  sortPairs <| (headers.map fun p => (lowerAscii (Text.trim p.1), Text.trim p.2)).filter
    fun p => "x-ms-".toList.isPrefixOf p.1.toList

def headerLines (headers : List (String × String)) : String :=
  String.join ((canonicalHeaders headers).map fun p => p.1 ++ ":" ++ p.2 ++ "\n")

/-- Neighbouring pairs of one name, put together with all their values. -/
def groupByName : List (String × String) → List (String × List String)
  | [] => []
  | (name, value) :: rest =>
    match groupByName rest with
    | [] => [(name, [value])]
    | (other, values) :: groups =>
      if name = other then (name, value :: values) :: groups
      else (name, [value]) :: (other, values) :: groups

/-- The values of each query name in any case, names and values in order. -/
def canonicalQuery (query : List (String × String)) : List (String × List String) :=
  groupByName (sortPairs (query.map fun p => (lowerAscii p.1, p.2)))

def resourceLines (account path : String) (query : List (String × String)) : String :=
  "/" ++ account ++ path ++
    String.join ((canonicalQuery query).map fun p =>
      "\n" ++ p.1 ++ ":" ++ String.intercalate "," p.2)

/-- The text that is signed. Of the standard headers only the length of the content has a line that
is not empty, and that one too is empty for no content. -/
def stringToSign (account : String) (r : Signable) : String :=
  upperAscii r.method ++ "\n\n\n" ++
    (if r.contentLength = 0 then "" else toString r.contentLength) ++ "\n\n\n\n\n\n\n\n\n" ++
    headerLines r.headers ++ resourceLines account r.path r.query

/-- A storage account and its key. -/
structure Credential where
  account : String
  key : List UInt8
  deriving DecidableEq

namespace Credential

/-- The credential of a key in base64, which may have blanks around it. -/
def ofKey (account key : String) : Except Base64.Error Credential :=
  (Base64.decode (Text.trim key)).map fun bytes => ⟨account, bytes⟩

def signature (c : Credential) (r : Signable) : String :=
  Base64.encode (Hmac.sha256 c.key (stringToSign c.account r).toUTF8.toList)

/-- The value of the `Authorization` header for the request. -/
def authorization (c : Credential) (r : Signable) : String :=
  "SharedKey " ++ c.account ++ ":" ++ c.signature r

end Credential

end Decommission.Blob
