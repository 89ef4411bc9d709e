import Decommission.Http.Message
import Decommission.Json.Reader
import Decommission.Json.Record
import Decommission.Json.Writer

/-!
The lines exchanged with a relay, which carries requests over the network for a program without
sockets. The program asks with one JSON document on a line, and is answered with another.
-/
namespace Decommission.Http.Relay

def pairJson (p : String × String) : Json := .array [.ofText p.1, .ofText p.2]

def requestJson (r : Request) : Json :=
  .ofFields [("method", .ofText r.method.label), ("url", .ofText r.url),
    ("headers", .array (r.headers.map pairJson)), ("body", .ofOption .ofText r.body)]

/-- The document that asks for a call. A limit is given in nanoseconds. -/
def question : Call → Json
  | .send request timeout =>
    .ofFields [("send", requestJson request), ("timeout", .number (toString timeout))]
  | .date => .ofFields [("date", .null)]

def natural? : Json → Option Nat
  | .number numeral => numeral.toNat?
  | _ => none

def integer? : Json → Option Int
  | .number numeral => numeral.toInt?
  | _ => none

def pair? (v : Json) : Option (String × String) :=
  match Json.listOf Json.text? v with
  | some [name, value] => some (name, value)
  | _ => none

/-- The fault with this label. -/
def faultOfLabel (label : String) : TransportFault :=
  ([.timeout, .connect, .builder, .body, .decode, .unscripted].find? fun
    (fault : TransportFault) => fault.label = label).getD .other

/-- A reply, or the fault that kept it away. A reply without a body is one whose body cannot be
read. -/
def reply? (v : Json) : Option (Except TransportFault Reply) := do
  let r ← Json.Record.of? ["status", "headers", "body", "fault"] v
  match ← r.getD "fault" (Json.nullable Json.text?) none with
  | some label => some (.error (faultOfLabel label))
  | none => do
    let body ← r.getD "body" (Json.nullable Json.text?) none
    some (.ok {
      status := ← r.require "status" natural?
      headers := ← r.getD "headers" (Json.listOf pair?) []
      body := match body with
        | some text => .ok text
        | none => .error .body })

def instant? (v : Json) : Option Calendar.Instant := do
  let r ← Json.Record.of? ["seconds", "nanos"] v
  some ⟨← r.require "seconds" integer?, ← r.getD "nanos" natural? 0⟩

/-- What the answering document means. One that makes no sense is a connection that failed, or the
start of 1970. -/
def answer (document : String) : (c : Call) → Transport.Answer c
  | .send .. => ((Json.read? document).bind reply?).getD (.error .connect)
  | .date => ((Json.read? document).bind instant?).getD (⟨0, 0⟩ : Calendar.Instant)

end Decommission.Http.Relay
