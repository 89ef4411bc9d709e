import Decommission.Http.Message
import Decommission.Program.Server

/-! A transport whose replies are written down beforehand. -/
namespace Decommission.Simulation

open Http (Transport Request Reply)

/-- A reply, or the fault in its place, after a timer set to `delay`. -/
structure WireReply where
  delay : Duration
  outcome : Except TransportFault Reply

/-- The replies that are left, the requests sent, and the date at the start of the run. -/
structure Wire where
  replies : List WireReply
  requests : List Request
  epoch : Int := 0

/-- A reply as it arrives: headers with control characters are dropped. -/
def receive (r : Reply) : Reply :=
  { r with headers := r.headers.filter fun p => Http.isHeaderValue p.2 }

/-- The next reply. A request with a control character in a header is not sent, and a reply that takes
longer than the request may take is a timeout. -/
def Wire.send (w : Wire) (request : Request) (timeout : Duration) :
    (Duration × Except TransportFault Reply) × Wire :=
  if request.headers.all fun p => Http.isHeaderValue p.2 then
    match w.replies with
    | [] => ((0, .error .unscripted), { w with requests := w.requests ++ [request] })
    | r :: rest =>
      let answer := if timeout < r.delay then (timeout.onTimer, .error .timeout)
        else (r.delay.onTimer, r.outcome.map receive)
      (answer, { w with replies := rest, requests := w.requests ++ [request] })
  else ((0, .error .builder), w)

def Wire.server : Server Transport Wire where
  serve
    | _, .send request timeout, w => w.send request timeout
    | now, .date, w => ((0, ⟨w.epoch + now / Nat.pow 10 9, now % Nat.pow 10 9⟩), w)
  draw := Server.noDraw

end Decommission.Simulation
