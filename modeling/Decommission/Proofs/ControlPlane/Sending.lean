import Decommission.Proofs.ControlPlane.Requests
import Decommission.Proofs.Program.History
import Decommission.Proofs.Program.Retrying

/-!
What a call does over a transport: the requests that it sends, each with what comes of it, and the
pauses between them.
-/
namespace Decommission.ControlPlane

open Program
open Http (Transport Request Reply Method)

/-- What a call has done so far. -/
abbrev History : Type := List (Event (Timed Transport))

/-- A pause before a request is sent again. -/
def paused (length : Duration) : Event (Timed Transport) := ⟨.pause length, ()⟩

/-- The reply that an event brought. -/
def reply? : Event (Timed Transport) → Option Reply
  | ⟨.act (.send ..), .ok r⟩ => some r
  | _ => none

/-- The reply to the last request, if nothing was done after it. -/
def lastReply? (h : History) : Option Reply := h.getLast?.bind reply?

section

variable {h : History} {length : Duration}

@[simp] theorem lastReply?_nil : lastReply? [] = none := rfl

@[simp] theorem lastReply?_paused : lastReply? (h ++ [paused length]) = none := by
  rw [lastReply?, List.getLast?_concat]
  rfl

end

namespace Connection

variable {c : Connection} {method : Method} {url : String}

/-- The sending of a request, and what comes of it. -/
def sent (c : Connection) (method : Method) (url : String)
    (answer : Except TransportFault Reply) : Event (Timed Transport) :=
  ⟨.act (.send (c.request method url) c.requestTimeout), answer⟩

@[simp] theorem lastReply?_sent_ok {h : History} {r : Reply} :
    lastReply? (h ++ [c.sent method url (.ok r)]) = some r := by
  rw [lastReply?, List.getLast?_concat]
  rfl

@[simp] theorem lastReply?_sent_error {h : History} {fault : TransportFault} :
    lastReply? (h ++ [c.sent method url (.error fault)]) = none := by
  rw [lastReply?, List.getLast?_concat]
  rfl

theorem eq_of_single {before : History} {a b : Except TransportFault Reply}
    (hh : [c.sent method url a] = before ++ [c.sent method url b]) : a = b := by
  have hsplit : [] ++ [c.sent method url a] = before ++ [c.sent method url b] := hh
  cases (List.append_inj' hsplit rfl).2
  rfl

/-- What holds before a request holds before it is sent again, and the last answer is judged. -/
theorem meets_send {allowed : History → Timed.Call Transport → Prop}
    {post : Option (Except Failure Reply) → History → Prop} {h : History} (inv : History → Prop)
    (hsend : ∀ before, inv before →
      allowed before (.act (.send (c.request method url) c.requestTimeout)))
    (hpost : ∀ before answer, inv before →
      post (some (judge method url answer)) (before ++ [c.sent method url answer]))
    (hagain : ∀ before answer length, inv before → isFinal answer = false →
      allowed (before ++ [c.sent method url answer]) (.pause length) ∧
        inv (before ++ [c.sent method url answer] ++ [paused length]))
    (hh : inv h) :
    (c.send method url).Meets (Event.recording (Timed Transport)) allowed post h := by
  refine RetryPolicy.meets_runFrom inv ?_ hh
  intro before hbefore
  refine ⟨hsend before hbefore, ?_⟩
  rintro answer _ rfl
  refine ⟨hpost before answer hbefore, ?_⟩
  intro f hf hretry length
  -- what may be tried again is told by the answer alone
  have hfinal : isFinal answer = false := by
    rw [isRetryable_of_judge (Option.some.inj hf)] at hretry
    simpa using hretry
  obtain ⟨hallowed, hinv⟩ := hagain before answer length hbefore hfinal
  refine ⟨hallowed, ?_⟩
  rintro _ rfl
  exact hinv

/-- A request that was sent up to its last answer ends with what is concluded from that. -/
theorem last_of_send {α : Type} {conclude : Except Failure Reply → α} {result : α} {h : History}
    (hr : Reaches (Event.recording (Timed Transport))
      ((c.send method url).bind fun answer => .done (conclude answer)) [] (.done result) h) :
    ∃ before answer, h = before ++ [c.sent method url answer] ∧
      result = conclude (judge method url answer) := by
  have hmeets : ((c.send method url).bind fun answer => Program.done (conclude answer)).Meets
      (Event.recording (Timed Transport)) (fun _ _ => True)
      (fun ended h => ∃ before answer, h = before ++ [c.sent method url answer] ∧
        ended = some (conclude (judge method url answer))) [] := by
    refine meets_bind.mpr (meets_send (fun _ => True) ?_ ?_ ?_ trivial)
    · exact fun _ _ => trivial
    · exact fun before answer _ => ⟨before, answer, rfl, rfl⟩
    · exact fun _ _ _ _ _ => ⟨trivial, trivial⟩
  obtain ⟨before, answer, hh, hresult⟩ := hmeets.reaches hr
  exact ⟨before, answer, hh, Option.some.inj hresult⟩

/-- A call of one request ends with what it concludes from the answer to the last time that the
request was sent. -/
theorem last_of_reaches {call : Call} {r : OneRequest (Result call)}
    {result : Except Failure (Result call)} {h : History} (hcall : c.oneRequest? call = some r)
    (hr : Reaches (Event.recording (Timed Transport)) (c.carryOut call) [] (.done result) h) :
    ∃ before answer, h = before ++ [c.sent r.method r.url answer] ∧
      result = r.conclude (judge r.method r.url answer) := by
  rw [carryOut_eq hcall] at hr
  exact last_of_send hr

/-- A connection on which each request is sent once. -/
def hasty : Connection where
  root := ⟨"https://e", "s"⟩
  accessToken := "t"
  requestTimeout := Duration.seconds 60
  retry := .never

theorem reaches_hasty {α : Type} {f : Except Failure Reply → Task Transport α} {h : History}
    (answer : Except TransportFault Reply) :
    Reaches (Event.recording (Timed Transport)) ((hasty.send method url).bind f) h
      (f (judge method url answer)) (h ++ [hasty.sent method url answer]) :=
  .ask (a := answer) rfl .refl

end Connection

end Decommission.ControlPlane
