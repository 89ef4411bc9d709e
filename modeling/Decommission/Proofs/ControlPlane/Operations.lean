import Decommission.Proofs.ControlPlane.Sending
import Decommission.Proofs.Http.ReadBack
import Decommission.Proofs.Program.Transcript

/-!
Where an accepted deletion can be followed, and what is sent to look at it there.
-/
namespace Decommission

open Program
open Http (Transport Request Reply Method)

namespace Http.Reply

/-- The first header of this name has this value, whatever other values come after it. -/
def Carries (r : Reply) (name value : String) : Prop :=
  ∃ before header after, r.headers = before ++ header :: after ∧ sameName header.1 name = true ∧
    header.2 = value ∧ ∀ p ∈ before, sameName p.1 name = false

/-- The header of this name is there, can be read, and says something. -/
def HasUsable (r : Reply) (name value : String) : Prop :=
  r.Carries name value ∧ isReadable value = true ∧ value ≠ ""

/-- The first usable one of the headers that tell where an operation can be followed. -/
def PointsTo (r : Reply) (operation : String) : Prop :=
  r.HasUsable "azure-asyncoperation" operation ∨
    (∀ value, ¬r.HasUsable "azure-asyncoperation" value) ∧ r.HasUsable "location" operation

variable {r : Reply} {name value operation : String}

theorem header?_eq_some_iff :
    r.header? name = some value ↔ r.Carries name value ∧ isReadable value = true := by
  rw [header?, Option.bind_eq_some_iff]
  constructor
  · rintro ⟨header, hfind, hread⟩
    obtain ⟨hname, before, after, hheaders, hbefore⟩ := List.find?_eq_some_iff_append.mp hfind
    split_ifs at hread with hreadable
    obtain rfl := Option.some.inj hread
    refine ⟨⟨before, header, after, hheaders, hname, rfl, ?_⟩, hreadable⟩
    intro p hp
    simpa using hbefore p hp
  · rintro ⟨⟨before, header, after, hheaders, hname, rfl, hbefore⟩, hreadable⟩
    refine ⟨header, ?_, if_pos hreadable⟩
    refine List.find?_eq_some_iff_append.mpr ⟨hname, before, after, hheaders, ?_⟩
    intro p hp
    rw [hbefore p hp]
    rfl

theorem usable?_eq_some_iff :
    ((r.header? name).bind fun uri => if uri = "" then none else some uri) = some value ↔
      r.HasUsable name value := by
  rw [Option.bind_eq_some_iff, HasUsable, ← and_assoc, ← header?_eq_some_iff]
  constructor
  · rintro ⟨uri, huri, hvalue⟩
    split_ifs at hvalue with hempty
    obtain rfl := Option.some.inj hvalue
    exact ⟨huri, hempty⟩
  · rintro ⟨hheader, hempty⟩
    exact ⟨value, hheader, if_neg hempty⟩

theorem operation?_eq_some_iff :
    ControlPlane.operation? r = some operation ↔ r.PointsTo operation := by
  have hfirst (name : String) (later : List String) :
      (name :: later).findSome? (fun name =>
        (r.header? name).bind fun uri => if uri = "" then none else some uri) = some operation ↔
      r.HasUsable name operation ∨ (∀ value, ¬r.HasUsable name value) ∧
        later.findSome? (fun name =>
          (r.header? name).bind fun uri => if uri = "" then none else some uri) =
            some operation := by
    rw [List.findSome?_cons]
    simp only [← usable?_eq_some_iff]
    split
    · next value hvalue => simp [hvalue]
    · next hnone => simp [hnone]
  rw [ControlPlane.operation?, ControlPlane.operationHeaders, hfirst, hfirst]
  simp [PointsTo]

end Http.Reply

namespace ControlPlane

variable {r : Reply} {method : Method} {url operation : String} {h : History}

theorem deletionOfReply_eq_pending_iff :
    deletionOfReply r = .pending operation ↔ r.status = 202 ∧ r.PointsTo operation := by
  rw [deletionOfReply, ← Reply.operation?_eq_some_iff]
  split_ifs with hcontent haccepted
  · simp [hcontent]
  · cases operation? r <;> simp [haccepted]
  · simp [haccepted]

/-- A deletion can be followed only if it was accepted, and its reply points to where. -/
theorem deletionOf_eq_pending_iff {answer : Except TransportFault Reply} :
    deletionOf (Connection.judge method url answer) = .ok (.pending operation) ↔
      ∃ r, answer = .ok r ∧ r.status = 202 ∧ r.PointsTo operation := by
  have hfailure (f : Failure) : deletionOf (.error f) ≠ .ok (.pending operation) := by
    rw [deletionOf, ifFound_error]
    split_ifs <;> simp [Except.map]
  match answer with
  | .error fault =>
    have hfault : deletionOf (Connection.judge method url (.error fault)) ≠
        .ok (.pending operation) := hfailure _
    simp [hfault]
  | .ok r =>
    simp only [Except.ok.injEq, exists_eq_left']
    cases hr : r.isSuccess with
    | true =>
      rw [judge_success hr, ← deletionOfReply_eq_pending_iff, deletionOf, ifFound_ok]
      simp [Except.map]
    | false =>
      rw [judge_refused hr]
      refine iff_of_false (hfailure _) ?_
      rintro ⟨haccepted, -⟩
      rw [Reply.isSuccess, haccepted] at hr
      cases hr

namespace Connection

variable {c : Connection}

/-- A deletion that was asked for can be followed exactly where its last reply points to, if that is
an `Accepted`. -/
theorem pending_iff_of_deleteAt {result : Except Failure Deletion}
    (hr : (c.deleteAt url).Along h (.done result)) :
    result = .ok (.pending operation) ↔
      ∃ r, lastReply? h = some r ∧ r.status = 202 ∧ r.PointsTo operation := by
  rw [deleteAt_eq] at hr
  obtain ⟨before, answer, rfl, rfl⟩ := last_of_send (reaches_iff_along.mpr hr)
  rw [deletionOf_eq_pending_iff]
  match answer with
  | .error fault => simp
  | .ok r => simp

/-- A sending begins with the request itself. -/
theorem exists_send_eq (c : Connection) (method : Method) (url : String) :
    ∃ next, c.send method url =
      .ask (.act (.send (c.request method url) c.requestTimeout)) next := by
  rw [send, RetryPolicy.run]
  cases c.retry.attempts - 1 with
  | zero => exact ⟨_, rfl⟩
  | succ more => exact ⟨_, rfl⟩

/-- All requests of one sending are the same. -/
theorem makes_send :
    (c.send method url).Makes fun call =>
      call = Http.Call.send (c.request method url) c.requestTimeout := by
  apply Task.Makes.run
  refine ⟨?_, fun answer => trivial⟩
  intro call hcall
  exact (Option.some.inj hcall).symm

end Connection

end ControlPlane

end Decommission
