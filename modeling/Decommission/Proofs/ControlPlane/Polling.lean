import Decommission.Proofs.ControlPlane.Sending

/-!
What is told of an operation that is looked at, and what it is told from: the last answer alone.
-/
namespace Decommission.ControlPlane

open Program
open Http (Transport Request Reply Method)

/-- The state that the body of a reply names. -/
def namedState? (r : Reply) : Option String := (r.document?.bind operationOfJson?).join

/-- An error by which the service declines what it was asked for. -/
def isDenial : ServiceError → Bool
  | .conflict .. | .other .. => true
  | _ => false

/-- What a reply tells of an operation. An operation that is gone has succeeded, and so has one of
which no other state is named. -/
def Tells (r : Reply) : OperationStatus → Prop
  | .succeeded =>
    r.isSuccess = false ∧ r.refusal.isNotFound = true ∨
      r.isSuccess = true ∧ (r.status = 204 ∨
        r.status ≠ 202 ∧ ∀ name, namedState? r = some name → name = "Succeeded")
  | .failed =>
    r.isSuccess = false ∧ isDenial r.refusal = true ∨
      r.isSuccess = true ∧ r.status ≠ 202 ∧ r.status ≠ 204 ∧
        (namedState? r = some "Failed" ∨ namedState? r = some "Canceled")
  | .inProgress =>
    r.isSuccess = true ∧ (r.status = 202 ∨
      r.status ≠ 204 ∧ ∃ name, namedState? r = some name ∧
        name ≠ "Succeeded" ∧ name ≠ "Failed" ∧ name ≠ "Canceled")

section

variable {r : Reply} {state : OperationStatus} {method : Method} {url : String}

theorem statusOfReply_of_content (haccepted : r.status ≠ 202) (hcontent : r.status ≠ 204) :
    statusOfReply r = statusOfName (namedState? r) := by
  rw [statusOfReply, if_neg haccepted, if_neg hcontent, statusOfBody, r.read_body]
  rfl

theorem statusOfReply_eq_iff (hsuccess : r.isSuccess = true) :
    statusOfReply r = state ↔ Tells r state := by
  by_cases haccepted : r.status = 202
  · cases state <;> simp [Tells, statusOfReply, hsuccess, haccepted]
  by_cases hcontent : r.status = 204
  · cases state <;> simp [Tells, statusOfReply, hsuccess, hcontent]
  rw [statusOfReply_of_content haccepted hcontent]
  -- only the name of the state is left to decide
  cases hname : namedState? r with
  | none => cases state <;> simp [Tells, statusOfName, hsuccess, haccepted, hcontent, hname]
  | some name =>
    simp only [statusOfName]
    split_ifs with hsucceeded hfailed
    · cases state <;> simp [Tells, hsuccess, haccepted, hcontent, hname, hsucceeded]
    · rcases hfailed with rfl | rfl <;>
        cases state <;> simp [Tells, hsuccess, haccepted, hcontent, hname]
    · rw [not_or] at hfailed
      cases state <;> simp [Tells, hsuccess, haccepted, hcontent, hname, hsucceeded, hfailed]

theorem statusOfFailure?_eq_iff (hfailed : r.isSuccess = false) :
    statusOfFailure? (refused method url r) = some state ↔ Tells r state := by
  rw [statusOfFailure?, service_refused]
  cases hr : r.refusal <;> cases state <;>
    simp [Tells, hfailed, hr, ServiceError.isNotFound, isDenial]

theorem stateOf_judge_eq_iff {answer : Except TransportFault Reply} :
    stateOf (Connection.judge method url answer) = .ok state ↔
      ∃ r, answer = .ok r ∧ Tells r state := by
  match answer with
  | .error fault =>
    have hstate : stateOf (Connection.judge method url (.error fault)) =
        .error ((Failure.of (.transport fault)).inContext (method.label ++ " " ++ url ++ " failed")) :=
      rfl
    simp [hstate]
  | .ok r =>
    simp only [Except.ok.injEq, exists_eq_left']
    cases hr : r.isSuccess with
    | true =>
      rw [judge_success hr, ← statusOfReply_eq_iff hr, stateOf, Except.ok.injEq]
    | false =>
      have htells : statusOfFailure? (refused method url r) = some state ↔ Tells r state :=
        statusOfFailure?_eq_iff hr
      rw [judge_refused hr, ← htells, stateOf]
      cases statusOfFailure? (refused method url r) with
      | none => simp
      | some status => simp

end

namespace Connection

variable {c : Connection} {operation : String}

/-- What is told of an operation is what the last reply tells. A body that cannot be read names no
state, so that the operation is taken to have succeeded unless the reply is an `Accepted`. -/
theorem operation_verdict {result : Except Failure OperationStatus} {h : History}
    (hr : Reaches (Event.recording (Timed Transport)) (c.operationStatus operation) []
      (.done result) h) :
    ∃ before answer, h = before ++ [c.sent .get operation answer] ∧
      (∀ state, result = .ok state ↔ ∃ r, answer = .ok r ∧ Tells r state) ∧
      ∀ r fault, answer = .ok r → r.body = .error fault → r.isSuccess = true →
        result = .ok (if r.status = 202 then .inProgress else .succeeded) := by
  have hcall : c.oneRequest? (.operationStatus operation) = some ⟨.get, operation, stateOf⟩ := rfl
  obtain ⟨before, answer, hh, hresult⟩ := last_of_reaches hcall hr
  have hverdict : ∀ state, result = .ok state ↔ ∃ r, answer = .ok r ∧ Tells r state := by
    intro state
    rw [hresult]
    exact stateOf_judge_eq_iff
  refine ⟨before, answer, hh, hverdict, ?_⟩
  intro r fault hanswer hbody hsuccess
  have hname : namedState? r = none := by
    rw [namedState?, Reply.document?, hbody]
    rfl
  rw [hverdict]
  refine ⟨r, hanswer, ?_⟩
  split_ifs with haccepted
  · exact ⟨hsuccess, .inl haccepted⟩
  · exact .inr ⟨hsuccess, .inr ⟨haccepted, by simp [hname]⟩⟩

/-- A reply that tells that an operation failed. -/
def canceled : Reply := ⟨200, [], .ok "\x7b\"status\":\"Canceled\"\x7d"⟩

/-- A reply whose body does not arrive. -/
def brokenOff : Reply := ⟨200, [], .error .body⟩

/-- An operation that was canceled has failed. -/
theorem operation_verdict_canceled :
    Reaches (Event.recording (Timed Transport)) (hasty.operationStatus "o") [] (.done (.ok .failed))
      [hasty.sent .get "o" (.ok canceled)] ∧
    Tells canceled .failed := by
  have hr : Reaches (Event.recording (Timed Transport)) (hasty.operationStatus "o") []
      (.done (.ok .failed)) [hasty.sent .get "o" (.ok canceled)] := by
    have hresult : stateOf (judge .get "o" (.ok canceled)) = .ok .failed := by decide +kernel
    rw [operationStatus_eq, ← hresult]
    exact reaches_hasty (.ok canceled)
  refine ⟨hr, ?_⟩
  obtain ⟨before, answer, hh, hverdict, -⟩ := operation_verdict hr
  obtain ⟨r, rfl, htells⟩ := (hverdict .failed).mp rfl
  obtain rfl : canceled = r := Except.ok.inj (eq_of_single hh)
  exact htells

/-- An operation is told to have succeeded by a reply whose body was not received. -/
theorem succeeded_without_body :
    ¬∀ (c : Connection) (operation : String) (h : History),
      Reaches (Event.recording (Timed Transport)) (c.operationStatus operation) []
        (.done (.ok .succeeded)) h →
      ∃ before r, h = before ++ [c.sent .get operation (.ok r)] ∧
        (r.isSuccess = false ∧ r.refusal.isNotFound = true ∨ r.status = 204 ∨
          r.isSuccess = true ∧ r.status ≠ 202 ∧ ∃ body, r.body = .ok body ∧
            ∀ name, namedState? r = some name → name = "Succeeded") := by
  intro hclaim
  have hr : Reaches (Event.recording (Timed Transport)) (hasty.operationStatus "o") []
      (.done (.ok .succeeded)) [hasty.sent .get "o" (.ok brokenOff)] := by
    have hresult : stateOf (judge .get "o" (.ok brokenOff)) = .ok .succeeded := by decide +kernel
    rw [operationStatus_eq, ← hresult]
    exact reaches_hasty (.ok brokenOff)
  obtain ⟨before, r, hh, htold⟩ := hclaim hasty "o" _ hr
  obtain rfl : brokenOff = r := Except.ok.inj (eq_of_single hh)
  rcases htold with ⟨hfailed, -⟩ | hstatus | ⟨-, -, body, hbody, -⟩
  · exact absurd hfailed (by decide)
  · exact absurd hstatus (by decide)
  · cases hbody

end Connection

end Decommission.ControlPlane
