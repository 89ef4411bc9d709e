import Decommission.ControlPlane.Client

/-!
The calls of a control plane that send one request, and send it again where that may help: what their
replies are taken for, and what the call makes of the last of them.
-/
namespace Decommission

open Http (Transport Request Reply Method)

namespace Http.Reply

/-- The service error that a reply is, if it is no success. -/
def refusal (r : Reply) : ServiceError :=
  ServiceError.ofResponse r.status (r.body.toOption.getD "")

/-- The document in the body, where that can be read and is one. -/
def document? (r : Reply) : Option Json := r.body.toOption.bind Json.read?

/-- A body that cannot be read is taken for an empty one, which is no document. -/
theorem read_body (r : Reply) : Json.read? (r.body.toOption.getD "") = r.document? := by
  unfold document?
  cases r.body with
  | ok body => rfl
  | error fault => rfl

end Http.Reply

namespace ControlPlane

/-- The failure of a request to which `r` is the reply. -/
def refused (method : Method) (url : String) (r : Reply) : Failure :=
  (Failure.of (.service r.refusal)).inContext
    (method.label ++ " " ++ url ++ " returned " ++ Http.statusText r.status)

/-- A request is not sent again after a success, after an error that is not to be tried again, and
after a fault that is no timeout and no failed connection. -/
def isFinal : Except TransportFault Reply → Bool
  | .error fault => !fault.isTransient
  | .ok reply => reply.isSuccess || !reply.refusal.isRetryable

section

variable {method : Method} {url : String} {answer : Except TransportFault Reply} {r : Reply}
  {f : Failure}

theorem judge_success (h : r.isSuccess = true) :
    Connection.judge method url (.ok r) = .ok r := by
  rw [Connection.judge, if_pos h]

theorem judge_refused (h : r.isSuccess = false) :
    Connection.judge method url (.ok r) = .error (refused method url r) := by
  rw [Connection.judge, if_neg (by simp [h])]
  rfl

theorem service_refused : (refused method url r).service? = some r.refusal := rfl

theorem isNotFound_refused : (refused method url r).isNotFound = r.refusal.isNotFound := rfl

theorem isRetryable_refused : isRetryable (refused method url r) = r.refusal.isRetryable := rfl

theorem isRetryable_of_judge (h : Connection.judge method url answer = .error f) :
    isRetryable f = !isFinal answer := by
  match answer with
  | .error fault =>
    obtain rfl := Except.error.inj h
    cases fault <;> rfl
  | .ok r =>
    cases hr : r.isSuccess with
    | true =>
      rw [judge_success hr] at h
      cases h
    | false =>
      rw [judge_refused hr] at h
      obtain rfl := Except.error.inj h
      rw [isRetryable_refused, isFinal, hr, Bool.false_or, Bool.not_not]

/-- What is sent again has failed, and may be tried again. -/
theorem judge_of_not_final (h : isFinal answer = false) :
    ∃ f, Connection.judge method url answer = .error f ∧ isRetryable f = true := by
  have hfailed : ∃ f, Connection.judge method url answer = .error f := by
    match answer with
    | .error fault => exact ⟨_, rfl⟩
    | .ok r =>
      rw [isFinal, Bool.or_eq_false_iff] at h
      exact ⟨_, judge_refused h.1⟩
  obtain ⟨f, hf⟩ := hfailed
  refine ⟨f, hf, ?_⟩
  rw [isRetryable_of_judge hf, h]
  rfl

end

/-- A call that sends one request: the request, and what the call makes of the last answer to it. -/
structure OneRequest (α : Type) where
  method : Method
  url : String
  conclude : Except Failure Reply → Except Failure α

/-- What was found, as it is read; `none` where it was not found. -/
def ifFound {α : Type} (read : Reply → Except Failure α) (answer : Except Failure Reply) :
    Except Failure (Option α) :=
  match ignoreNotFound answer with
  | .error f => .error f
  | .ok none => .ok none
  | .ok (some reply) => (read reply).map some

theorem ifFound_error {α : Type} {read : Reply → Except Failure α} {f : Failure} :
    ifFound read (.error f) = if f.isNotFound then .ok none else .error f := by
  cases hf : f.isNotFound <;> simp [ifFound, ignoreNotFound, hf]

theorem ifFound_ok {α : Type} {read : Reply → Except Failure α} {r : Reply} :
    ifFound read (.ok r) = (read r).map some := rfl

/-- How a deletion was answered. -/
def deletionOf (answer : Except Failure Reply) : Except Failure Deletion :=
  (ifFound (fun reply => .ok (deletionOfReply reply)) answer).map fun deletion =>
    deletion.getD .alreadyAbsent

/-- The state of an operation that was looked at. -/
def stateOf : Except Failure Reply → Except Failure OperationStatus
  | .ok reply => .ok (statusOfReply reply)
  | .error f =>
    match statusOfFailure? f with
    | some status => .ok status
    | none => .error f

namespace Connection

variable (c : Connection)

/-- A call to get the document at `url`. -/
def getting {α : Type} (url : String) (layout : Json.Layout α) : OneRequest (Option α) :=
  ⟨.get, url, ifFound (decodeReply layout ("Failed to decode response from " ++ url))⟩

/-- The one request of the call. A listing may need several. -/
def oneRequest? : (call : Call) → Option (OneRequest (Result call))
  | .getMachine group name =>
    some (getting (c.root.resourceUrl .virtualMachine group name) Machine.layout)
  | .getNetworkCard group name =>
    some (getting (c.root.resourceUrl .networkInterface group name) NetworkCard.layout)
  | .getStorageKeys group account =>
    some ⟨.post, c.root.keysUrl group account, ifFound
      (decodeReply StorageKeys.layout ("Failed to decode keys of storage account " ++ account))⟩
  | .list .. => none
  | .delete kind group name => some ⟨.delete, c.root.resourceUrl kind group name, deletionOf⟩
  | .deleteGroup group => some ⟨.delete, c.root.groupUrl group, deletionOf⟩
  | .operationStatus operation => some ⟨.get, operation, stateOf⟩

variable {c : Connection}

theorem deleteAt_eq {url : String} :
    c.deleteAt url = (c.send .delete url).bind fun answer => .done (deletionOf answer) := by
  rw [deleteAt, fetch, Program.bind_assoc]
  rfl

theorem operationStatus_eq {operation : String} :
    c.operationStatus operation =
      (c.send .get operation).bind fun answer => .done (stateOf answer) := by
  refine congrArg (Program.bind _) (funext fun answer => ?_)
  cases answer <;> rfl

/-- The call sends its request, and concludes from what comes of that. -/
theorem carryOut_eq {call : Call} {r : OneRequest (Result call)}
    (h : c.oneRequest? call = some r) :
    c.carryOut call = (c.send r.method r.url).bind fun answer => .done (r.conclude answer) := by
  cases call with
  | list kind group => cases h
  | getMachine | getNetworkCard | getStorageKeys =>
    obtain rfl := Option.some.inj h
    rfl
  | delete | deleteGroup =>
    obtain rfl := Option.some.inj h
    exact deleteAt_eq
  | operationStatus operation =>
    obtain rfl := Option.some.inj h
    exact operationStatus_eq

end Connection

end ControlPlane

end Decommission
