import Decommission.Proofs.Blob.ImageListing
import Decommission.Proofs.Program.Clock
import Decommission.Proofs.Program.Repetition

/-!
Uses of one store, one after the other: what is sent for each, and what is answered, up to the first
time it is closed and afterwards.
-/
namespace Decommission.Blob

open Program
open Http (Transport Request Reply Method)

/-- What a store is asked. -/
inductive Question where
  | deleteContainer (container : String)
  | customImageExists
  deriving DecidableEq, Repr

/-- The service is busy or fails, or it did not reply in time: the request is sent again. -/
def IsPassing : Except TransportFault Reply → Prop
  | .ok reply => reply.status = 429 ∨ 500 ≤ reply.status
  | .error fault => fault = .timeout ∨ fault = .connect

namespace Question

def method : Question → Method
  | .deleteContainer _ => .delete
  | .customImageExists => .get

def path : Question → String
  | .deleteContainer container => "/" ++ container
  | .customImageExists => "/" ++ Defaults.imageContainer

def query : Question → List (String × String)
  | .deleteContainer _ => [("restype", "container")]
  | .customImageExists => Client.imageQuery

def task (c : Client) : Question → Task Transport (Except Failure Bool)
  | .deleteContainer container => c.deleteContainer container
  | .customImageExists => c.customImageExists

/-- What is read from a reply that is a success. -/
def read : Question → Reply → Except Failure Bool
  | .deleteContainer _, _ => .ok true
  | .customImageExists, reply =>
    match reply.body with
    | .ok listing => .ok (Client.listsBlob listing)
    | .error fault => .error ⟨["Failed to read blob listing"], .transport fault⟩

/-- What is concluded from the last reply, or from the fault that there was instead. -/
def conclusion (question : Question) (c : Client) :
    Except TransportFault Reply → Except Failure Bool
  | .error fault =>
    .error ⟨[question.method.label ++ " " ++ question.path ++ " on " ++ c.base ++ " failed"],
      .transport fault⟩
  | .ok reply =>
    if reply.status = 404 then .ok false
    else if 200 ≤ reply.status ∧ reply.status < 300 then question.read reply
    else .error ⟨[], .blobStatus question.method.label question.path reply.status
      ((reply.header? "x-ms-error-code").getD "Unknown")⟩

/-- One request for the question, with its date, and what came of it. -/
def asked (question : Question) (c : Client)
    (x : Calendar.Instant × Except TransportFault Reply) : List (Event (Timed Transport)) :=
  c.asked question.method question.path question.query x.1 x.2

/-- The question is put to the service up to the first reply that is not passing, or as often as it
may be, and the answer is concluded from the last reply. -/
def Settled (question : Question) (c : Client) (answer : Except Failure Bool)
    (h : List (Event (Timed Transport))) : Prop :=
  ∃ (again : List (Calendar.Instant × Except TransportFault Reply))
    (last : Calendar.Instant × Except TransportFault Reply),
    (∀ x ∈ again, IsPassing x.2) ∧ again.length + 1 ≤ max 1 c.retry.maxAttempts ∧
    (again.length + 1 = max 1 c.retry.maxAttempts ∨ ¬IsPassing last.2) ∧
    h = c.retry.historyFrom (question.asked c) 0 again last ∧ answer = question.conclusion c last.2

end Question

/-- One use of a store. -/
inductive Use where
  | ask (question : Question)
  | close
  deriving DecidableEq, Repr

namespace Use

/-- Closing a store has no answer. -/
def task (c : Client) : Use → Task Transport (Option (Except Failure Bool))
  | .ask question => (question.task c).bind fun answer => .done (some answer)
  | .close => .done none

/-- The store after a use. -/
def after (c : Client) : Use → Client
  | .ask _ => c
  | .close => c.close

/-- The uses of a store in a row. -/
def allOf (c : Client) : List Use → Task Transport (List (Option (Except Failure Bool)))
  | [] => .done []
  | use :: later => (use.task c).bind fun answer =>
    (allOf (use.after c) later).bind fun answers => .done (answer :: answers)

end Use

/-- A use with its answer, and everything that was done for it. -/
structure Step where
  use : Use
  answer : Option (Except Failure Bool)
  history : List (Event (Timed Transport))

namespace Step

/-- The store was closed before. -/
def IsClosed (c : Client) (before : List Step) : Prop :=
  c.closed = true ∨ Use.close ∈ before.map use

/-- What is right for one step after those before it: nothing is sent any more once the store is
closed. -/
def IsRight (c : Client) (before : List Step) (step : Step) : Prop :=
  match step.use with
  | .close => step.answer = none ∧ step.history = []
  | .ask question =>
    (IsClosed c before → step.history = [] ∧
      step.answer = some (.error ⟨[], .blobClosed c.credential.account⟩)) ∧
    (¬IsClosed c before → ∃ answer, step.answer = some answer ∧
      question.Settled c answer step.history)

end Step

section Questions

variable {c : Client} {method : Method} {path : String} {query : List (String × String)}
  {question : Question} {answer : Except Failure Bool} {h : List (Event (Timed Transport))}

/-- What the question is answered where sending it has ended with this. -/
def Question.tell : Question → Except Failure Reply → Except Failure Bool
  | .deleteContainer _, ended => ended.map fun reply => reply.status != 404
  | .customImageExists, ended => imagesOf ended

theorem Question.task_eq :
    question.task c = (c.send question.method question.path question.query).bind fun ended =>
      .done (question.tell ended) := by
  cases question with
  | deleteContainer container => rfl
  | customImageExists => exact Client.customImageExists_eq

theorem isSuccess_iff {reply : Reply} :
    reply.isSuccess = true ↔ 200 ≤ reply.status ∧ reply.status < 300 := by
  simp [Reply.isSuccess, Http.isSuccess]

theorem Question.tell_judge (ended : Except TransportFault Reply) :
    question.tell (c.judge question.method question.path ended) = question.conclusion c ended := by
  match ended with
  | .error fault => cases question <;> rfl
  | .ok reply =>
    by_cases hmissing : reply.status = 404
    · cases question <;> simp [Client.judge, Question.tell, Question.conclusion, imagesOf,
        Except.map, hmissing]
    by_cases hsuccess : 200 ≤ reply.status ∧ reply.status < 300
    · rw [Client.judge_of_success (isSuccess_iff.mpr hsuccess), Question.conclusion,
        if_neg hmissing, if_pos hsuccess]
      cases question with
      | deleteContainer container => simp [Question.tell, Question.read, Except.map, hmissing]
      | customImageExists =>
        rw [Question.tell, imagesOf, if_neg hmissing]
        rfl
    · have hfailed : reply.isSuccess = false := by
        rw [← Bool.not_eq_true, isSuccess_iff]
        exact hsuccess
      rw [Question.conclusion, if_neg hmissing, if_neg hsuccess]
      cases question <;> simp [Client.judge, Question.tell, imagesOf, Except.map, hfailed,
        hmissing] <;> rfl

/-- Just the passing replies are failures that may be retried. -/
theorem isRetried_judge_iff {ended : Except TransportFault Reply} :
    RetryPolicy.isRetried isRetryable (c.judge method path ended) = true ↔ IsPassing ended := by
  match ended with
  | .error fault =>
    cases fault <;> simp [Client.judge, RetryPolicy.isRetried, isRetryable, Failure.of,
      Failure.inContext, Failure.isTransient, TransportFault.isTransient, IsPassing]
  | .ok reply =>
    rw [Client.judge, IsPassing]
    split_ifs with hanswer
    · rw [Bool.or_eq_true, isSuccess_iff, beq_iff_eq] at hanswer
      simp only [RetryPolicy.isRetried, Bool.false_eq_true, false_iff]
      omega
    · simp [RetryPolicy.isRetried, isRetryable, Failure.of]

theorem along_sendOnce_iff (hopen : c.closed = false) {r : Except Failure Reply} :
    (c.sendOnce method path query).Along h (.done r) ↔
      ∃ x : Calendar.Instant × Except TransportFault Reply,
        h = c.asked method path query x.1 x.2 ∧ r = c.judge method path x.2 := by
  rw [Client.sendOnce, if_neg (by simp [hopen])]
  constructor
  · intro hsent
    obtain ⟨date, _, rfl, hdated⟩ := along_ask_done_iff.mp hsent
    obtain ⟨ended, _, rfl, hended⟩ := along_ask_done_iff.mp hdated
    obtain ⟨rfl, rfl⟩ := along_done_iff.mp hended
    exact ⟨(date, ended), rfl, rfl⟩
  · rintro ⟨⟨date, ended⟩, rfl, rfl⟩
    exact .answered (.answered .here)

/-- An open store puts the question to the service. -/
theorem Question.along_task_iff (hopen : c.closed = false) :
    (question.task c).Along h (.done answer) ↔ question.Settled c answer h := by
  have hattempts : c.retry.attempts = max 1 c.retry.maxAttempts := Nat.max_comm _ _
  have hfinal (ended : Except TransportFault Reply) :
      RetryPolicy.isRetried isRetryable (c.judge question.method question.path ended) = false ↔
        ¬IsPassing ended := by
    rw [← isRetried_judge_iff, Bool.not_eq_true]
  rw [Question.task_eq, along_bind_done_iff]
  simp only [along_done_iff, Client.send,
    RetryPolicy.along_run_iff (fun _ _ => along_sendOnce_iff hopen), isRetried_judge_iff, hfinal,
    hattempts]
  constructor
  · rintro ⟨_, _, _, rfl, ⟨again, last, hagain, hlength, hlast, rfl, rfl⟩, rfl, rfl⟩
    exact ⟨again, last, hagain, hlength, hlast, List.append_nil _, Question.tell_judge _⟩
  · rintro ⟨again, last, hagain, hlength, hlast, rfl, rfl⟩
    exact ⟨_, [], _, (List.append_nil _).symm, ⟨again, last, hagain, hlength, hlast, rfl, rfl⟩, rfl,
      (Question.tell_judge _).symm⟩

/-- A closed store sends nothing, and does not try again. -/
theorem send_of_closed (hclosed : c.closed = true) :
    c.send method path query = .done (.error (.of (.blobClosed c.credential.account))) := by
  have hattempt : c.sendOnce method path query =
      .done (.error (.of (.blobClosed c.credential.account))) := if_pos hclosed
  rw [Client.send, RetryPolicy.run, hattempt]
  cases c.retry.attempts - 1 <;> rfl

theorem Question.along_task_iff_of_closed (hclosed : c.closed = true) :
    (question.task c).Along h (.done answer) ↔
      h = [] ∧ answer = .error ⟨[], .blobClosed c.credential.account⟩ := by
  have htask : question.task c = .done (.error ⟨[], .blobClosed c.credential.account⟩) := by
    rw [Question.task_eq, send_of_closed hclosed]
    cases question <;> rfl
  rw [htask]
  exact along_done_iff

theorem Question.isTotal_task (question : Question) : (question.task c).IsTotal := by
  have hattempt : (c.sendOnce question.method question.path question.query).IsTotal := by
    rw [Client.sendOnce]
    split_ifs
    · trivial
    · exact fun _ _ => trivial
  rw [Question.task_eq]
  exact (RetryPolicy.isTotal_run hattempt c.retry isRetryable).bind fun _ => trivial

end Questions

section Uses

variable {c : Client} {uses : List Use} {outcomes : List (Option (Except Failure Bool))}
  {h : List (Event (Timed Transport))} {before : List Step} {question : Question}

theorem Use.isTotal_allOf (c : Client) (uses : List Use) : (Use.allOf c uses).IsTotal := by
  induction uses generalizing c with
  | nil => trivial
  | cons use later ih =>
    have htask : (use.task c).IsTotal := by
      cases use with
      | close => trivial
      | ask question => exact question.isTotal_task.bind fun _ => trivial
    exact htask.bind fun _ => (ih _).bind fun _ => trivial

theorem Use.along_task_iff {use : Use} {answer : Option (Except Failure Bool)} :
    (use.task c).Along h (.done answer) ↔ Step.IsRight c [] ⟨use, answer, h⟩ := by
  cases use with
  | close => exact along_done_iff.trans and_comm
  | ask question =>
    have hclosed : Step.IsClosed c [] ↔ c.closed = true := by simp [Step.IsClosed]
    rw [Use.task, along_bind_done_iff, Step.IsRight, hclosed]
    cases hopen : c.closed with
    | true =>
      simp only [question.along_task_iff_of_closed hopen, along_done_iff]
      constructor
      · rintro ⟨_, _, _, rfl, ⟨rfl, rfl⟩, rfl, rfl⟩
        exact ⟨fun _ => ⟨rfl, rfl⟩, fun hnot => absurd trivial hnot⟩
      · intro hright
        obtain ⟨hh, hanswer⟩ := hright.1 trivial
        exact ⟨[], [], _, hh, ⟨rfl, rfl⟩, rfl, hanswer⟩
    | false =>
      simp only [question.along_task_iff hopen, along_done_iff]
      constructor
      · rintro ⟨_, _, answer, rfl, hsettled, rfl, rfl⟩
        refine ⟨fun hclosed => absurd hclosed Bool.false_ne_true, fun _ => ⟨answer, rfl, ?_⟩⟩
        rw [List.append_nil]
        exact hsettled
      · intro hright
        obtain ⟨answer, hanswer, hsettled⟩ := hright.2 Bool.false_ne_true
        exact ⟨h, [], answer, (List.append_nil h).symm, hsettled, rfl, hanswer⟩

/-- What is right after a step is right for the store that it leaves. -/
theorem Step.isRight_cons_iff {first step : Step} :
    Step.IsRight c (first :: before) step ↔ Step.IsRight (first.use.after c) before step := by
  obtain ⟨use, answer, history⟩ := first
  cases use with
  | ask question =>
    have hclosed : Step.IsClosed c (⟨.ask question, answer, history⟩ :: before) ↔
        Step.IsClosed c before := by simp [Step.IsClosed]
    rw [Step.IsRight, Step.IsRight, hclosed]
    rfl
  | close =>
    have hbefore : Step.IsClosed c (⟨.close, answer, history⟩ :: before) :=
      .inr List.mem_cons_self
    have hafter : Step.IsClosed c.close before := .inl rfl
    have hcredential : c.close.credential = c.credential := rfl
    obtain ⟨use, answer, history⟩ := step
    cases use with
    | close => rfl
    | ask question => simp [Step.IsRight, hbefore, hafter, hcredential, Use.after]

theorem Step.isRight_cons (first : Step) :
    (fun before => Step.IsRight c (first :: before)) = Step.IsRight (first.use.after c) :=
  funext fun _ => funext fun _ => propext Step.isRight_cons_iff

theorem Use.along_allOf_iff :
    (Use.allOf c uses).Along h (.done outcomes) ↔
      ∃ steps : List Step, steps.map Step.use = uses ∧ steps.map Step.answer = outcomes ∧
        h = steps.flatMap Step.history ∧ EachAfter (Step.IsRight c) steps := by
  -- the later uses are those of the store that the first one leaves
  induction uses generalizing c h outcomes with
  | nil =>
    refine along_done_iff.trans ⟨?_, ?_⟩
    · rintro ⟨rfl, rfl⟩
      exact ⟨[], rfl, rfl, rfl, eachAfter_nil⟩
    · rintro ⟨steps, huses, rfl, rfl, -⟩
      obtain rfl := List.map_eq_nil_iff.mp huses
      exact ⟨rfl, rfl⟩
  | cons use later ih =>
    simp only [Use.allOf, along_bind_done_iff, Use.along_task_iff, ih, along_done_iff]
    constructor
    · rintro ⟨first, _, answer, rfl, hfirst, _, _, _, rfl, ⟨steps, rfl, rfl, rfl, hsteps⟩, rfl, rfl⟩
      refine ⟨⟨use, answer, first⟩ :: steps, rfl, rfl, ?_, ?_⟩
      · rw [List.append_nil, List.flatMap_cons]
      · rw [eachAfter_cons_iff, Step.isRight_cons]
        exact ⟨hfirst, hsteps⟩
    · rintro ⟨_ | ⟨first, steps⟩, huses, rfl, rfl, hright⟩
      · cases huses
      obtain ⟨rfl, rfl⟩ := List.cons.inj huses
      rw [eachAfter_cons_iff, Step.isRight_cons] at hright
      obtain ⟨hfirst, hsteps⟩ := hright
      exact ⟨first.history, _, first.answer, List.flatMap_cons, hfirst, _, [], _,
        (List.append_nil _).symm, ⟨steps, rfl, rfl, rfl, hsteps⟩, rfl, rfl⟩

/-- However a store is used, what was done falls into one step for each use. Before the first time
it is closed, a request is sent up to the first reply that is not passing, or as often as the policy
allows, and the last reply alone decides the answer. From then on, however often the store is closed,
nothing at all is sent, and every question fails with the account of the closed store. Whatever
serves the requests, the uses come to such an end. -/
theorem uses_of_store (c : Client) (uses : List Use) :
    (∀ outcomes h,
      Reaches (Event.recording (Timed Transport)) (Use.allOf c uses) [] (.done outcomes) h ↔
        ∃ steps : List Step, steps.map Step.use = uses ∧ steps.map Step.answer = outcomes ∧
          h = steps.flatMap Step.history ∧ EachAfter (Step.IsRight c) steps) ∧
    ∀ (σ : Type) (server : Server Transport σ) (w : World σ), ∃ outcomes u h,
      Task.run server (Use.allOf c uses) w = (some outcomes, u) ∧
        Reaches (Event.recording (Timed Transport)) (Use.allOf c uses) [] (.done outcomes) h := by
  constructor
  · intro outcomes h
    rw [reaches_iff_along]
    exact Use.along_allOf_iff
  · intro σ server w
    exact Task.exists_history server (Use.isTotal_allOf c uses) w []

end Uses

end Decommission.Blob
