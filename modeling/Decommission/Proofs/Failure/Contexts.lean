import Decommission.Blob.Client
import Decommission.ControlPlane.Client
import Mathlib.Tactic.SplitIfs

/-!
What a failure is taken for, whatever contexts are around it. Each decision searches the chain of
the failure in its own way, and none of them stops at a context.
-/
namespace Decommission

/-- What is absent is not asked for again. -/
theorem ServiceError.isRetryable_of_isNotFound {error : ServiceError}
    (h : error.isNotFound = true) : error.isRetryable = false := by
  cases error with
  | notFound kind id => rfl
  | _ => cases h

/-- A member of the chain of a failure: a context, its cause, or what the cause itself goes back
to. -/
inductive Link where
  | context (text : String)
  | cause (cause : Cause)
  | source (text : String)
  deriving DecidableEq, Repr

namespace Link

def text : Link → String
  | .context told => told
  | .cause found => found.message
  | .source told => told

def service? : Link → Option ServiceError
  | .cause (.service error) => some error
  | _ => none

/-- A reply that cannot be decoded is a fault of the transport too. -/
def transport? : Link → Option TransportFault
  | .cause (.transport fault) => some fault
  | .cause (.document _) => some .decode
  | _ => none

def isContext : Link → Bool
  | .context _ => true
  | _ => false

/-- Whether an error of the blob service is worth another attempt. -/
def blobRetry? : Link → Option Bool
  | .cause (.blobStatus _ _ status _) => some (status == 429 || 500 ≤ status)
  | .cause (.blobClosed _) => some false
  | _ => none

end Link

namespace Failure

variable {α : Type} {f g : Failure}

/-- The members from the outermost inward. -/
def chain (f : Failure) : List Link :=
  f.contexts.map .context ++ .cause f.cause :: (f.cause.detail?.map Link.source).toList

/-- The failure with contexts put around it one after the other. -/
def within (f : Failure) (contexts : List String) : Failure := contexts.foldl inContext f

/-- Each failure is a cause with contexts put around it. -/
@[elab_as_elim]
theorem rec_contexts {motive : Failure → Prop} (of : ∀ cause, motive (.of cause))
    (inContext : ∀ f context, motive f → motive (f.inContext context)) (f : Failure) :
    motive f := by
  obtain ⟨contexts, cause⟩ := f
  induction contexts with
  | nil => exact of cause
  | cons context contexts ih => exact inContext _ context ih

/-- What no single context changes, no contexts change. -/
theorem eq_within {verdict : Failure → α}
    (hcontext : ∀ f context, verdict (f.inContext context) = verdict f) (f : Failure)
    (contexts : List String) : verdict (f.within contexts) = verdict f := by
  induction contexts generalizing f with
  | nil => rfl
  | cons context contexts ih => exact (ih (f.inContext context)).trans (hcontext f context)

/-- The chain is the one that is reported. -/
theorem map_text_chain (f : Failure) :
    f.chain.map Link.text = f.messages ++ f.cause.detail?.toList := by
  induction f using rec_contexts with
  | of cause => cases hdetail : cause.detail? <;> simp [chain, messages, of, hdetail, Link.text]
  | inContext f context ih => exact congrArg (List.cons context) ih

/-! ### The searches -/

/-- The error of the control plane is the first in the chain. -/
theorem service?_eq_findSome? (f : Failure) : f.service? = f.chain.findSome? Link.service? := by
  induction f using rec_contexts with
  | of cause =>
    cases cause with
    | document fault => cases fault <;> rfl
    | _ => rfl
  | inContext f context ih => exact ih

/-- A failure is transient if any fault of the transport in the chain is. -/
theorem isTransient_eq_any (f : Failure) :
    f.isTransient = (f.chain.filterMap Link.transport?).any TransportFault.isTransient := by
  induction f using rec_contexts with
  | of cause =>
    cases cause with
    | transport fault => exact (Bool.or_false _).symm
    | document fault => cases fault <;> rfl
    | _ => rfl
  | inContext f context ih => exact ih

/-- The first member of the chain that is no context decides if it is an error of the blob service,
and else the faults of the transport do. -/
theorem blob_isRetryable_eq (f : Failure) :
    Blob.isRetryable f = ((f.chain.find? fun l => !l.isContext).bind Link.blobRetry?).getD
      ((f.chain.filterMap Link.transport?).any TransportFault.isTransient) := by
  induction f using rec_contexts with
  | of cause =>
    rw [← isTransient_eq_any]
    cases cause <;> rfl
  | inContext f context ih => exact ih

/-! ### The verdicts -/

/-- The failures are taken for the same by all that decide about them. -/
structure SameVerdicts (f g : Failure) : Prop where
  service : f.service? = g.service?
  notFound : f.isNotFound = g.isNotFound
  transient : f.isTransient = g.isTransient
  ignored : ∀ α : Type, ignoreNotFound (.error f : Except Failure α) = .ok none ↔
    ignoreNotFound (.error g : Except Failure α) = .ok none
  planeRetry : ControlPlane.isRetryable f = ControlPlane.isRetryable g
  blobRetry : Blob.isRetryable f = Blob.isRetryable g
  polled : ControlPlane.statusOfFailure? f = ControlPlane.statusOfFailure? g

theorem ignoreNotFound_eq_none :
    ignoreNotFound (.error f : Except Failure α) = .ok none ↔ f.isNotFound = true := by
  rw [ignoreNotFound]
  split_ifs with h <;> simp [h]

/-- All is decided by the three searches. -/
theorem SameVerdicts.of_searches (hservice : f.service? = g.service?)
    (htransient : f.isTransient = g.isTransient)
    (hblob : Blob.isRetryable f = Blob.isRetryable g) : SameVerdicts f g := by
  have hnotFound : f.isNotFound = g.isNotFound := by rw [isNotFound, isNotFound, hservice]
  constructor
  · exact hservice
  · exact hnotFound
  · exact htransient
  · intro α
    rw [ignoreNotFound_eq_none, ignoreNotFound_eq_none, hnotFound]
  · rw [ControlPlane.isRetryable, ControlPlane.isRetryable, hservice, htransient]
  · exact hblob
  · rw [ControlPlane.statusOfFailure?, ControlPlane.statusOfFailure?, hservice]

theorem sameVerdicts_within (f : Failure) (contexts : List String) :
    SameVerdicts (f.within contexts) f :=
  .of_searches (eq_within (fun _ _ => rfl) f contexts) (eq_within (fun _ _ => rfl) f contexts)
    (eq_within (fun _ _ => rfl) f contexts)

theorem not_retried_of_isNotFound (h : f.isNotFound = true) :
    ControlPlane.isRetryable f = false := by
  obtain ⟨error, hservice, herror⟩ := (Option.any_eq_true _ _).mp h
  rw [ControlPlane.isRetryable, hservice]
  exact ServiceError.isRetryable_of_isNotFound herror

/-- A failure is taken for the same, whatever contexts are put around its cause. Each decision is
that of a search along the chain that is reported: for the first error of the control plane, for
any fault of the transport, or for what is under the contexts. None takes a failure for absence and
sends the request again. -/
theorem verdicts_through_contexts (cause : Cause) (contexts : List String) :
    SameVerdicts ((Failure.of cause).within contexts) (Failure.of cause) ∧
    (∀ f : Failure,
      f.chain.map Link.text = f.messages ++ f.cause.detail?.toList ∧
      f.service? = f.chain.findSome? Link.service? ∧
      f.isTransient = (f.chain.filterMap Link.transport?).any TransportFault.isTransient ∧
      Blob.isRetryable f = ((f.chain.find? fun l => !l.isContext).bind Link.blobRetry?).getD
        ((f.chain.filterMap Link.transport?).any TransportFault.isTransient)) ∧
    ∀ (f : Failure) (α : Type), ¬(ignoreNotFound (.error f : Except Failure α) = .ok none ∧
      ControlPlane.isRetryable f = true) := by
  refine ⟨sameVerdicts_within _ contexts, fun f => ⟨map_text_chain f, service?_eq_findSome? f,
    isTransient_eq_any f, blob_isRetryable_eq f⟩, ?_⟩
  rintro f α ⟨hignored, hretried⟩
  rw [not_retried_of_isNotFound (ignoreNotFound_eq_none.mp hignored)] at hretried
  cases hretried

end Failure

end Decommission
