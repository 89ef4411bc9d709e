import Decommission.Proofs.Simulation.Ledger
import Mathlib.Logic.Relation

/-!
What an operation does after it has settled. It keeps its state for good, and each look at one that
has succeeded carries its deletion out.
-/
namespace Decommission.Simulation

/-- What is to be deleted is there. -/
def Target.IsIn (c : Cloud) : Target → Prop
  | .resource kind inGroup name => (kind, inGroup, name) ∈ c.resources
  | .group name => name ∈ c.groups

namespace Cloud

variable {c d : Cloud} {uri : String} {op : Operation} {status : OperationStatus}

/-- Something is set up, or a call is answered. -/
inductive Step (c : Cloud) : Cloud → Prop where
  | setUp (s : SetUp) : Step c (c.setUp s)
  | answer (call : Teardown.Call StoreHandle) : Step c (c.answer call).2

/-- The cloud has come to this in any number of steps. -/
def ComesTo (c d : Cloud) : Prop := Relation.ReflTransGen Step c d

theorem Reachable.step (hc : c.Reachable) (h : Step c d) : d.Reachable := by
  cases h with
  | setUp s => exact hc.setUp s
  | answer call => exact hc.answer call

/-- The operation of the handle has settled. -/
structure IsSettled (c : Cloud) (uri : String) (op : Operation) : Prop where
  listed : c.operations.get? uri = some op
  pollsLeft : op.pollsLeft = some 0

theorem IsSettled.of_operations (h : c.IsSettled uri op) (hsame : d.operations = c.operations) :
    d.IsSettled uri op :=
  ⟨hsame ▸ h.listed, h.pollsLeft⟩

/-- Neither a look at an operation nor a new one takes the place of one that has settled. -/
theorem IsSettled.operationStep {started : Option String} (h : c.IsSettled uri op)
    (hc : c.Numbered) (hstep : OperationStep c d started) : d.IsSettled uri op := by
  cases hstep with
  | same hoperations _ => exact h.of_operations hoperations
  | @looked uri' op' n hop hleft hoperations _ =>
    -- only of an operation with looks left is a look counted
    refine ⟨?_, h.pollsLeft⟩
    rw [hoperations, Table.get?_insert, if_neg, h.listed]
    rintro rfl
    have hsame : op' = op := Option.some.inj (hop.symm.trans h.listed)
    rw [hsame, h.pollsLeft] at hleft
    cases hleft
  | started _ hoperations =>
    -- no operation has the number of the new one
    refine ⟨?_, h.pollsLeft⟩
    rw [hoperations, Table.get?_insert, if_neg, h.listed]
    rintro rfl
    have hnone := hc.get?_next (Nat.lt_succ_self c.operationCount)
    rw [h.listed] at hnone
    cases hnone

theorem IsSettled.step (h : c.IsSettled uri op) (hc : c.Reachable) (hstep : Step c d) :
    d.IsSettled uri op := by
  cases hstep with
  | setUp s => exact h.of_operations (course_setUp c s).operations
  | answer call => exact h.operationStep hc.numbered (operationStep_answer c call)

theorem IsSettled.comesTo (h : c.IsSettled uri op) (hc : c.Reachable) (hlater : ComesTo c d) :
    d.Reachable ∧ d.IsSettled uri op := by
  induction hlater with
  | refl => exact ⟨hc, h⟩
  | tail _ hstep ih => exact ⟨ih.1.step hstep, ih.2.step ih.1 hstep⟩

/-! ### Looks -/

abbrev look (uri : String) : Teardown.Call StoreHandle := .plane (.operationStatus uri)

theorem IsSettled.answer_look (h : c.IsSettled uri op) :
    (c.answer (look uri)).1 = .ok op.result ∧
      SameStock (if op.result = .succeeded then c.remove op.target else c)
        (c.answer (look uri)).2 := by
  have hrecord := same_record c (look uri)
  have hop : (c.record (look uri)).operations.get? uri = some op := h.listed
  change ((c.record _).poll uri).1 = _ ∧ SameStock _ ((c.record _).poll uri).2
  simp only [poll, hop, h.pollsLeft, true_and]
  split
  · exact hrecord.remove
  · exact hrecord

/-- Only an operation that has settled is told to be in a terminal state. -/
theorem exists_isSettled (hstatus : (c.answer (look uri)).1 = .ok status)
    (hterminal : status.isTerminal = true) : ∃ op, c.IsSettled uri op ∧ op.result = status := by
  have hprogress (h : Except.ok .inProgress = (Except.ok status : Except Failure _)) : False := by
    cases h
    cases hterminal
  change ((c.record (look uri)).poll uri).1 = _ at hstatus
  cases hop : c.operations.get? uri with
  | none =>
    have hrecord : (c.record (look uri)).operations.get? uri = none := hop
    simp only [poll, hrecord] at hstatus
    cases hstatus
  | some op =>
    have hrecord : (c.record (look uri)).operations.get? uri = some op := hop
    rcases hleft : op.pollsLeft with _ | _ | n
    · simp only [poll, hrecord, hleft] at hstatus
      exact (hprogress hstatus).elim
    · simp only [poll, hrecord, hleft] at hstatus
      exact ⟨op, ⟨hop, hleft⟩, Except.ok.inj hstatus⟩
    · simp only [poll, hrecord, hleft] at hstatus
      exact (hprogress hstatus).elim

theorem without_eq_self {α : Type} [DecidableEq α] {a : α} {l : List α} :
    without a l = l ↔ a ∉ l := by
  rw [without, List.filter_eq_self]
  constructor
  · intro h ha
    exact absurd (h a ha) (by simp)
  · intro h x hx
    exact decide_eq_true fun hxa => h (hxa ▸ hx)

/-- To carry out a deletion changes nothing just if what is to be deleted is not there. -/
theorem remove_keeps_iff (target : Target) :
    ((c.remove target).groups = c.groups ∧ (c.remove target).resources = c.resources) ↔
      ¬target.IsIn c := by
  cases target with
  | group name => exact (and_iff_left rfl).trans without_eq_self
  | resource kind group name =>
    have hresources : (c.remove (.resource kind group name)).resources =
        without (kind, group, name) c.resources := by
      cases kind <;> rfl
    rw [hresources]
    exact (and_iff_right groups_remove).trans without_eq_self

/-- An operation that was told to be in a terminal state is told to be in it at each later look. If
it has failed, nothing changes with that. If it has succeeded, its deletion is carried out with
each look, so that something changes just if what it deletes has come to be there again. -/
theorem settled_status_stays (hc : c.Reachable)
    (hstatus : (c.answer (look uri)).1 = .ok status) (hterminal : status.isTerminal = true)
    (hlater : ComesTo (c.answer (look uri)).2 d) :
    (d.answer (look uri)).1 = .ok status ∧
      ∃ op, c.operations.get? uri = some op ∧
        SameStock (if status = .succeeded then d.remove op.target else d)
          (d.answer (look uri)).2 ∧
        ((d.answer (look uri)).2.groups = d.groups ∧
            (d.answer (look uri)).2.resources = d.resources ↔
          ¬(status = .succeeded ∧ op.target.IsIn d)) := by
  obtain ⟨op, hop, rfl⟩ := exists_isSettled hstatus hterminal
  have hnext := hop.step hc (.answer (look uri))
  obtain ⟨-, hsettled⟩ := hnext.comesTo (hc.answer (look uri)) hlater
  obtain ⟨hagain, hstock⟩ := hsettled.answer_look
  refine ⟨hagain, op, hop.listed, hstock, ?_⟩
  rw [hstock.groups, hstock.resources]
  by_cases hsucceeded : op.result = .succeeded
  · rw [if_pos hsucceeded, remove_keeps_iff, and_iff_right hsucceeded]
  · simp [hsucceeded]

/-- A cloud in which an address is to be deleted at the first look. -/
def awaited : Cloud :=
  (((({} : Cloud).setUp (.addPublicAddress "g" "a")).setUp
    (.setPace (.afterPolls 0 .succeeded))).answer (.plane (.delete .publicAddress "g" "a"))).2

theorem reachable_awaited : awaited.Reachable :=
  .answer (.setUp (.setUp .empty _) _) _

theorem settled_status_stays_added_again :
    ∃ d, ComesTo (awaited.answer (look (operationUri 1))).2 d ∧
      (.publicAddress, "g", "a") ∈ d.resources ∧
      (d.answer (look (operationUri 1))).1 = .ok .succeeded ∧
      ¬((d.answer (look (operationUri 1))).2.groups = d.groups ∧
        (d.answer (look (operationUri 1))).2.resources = d.resources) := by
  have hlater : ComesTo (awaited.answer (look (operationUri 1))).2
      ((awaited.answer (look (operationUri 1))).2.setUp (.addPublicAddress "g" "a")) :=
    .single (.setUp _)
  have hfirst : (awaited.answer (look (operationUri 1))).1 = .ok .succeeded := rfl
  obtain ⟨hagain, op, hop, -, hchanged⟩ :=
    settled_status_stays reachable_awaited hfirst rfl hlater
  obtain rfl : op = ⟨.resource .publicAddress "g" "a", some 0, .succeeded⟩ :=
    Option.some.inj (hop.symm.trans rfl)
  have hin : (.publicAddress, "g", "a") ∈
      ((awaited.answer (look (operationUri 1))).2.setUp (.addPublicAddress "g" "a")).resources := by
    decide
  exact ⟨_, hlater, hin, hagain, fun hsame => hchanged.mp hsame ⟨rfl, hin⟩⟩

/-- A deletion is not carried out only once: an address that is added again is lost by a look at the
operation that deleted the one before. -/
theorem settled_deletion_repeats :
    ¬∀ (c d : Cloud) (uri : String) (status : OperationStatus), c.Reachable →
      (c.answer (look uri)).1 = .ok status → status.isTerminal = true →
      ComesTo (c.answer (look uri)).2 d →
      (d.answer (look uri)).1 = .ok status ∧ (d.answer (look uri)).2.groups = d.groups ∧
        (d.answer (look uri)).2.resources = d.resources := by
  intro hclaim
  obtain ⟨-, -, hsame⟩ := hclaim awaited _ (operationUri 1) .succeeded reachable_awaited rfl rfl
    (.single (.setUp (.addPublicAddress "g" "a")))
  exact absurd hsame (by decide)

end Cloud

end Decommission.Simulation
