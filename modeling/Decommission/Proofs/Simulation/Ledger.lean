import Decommission.Proofs.Program.History
import Decommission.Proofs.Simulation.Answers
import Decommission.Proofs.Text.Numerals

/-!
What setting up and calls do to the operations of a cloud, to its counts of stores and to its log.
An operation is entered under the next number, and from then on only the looks at it are counted.
-/
namespace Decommission

/-- The handle of the operation that goes on with the deletion. -/
def Deletion.operation? : Deletion → Option String
  | .pending operation => some operation
  | _ => none

/-- The handle of the operation that the answer to a call tells to be started. -/
def ControlPlane.started? : (call : ControlPlane.Call) → Except Failure (ControlPlane.Result call) →
    Option String
  | .delete .., .ok deletion => deletion.operation?
  | .deleteGroup _, .ok deletion => deletion.operation?
  | _, _ => none

namespace Simulation

/-- What is set up in a cloud, and how it is told to behave. -/
inductive SetUp where
  | addGroup (group : String)
  | addPublicAddress (group name : String)
  | addNetworkCard (group name : String) (addresses : List String)
  | addStorageAccount (group name : String)
  | addMachine (group name : String) (cards : List (String × List String))
    (account : Option String)
  | addCustomImage (account : String)
  | setPace (pace : Pace)
  | setPaceOf (kind : ResourceKind) (name : String) (pace : Pace)
  | setGroupPace (pace : Pace)
  | denyKeys
  | takeBlobsDown

namespace Cloud

open Relation (ReflTransGen)

variable {c d e : Cloud}

def setUp (c : Cloud) : SetUp → Cloud
  | .addGroup group => c.addGroup group
  | .addPublicAddress group name => c.addPublicAddress group name
  | .addNetworkCard group name addresses => c.addNetworkCard group name addresses
  | .addStorageAccount group name => c.addStorageAccount group name
  | .addMachine group name cards account => c.addMachine group name cards account
  | .addCustomImage account => c.addCustomImage account
  | .setPace pace => { c with pace }
  | .setPaceOf kind name pace => c.setPaceOf kind name pace
  | .setGroupPace pace => { c with groupPace := pace }
  | .denyKeys => { c with keysDenied := true }
  | .takeBlobsDown => { c with blobsDown := true }

theorem Reachable.setUp (h : c.Reachable) (s : SetUp) : (c.setUp s).Reachable := by
  cases s with
  | addGroup group => exact h.addGroup group
  | addPublicAddress group name => exact h.addPublicAddress group name
  | addNetworkCard group name addresses => exact h.addNetworkCard group name addresses
  | addStorageAccount group name => exact h.addStorageAccount group name
  | addMachine group name cards account => exact h.addMachine group name cards account
  | addCustomImage account => exact h.addCustomImage account
  | setPace pace => exact h.setPace pace
  | setPaceOf kind name pace => exact h.setPaceOf kind name pace
  | setGroupPace pace => exact h.setGroupPace pace
  | denyKeys => exact h.denyKeys
  | takeBlobsDown => exact h.takeBlobsDown

/-- What holds of the empty cloud, and is kept by setting up and by calls, holds of each cloud. -/
@[elab_as_elim]
theorem Reachable.rec_steps {motive : (c : Cloud) → c.Reachable → Prop} (empty : motive {} .empty)
    (setUp : ∀ (c : Cloud) (h : c.Reachable) (s : SetUp), motive c h →
      motive (c.setUp s) (h.setUp s))
    (answer : ∀ (c : Cloud) (h : c.Reachable) (call : Teardown.Call StoreHandle), motive c h →
      motive (c.answer call).2 (h.answer call)) {c : Cloud} (h : c.Reachable) : motive c h := by
  induction h with
  | empty => exact empty
  | addGroup h group ih => exact setUp _ h (.addGroup group) ih
  | addPublicAddress h group name ih => exact setUp _ h (.addPublicAddress group name) ih
  | addNetworkCard h group name addresses ih =>
    exact setUp _ h (.addNetworkCard group name addresses) ih
  | addStorageAccount h group name ih => exact setUp _ h (.addStorageAccount group name) ih
  | addMachine h group name cards account ih =>
    exact setUp _ h (.addMachine group name cards account) ih
  | addCustomImage h account ih => exact setUp _ h (.addCustomImage account) ih
  | setPace h pace ih => exact setUp _ h (.setPace pace) ih
  | setPaceOf h kind name pace ih => exact setUp _ h (.setPaceOf kind name pace) ih
  | setGroupPace h pace ih => exact setUp _ h (.setGroupPace pace) ih
  | denyKeys h ih => exact setUp _ h .denyKeys ih
  | takeBlobsDown h ih => exact setUp _ h .takeBlobsDown ih
  | answer h call ih => exact answer _ h call ih

/-- The clouds have the same counts of stores, and the same log. -/
structure SameLedger (c d : Cloud) : Prop where
  openedStores : d.openedStores = c.openedStores
  closedStores : d.closedStores = c.closedStores
  log : d.log = c.log

/-- The clouds have the same operations too. -/
structure SameCourse (c d : Cloud) : Prop extends SameLedger c d where
  operations : d.operations = c.operations
  operationCount : d.operationCount = c.operationCount

theorem SameCourse.refl (c : Cloud) : SameCourse c c := ⟨⟨rfl, rfl, rfl⟩, rfl, rfl⟩

theorem SameCourse.trans (h : SameCourse c d) (h' : SameCourse d e) : SameCourse c e where
  openedStores := h'.openedStores.trans h.openedStores
  closedStores := h'.closedStores.trans h.closedStores
  log := h'.log.trans h.log
  operations := h'.operations.trans h.operations
  operationCount := h'.operationCount.trans h.operationCount

/-! ### Setting up -/

theorem steps_setUp (c : Cloud) (s : SetUp) : ReflTransGen SetUpStep c (c.setUp s) := by
  cases s with
  | addGroup group => exact .single (.group group)
  | addPublicAddress group name => exact .single (.address group name)
  | addNetworkCard group name addresses => exact steps_addNetworkCard c group name addresses
  | addStorageAccount group name => exact .single (.account group name)
  | addMachine group name cards account => exact steps_addMachine c group name cards account
  | addCustomImage account => exact .single (.image account)
  | _ => exact .single (.settings _ _ _ _ _)

theorem SameCourse.setUpStep (h : SameCourse c d) (hstep : SetUpStep d e) : SameCourse c e := by
  cases hstep <;> exact h.trans ⟨⟨rfl, rfl, rfl⟩, rfl, rfl⟩

theorem course_setUp (c : Cloud) (s : SetUp) : SameCourse c (c.setUp s) :=
  holds_after_steps SameCourse.setUpStep (.refl c) (steps_setUp c s)

/-! ### Calls -/

theorem course_remove (c : Cloud) (target : Target) : SameCourse c (c.remove target) := by
  cases target with
  | resource kind group name => cases kind <;> exact ⟨⟨rfl, rfl, rfl⟩, rfl, rfl⟩
  | group group => exact ⟨⟨rfl, rfl, rfl⟩, rfl, rfl⟩

/-- What a call does to the operations, and the handle of an operation that it starts. -/
inductive OperationStep (c d : Cloud) : Option String → Prop where
  | same (hoperations : d.operations = c.operations)
    (hcount : d.operationCount = c.operationCount) : OperationStep c d none
  /-- A look at an operation that is in progress was counted. -/
  | looked {uri : String} {op : Operation} {n : Nat} (hop : c.operations.get? uri = some op)
    (hleft : op.pollsLeft = some (n + 1))
    (hoperations : d.operations = c.operations.insert uri { op with pollsLeft := some n })
    (hcount : d.operationCount = c.operationCount) : OperationStep c d none
  | started {op : Operation} (hcount : d.operationCount = c.operationCount + 1)
    (hoperations : d.operations = c.operations.insert (operationUri (c.operationCount + 1)) op) :
    OperationStep c d (some (operationUri (c.operationCount + 1)))

theorem SameCourse.operationStep (h : SameCourse c d) : OperationStep c d none :=
  .same h.operations h.operationCount

theorem operationStep_start (c : Cloud) (target : Target) (pace : Pace) :
    OperationStep c (c.start target pace).2 (c.start target pace).1.operation? := by
  cases pace with
  | immediate => exact (course_remove c target).operationStep
  | afterPolls polls result => exact .started rfl rfl
  | never => exact .started rfl rfl

theorem operationStep_poll (c : Cloud) (uri : String) : OperationStep c (c.poll uri).2 none := by
  cases hop : c.operations.get? uri with
  | none =>
    simp only [poll, hop]
    exact .same rfl rfl
  | some op =>
    rcases hleft : op.pollsLeft with _ | _ | n
    · simp only [poll, hop, hleft]
      exact .same rfl rfl
    · simp only [poll, hop, hleft]
      split
      · exact (course_remove c op.target).operationStep
      · exact .same rfl rfl
    · simp only [poll, hop, hleft]
      exact .looked hop hleft rfl rfl

theorem operationStep_answerPlane (c : Cloud) (call : ControlPlane.Call) :
    OperationStep c (c.answerPlane call).2
      (ControlPlane.started? call (c.answerPlane call).1) := by
  cases call with
  | delete kind group name =>
    change OperationStep c (c.delete kind group name).2 (c.delete kind group name).1.operation?
    unfold delete
    split
    · exact operationStep_start c _ _
    · exact .same rfl rfl
  | deleteGroup group =>
    change OperationStep c (c.deleteGroup group).2 (c.deleteGroup group).1.operation?
    unfold deleteGroup
    split
    · exact operationStep_start c _ _
    · exact .same rfl rfl
  | operationStatus uri => exact operationStep_poll c uri
  | _ => exact .same rfl rfl

theorem ledger_answerPlane (c : Cloud) (call : ControlPlane.Call) :
    SameLedger c (c.answerPlane call).2 :=
  ⟨answerPlane_keeps _ (fun c target => (course_remove c target).openedStores)
      (fun _ _ _ => rfl) c call,
    answerPlane_keeps _ (fun c target => (course_remove c target).closedStores)
      (fun _ _ _ => rfl) c call,
    answerPlane_keeps _ (fun c target => (course_remove c target).log) (fun _ _ _ => rfl) c call⟩

/-- The handle of the operation that was started with an answer of the cloud. -/
def startedOf? : Event (Teardown.Service StoreHandle) → Option String
  | ⟨.plane call, answer⟩ => ControlPlane.started? call answer
  | _ => none

theorem OperationStep.of_record {call : Teardown.Call StoreHandle} {started : Option String}
    (h : OperationStep (c.record call) d started) : OperationStep c d started := by
  cases h with
  | same hoperations hcount => exact .same hoperations hcount
  | looked hop hleft hoperations hcount => exact .looked hop hleft hoperations hcount
  | started hcount hoperations => exact .started hcount hoperations

theorem operationStep_answer (c : Cloud) (call : Teardown.Call StoreHandle) :
    OperationStep c (c.answer call).2 (startedOf? ⟨call, (c.answer call).1⟩) := by
  cases call with
  | plane call => exact (operationStep_answerPlane (c.record (.plane call)) call).of_record
  | blob call =>
    exact .same (answerBlob_keeps operations (fun _ _ _ _ => rfl) (c.record (.blob call)) call)
      (answerBlob_keeps operationCount (fun _ _ _ _ => rfl) (c.record (.blob call)) call)

/-- Each call is written at the end of the log. -/
theorem log_answer (c : Cloud) (call : Teardown.Call StoreHandle) :
    (c.answer call).2.log = c.log ++ [call.mapStore StoreHandle.account] := by
  cases call with
  | plane call => exact (ledger_answerPlane (c.record (.plane call)) call).log
  | blob call => exact answerBlob_keeps log (fun _ _ _ _ => rfl) (c.record (.blob call)) call

/-! ### The numbers of operations -/

theorem operationUri_inj {m n : Nat} : operationUri m = operationUri n ↔ m = n := by
  constructor
  · intro h
    exact Text.toString_inj.mp ((String.append_right_inj _).mp h)
  · rintro rfl
    rfl

/-- The operations have been numbered from one, up to their count. -/
def Numbered (c : Cloud) : Prop :=
  ∀ uri op, c.operations.get? uri = some op →
    ∃ n, 0 < n ∧ n ≤ c.operationCount ∧ uri = operationUri n

/-- No operation has the next number. -/
theorem Numbered.get?_next (h : c.Numbered) {n : Nat} (hn : c.operationCount < n) :
    c.operations.get? (operationUri n) = none := by
  refine Option.eq_none_iff_forall_ne_some.mpr fun op hop => ?_
  obtain ⟨m, -, hm, huri⟩ := h _ op hop
  have := operationUri_inj.mp huri
  omega

theorem Numbered.step {started : Option String} (h : c.Numbered)
    (hstep : OperationStep c d started) : d.Numbered := by
  intro uri op hop
  cases hstep with
  | same hoperations hcount =>
    rw [hoperations] at hop
    rw [hcount]
    exact h uri op hop
  | looked hlooked _ hoperations hcount =>
    rw [hoperations, Table.get?_insert] at hop
    rw [hcount]
    split at hop
    · next huri => exact huri ▸ h _ _ hlooked
    · exact h uri op hop
  | started hcount hoperations =>
    rw [hoperations, Table.get?_insert] at hop
    split at hop
    · next huri => exact ⟨_, Nat.succ_pos _, Nat.le_of_eq hcount.symm, huri⟩
    · obtain ⟨n, hpos, hn, huri⟩ := h uri op hop
      exact ⟨n, hpos, by omega, huri⟩

theorem Reachable.numbered (h : c.Reachable) : c.Numbered := by
  induction h using Reachable.rec_steps with
  | empty => simp [Numbered, Table.get?]
  | setUp c _ s ih =>
    exact ih.step (course_setUp c s).operationStep
  | answer c _ call ih => exact ih.step (operationStep_answer c call)

end Cloud

end Simulation

end Decommission
