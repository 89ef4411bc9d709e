import Decommission.Proofs.Program.Transcript
import Decommission.Teardown.Sequence

/-! The calls that the parts of a removal may come to make, whatever they are answered. -/
namespace Decommission.Teardown

open Program

variable {σ α β : Type} {P : Call σ → Prop} {group : String}

/-- A predicate on calls that holds of all those to the control plane that are about nothing but
cards, deletions and the content of one group. -/
structure Permits (P : Call σ → Prop) (group : String) : Prop where
  card : ∀ name, P (.plane (.getNetworkCard group name))
  delete : ∀ kind name, P (.plane (.delete kind group name))
  look : ∀ operation, P (.plane (.operationStatus operation))
  list : ∀ kind, P (.plane (.list kind group))
  deleteGroup : P (.plane (.deleteGroup group))

/-- Each call that the action may come to make is one of which `P` holds. -/
def Action.Makes (P : Call σ → Prop) (x : Action σ α) : Prop := Task.Makes (I := Service σ) P x.run

theorem makes_act {c : Call σ} {result : Answer σ c → Except Error α} (h : P c) :
    Action.Makes P (ExceptT.mk ((Task.act (I := Service σ) c).bind fun answer =>
      .done (result answer))) :=
  ⟨fun _ hx => Option.some.inj hx ▸ h, fun _ => trivial⟩

theorem makes_bind {x : Action σ α} {f : α → Action σ β} (hx : x.Makes P)
    (hf : ∀ a, (f a).Makes P) : Action.Makes P (x >>= f) := by
  refine Task.Makes.bind hx fun result => ?_
  match result with
  | .ok a => exact hf a
  | .error e => trivial

/-- Waiting makes the calls of its check. -/
theorem makes_waitFor {I : Interface} {Q : I.Call → Prop} {wait : WaitSettings} {resource : String}
    {check : Task I (Except Failure (Option α))} (hcheck : check.Makes Q) :
    (waitFor wait resource check).Makes Q := by
  have hpoll (limit : Nat) (w : Waiting) : (Waiting.poll wait resource check limit w).Makes Q := by
    induction limit generalizing w with
    | zero => trivial
    | succ limit ih =>
      refine ⟨nofun, fun asked => ?_⟩
      change Task.Makes Q (if asked = true then _ else _)
      split
      · trivial
      split
      · trivial
      refine (hcheck.withinFrom _ _).bind fun cut => ?_
      match cut with
      | .expired | .stopped | .finished _ (.ok (some _)) | .finished _ (.error _) => trivial
      | .finished elapsed (.ok none) =>
        refine Task.Makes.bind ?_ fun wish => ⟨nofun, fun rested => ?_⟩
        · rw [Growth.pick]
          split
          · trivial
          · exact ⟨nofun, fun _ => trivial⟩
        · match rested with
          | none => trivial
          | some rested => exact ih _
  exact hpoll _ _

section

variable {wait : WaitSettings}

theorem makes_settle {resource : String} {deletion : Deletion}
    (hlook : ∀ operation, P (.plane (.operationStatus operation))) :
    Action.Makes P (settle wait resource deletion) := by
  match deletion with
  | .alreadyAbsent | .deleted => trivial
  | .pending operation =>
    have hcheck : (checkOperation (σ := σ) operation).Makes P := by
      refine ⟨fun _ hx => Option.some.inj hx ▸ hlook operation, fun answer => ?_⟩
      match answer with
      | .ok status => trivial
      | .error f => trivial
    refine (makes_waitFor hcheck).bind fun result => ?_
    match result with
    | .ok status => trivial
    | .error e => trivial

theorem makes_requestDelete {kind : ResourceKind} {name : String}
    (h : P (.plane (.delete kind group name))) :
    (requestDelete kind group name).Makes P :=
  makes_bind (makes_act h) fun _ => trivial

theorem makes_deleteAndSettle (h : Permits P group) {kind : ResourceKind} {name : String} :
    (deleteAndSettle wait kind group name).Makes P :=
  makes_bind (makes_requestDelete (h.delete kind name)) fun _ => makes_settle h.look

theorem makes_deleteAddresses (h : Permits P group) {names : List String} :
    (deleteAddresses group names).Makes P := by
  induction names with
  | nil => trivial
  | cons name names ih =>
    exact makes_bind (makes_requestDelete (h.delete .publicAddress name)) fun _ => ih

theorem makes_deleteNetworkCards (h : Permits P group) {cards : List Reference} :
    (deleteNetworkCards wait group cards).Makes P := by
  induction cards with
  | nil => trivial
  | cons r cards ih =>
    refine makes_bind (makes_act (h.card r.name)) fun found => ?_
    match found with
    | none => exact ih
    | some card =>
      refine makes_bind (makes_deleteAndSettle h) fun settled => ?_
      match settled with
      | true => exact makes_bind (makes_deleteAddresses h) fun _ => ih
      | false => trivial

theorem makes_isEmptyOf (h : Permits P group) {kinds : List ResourceKind} :
    (isEmptyOf group kinds).Makes P := by
  induction kinds with
  | nil => trivial
  | cons kind kinds ih =>
    refine makes_bind (makes_act (h.list kind)) fun names => ?_
    match names with
    | [] => exact ih
    | _ :: _ => trivial

theorem makes_deleteGroupIfEmpty (h : Permits P group) :
    (deleteGroupIfEmpty wait group).Makes P := by
  refine makes_bind (makes_isEmptyOf h) fun empty => ?_
  match empty with
  | false => trivial
  | true =>
    refine makes_bind (makes_act h.deleteGroup) fun answer => ?_
    refine makes_bind (makes_settle h.look) fun settled => ?_
    match settled with
    | true => trivial
    | false => trivial

end

theorem makes_deleteStorage
    (hdelete : ∀ account, P (.plane (.delete .storageAccount group account)))
    (hkeys : ∀ account, P (.plane (.getStorageKeys group account))) (hblob : ∀ c, P (.blob c))
    {container : String} {machine : Machine} :
    (deleteStorage container group machine).Makes P := by
  rw [deleteStorage]
  cases machine.storage.account? with
  | none => trivial
  | some account =>
    refine makes_bind (makes_act (hkeys account)) fun answer => ?_
    cases answer.join with
    | none => trivial
    | some keys =>
      refine makes_bind (makes_act (hblob _)) fun store => ?_
      have hclean : (cleanAccount container group account store).Makes P := by
        refine makes_bind (makes_act (hblob _)) fun _ => ?_
        refine makes_bind (makes_act (hblob _)) fun captured => ?_
        match captured with
        | true => trivial
        | false => exact makes_bind (makes_requestDelete (hdelete account)) fun _ => trivial
      exact Task.Makes.bind hclean fun _ => makes_act (hblob _)

end Decommission.Teardown
