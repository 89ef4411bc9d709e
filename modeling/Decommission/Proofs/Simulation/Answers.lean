import Decommission.Proofs.Program.Surroundings
import Decommission.Proofs.Simulation.Stock

/-!
How the calls change the stock of a cloud: a call takes at most one thing away, and nothing is ever
added by a call.
-/
namespace Decommission.Simulation.Cloud

variable {c d e : Cloud}

/-- What the call may carry out the deletion of. -/
inductive Carries (c : Cloud) : Teardown.Call StoreHandle → Target → Prop where
  | delete (kind : ResourceKind) (group name : String) :
    Carries c (.plane (.delete kind group name)) (.resource kind group name)
  | deleteGroup (group : String) : Carries c (.plane (.deleteGroup group)) (.group group)
  | poll {uri : String} {op : Operation} (h : c.operations.get? uri = some op) :
    Carries c (.plane (.operationStatus uri)) op.target

/-- How a deletion that is started goes on. -/
inductive Started (c : Cloud) (target : Target) : Pace → Deletion → Cloud → Prop where
  | deleted {d : Cloud} {pace : Pace} (hpace : pace = .immediate)
    (h : SameStock (c.remove target) d) : Started c target pace .deleted d
  | pending {d : Cloud} {pace : Pace} {uri : String} {op : Operation} (hpace : pace ≠ .immediate)
    (h : SameStock c d) (hop : d.operations.get? uri = some op) (htarget : op.target = target) :
    Started c target pace (.pending uri) d

theorem started_start (target : Target) (pace : Pace) :
    Started c target pace (c.start target pace).1 (c.start target pace).2 := by
  have hop (op : Operation) : (c.operations.insert (operationUri (c.operationCount + 1)) op).get?
      (operationUri (c.operationCount + 1)) = some op := by
    rw [Table.get?_insert, if_pos rfl]
  cases pace with
  | immediate => exact .deleted rfl (.refl _)
  | afterPolls polls result => exact .pending (by simp) ⟨rfl, rfl, rfl, rfl, rfl, rfl⟩ (hop _) rfl
  | never => exact .pending (by simp) ⟨rfl, rfl, rfl, rfl, rfl, rfl⟩ (hop _) rfl

theorem SameStock.started {target : Target} {pace : Pace} {deletion : Deletion}
    (h : SameStock c d) (hd : Started d target pace deletion e) :
    Started c target pace deletion e := by
  cases hd with
  | deleted hpace hd => exact .deleted hpace (h.remove.trans hd)
  | pending hpace hd hop htarget => exact .pending hpace (h.trans hd) hop htarget

theorem same_record (c : Cloud) (call : Teardown.Call StoreHandle) : SameStock c (c.record call) :=
  ⟨rfl, rfl, rfl, rfl, rfl, rfl⟩

/-- A deletion is started if the resource is there, and else nothing is done. -/
theorem answer_delete (c : Cloud) (kind : ResourceKind) (group name : String) :
    ∃ deletion, (c.answer (.plane (.delete kind group name))).1 = .ok deletion ∧
      ((kind, group, name) ∉ c.resources ∧ deletion = .alreadyAbsent ∧
        SameStock c (c.answer (.plane (.delete kind group name))).2 ∨
      (kind, group, name) ∈ c.resources ∧
        Started c (.resource kind group name) ((c.paces.get? (kind, name)).getD c.pace) deletion
          (c.answer (.plane (.delete kind group name))).2) := by
  have hrecord := same_record c (.plane (.delete kind group name))
  change ∃ deletion, Except.ok ((c.record _).delete kind group name).1 = Except.ok deletion ∧
    (_ ∧ _ ∧ SameStock c ((c.record _).delete kind group name).2 ∨
      _ ∧ Started c _ _ deletion ((c.record _).delete kind group name).2)
  refine ⟨_, rfl, ?_⟩
  by_cases h : (kind, group, name) ∈ c.resources
  · have hcontains :
        (c.record (.plane (.delete kind group name))).contains kind group name = true :=
      decide_eq_true h
    rw [Cloud.delete, if_pos hcontains]
    exact .inr ⟨h, hrecord.started (started_start _ _)⟩
  · have hcontains :
        ¬(c.record (.plane (.delete kind group name))).contains kind group name = true :=
      fun h' => h (of_decide_eq_true h')
    rw [Cloud.delete, if_neg hcontains]
    exact .inl ⟨h, rfl, hrecord⟩

/-- The deletion of a group is started if the group is there, and else nothing is done. -/
theorem answer_deleteGroup (c : Cloud) (group : String) :
    ∃ deletion, (c.answer (.plane (.deleteGroup group))).1 = .ok deletion ∧
      (group ∉ c.groups ∧ deletion = .alreadyAbsent ∧
        SameStock c (c.answer (.plane (.deleteGroup group))).2 ∨
      group ∈ c.groups ∧ Started c (.group group) c.groupPace deletion
        (c.answer (.plane (.deleteGroup group))).2) := by
  have hrecord := same_record c (.plane (.deleteGroup group))
  change ∃ deletion, Except.ok ((c.record _).deleteGroup group).1 = Except.ok deletion ∧
    (_ ∧ _ ∧ SameStock c ((c.record _).deleteGroup group).2 ∨
      _ ∧ Started c _ _ deletion ((c.record _).deleteGroup group).2)
  refine ⟨_, rfl, ?_⟩
  by_cases h : group ∈ c.groups
  · have hgroup : (c.record (.plane (.deleteGroup group))).hasGroup group = true := decide_eq_true h
    rw [Cloud.deleteGroup, if_pos hgroup]
    exact .inr ⟨h, hrecord.started (started_start _ _)⟩
  · have hgroup : ¬(c.record (.plane (.deleteGroup group))).hasGroup group = true :=
      fun h' => h (of_decide_eq_true h')
    rw [Cloud.deleteGroup, if_neg hgroup]
    exact .inl ⟨h, rfl, hrecord⟩

/-- A look at an operation changes the stock only if it tells that the operation has succeeded. -/
theorem answer_poll {uri : String} {op : Operation} (h : c.operations.get? uri = some op) :
    ((c.answer (.plane (.operationStatus uri))).1 = .ok .inProgress ∧
      SameStock c (c.answer (.plane (.operationStatus uri))).2 ∧
      ∃ op', (c.answer (.plane (.operationStatus uri))).2.operations.get? uri = some op' ∧
        op'.target = op.target) ∨
    ((c.answer (.plane (.operationStatus uri))).1 = .ok .succeeded ∧
      SameStock (c.remove op.target) (c.answer (.plane (.operationStatus uri))).2) ∨
    ((c.answer (.plane (.operationStatus uri))).1 = .ok .failed ∧
      SameStock c (c.answer (.plane (.operationStatus uri))).2) := by
  have hrecord := same_record c (.plane (.operationStatus uri))
  have hop : (c.record (.plane (.operationStatus uri))).operations.get? uri = some op := h
  change (((c.record _).poll uri).1 = _ ∧ SameStock c ((c.record _).poll uri).2 ∧
      ∃ op', ((c.record _).poll uri).2.operations.get? uri = some op' ∧ _) ∨
    (((c.record _).poll uri).1 = _ ∧ SameStock _ ((c.record _).poll uri).2) ∨
    (((c.record _).poll uri).1 = _ ∧ SameStock c ((c.record _).poll uri).2)
  obtain ⟨target, pollsLeft, result⟩ := op
  simp only [poll, hop]
  rcases pollsLeft with _ | _ | n
  · exact .inl ⟨rfl, hrecord, _, hop, rfl⟩
  -- the last look carries the deletion out, if it is to succeed
  · cases result with
    | inProgress => exact .inl ⟨rfl, hrecord, _, hop, rfl⟩
    | succeeded => exact .inr (.inl ⟨rfl, hrecord.remove⟩)
    | failed => exact .inr (.inr ⟨rfl, hrecord⟩)
  · refine .inl ⟨rfl, ⟨rfl, rfl, rfl, rfl, rfl, rfl⟩, ⟨target, some n, result⟩, ?_, rfl⟩
    exact (Table.get?_insert _ _ _ _).trans (if_pos rfl)

theorem answer_poll_none {uri : String} (h : c.operations.get? uri = none) :
    ∃ f, (c.answer (.plane (.operationStatus uri))).1 = .error f ∧
      SameStock c (c.answer (.plane (.operationStatus uri))).2 := by
  have hnone : (c.record (.plane (.operationStatus uri))).operations.get? uri = none := h
  change ∃ f, ((c.record _).poll uri).1 = .error f ∧ SameStock c ((c.record _).poll uri).2
  simp only [poll, hnone]
  exact ⟨_, rfl, same_record c _⟩

theorem Started.stock {target : Target} {pace : Pace} {deletion : Deletion}
    (h : Started c target pace deletion d) : SameStock c d ∨ SameStock (c.remove target) d := by
  cases h with
  | deleted _ h => exact .inr h
  | pending _ h _ _ => exact .inl h

/-- A call carries out one deletion at most, and changes the stock in no other way. -/
theorem answer_stock (c : Cloud) (call : Teardown.Call StoreHandle) :
    SameStock c (c.answer call).2 ∨
      ∃ target, Carries c call target ∧ SameStock (c.remove target) (c.answer call).2 := by
  match call with
  | .plane (.getMachine ..) => exact .inl (same_record c _)
  | .plane (.getNetworkCard ..) => exact .inl (same_record c _)
  | .plane (.getStorageKeys ..) => exact .inl (same_record c _)
  | .plane (.list ..) => exact .inl (same_record c _)
  | .plane (.delete kind group name) =>
    obtain ⟨deletion, -, ⟨-, -, h⟩ | ⟨-, h⟩⟩ := answer_delete c kind group name
    · exact .inl h
    · exact h.stock.imp_right fun h => ⟨_, .delete kind group name, h⟩
  | .plane (.deleteGroup group) =>
    obtain ⟨deletion, -, ⟨-, -, h⟩ | ⟨-, h⟩⟩ := answer_deleteGroup c group
    · exact .inl h
    · exact h.stock.imp_right fun h => ⟨_, .deleteGroup group, h⟩
  | .plane (.operationStatus uri) =>
    cases hop : c.operations.get? uri with
    | none =>
      obtain ⟨f, -, h⟩ := answer_poll_none hop
      exact .inl h
    | some op =>
      obtain ⟨-, h, -⟩ | ⟨-, h⟩ | ⟨-, h⟩ := answer_poll hop
      · exact .inl h
      · exact .inr ⟨_, .poll hop, h⟩
      · exact .inl h
  | .blob (.openStore ..) => exact .inl ⟨rfl, rfl, rfl, rfl, rfl, rfl⟩
  | .blob (.deleteContainer store container) =>
    refine .inl ?_
    simp only [answer, answerBlob]
    split
    · exact same_record c _
    · exact ⟨rfl, rfl, rfl, rfl, rfl, rfl⟩
  | .blob (.customImageExists store) =>
    refine .inl ?_
    simp only [answer, answerBlob]
    split <;> exact same_record c _
  | .blob (.close _) => exact .inl ⟨rfl, rfl, rfl, rfl, rfl, rfl⟩

theorem Consistent.answer (h : c.Consistent) (call : Teardown.Call StoreHandle) :
    (c.answer call).2.Consistent := by
  rcases answer_stock c call with hsame | ⟨target, -, hsame⟩
  · exact h.of_same hsame
  · exact (h.remove target).of_same hsame

/-- The clouds that come of setting up, and of calls, in any order. -/
inductive Reachable : Cloud → Prop where
  | empty : Reachable {}
  | addGroup {c : Cloud} (h : Reachable c) (group : String) : Reachable (c.addGroup group)
  | addPublicAddress {c : Cloud} (h : Reachable c) (group name : String) :
    Reachable (c.addPublicAddress group name)
  | addNetworkCard {c : Cloud} (h : Reachable c) (group name : String) (addresses : List String) :
    Reachable (c.addNetworkCard group name addresses)
  | addStorageAccount {c : Cloud} (h : Reachable c) (group name : String) :
    Reachable (c.addStorageAccount group name)
  | addMachine {c : Cloud} (h : Reachable c) (group name : String)
    (cards : List (String × List String)) (account : Option String) :
    Reachable (c.addMachine group name cards account)
  | addCustomImage {c : Cloud} (h : Reachable c) (account : String) :
    Reachable (c.addCustomImage account)
  | setPace {c : Cloud} (h : Reachable c) (pace : Pace) : Reachable { c with pace }
  | setPaceOf {c : Cloud} (h : Reachable c) (kind : ResourceKind) (name : String) (pace : Pace) :
    Reachable (c.setPaceOf kind name pace)
  | setGroupPace {c : Cloud} (h : Reachable c) (groupPace : Pace) : Reachable { c with groupPace }
  | denyKeys {c : Cloud} (h : Reachable c) : Reachable { c with keysDenied := true }
  | takeBlobsDown {c : Cloud} (h : Reachable c) : Reachable { c with blobsDown := true }
  | answer {c : Cloud} (h : Reachable c) (call : Teardown.Call StoreHandle) :
    Reachable (c.answer call).2

theorem Reachable.consistent (h : c.Reachable) : c.Consistent := by
  induction h with
  | empty => constructor <;> simp [Table.get?]
  | addGroup _ group ih => exact ⟨ih.machines, ih.names, ih.cards, ih.keys⟩
  | addPublicAddress _ group name ih => exact ih.addPublicAddress group name
  | addNetworkCard _ group name addresses ih => exact ih.addNetworkCard group name addresses
  | addStorageAccount _ group name ih => exact ih.addStorageAccount group name
  | addMachine _ group name cards account ih => exact ih.addMachine group name cards account
  | addCustomImage _ account ih => exact ⟨ih.machines, ih.names, ih.cards, ih.keys⟩
  | setPace _ pace ih => exact ⟨ih.machines, ih.names, ih.cards, ih.keys⟩
  | setPaceOf _ kind name pace ih => exact ⟨ih.machines, ih.names, ih.cards, ih.keys⟩
  | setGroupPace _ groupPace ih => exact ⟨ih.machines, ih.names, ih.cards, ih.keys⟩
  | denyKeys _ ih => exact ⟨ih.machines, ih.names, ih.cards, ih.keys⟩
  | takeBlobsDown _ ih => exact ⟨ih.machines, ih.names, ih.cards, ih.keys⟩
  | answer _ call ih => exact ih.answer call

/-- What the cloud may answer. A call that is given up is carried out all the same. -/
def replies : Replies (Teardown.Service StoreHandle) Cloud
  | c, call, some a, d => a = (c.answer call).1 ∧ d = (c.answer call).2
  | c, call, none, d => d = (c.answer call).2

theorem server_within : Cloud.server.Within replies where
  answered _ _ _ := ⟨rfl, rfl⟩
  givenUp _ _ _ := rfl
  drawn _ _ := rfl

theorem mem_names {kind : ResourceKind} {group name : String} :
    name ∈ c.names kind group ↔ (kind, group, name) ∈ c.resources := by
  rw [names, List.mem_mergeSort, List.mem_map]
  constructor
  · rintro ⟨⟨k, g, n⟩, hfilter, rfl⟩
    obtain ⟨hmem, hsame⟩ := List.mem_filter.mp hfilter
    obtain ⟨rfl, rfl⟩ : k = kind ∧ g = group := by simpa using hsame
    exact hmem
  · intro hmem
    exact ⟨_, List.mem_filter.mpr ⟨hmem, by simp⟩, rfl⟩

theorem names_eq_nil {kind : ResourceKind} {group : String} :
    c.names kind group = [] ↔ ∀ name, (kind, group, name) ∉ c.resources := by
  simp only [List.eq_nil_iff_forall_not_mem, mem_names]

end Decommission.Simulation.Cloud
