import Decommission.Proofs.Simulation.Answers
import Decommission.Proofs.Simulation.Ownership
import Decommission.Proofs.Teardown.Plan

/-!
The duties of a removal in a cloud: when a duty is right to do, what it aims at, and all that can
come of it.
-/
namespace Decommission.Teardown

open Simulation

/-- What the outcome of a deletion is to the removal, for each kind. -/
def careOf : ResourceKind → Care
  | .virtualMachine => .reported
  | .networkInterface => .required
  | .publicAddress => .unwatched
  | .storageAccount => .unwatched

namespace Duty

variable {c₀ c : Cloud} {group name : String} {site : Site}

/-- The duty is right for the machine in the cloud, as it was at first and as it is. -/
def Sound (c₀ c : Cloud) (group name : String) : Duty StoreHandle → Prop
  | fetchMachine n => n = name
  | delete kind n care => care = careOf kind ∧ c₀.Owns group name kind n
  | poll operation care => ∃ op, c.operations.get? operation = some op ∧
    ((∃ kind n, op.target = .resource kind group n ∧ care = careOf kind ∧ care ≠ .unwatched ∧
        c₀.Owns group name kind n ∧ (kind, group, n) ∈ c.resources) ∨
      op.target = .group group ∧ care = .required ∧ ∀ kind n, (kind, group, n) ∉ c.resources)
  | fetchCard n => c₀.Owns group name .networkInterface n
  | fetchKeys account => c₀.HasDiskIn group name account
  | openStore account _ => c₀.HasDiskIn group name account
  | emptyStore _ => True
  | askImages store account => c₀.HasDiskIn group name account ∧ store.account = account
  | close _ => True
  | look kind later => ∀ k n, (k, group, n) ∈ c.resources → k ∈ kind :: later
  | deleteGroup => ∀ k n, (k, group, n) ∉ c.resources

/-- The duty, or one that follows from it, aims at the resource. -/
def Covers (c : Cloud) (group : String) : Duty StoreHandle → ResourceKind → String → Prop
  | fetchMachine name, kind, n => c.Owns group name kind n
  | delete k m _, kind, n => kind = k ∧ n = m
  | poll operation _, kind, n => ∃ op, c.operations.get? operation = some op ∧
    op.target = .resource kind group n
  | fetchCard m, kind, n => kind = .networkInterface ∧ n = m ∨ kind = .publicAddress ∧
    ∃ card, c.cards.get? (group, m) = some card ∧ n ∈ card.publicAddressNames
  | fetchKeys account, kind, n =>
    kind = .storageAccount ∧ n = account ∧ account ∉ c.imageAccounts
  | openStore account _, kind, n =>
    kind = .storageAccount ∧ n = account ∧ account ∉ c.imageAccounts
  | askImages _ account, kind, n =>
    kind = .storageAccount ∧ n = account ∧ account ∉ c.imageAccounts
  | emptyStore _, _, _ => False
  | close _, _, _ => False
  | look .., _, _ => False
  | deleteGroup, _, _ => False

/-- The duty has nothing to do with the machine itself any more. -/
def isPast {σ : Type} : Duty σ → Bool
  | fetchMachine _ => false
  | delete kind _ _ => kind ≠ .virtualMachine
  | poll _ care => care ≠ .reported
  | _ => true

/-- The duty may come later than first: nothing has to follow after it. -/
def isLate {σ : Type} : Duty σ → Bool
  | fetchMachine _ => false
  | delete kind _ _ => careOf kind = .unwatched
  | poll .. => false
  | _ => true

theorem past_of_late {σ : Type} {d : Duty σ} (h : d.isLate = true) : d.isPast = true := by
  cases d with
  | delete kind n care => cases kind <;> first | rfl | cases h
  | fetchMachine | poll => cases h
  | _ => rfl

theorem not_poll_of_late {σ : Type} {d : Duty σ} (h : d.isLate = true) : d.isPoll = false := by
  cases d with
  | poll => cases h
  | _ => rfl

/-- The duty takes the resource away, if all goes well. -/
def TakesAway (c : Cloud) (group : String) : Duty StoreHandle → ResourceKind → String → Prop
  | delete k m _, kind, n => kind = k ∧ n = m
  | poll operation _, kind, n => ∃ op, c.operations.get? operation = some op ∧
    op.target = .resource kind group n
  | _, _, _ => False

theorem TakesAway.covers {d : Duty StoreHandle} {kind : ResourceKind} {n : String}
    (h : d.TakesAway c group kind n) : d.Covers c group kind n := by
  cases d with
  | delete | poll => exact h
  | _ => exact h.elim

/-- What comes of a duty in the cloud `c`: the duties that follow, if the removal goes on, whether a
failure is reported, and the cloud afterwards. -/
inductive Outcome (c : Cloud) (group : String) :
    Duty StoreHandle → Option (List (Duty StoreHandle)) → Bool → Cloud → Prop where
  | failed {d : Duty StoreHandle} {c' : Cloud}
    (hwhy : d.isPoll = true ∨ c.keysDenied = true ∨ c.blobsDown = true) (h : c.SameStock c') :
    Outcome c group d none false c'
  | noMachine {n : String} {c' : Cloud} (hnone : c.machines.get? (group, n) = none)
    (h : c.SameStock c') : Outcome c group (.fetchMachine n) (some []) false c'
  | machine {n : String} {m : Machine} {c' : Cloud} (hm : c.machines.get? (group, n) = some m)
    (h : c.SameStock c') : Outcome c group (.fetchMachine n) (some (ofMachine m)) false c'
  | absent {kind : ResourceKind} {n : String} {care : Care} {c' : Cloud}
    (hnone : (kind, group, n) ∉ c.resources) (h : c.SameStock c') :
    Outcome c group (.delete kind n care) (some []) false c'
  | started {kind : ResourceKind} {n : String} {care : Care} {deletion : Deletion} {c' : Cloud}
    (hmem : (kind, group, n) ∈ c.resources)
    (h : c.Started (.resource kind group n) ((c.paces.get? (kind, n)).getD c.pace) deletion c') :
    Outcome c group (.delete kind n care) (some (afterDeletion care deletion)) false c'
  | inProgress {operation : String} {care : Care} {op op' : Operation} {c' : Cloud}
    (hop : c.operations.get? operation = some op) (h : c.SameStock c')
    (hop' : c'.operations.get? operation = some op') (htarget : op'.target = op.target) :
    Outcome c group (.poll operation care) (some [.poll operation care]) false c'
  | succeeded {operation : String} {care : Care} {op : Operation} {c' : Cloud}
    (hop : c.operations.get? operation = some op) (h : (c.remove op.target).SameStock c') :
    Outcome c group (.poll operation care) (some []) false c'
  | reported {operation : String} {c' : Cloud} (h : c.SameStock c') :
    Outcome c group (.poll operation .reported) (some []) true c'
  | unwatched {operation : String} {c' : Cloud} (h : c.SameStock c') :
    Outcome c group (.poll operation .unwatched) (some []) false c'
  | noCard {n : String} {c' : Cloud} (hnone : c.cards.get? (group, n) = none) (h : c.SameStock c') :
    Outcome c group (.fetchCard n) (some []) false c'
  | card {n : String} {card : NetworkCard} {c' : Cloud}
    (hcard : c.cards.get? (group, n) = some card) (h : c.SameStock c') :
    Outcome c group (.fetchCard n) (some (ofCard n card)) false c'
  | noKeys {account : String} {c' : Cloud} (hnone : c.keys.get? (group, account) = none)
    (h : c.SameStock c') : Outcome c group (.fetchKeys account) (some []) false c'
  | keys {account key : String} {c' : Cloud} (h : c.SameStock c') :
    Outcome c group (.fetchKeys account) (some [.openStore account key]) false c'
  | opened {account key : String} {store : StoreHandle} {c' : Cloud}
    (hstore : store.account = account) (h : c.SameStock c') :
    Outcome c group (.openStore account key)
      (some [.emptyStore store, .askImages store account, .close store]) false c'
  | emptied {store : StoreHandle} {c' : Cloud} (h : c.SameStock c') :
    Outcome c group (.emptyStore store) (some []) false c'
  | images {store : StoreHandle} {account : String} {c' : Cloud}
    (himages : store.account ∈ c.imageAccounts) (h : c.SameStock c') :
    Outcome c group (.askImages store account) (some []) false c'
  | noImages {store : StoreHandle} {account : String} {c' : Cloud}
    (himages : store.account ∉ c.imageAccounts) (h : c.SameStock c') :
    Outcome c group (.askImages store account)
      (some [.delete .storageAccount account .unwatched]) false c'
  | closed {store : StoreHandle} {c' : Cloud} (h : c.SameStock c') :
    Outcome c group (.close store) (some []) false c'
  | found {kind : ResourceKind} {later : List ResourceKind} {n : String} {c' : Cloud}
    (hmem : (kind, group, n) ∈ c.resources) (h : c.SameStock c') :
    Outcome c group (.look kind later) (some []) false c'
  | notFound {kind : ResourceKind} {later : List ResourceKind} {c' : Cloud}
    (hnone : ∀ n, (kind, group, n) ∉ c.resources) (h : c.SameStock c') :
    Outcome c group (.look kind later) (some [lookFor later]) false c'
  | noGroup {c' : Cloud} (hnone : group ∉ c.groups) (h : c.SameStock c') :
    Outcome c group .deleteGroup (some []) false c'
  | groupStarted {deletion : Deletion} {c' : Cloud}
    (h : c.Started (.group group) c.groupPace deletion c') :
    Outcome c group .deleteGroup (some (afterDeletion .required deletion)) false c'

/-- What comes of the duty, as the cloud answers its call. -/
abbrev Comes (c : Cloud) (site : Site) (d : Duty StoreHandle) : Prop :=
  Outcome c site.group d (d.following (d.call site) (c.answer (d.call site)).1)
    (d.reportsFailure (d.call site) (c.answer (d.call site)).1) (c.answer (d.call site)).2

theorem comes_fetchMachine (c : Cloud) (site : Site) (n : String) :
    Comes c site (.fetchMachine n) := by
  have hsame := c.same_record (.plane (.getMachine site.group n))
  change Outcome c _ _ (some ((c.machines.get? (site.group, n)).elim [] ofMachine)) false _
  cases hm : c.machines.get? (site.group, n) with
  | none => exact .noMachine hm hsame
  | some m => exact .machine hm hsame

theorem comes_delete (c : Cloud) (site : Site) (kind : ResourceKind) (n : String) (care : Care) :
    Comes c site (.delete kind n care) := by
  change Outcome c _ _ (following (.delete kind n care) (.plane (.delete kind site.group n))
    (c.answer (.plane (.delete kind site.group n))).1) false
    (c.answer (.plane (.delete kind site.group n))).2
  obtain ⟨deletion, hanswer, h⟩ := c.answer_delete kind site.group n
  rw [hanswer]
  obtain ⟨hnone, rfl, hsame⟩ | ⟨hmem, hstarted⟩ := h
  · exact .absent hnone hsame
  · exact .started hmem hstarted

theorem comes_poll (c : Cloud) (site : Site) (operation : String) (care : Care) :
    Comes c site (.poll operation care) := by
  change Outcome c _ _ (following (.poll operation care) (.plane (.operationStatus operation))
    (c.answer (.plane (.operationStatus operation))).1)
    (reportsFailure (.poll operation care) (.plane (.operationStatus operation))
      (c.answer (.plane (.operationStatus operation))).1)
    (c.answer (.plane (.operationStatus operation))).2
  cases hop : c.operations.get? operation with
  | none =>
    obtain ⟨f, hanswer, hsame⟩ := c.answer_poll_none hop
    rw [hanswer]
    cases care <;> exact .failed (.inl rfl) hsame
  | some op =>
    obtain ⟨hanswer, hsame, op', hop', htarget⟩ | ⟨hanswer, hsame⟩ | ⟨hanswer, hsame⟩ :=
      c.answer_poll hop
    · rw [hanswer]
      cases care <;> exact .inProgress hop hsame hop' htarget
    · rw [hanswer]
      cases care <;> exact .succeeded hop hsame
    · -- a failure matters only as far as the removal cares for the deletion
      rw [hanswer]
      cases care with
      | unwatched => exact .unwatched hsame
      | reported => exact .reported hsame
      | required => exact .failed (.inl rfl) hsame

theorem comes_fetchCard (c : Cloud) (site : Site) (n : String) : Comes c site (.fetchCard n) := by
  have hsame := c.same_record (.plane (.getNetworkCard site.group n))
  change Outcome c _ _ (some ((c.cards.get? (site.group, n)).elim [] (ofCard n))) false _
  cases hcard : c.cards.get? (site.group, n) with
  | none => exact .noCard hcard hsame
  | some card => exact .card hcard hsame

theorem comes_fetchKeys (c : Cloud) (site : Site) (account : String) :
    Comes c site (.fetchKeys account) := by
  have hsame := c.same_record (.plane (.getStorageKeys site.group account))
  change Outcome c _ _ (following (.fetchKeys account)
    (.plane (.getStorageKeys site.group account)) (c.getKeys site.group account)) false _
  rw [Cloud.getKeys]
  split
  · next hdenied => exact .failed (.inr (.inl hdenied)) hsame
  · cases hkeys : c.keys.get? (site.group, account) with
    | none => exact .noKeys hkeys hsame
    | some keys => exact .keys hsame

theorem comes_emptyStore (c : Cloud) (site : Site) (store : StoreHandle) :
    Comes c site (.emptyStore store) := by
  change Outcome c _ _ (following (.emptyStore store) (.blob (.deleteContainer store _))
    (c.answer (.blob (.deleteContainer store _))).1) false
    (c.answer (.blob (.deleteContainer store _))).2
  simp only [Cloud.answer, Cloud.answerBlob]
  split
  · next hdown => exact .failed (.inr (.inr hdown)) (c.same_record _)
  · exact .emptied ⟨rfl, rfl, rfl, rfl, rfl, rfl⟩

theorem comes_askImages (c : Cloud) (site : Site) (store : StoreHandle) (account : String) :
    Comes c site (.askImages store account) := by
  have hsame := c.same_record (.blob (.customImageExists store))
  change Outcome c _ _ (following (.askImages store account) (.blob (.customImageExists store))
    (c.answer (.blob (.customImageExists store))).1) false
    (c.answer (.blob (.customImageExists store))).2
  simp only [Cloud.answer, Cloud.answerBlob]
  split
  · next hdown => exact .failed (.inr (.inr hdown)) hsame
  · simp only [following]
    split
    · next himages => exact .images (of_decide_eq_true himages) hsame
    · next himages => exact .noImages (fun h => himages (decide_eq_true h)) hsame

theorem comes_look (c : Cloud) (site : Site) (kind : ResourceKind) (later : List ResourceKind) :
    Comes c site (.look kind later) := by
  have hsame := c.same_record (.plane (.list kind site.group))
  change Outcome c _ _
    (some (if (c.names kind site.group).isEmpty then [lookFor later] else [])) false _
  split
  · next hempty => exact .notFound (Cloud.names_eq_nil.mp (List.isEmpty_iff.mp hempty)) hsame
  · next hempty =>
    have hnames : ¬c.names kind site.group = [] := fun h => hempty (List.isEmpty_iff.mpr h)
    rw [Cloud.names_eq_nil, not_forall_not] at hnames
    obtain ⟨n, hmem⟩ := hnames
    exact .found hmem hsame

theorem comes_deleteGroup (c : Cloud) (site : Site) : Comes c site .deleteGroup := by
  change Outcome c _ _ (following .deleteGroup (.plane (.deleteGroup site.group))
    (c.answer (.plane (.deleteGroup site.group))).1) false
    (c.answer (.plane (.deleteGroup site.group))).2
  obtain ⟨deletion, hanswer, h⟩ := c.answer_deleteGroup site.group
  rw [hanswer]
  obtain ⟨hnone, rfl, hsame⟩ | ⟨hmem, hstarted⟩ := h
  · exact .noGroup hnone hsame
  · exact .groupStarted hstarted

/-- One of these comes of every duty. -/
theorem outcome (c : Cloud) (site : Site) (d : Duty StoreHandle) : Comes c site d := by
  cases d with
  | fetchMachine n => exact comes_fetchMachine c site n
  | delete kind n care => exact comes_delete c site kind n care
  | poll operation care => exact comes_poll c site operation care
  | fetchCard n => exact comes_fetchCard c site n
  | fetchKeys account => exact comes_fetchKeys c site account
  | openStore account key => exact .opened rfl ⟨rfl, rfl, rfl, rfl, rfl, rfl⟩
  | emptyStore store => exact comes_emptyStore c site store
  | askImages store account => exact comes_askImages c site store account
  | close store => exact .closed ⟨rfl, rfl, rfl, rfl, rfl, rfl⟩
  | look kind later => exact comes_look c site kind later
  | deleteGroup => exact comes_deleteGroup c site

end Duty

end Decommission.Teardown
