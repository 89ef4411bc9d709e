import Decommission.Simulation.Cloud
import Mathlib.Logic.Relation

/-!
The stock of a cloud: its groups and its resources with their records, which name the same things
however the cloud was set up and whatever was removed from it.
-/
namespace Decommission.Simulation.Cloud

open Relation (ReflTransGen)

variable {c d e : Cloud}

/-- The clouds have the same groups, resources and records. -/
structure SameStock (c d : Cloud) : Prop where
  groups : d.groups = c.groups
  resources : d.resources = c.resources
  machines : d.machines = c.machines
  cards : d.cards = c.cards
  keys : d.keys = c.keys
  imageAccounts : d.imageAccounts = c.imageAccounts

theorem SameStock.refl (c : Cloud) : SameStock c c := ⟨rfl, rfl, rfl, rfl, rfl, rfl⟩

theorem SameStock.trans (h : SameStock c d) (h' : SameStock d e) : SameStock c e where
  groups := h'.groups.trans h.groups
  resources := h'.resources.trans h.resources
  machines := h'.machines.trans h.machines
  cards := h'.cards.trans h.cards
  keys := h'.keys.trans h.keys
  imageAccounts := h'.imageAccounts.trans h.imageAccounts

/-- The records are those of the resources that there are, each under its own name. -/
structure Consistent (c : Cloud) : Prop where
  machines : ∀ group name, (c.machines.get? (group, name)).isSome = true ↔
    (.virtualMachine, group, name) ∈ c.resources
  names : ∀ group name m, c.machines.get? (group, name) = some m → m.name = name
  cards : ∀ group name, (c.cards.get? (group, name)).isSome = true ↔
    (.networkInterface, group, name) ∈ c.resources
  keys : ∀ group name, (c.keys.get? (group, name)).isSome = true ↔
    (.storageAccount, group, name) ∈ c.resources

theorem Consistent.of_same (h : c.Consistent) (hsame : SameStock c d) : d.Consistent := by
  obtain ⟨-, hresources, hmachines, hcards, hkeys, -⟩ := hsame
  constructor
  · rw [hresources, hmachines]
    exact h.machines
  · rw [hmachines]
    exact h.names
  · rw [hresources, hcards]
    exact h.cards
  · rw [hresources, hkeys]
    exact h.keys

/-! ### Removals -/

theorem mem_remove {kind : ResourceKind} {group name : String}
    {r : ResourceKind × String × String} :
    r ∈ (c.remove (.resource kind group name)).resources ↔
      r ∈ c.resources ∧ r ≠ (kind, group, name) := by
  cases kind <;> exact mem_without

theorem machines_remove {kind : ResourceKind} {group name : String} (key : String × String) :
    (c.remove (.resource kind group name)).machines.get? key =
      if kind = .virtualMachine ∧ key = (group, name) then none else c.machines.get? key := by
  cases kind <;> simp [remove, Table.get?_erase]

theorem cards_remove {kind : ResourceKind} {group name : String} (key : String × String) :
    (c.remove (.resource kind group name)).cards.get? key =
      if kind = .networkInterface ∧ key = (group, name) then none else c.cards.get? key := by
  cases kind <;> simp [remove, Table.get?_erase]

theorem keys_remove {kind : ResourceKind} {group name : String} (key : String × String) :
    (c.remove (.resource kind group name)).keys.get? key =
      if kind = .storageAccount ∧ key = (group, name) then none else c.keys.get? key := by
  cases kind <;> simp [remove, Table.get?_erase]

theorem groups_remove {kind : ResourceKind} {group name : String} :
    (c.remove (.resource kind group name)).groups = c.groups := by
  cases kind <;> rfl

theorem imageAccounts_remove {target : Target} :
    (c.remove target).imageAccounts = c.imageAccounts := by
  cases target with
  | resource kind group name => cases kind <;> rfl
  | group group => rfl

theorem SameStock.remove {target : Target} (h : SameStock c d) :
    SameStock (c.remove target) (d.remove target) := by
  obtain ⟨hgroups, hresources, hmachines, hcards, hkeys, himages⟩ := h
  cases target with
  | resource kind group name => cases kind <;> constructor <;> simp only [Cloud.remove, *]
  | group group => constructor <;> simp only [Cloud.remove, *]

theorem Consistent.remove (h : c.Consistent) (target : Target) : (c.remove target).Consistent := by
  cases target with
  | group group => exact ⟨h.machines, h.names, h.cards, h.keys⟩
  | resource kind group name =>
    constructor
    · intro g n
      rw [machines_remove, mem_remove, ← h.machines]
      split <;> simp_all
    · intro g n m hm
      rw [machines_remove] at hm
      split at hm
      · cases hm
      · exact h.names g n m hm
    · intro g n
      rw [cards_remove, mem_remove, ← h.cards]
      split <;> simp_all
    · intro g n
      rw [keys_remove, mem_remove, ← h.keys]
      split <;> simp_all

/-! ### Setting up -/

/-- The cloud with this network card, but none of the addresses on it. -/
def insertCard (c : Cloud) (group name : String) (addresses : List String) : Cloud :=
  { c.addResource .networkInterface group name with
    cards := c.cards.insert (group, name) (cardRecord group name addresses) }

/-- The cloud with this machine, but nothing that it refers to. -/
def insertMachine (c : Cloud) (group name : String) (cards : List String)
    (account : Option String) : Cloud :=
  { c.addResource .virtualMachine group name with
    machines := c.machines.insert (group, name) (machineRecord group name cards account) }

/-- One thing is added to the cloud, or it is told how to behave. -/
inductive SetUpStep (c : Cloud) : Cloud → Prop where
  | group (group : String) : SetUpStep c (c.addGroup group)
  | address (group name : String) : SetUpStep c (c.addPublicAddress group name)
  | card (group name : String) (addresses : List String) :
    SetUpStep c (c.insertCard group name addresses)
  | account (group name : String) : SetUpStep c (c.addStorageAccount group name)
  | machine (group name : String) (cards : List String) (account : Option String) :
    SetUpStep c (c.insertMachine group name cards account)
  | image (account : String) : SetUpStep c (c.addCustomImage account)
  | settings (pace : Pace) (paces : Table (ResourceKind × String) Pace) (groupPace : Pace)
    (keysDenied blobsDown : Bool) :
    SetUpStep c { c with pace, paces, groupPace, keysDenied, blobsDown }

theorem steps_addNetworkCard (c : Cloud) (group name : String) (addresses : List String) :
    ReflTransGen SetUpStep c (c.addNetworkCard group name addresses) := by
  have hfold : ReflTransGen SetUpStep c
      (addresses.foldl (fun c address => c.addPublicAddress group address) c) :=
    List.foldlRecOn addresses _ .refl fun _ h address _ => h.tail (.address group address)
  exact hfold.tail (.card group name addresses)

theorem steps_addMachine (c : Cloud) (group name : String) (cards : List (String × List String))
    (account : Option String) :
    ReflTransGen SetUpStep c (c.addMachine group name cards account) := by
  have hcards : ReflTransGen SetUpStep c
      (cards.foldl (fun c card => c.addNetworkCard group card.1 card.2) c) :=
    List.foldlRecOn cards _ .refl fun d h card _ =>
      h.trans (steps_addNetworkCard d group card.1 card.2)
  cases account with
  | none => exact hcards.tail (.machine group name (cards.map Prod.fst) none)
  | some account =>
    have haccount := hcards.tail (.account group account)
    exact haccount.tail (.machine group name (cards.map Prod.fst) (some account))

/-- What each step keeps, all of them keep. -/
theorem holds_after_steps {P : Cloud → Prop}
    (hstep : ∀ {c d : Cloud}, P c → SetUpStep c d → P d) (hc : P c)
    (h : ReflTransGen SetUpStep c d) : P d := by
  induction h with
  | refl => exact hc
  | tail _ hlast ih => exact hstep ih hlast

theorem mem_addResource {kind : ResourceKind} {group name : String}
    {r : ResourceKind × String × String} :
    r ∈ (c.addResource kind group name).resources ↔ r = (kind, group, name) ∨ r ∈ c.resources :=
  mem_addOnce

theorem Consistent.addPublicAddress (h : c.Consistent) (group name : String) :
    (c.addPublicAddress group name).Consistent := by
  have hmem {kind : ResourceKind} {g n : String} (hkind : kind ≠ .publicAddress) :
      (kind, g, n) ∈ (c.addPublicAddress group name).resources ↔ (kind, g, n) ∈ c.resources := by
    rw [Cloud.addPublicAddress, mem_addResource, or_iff_right]
    rintro h
    exact hkind (congrArg Prod.fst h)
  constructor
  · intro g n
    rw [hmem (by decide)]
    exact h.machines g n
  · exact h.names
  · intro g n
    rw [hmem (by decide)]
    exact h.cards g n
  · intro g n
    rw [hmem (by decide)]
    exact h.keys g n

theorem Consistent.insertCard (h : c.Consistent) (group name : String)
    (addresses : List String) : (c.insertCard group name addresses).Consistent := by
  unfold Cloud.insertCard
  constructor
  · intro g n
    simp only [mem_addResource, ← h.machines]
    simp [addResource]
  · exact h.names
  · intro g n
    simp only [mem_addResource, ← h.cards, Table.get?_insert]
    split <;> simp_all
  · intro g n
    simp only [mem_addResource, ← h.keys]
    simp [addResource]

theorem Consistent.addStorageAccount (h : c.Consistent) (group name : String) :
    (c.addStorageAccount group name).Consistent := by
  unfold Cloud.addStorageAccount
  constructor
  · intro g n
    simp only [mem_addResource, ← h.machines]
    simp [addResource]
  · exact h.names
  · intro g n
    simp only [mem_addResource, ← h.cards]
    simp [addResource]
  · intro g n
    simp only [mem_addResource, ← h.keys, Table.get?_insert]
    split <;> simp_all [addResource]

theorem Consistent.insertMachine (h : c.Consistent) (group name : String) (cards : List String)
    (account : Option String) : (c.insertMachine group name cards account).Consistent := by
  unfold Cloud.insertMachine
  constructor
  · intro g n
    simp only [mem_addResource, ← h.machines, Table.get?_insert]
    split <;> simp_all
  · intro g n m hm
    simp only [Table.get?_insert] at hm
    split at hm
    · next hkey =>
      obtain rfl := Option.some.inj hm
      exact (Prod.mk.inj hkey).2.symm
    · exact h.names g n m hm
  · intro g n
    simp only [mem_addResource, ← h.cards]
    simp [addResource]
  · intro g n
    simp only [mem_addResource, ← h.keys]
    simp [addResource]

theorem Consistent.setUpStep (h : c.Consistent) (hstep : SetUpStep c d) : d.Consistent := by
  cases hstep with
  | address group name => exact h.addPublicAddress group name
  | card group name addresses => exact h.insertCard group name addresses
  | account group name => exact h.addStorageAccount group name
  | machine group name cards account => exact h.insertMachine group name cards account
  | _ => exact ⟨h.machines, h.names, h.cards, h.keys⟩

theorem Consistent.addNetworkCard (h : c.Consistent) (group name : String)
    (addresses : List String) : (c.addNetworkCard group name addresses).Consistent :=
  holds_after_steps Consistent.setUpStep h (steps_addNetworkCard c group name addresses)

theorem Consistent.addMachine (h : c.Consistent) (group name : String)
    (cards : List (String × List String)) (account : Option String) :
    (c.addMachine group name cards account).Consistent :=
  holds_after_steps Consistent.setUpStep h (steps_addMachine c group name cards account)

/-! ### What calls leave -/

section

variable {α : Type} (part : Cloud → α)
  (hremove : ∀ (c : Cloud) (target : Target), part (c.remove target) = part c)
  (hoperations : ∀ (c : Cloud) (operations : Table String Operation) (operationCount : Nat),
    part { c with operations, operationCount } = part c)

include hremove hoperations

theorem start_keeps (c : Cloud) (target : Target) (pace : Pace) :
    part (c.start target pace).2 = part c := by
  cases pace with
  | immediate => exact hremove c target
  | afterPolls polls result => exact hoperations c _ _
  | never => exact hoperations c _ _

theorem poll_keeps (c : Cloud) (uri : String) : part (c.poll uri).2 = part c := by
  unfold poll
  split
  · rfl
  · split
    · rfl
    · exact hoperations c _ _
    · dsimp only
      split
      · exact hremove c _
      · rfl

/-- A part of the cloud stays with each call to the control plane if it stays with each removal, and
tells nothing of the operations. -/
theorem answerPlane_keeps (c : Cloud) (call : ControlPlane.Call) :
    part (c.answerPlane call).2 = part c := by
  cases call with
  | delete kind group name =>
    change part (c.delete kind group name).2 = part c
    unfold delete
    split
    · exact start_keeps part hremove hoperations c _ _
    · rfl
  | deleteGroup group =>
    change part (c.deleteGroup group).2 = part c
    unfold deleteGroup
    split
    · exact start_keeps part hremove hoperations c _ _
    · rfl
  | operationStatus uri => exact poll_keeps part hremove hoperations c uri
  | _ => rfl

end

/-- A part of the cloud that tells nothing of stores and containers stays with each call to the blob
service. -/
theorem answerBlob_keeps {α : Type} (part : Cloud → α)
    (hblobs : ∀ (c : Cloud) (openedStores : Nat) (closedStores : List Nat)
      (containers : List (String × String)),
      part { c with openedStores, closedStores, containers } = part c)
    (c : Cloud) (call : Blob.Call StoreHandle) : part (c.answerBlob call).2 = part c := by
  cases call with
  | openStore account key => exact hblobs c _ _ _
  | deleteContainer store container =>
    simp only [answerBlob]
    split
    · rfl
    · exact hblobs c _ _ _
  | customImageExists store =>
    simp only [answerBlob]
    split <;> rfl
  | close store => exact hblobs c _ _ _

end Decommission.Simulation.Cloud
