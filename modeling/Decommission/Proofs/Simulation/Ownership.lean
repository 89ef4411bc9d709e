import Decommission.Proofs.Simulation.Stock

/-!
What a machine owns in its group, and clouds that have lost nothing but some resources of one group.
-/
namespace Decommission.Simulation.Cloud

variable {c₀ c d : Cloud} {group name : String}

/-- The machine itself, the network cards that it refers to, the public addresses of those cards
that there are, and the storage account of its disk unless that holds captured images. -/
inductive Owns (c : Cloud) (group name : String) : ResourceKind → String → Prop where
  | machine {m : Machine} (h : c.machines.get? (group, name) = some m) :
    Owns c group name .virtualMachine name
  | card {m : Machine} {r : Reference} (h : c.machines.get? (group, name) = some m)
    (hr : r ∈ m.networkInterfaces) : Owns c group name .networkInterface r.name
  | address {m : Machine} {r : Reference} {card : NetworkCard} {a : String}
    (h : c.machines.get? (group, name) = some m) (hr : r ∈ m.networkInterfaces)
    (hcard : c.cards.get? (group, r.name) = some card) (ha : a ∈ card.publicAddressNames) :
    Owns c group name .publicAddress a
  | account {m : Machine} {a : String} (h : c.machines.get? (group, name) = some m)
    (ha : m.storage.account? = some a) (himages : a ∉ c.imageAccounts) :
    Owns c group name .storageAccount a

/-- The disk of the machine is in the account. -/
def HasDiskIn (c : Cloud) (group name account : String) : Prop :=
  ∃ m, c.machines.get? (group, name) = some m ∧ m.storage.account? = some account

/-- What is left of the cloud `c₀` after some resources of the group were lost that may be, and the
group itself perhaps, with nothing in it. -/
structure Remains (c₀ : Cloud) (group : String) (may : ResourceKind → String → Prop) (c : Cloud) :
    Prop where
  consistent : c.Consistent
  old : ∀ r ∈ c.resources, r ∈ c₀.resources
  kept : ∀ kind g n, (kind, g, n) ∈ c₀.resources →
    (kind, g, n) ∈ c.resources ∨ g = group ∧ may kind n
  machines : ∀ key m, c.machines.get? key = some m → c₀.machines.get? key = some m
  cards : ∀ key card, c.cards.get? key = some card → c₀.cards.get? key = some card
  imageAccounts : c.imageAccounts = c₀.imageAccounts
  oldGroups : ∀ g ∈ c.groups, g ∈ c₀.groups
  keptGroups : ∀ g ∈ c₀.groups,
    g ∈ c.groups ∨ g = group ∧ ∀ kind n, (kind, group, n) ∉ c.resources

theorem Remains.start (may : ResourceKind → String → Prop) (h : c.Consistent) :
    Remains c group may c where
  consistent := h
  old _ hr := hr
  kept _ _ _ hr := .inl hr
  machines _ _ hm := hm
  cards _ _ hcard := hcard
  imageAccounts := rfl
  oldGroups _ hg := hg
  keptGroups _ hg := .inl hg

/-- What is left in the cloud is owned by the machine if it was at first. -/
theorem Remains.owns {may : ResourceKind → String → Prop} (h : Remains c₀ group may c)
    {kind : ResourceKind} {n : String} (howns : c.Owns group name kind n) :
    c₀.Owns group name kind n := by
  cases howns with
  | machine hm => exact .machine (h.machines _ _ hm)
  | card hm hr => exact .card (h.machines _ _ hm) hr
  | address hm hr hcard ha => exact .address (h.machines _ _ hm) hr (h.cards _ _ hcard) ha
  | account hm ha himages => exact .account (h.machines _ _ hm) ha (h.imageAccounts ▸ himages)

/-- How one call changes the cloud: not at all, or by the loss of a resource that may be lost, or by
the loss of the group with nothing in it. -/
inductive Change (c : Cloud) (group : String) (may : ResourceKind → String → Prop) (d : Cloud) :
    Prop where
  | same (h : SameStock c d)
  | lost {kind : ResourceKind} {n : String} (hmay : may kind n)
    (h : SameStock (c.remove (.resource kind group n)) d)
  | lostGroup (hempty : ∀ kind n, (kind, group, n) ∉ c.resources)
    (h : SameStock (c.remove (.group group)) d)

variable {may may' : ResourceKind → String → Prop}

theorem Change.imp (h : Change c group may d) (himp : ∀ kind n, may kind n → may' kind n) :
    Change c group may' d := by
  cases h with
  | same h => exact .same h
  | lost hmay h => exact .lost (himp _ _ hmay) h
  | lostGroup hempty h => exact .lostGroup hempty h

theorem Change.consistent (h : Change c group may d) (hc : c.Consistent) : d.Consistent := by
  cases h with
  | same h => exact hc.of_same h
  | lost _ h => exact (hc.remove _).of_same h
  | lostGroup _ h => exact (hc.remove _).of_same h

theorem Change.old (h : Change c group may d) {r : ResourceKind × String × String}
    (hr : r ∈ d.resources) : r ∈ c.resources := by
  cases h with
  | same h => rwa [h.resources] at hr
  | lost _ h =>
    rw [h.resources, mem_remove] at hr
    exact hr.1
  | lostGroup _ h => rwa [h.resources] at hr

theorem Change.kept (h : Change c group may d) {kind : ResourceKind} {g n : String}
    (hr : (kind, g, n) ∈ c.resources) : (kind, g, n) ∈ d.resources ∨ g = group ∧ may kind n := by
  cases h with
  | same h => exact .inl (by rwa [h.resources])
  | @lost k m hmay h =>
    by_cases heq : (kind, g, n) = (k, group, m)
    · cases heq
      exact .inr ⟨rfl, hmay⟩
    · rw [h.resources]
      exact .inl (mem_remove.mpr ⟨hr, heq⟩)
  | lostGroup _ h => exact .inl (by rwa [h.resources])

theorem Change.machines (h : Change c group may d) {key : String × String} {m : Machine}
    (hm : d.machines.get? key = some m) : c.machines.get? key = some m := by
  cases h with
  | same h => rwa [h.machines] at hm
  | lost _ h =>
    rw [h.machines, machines_remove] at hm
    split at hm
    · cases hm
    · exact hm
  | lostGroup _ h => rwa [h.machines] at hm

theorem Change.keptMachine (h : Change c group may d) {n : String} {m : Machine}
    (hm : c.machines.get? (group, n) = some m) :
    d.machines.get? (group, n) = some m ∨ may .virtualMachine n := by
  cases h with
  | same h => exact .inl (by rwa [h.machines])
  | lost hmay h =>
    rw [h.machines, machines_remove]
    split
    · next hlost =>
      obtain ⟨rfl, heq⟩ := hlost
      exact .inr ((Prod.mk.inj heq).2 ▸ hmay)
    · exact .inl hm
  | lostGroup _ h => exact .inl (by rwa [h.machines])

theorem Change.keptCard (h : Change c group may d) {n : String} {card : NetworkCard}
    (hcard : c.cards.get? (group, n) = some card) :
    d.cards.get? (group, n) = some card ∨ may .networkInterface n := by
  cases h with
  | same h => exact .inl (by rwa [h.cards])
  | lost hmay h =>
    rw [h.cards, cards_remove]
    split
    · next hlost =>
      obtain ⟨rfl, heq⟩ := hlost
      exact .inr ((Prod.mk.inj heq).2 ▸ hmay)
    · exact .inl hcard
  | lostGroup _ h => exact .inl (by rwa [h.cards])

theorem Change.cards (h : Change c group may d) {key : String × String} {card : NetworkCard}
    (hcard : d.cards.get? key = some card) : c.cards.get? key = some card := by
  cases h with
  | same h => rwa [h.cards] at hcard
  | lost _ h =>
    rw [h.cards, cards_remove] at hcard
    split at hcard
    · cases hcard
    · exact hcard
  | lostGroup _ h => rwa [h.cards] at hcard

theorem Change.imageAccounts (h : Change c group may d) : d.imageAccounts = c.imageAccounts := by
  cases h with
  | same h => exact h.imageAccounts
  | lost _ h => exact h.imageAccounts.trans imageAccounts_remove
  | lostGroup _ h => exact h.imageAccounts

theorem Change.oldGroups (h : Change c group may d) {g : String} (hg : g ∈ d.groups) :
    g ∈ c.groups := by
  cases h with
  | same h => rwa [h.groups] at hg
  | lost _ h => rwa [h.groups, groups_remove] at hg
  | lostGroup _ h =>
    rw [h.groups] at hg
    exact (mem_without.mp hg).1

theorem Change.keptGroups (h : Change c group may d) {g : String} (hg : g ∈ c.groups) :
    g ∈ d.groups ∨ g = group ∧ ∀ kind n, (kind, group, n) ∉ c.resources := by
  cases h with
  | same h => exact .inl (by rwa [h.groups])
  | lost _ h => exact .inl (by rwa [h.groups, groups_remove])
  | lostGroup hempty h =>
    by_cases heq : g = group
    · exact .inr ⟨heq, hempty⟩
    · rw [h.groups]
      exact .inl (mem_without.mpr ⟨hg, heq⟩)

theorem Remains.change (h : Remains c₀ group may c) (hd : Change c group may d) :
    Remains c₀ group may d where
  consistent := hd.consistent h.consistent
  old r hr := h.old r (hd.old hr)
  kept kind g n hr := (h.kept kind g n hr).elim hd.kept .inr
  machines key m hm := h.machines key m (hd.machines hm)
  cards key card hcard := h.cards key card (hd.cards hcard)
  imageAccounts := hd.imageAccounts.trans h.imageAccounts
  oldGroups g hg := h.oldGroups g (hd.oldGroups hg)
  keptGroups g hg := by
    -- a group that was empty when it was lost stays so, since nothing is added
    rcases h.keptGroups g hg with hg | ⟨rfl, hempty⟩
    · refine (hd.keptGroups hg).imp_right fun ⟨heq, hempty⟩ => ⟨heq, ?_⟩
      exact fun kind n hr => hempty kind n (hd.old hr)
    · exact .inr ⟨rfl, fun kind n hr => hempty kind n (hd.old hr)⟩

end Decommission.Simulation.Cloud
