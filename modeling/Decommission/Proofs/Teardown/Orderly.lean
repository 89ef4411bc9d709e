import Decommission.Proofs.Simulation.AtOnce
import Decommission.Proofs.Teardown.Outcomes

/-!
The plan of a removal where deletions are carried out at once: all that depends on a deletion comes
after it, and a look for what is left comes last, also while others take things away.
-/
namespace Decommission.Teardown

open Simulation

namespace Duty

variable {c₀ c c' : Cloud} {group name : String} {d e : Duty StoreHandle}
  {rest more : List (Duty StoreHandle)} {may : ResourceKind → String → Prop} {reports : Bool}

/-- What can be found only through a machine, or a network card, comes after its deletion. -/
def Ready (c : Cloud) (group : String) : Duty StoreHandle → List (Duty StoreHandle) → Prop
  | delete .virtualMachine n _, rest => ∀ m, c.machines.get? (group, n) = some m →
    (∀ r ∈ m.networkInterfaces, .fetchCard r.name ∈ rest) ∧
    ∀ account, m.storage.account? = some account → .fetchKeys account ∈ rest
  | delete .networkInterface n _, rest => ∀ card, c.cards.get? (group, n) = some card →
    ∀ a ∈ card.publicAddressNames, .delete .publicAddress a .unwatched ∈ rest
  | _, _ => True

theorem ready_of_late (h : d.isLate = true) : d.Ready c group rest := by
  cases d with
  | delete kind n care =>
    cases kind with
    | publicAddress | storageAccount => trivial
    | _ => cases h
  | _ => trivial

theorem Ready.append (h : d.Ready c group more) : d.Ready c group (more ++ rest) := by
  cases d with
  | delete kind n care =>
    cases kind with
    | virtualMachine =>
      intro m hm
      obtain ⟨hcards, haccount⟩ := h m hm
      exact ⟨fun r hr => List.mem_append_left _ (hcards r hr),
        fun account ha => List.mem_append_left _ (haccount account ha)⟩
    | networkInterface => exact fun card hcard a ha => List.mem_append_left _ (h card hcard a ha)
    | _ => trivial
  | _ => trivial

theorem Ready.change (h : d.Ready c group rest) (hc : c.Change group may c') :
    d.Ready c' group rest := by
  cases d with
  | delete kind n care =>
    cases kind with
    | virtualMachine => exact fun m hm => h m (hc.machines hm)
    | networkInterface => exact fun card hcard => h card (hc.cards hcard)
    | _ => trivial
  | _ => trivial

/-- The duty ends a removal. -/
def isEnding {σ : Type} : Duty σ → Bool
  | look .. => true
  | deleteGroup => true
  | _ => false

theorem isEnding_lookFor {σ : Type} (kinds : List ResourceKind) :
    (lookFor kinds : Duty σ).isEnding = true := by
  cases kinds <;> rfl

/-- Where deletions are carried out at once there is nothing to wait for. -/
theorem Outcome.noPoll (h : Outcome c group d (some more) reports c') (hpoll : d.isPoll = false)
    (hc : c.AtOnce) : ∀ d' ∈ more, d'.isPoll = false := by
  intro d' hd'
  cases h.begets hd' with
  | late h => exact not_poll_of_late h
  | machine | card => rfl
  | started =>
    cases h with
    | absent => cases hd'
    | started _ h =>
      cases h with
      | deleted => cases hd'
      | pending hpace => exact absurd (hc.paceOf _) hpace
  | groupStarted =>
    cases h with
    | noGroup => cases hd'
    | groupStarted h =>
      cases h with
      | deleted => cases hd'
      | pending hpace => exact absurd hc.groupPace hpace
  | again => cases hpoll

/-- Where moreover nothing fails, the removal goes on. -/
theorem Outcome.goesOn {following : Option (List (Duty StoreHandle))}
    (h : Outcome c group d following reports c') (hpoll : d.isPoll = false) (hc : c.AtOnce) :
    ∃ more, following = some more ∧ reports = false := by
  cases h with
  | failed hwhy =>
    rcases hwhy with h | h | h
    · cases hpoll.symm.trans h
    · cases hc.keysDenied.symm.trans h
    · cases hc.blobsDown.symm.trans h
  | reported => cases hpoll
  | _ => exact ⟨_, rfl, rfl⟩

/-- What follows a duty is in order. -/
theorem Outcome.ready (h : Outcome c group d (some more) reports c') (hc : c.Consistent)
    {first : Duty StoreHandle} {later : List (Duty StoreHandle)} (hmore : more = first :: later) :
    first.Ready c' group later := by
  have hbegets := h.begets (hmore ▸ List.mem_cons_self)
  cases hbegets with
  | late h => exact ready_of_late h
  | machine =>
    cases h with
    | noMachine => cases hmore
    | @machine n m _ hm hsame =>
      obtain ⟨heq, rfl⟩ := List.cons.inj hmore
      cases heq
      intro m' hm'
      rw [hsame.machines, hc.names _ _ _ hm] at hm'
      obtain rfl := Option.some.inj (hm.symm.trans hm')
      exact ⟨fun r hr => fetchCard_mem_afterMachine hr, fun a ha => fetchKeys_mem_afterMachine ha⟩
  | card =>
    cases h with
    | noCard => cases hmore
    | @card n card _ hcard hsame =>
      obtain ⟨-, rfl⟩ := List.cons.inj hmore
      intro card' hcard'
      rw [hsame.cards] at hcard'
      obtain rfl := Option.some.inj (hcard.symm.trans hcard')
      exact fun a ha => delete_mem_ofAddresses ha
  | started | groupStarted | again => trivial

section

variable {kind : ResourceKind} {n : String}

theorem delete_of_takesAway (h : d.TakesAway c group kind n) (hd : d.isPoll = false) :
    ∃ care, d = .delete kind n care := by
  cases d with
  | delete kind' n' care =>
    obtain ⟨rfl, rfl⟩ := h
    exact ⟨care, rfl⟩
  | poll => cases hd
  | _ => exact h.elim

/-- An address is found through its card as before, or it comes after the deletion of the card. -/
theorem card_after {m : String} {card : NetworkCard}
    (hchange : c.Change group (d.TakesAway c group) c') (hd : d.isPoll = false)
    (hready : d.Ready c group rest) (hcard : c.cards.get? (group, m) = some card)
    (ha : n ∈ card.publicAddressNames) :
    c'.cards.get? (group, m) = some card ∨
      ∃ d' ∈ rest, d'.Covers c' group .publicAddress n := by
  rcases hchange.keptCard hcard with hcard' | hgone
  · exact .inl hcard'
  · obtain ⟨care, rfl⟩ := delete_of_takesAway hgone hd
    exact .inr ⟨_, hready card hcard n ha, rfl, rfl⟩

/-- What a machine owns is found through it as before, or by what comes after its deletion. -/
theorem owns_after (hchange : c.Change group (d.TakesAway c group) c') (hd : d.isPoll = false)
    (hready : d.Ready c group rest) (hc' : c'.Consistent) (howns : c.Owns group name kind n)
    (hthere : (kind, group, n) ∈ c'.resources) :
    c'.Owns group name kind n ∨ ∃ d' ∈ rest, d'.Covers c' group kind n := by
  have himages := hchange.imageAccounts
  cases howns with
  | machine hm =>
    obtain ⟨m, hm'⟩ := Option.isSome_iff_exists.mp ((hc'.machines _ _).mpr hthere)
    exact .inl (.machine hm')
  | @card m r hm hr =>
    rcases hchange.keptMachine hm with hm' | hgone
    · exact .inl (.card hm' hr)
    · obtain ⟨care, rfl⟩ := delete_of_takesAway hgone hd
      exact .inr ⟨_, (hready m hm).1 r hr, .inl ⟨rfl, rfl⟩⟩
  | @address m r card a hm hr hcard ha =>
    rcases card_after hchange hd hready hcard ha with hcard' | hafter
    · rcases hchange.keptMachine hm with hm' | hgone
      · exact .inl (.address hm' hr hcard' ha)
      · obtain ⟨care, rfl⟩ := delete_of_takesAway hgone hd
        exact .inr ⟨_, (hready m hm).1 r hr, .inr ⟨rfl, card, hcard', ha⟩⟩
    · exact .inr hafter
  | @account m a hm ha hnone =>
    rcases hchange.keptMachine hm with hm' | hgone
    · exact .inl (.account hm' ha (himages ▸ hnone))
    · obtain ⟨care, rfl⟩ := delete_of_takesAway hgone hd
      exact .inr ⟨_, (hready m hm).2 n ha, rfl, rfl, himages ▸ hnone⟩

/-- What is aimed at by some duty `e`, and is still there after the duty `d`, is aimed at by `e` as
before or by what comes after `d`. -/
theorem covers_after (hchange : c.Change group (d.TakesAway c group) c') (hd : d.isPoll = false)
    (hready : d.Ready c group rest) (hc' : c'.Consistent) (he : e.isPoll = false)
    (hcovers : e.Covers c group kind n) (hthere : (kind, group, n) ∈ c'.resources) :
    e.Covers c' group kind n ∨ ∃ d' ∈ rest, d'.Covers c' group kind n := by
  cases e with
  | poll => cases he
  | delete k m care => exact .inl hcovers
  | fetchMachine name => exact owns_after hchange hd hready hc' hcovers hthere
  | fetchCard m =>
    obtain h | ⟨rfl, card, hcard, ha⟩ := hcovers
    · exact .inl (.inl h)
    · refine (card_after hchange hd hready hcard ha).imp_left fun hcard' => ?_
      exact .inr ⟨rfl, card, hcard', ha⟩
  | fetchKeys account | openStore account key | askImages store account =>
    obtain ⟨rfl, rfl, hnone⟩ := hcovers
    exact .inl ⟨rfl, rfl, hchange.imageAccounts ▸ hnone⟩
  | _ => exact hcovers.elim

end

end Duty

variable {c₀ c c' : Cloud} {group name : String} {p : Plan StoreHandle}
  {may : ResourceKind → String → Prop}

/-- The plan of a removal that goes on without failures is in order. -/
structure Orderly (c₀ : Cloud) (group name : String) (p : Plan StoreHandle) (c : Cloud) : Prop where
  deleted : p.deleted = true
  going : p.failed = false
  sound : ∀ d ∈ p.duties, d.Sound c₀ c group name
  noPoll : ∀ d ∈ p.duties, d.isPoll = false
  late : ∀ d ∈ p.duties.tail, d.isLate = true
  ready : ∀ d rest, p.duties = d :: rest → d.Ready c group rest
  ends : p.duties = [] ∨ (∃ n, p.duties = [.fetchMachine n]) ∨
    ∃ d, p.duties.getLast? = some d ∧ d.isEnding = true

theorem Orderly.start : Orderly c₀ group name (.start name) c where
  deleted := rfl
  going := rfl
  sound d hd := by
    obtain rfl := List.mem_singleton.mp hd
    rfl
  noPoll d hd := by
    obtain rfl := List.mem_singleton.mp hd
    rfl
  late d hd := by cases hd
  ready d rest h := by
    obtain ⟨rfl, rfl⟩ := List.cons.inj h
    trivial
  ends := .inr (.inl ⟨name, rfl⟩)

/-- A plan stays in order while others take things away. -/
theorem Orderly.change (h : Orderly c₀ group name p c) (hc : c.Change group may c') :
    Orderly c₀ group name p c' where
  deleted := h.deleted
  going := h.going
  sound d hd := (h.sound d hd).change (h.noPoll d hd) hc
  noPoll := h.noPoll
  late := h.late
  ready d rest hduties := (h.ready d rest hduties).change hc
  ends := h.ends

variable {d : Duty StoreHandle} {rest more : List (Duty StoreHandle)} {deleted failed : Bool}

theorem ends_after (hpoll : ∀ d' ∈ more, d'.isPoll = false)
    (hout : d.Outcome c group (some more) false c')
    (h : d :: rest = [] ∨ (∃ n, d :: rest = [.fetchMachine n]) ∨
      ∃ d', (d :: rest).getLast? = some d' ∧ d'.isEnding = true) :
    more ++ rest = [] ∨ ∃ d', (more ++ rest).getLast? = some d' ∧ d'.isEnding = true := by
  rcases h with h | ⟨n, h⟩ | ⟨d', hlast, hend⟩
  · cases h
  · obtain ⟨rfl, rfl⟩ := List.cons.inj h
    rw [List.append_nil]
    cases hout with
    | noMachine => exact .inl rfl
    | @machine _ m =>
      refine .inr ⟨Duty.lookFor ResourceKind.tracked, ?_, rfl⟩
      rw [Duty.ofMachine, Duty.afterMachine, ← List.append_assoc, ← List.cons_append]
      exact List.getLast?_concat
  · cases rest with
    | cons d₂ rest =>
      refine .inr ⟨d', ?_, hend⟩
      rw [List.getLast?_cons_cons] at hlast
      rw [List.getLast?_append, hlast, Option.some_or]
    | nil =>
      obtain rfl := Option.some.inj hlast
      rw [List.append_nil]
      cases hout with
      | found | noGroup => exact .inl rfl
      | @notFound kind later => exact .inr ⟨_, rfl, Duty.isEnding_lookFor later⟩
      | @groupStarted deletion =>
        cases deletion with
        | pending operation => cases hpoll _ List.mem_cons_self
        | _ => exact .inl rfl
      | _ => cases hend

/-- A removal is over where its machine was not found, where something was left in the group, or
where the group is gone. -/
theorem over_of_last {following : Option (List (Duty StoreHandle))} {reports : Bool}
    (hout : d.Outcome c group following reports c') (hnone : following = some []) (hc : c.AtOnce)
    (hlast : (∃ n, d = .fetchMachine n) ∨ d.isEnding = true) :
    (∃ n, d = .fetchMachine n ∧ c.machines.get? (group, n) = none) ∨
      (c.SameStock c' ∧ ∃ kind n, (kind, group, n) ∈ c.resources) ∨ group ∉ c'.groups := by
  cases hout with
  | noMachine hmachine => exact .inl ⟨_, rfl, hmachine⟩
  | found hthere hsame => exact .inr (.inl ⟨hsame, _, _, hthere⟩)
  | noGroup hgroup hsame =>
    rw [hsame.groups]
    exact .inr (.inr hgroup)
  | groupStarted hstarted =>
    cases hstarted with
    | deleted _ hsame =>
      rw [hsame.groups]
      exact .inr (.inr fun h => (mem_without.mp h).2 rfl)
    | pending hpace => exact absurd hc.groupPace hpace
  | failed | machine | notFound => cases hnone
  | _ => rcases hlast with ⟨_, h⟩ | h <;> cases h

theorem Orderly.ending_of_last (h : Orderly c₀ group name p c) (hplan : p.duties = [d]) :
    (∃ n, d = .fetchMachine n) ∨ d.isEnding = true := by
  rcases h.ends with hnil | ⟨n, hn⟩ | ⟨d', hlast, hend⟩
  · cases hplan.symm.trans hnil
  · exact .inl ⟨n, (List.cons.inj (hplan.symm.trans hn)).1⟩
  · rw [hplan] at hlast
    obtain rfl := Option.some.inj hlast
    exact .inr hend

theorem not_takesAway_of_last {kind : ResourceKind} {n : String}
    (hlast : (∃ n, d = .fetchMachine n) ∨ d.isEnding = true) : ¬d.TakesAway c group kind n := by
  intro htakes
  rcases hlast with ⟨_, rfl⟩ | hend
  · exact htakes
  · cases d with
    | delete | poll => cases hend
    | _ => exact htakes

theorem Orderly.goOn (h : Orderly c₀ group name ⟨d :: rest, deleted, failed⟩ c)
    (hrem : c₀.Remains group may c) (hpoll : ∀ d' ∈ more, d'.isPoll = false)
    (hout : d.Outcome c group (some more) false c') :
    Orderly c₀ group name ⟨more ++ rest, deleted, failed⟩ c' := by
  constructor
  case deleted => exact h.deleted
  case going => exact h.going
  case sound => exact hout.sound_append hrem h.late h.sound
  case noPoll =>
    intro d' hd'
    rcases List.mem_append.mp hd' with hd' | hd'
    · exact hpoll d' hd'
    · exact h.noPoll d' (List.mem_cons_of_mem _ hd')
  case late => exact hout.late_append h.late
  case ready =>
    intro d' rest' hduties
    -- nothing has to follow a duty that comes later, and what has to follow a new one came with it
    cases more with
    | nil =>
      have hrest : rest = d' :: rest' := hduties
      exact Duty.ready_of_late (h.late d' (hrest ▸ List.mem_cons_self))
    | cons first more =>
      obtain ⟨rfl, rfl⟩ := List.cons.inj hduties
      exact (hout.ready hrem.consistent rfl).append
  case ends => exact (ends_after hpoll hout h.ends).imp_right .inr

end Decommission.Teardown
