import Decommission.Proofs.Teardown.Duties

/-!
What comes of a duty that is right: nothing is taken away but what the machine owns, the duties that
follow are right too, and what is owned and still there is aimed at by one of them.
-/
namespace Decommission.Teardown

open Simulation

namespace Duty

variable {c₀ c c' : Cloud} {group name : String} {d d' : Duty StoreHandle}
  {more : List (Duty StoreHandle)} {reports : Bool} {may : ResourceKind → String → Prop}

/-- A duty takes away nothing but its own resource, and a group only with nothing in it. -/
theorem Outcome.change {following : Option (List (Duty StoreHandle))}
    (h : Outcome c group d following reports c') (hsound : d.Sound c₀ c group name) :
    c.Change group (d.TakesAway c group) c' := by
  cases h with
  | started _ h =>
    rcases h.stock with h | h
    · exact .same h
    · exact .lost ⟨rfl, rfl⟩ h
  | succeeded hop h =>
    -- what the look carries out is the deletion that it was right for
    obtain ⟨op, hop', ⟨kind, n, htarget, -⟩ | ⟨htarget, -, hempty⟩⟩ := hsound
    · obtain rfl := Option.some.inj (hop.symm.trans hop')
      rw [htarget] at h
      exact .lost ⟨_, hop, htarget⟩ h
    · obtain rfl := Option.some.inj (hop.symm.trans hop')
      rw [htarget] at h
      exact .lostGroup hempty h
  | groupStarted h =>
    rcases h.stock with h | h
    · exact .same h
    · exact .lostGroup hsound h
  | _ => exact .same ‹_›

/-- What a duty aims at is owned by the machine. -/
theorem Sound.owns {kind : ResourceKind} {n : String} (h : d.Sound c₀ c group name)
    (hrem : c₀.Remains group may c) (hcovers : d.Covers c group kind n) :
    c₀.Owns group name kind n := by
  cases d with
  | fetchMachine name' =>
    obtain rfl : name' = name := h
    exact hrem.owns hcovers
  | delete kind' n' care =>
    obtain ⟨rfl, rfl⟩ := hcovers
    exact h.2
  | poll operation care =>
    obtain ⟨op', hop', htarget'⟩ := hcovers
    obtain ⟨op, hop, ⟨kind', n', htarget, -, -, howns, -⟩ | ⟨htarget, -⟩⟩ := h
    · obtain rfl := Option.some.inj (hop.symm.trans hop')
      cases htarget.symm.trans htarget'
      exact howns
    · obtain rfl := Option.some.inj (hop.symm.trans hop')
      cases htarget.symm.trans htarget'
  | fetchCard n' =>
    obtain ⟨rfl, rfl⟩ | ⟨rfl, card, hcard, ha⟩ := hcovers
    · exact h
    · cases h with
      | card hm hr => exact .address hm hr (hrem.cards _ _ hcard) ha
  | fetchKeys account =>
    obtain ⟨rfl, rfl, himages⟩ := hcovers
    obtain ⟨m, hm, haccount⟩ := h
    exact .account hm haccount (hrem.imageAccounts ▸ himages)
  | openStore account key =>
    obtain ⟨rfl, rfl, himages⟩ := hcovers
    obtain ⟨m, hm, haccount⟩ := h
    exact .account hm haccount (hrem.imageAccounts ▸ himages)
  | askImages store account =>
    obtain ⟨rfl, rfl, himages⟩ := hcovers
    obtain ⟨⟨m, hm, haccount⟩, -⟩ := h
    exact .account hm haccount (hrem.imageAccounts ▸ himages)
  | _ => exact hcovers.elim

/-- A duty that is right takes away only what the machine owns. -/
theorem Sound.change_owned (h : d.Sound c₀ c group name) (hrem : c₀.Remains group may c)
    (hc : c.Change group (d.TakesAway c group) c') : c.Change group (c₀.Owns group name) c' :=
  hc.imp fun _ _ hgone => h.owns hrem hgone.covers

/-- A duty other than a look at an operation stays right as the group gets emptier. -/
theorem Sound.change (h : d.Sound c₀ c group name) (hpoll : d.isPoll = false)
    (hc : c.Change group may c') : d.Sound c₀ c' group name := by
  cases d with
  | poll operation care => cases hpoll
  | look kind later => exact fun k n hr => h k n (hc.old hr)
  | deleteGroup => exact fun k n hr => h k n (hc.old hr)
  | _ => exact h

/-! ### The duties that follow -/

theorem late_of_mem_afterMachine {m : Machine} (h : d ∈ afterMachine m) : d.isLate = true := by
  rcases mem_afterMachine h with ⟨r, -, rfl⟩ | ⟨account, -, rfl⟩ | rfl <;> rfl

theorem late_of_mem_ofAddresses {names : List String} (h : d ∈ ofAddresses names) :
    d.isLate = true := by
  obtain ⟨a, -, rfl⟩ := mem_ofAddresses h
  rfl

theorem tail_afterDeletion (care : Care) (deletion : Deletion) :
    (afterDeletion care deletion : List (Duty StoreHandle)).tail = [] := by
  cases deletion with
  | pending operation =>
    rw [afterDeletion]
    split <;> rfl
  | alreadyAbsent => rfl
  | deleted => rfl

theorem late_lookFor (kinds : List ResourceKind) :
    (lookFor kinds : Duty StoreHandle).isLate = true := by
  cases kinds <;> rfl

theorem mem_tracked (kind : ResourceKind) : kind ∈ ResourceKind.tracked := by
  cases kind <;> decide

/-- What may follow from a duty: what may come later, the deletion of what was fetched, and looks at
a deletion that was started. -/
inductive Begets : Duty StoreHandle → Duty StoreHandle → Prop where
  | late {d d' : Duty StoreHandle} (h : d'.isLate = true) : Begets d d'
  | machine {n m : String} : Begets (.fetchMachine n) (.delete .virtualMachine m .reported)
  | card {n : String} : Begets (.fetchCard n) (.delete .networkInterface n .required)
  | started {kind : ResourceKind} {n operation : String} {care : Care} (h : care ≠ .unwatched) :
    Begets (.delete kind n care) (.poll operation care)
  | groupStarted {operation : String} : Begets .deleteGroup (.poll operation .required)
  | again {operation : String} {care : Care} : Begets (.poll operation care) (.poll operation care)

theorem Outcome.begets (h : Outcome c group d (some more) reports c') (hd' : d' ∈ more) :
    Begets d d' := by
  cases h with
  | machine =>
    rcases List.mem_cons.mp hd' with rfl | hd'
    · exact .machine
    · exact .late (late_of_mem_afterMachine hd')
  | started =>
    obtain ⟨operation, -, hcare, rfl⟩ := mem_afterDeletion hd'
    exact .started hcare
  | inProgress =>
    obtain rfl := List.mem_singleton.mp hd'
    exact .again
  | card =>
    rcases List.mem_cons.mp hd' with rfl | hd'
    · exact .card
    · exact .late (late_of_mem_ofAddresses hd')
  | keys | noImages =>
    obtain rfl := List.mem_singleton.mp hd'
    exact .late rfl
  | opened =>
    simp only [List.mem_cons, List.not_mem_nil, or_false] at hd'
    rcases hd' with rfl | rfl | rfl <;> exact .late rfl
  | @notFound kind later =>
    obtain rfl := List.mem_singleton.mp hd'
    exact .late (late_lookFor later)
  | groupStarted =>
    obtain ⟨operation, -, -, rfl⟩ := mem_afterDeletion hd'
    exact .groupStarted
  | _ => cases hd'

/-- What follows a duty that has nothing to do with the machine has nothing to do with it either. -/
theorem Begets.past (h : Begets d d') (hsound : d.Sound c₀ c group name)
    (hpast : d.isPast = true) : d'.isPast = true := by
  cases h with
  | late h => exact past_of_late h
  | machine => cases hpast
  | card => rfl
  | @started kind n operation care _ =>
    obtain ⟨rfl, -⟩ := hsound
    cases kind with
    | virtualMachine => cases hpast
    | _ => rfl
  | groupStarted => rfl
  | again => exact hpast

/-- A machine is fetched only at the start. -/
theorem Begets.not_fetch {n : String} (h : Begets d (.fetchMachine n)) : False := by
  cases h with
  | late h => cases h

/-- All duties that follow but the first may come later. -/
theorem Outcome.late (h : Outcome c group d (some more) reports c') :
    ∀ d' ∈ more.tail, d'.isLate = true := by
  intro d' hd'
  cases h with
  | machine => exact late_of_mem_afterMachine hd'
  | card => exact late_of_mem_ofAddresses hd'
  | started | groupStarted =>
    rw [tail_afterDeletion] at hd'
    cases hd'
  | opened =>
    simp only [List.tail_cons, List.mem_cons, List.not_mem_nil, or_false] at hd'
    rcases hd' with rfl | rfl <;> rfl
  | _ => cases hd'

/-! ### What they are right for -/

theorem sound_of_mem_ofMachine {m : Machine} (hm : c₀.machines.get? (group, name) = some m)
    (hname : m.name = name) (hd : d ∈ ofMachine m) : d.Sound c₀ c group name := by
  rcases List.mem_cons.mp hd with rfl | hd
  · refine ⟨rfl, ?_⟩
    rw [hname]
    exact .machine hm
  rcases mem_afterMachine hd with ⟨r, hr, rfl⟩ | ⟨account, haccount, rfl⟩ | rfl
  · exact .card hm hr
  · exact ⟨m, hm, haccount⟩
  · exact fun k _ _ => mem_tracked k

theorem sound_of_mem_ofCard {n : String} {card : NetworkCard}
    (howns : c₀.Owns group name .networkInterface n) (hcard : c₀.cards.get? (group, n) = some card)
    (hd : d ∈ ofCard n card) : d.Sound c₀ c group name := by
  rcases List.mem_cons.mp hd with rfl | hd
  · exact ⟨rfl, howns⟩
  · obtain ⟨a, ha, rfl⟩ := mem_ofAddresses hd
    refine ⟨rfl, ?_⟩
    cases howns with
    | card hm hr => exact .address hm hr hcard ha

theorem sound_lookFor {kinds : List ResourceKind}
    (h : ∀ kind n, (kind, group, n) ∈ c.resources → kind ∈ kinds) :
    (lookFor kinds).Sound c₀ c group name := by
  cases kinds with
  | nil => exact fun kind n hr => by cases h kind n hr
  | cons kind later => exact h

/-- The duties that follow from a sound duty are sound. -/
theorem Outcome.sound (h : Outcome c group d (some more) reports c')
    (hsound : d.Sound c₀ c group name) (hrem : c₀.Remains group may c) :
    ∀ d' ∈ more, d'.Sound c₀ c' group name := by
  intro d' hd'
  cases h with
  | @machine n m _ hm h =>
    obtain rfl : n = name := hsound
    exact sound_of_mem_ofMachine (hrem.machines _ _ hm) (hrem.consistent.names _ _ _ hm) hd'
  | @started kind n care deletion _ hmem h =>
    obtain ⟨hcare, howns⟩ := hsound
    obtain ⟨operation, rfl, hwatched, rfl⟩ := mem_afterDeletion hd'
    cases h with
    | pending _ h hop htarget =>
      refine ⟨_, hop, .inl ⟨kind, n, htarget, hcare, hwatched, howns, ?_⟩⟩
      rwa [h.resources]
  | inProgress hop h hop' htarget =>
    obtain rfl := List.mem_singleton.mp hd'
    obtain ⟨op, hop₁, hsound⟩ := hsound
    obtain rfl := Option.some.inj (hop.symm.trans hop₁)
    refine ⟨_, hop', ?_⟩
    rwa [htarget, h.resources]
  | card hcard h => exact sound_of_mem_ofCard hsound (hrem.cards _ _ hcard) hd'
  | keys h =>
    obtain rfl := List.mem_singleton.mp hd'
    exact hsound
  | @opened account key store _ hstore h =>
    simp only [List.mem_cons, List.not_mem_nil, or_false] at hd'
    rcases hd' with rfl | rfl | rfl
    · trivial
    · exact ⟨hsound, hstore⟩
    · trivial
  | @noImages store account _ himages h =>
    obtain rfl := List.mem_singleton.mp hd'
    obtain ⟨⟨m, hm, haccount⟩, hstore⟩ := hsound
    refine ⟨rfl, .account hm haccount ?_⟩
    rwa [← hrem.imageAccounts, ← hstore]
  | @notFound kind later _ hnone h =>
    obtain rfl := List.mem_singleton.mp hd'
    refine sound_lookFor fun k n hr => ?_
    rw [h.resources] at hr
    -- what is left is of one of the kinds, and the first was not found
    rcases List.mem_cons.mp (hsound k n hr) with rfl | hk
    · exact absurd hr (hnone n)
    · exact hk
  | groupStarted h =>
    obtain ⟨operation, rfl, -, rfl⟩ := mem_afterDeletion hd'
    cases h with
    | pending _ h hop htarget =>
      refine ⟨_, hop, .inr ⟨htarget, rfl, ?_⟩⟩
      rwa [h.resources]
  | _ => cases hd'

section

variable {kind : ResourceKind} {n : String}

/-- Each resource that a machine owns has a duty of its own, but an address, which has that of its
card. -/
theorem covers_ofMachine {m : Machine} (hm : c.machines.get? (group, name) = some m)
    (hname : m.name = name) (howns : c.Owns group name kind n) (hsame : c.SameStock c') :
    ∃ d ∈ ofMachine m, d.Covers c' group kind n := by
  cases howns with
  | machine hm' => exact ⟨_, List.mem_cons_self, rfl, hname.symm⟩
  | card hm' hr =>
    obtain rfl := Option.some.inj (hm.symm.trans hm')
    exact ⟨_, List.mem_cons_of_mem _ (fetchCard_mem_afterMachine hr), .inl ⟨rfl, rfl⟩⟩
  | address hm' hr hcard ha =>
    obtain rfl := Option.some.inj (hm.symm.trans hm')
    refine ⟨_, List.mem_cons_of_mem _ (fetchCard_mem_afterMachine hr), .inr ⟨rfl, _, ?_, ha⟩⟩
    rwa [hsame.cards]
  | account hm' ha himages =>
    obtain rfl := Option.some.inj (hm.symm.trans hm')
    refine ⟨_, List.mem_cons_of_mem _ (fetchKeys_mem_afterMachine ha), rfl, rfl, ?_⟩
    rwa [hsame.imageAccounts]

theorem covers_ofCard {m : String} {card : NetworkCard}
    (hcard : c.cards.get? (group, m) = some card)
    (hcovers : (fetchCard m).Covers c group kind n) :
    ∃ d ∈ ofCard m card, d.Covers c' group kind n := by
  obtain ⟨rfl, rfl⟩ | ⟨rfl, card, hcard', ha⟩ := hcovers
  · exact ⟨_, List.mem_cons_self, rfl, rfl⟩
  · obtain rfl := Option.some.inj (hcard.symm.trans hcard')
    exact ⟨_, List.mem_cons_of_mem _ (delete_mem_ofAddresses ha), rfl, rfl⟩

/-- A deletion that was started and leaves the resource there is waited for, if it is watched. -/
theorem covers_afterDeletion {care : Care} {pace : Pace} {deletion : Deletion}
    (h : c.Started (.resource kind group n) pace deletion c')
    (hthere : (kind, group, n) ∈ c'.resources) :
    (∃ d ∈ afterDeletion care deletion, d.Covers c' group kind n) ∨
      care = .unwatched ∧ pace ≠ .immediate := by
  cases h with
  | deleted _ h =>
    rw [h.resources, Cloud.mem_remove] at hthere
    exact absurd rfl hthere.2
  | pending hpace h hop htarget =>
    by_cases hwatched : care = .unwatched
    · exact .inr ⟨hwatched, hpace⟩
    · rw [afterDeletion, if_neg hwatched]
      exact .inl ⟨_, List.mem_singleton_self _, _, hop, htarget⟩

/-- A look that reports a failure is at the deletion of a machine. -/
theorem Sound.machine_of_reported {operation : String}
    (h : (poll operation .reported).Sound c₀ c group name)
    (hcovers : (poll operation .reported).Covers c group kind n) : kind = .virtualMachine := by
  obtain ⟨op₁, hop₁, htarget₁⟩ := hcovers
  obtain ⟨op, hop, ⟨k, m, htarget, hcare, -⟩ | ⟨-, hcare, -⟩⟩ := h
  · obtain rfl := Option.some.inj (hop.symm.trans hop₁)
    cases htarget.symm.trans htarget₁
    cases kind <;> first | rfl | cases hcare
  · cases hcare

/-- What a duty aims at, and what is still there after it, is aimed at by a duty that follows. The
exceptions are a machine whose deletion is reported to have failed, and deletions that are carried
out later and not watched. -/
theorem Outcome.covers (h : Outcome c group d (some more) reports c')
    (hsound : d.Sound c₀ c group name) (hrem : c₀.Remains group may c)
    (hcovers : d.Covers c group kind n) (hthere : (kind, group, n) ∈ c'.resources) :
    (∃ d' ∈ more, d'.Covers c' group kind n) ∨
      (reports = true ∧ kind = .virtualMachine) ∨
      careOf kind = .unwatched ∧ (c.paces.get? (kind, n)).getD c.pace ≠ .immediate := by
  cases h with
  | noMachine hnone h =>
    cases hcovers with
    | machine hm | card hm _ | address hm _ _ _ | account hm _ _ =>
      cases hnone.symm.trans hm
  | machine hm h =>
    exact .inl (covers_ofMachine hm (hrem.consistent.names _ _ _ hm) hcovers h)
  | absent hnone h =>
    obtain ⟨rfl, rfl⟩ := hcovers
    rw [h.resources] at hthere
    exact absurd hthere hnone
  | started hmem h =>
    obtain ⟨rfl, rfl⟩ := hcovers
    obtain ⟨rfl, -⟩ := hsound
    exact (covers_afterDeletion h hthere).imp_right .inr
  | inProgress hop h hop' htarget =>
    obtain ⟨op, hop₁, htarget₁⟩ := hcovers
    obtain rfl := Option.some.inj (hop.symm.trans hop₁)
    exact .inl ⟨_, List.mem_singleton_self _, _, hop', htarget.trans htarget₁⟩
  | succeeded hop h =>
    obtain ⟨op, hop₁, htarget⟩ := hcovers
    obtain rfl := Option.some.inj (hop.symm.trans hop₁)
    rw [htarget] at h
    rw [h.resources, Cloud.mem_remove] at hthere
    exact absurd rfl hthere.2
  | reported h => exact .inr (.inl ⟨rfl, hsound.machine_of_reported hcovers⟩)
  | unwatched h =>
    -- no look is made at a deletion that is not watched
    obtain ⟨op, hop, ⟨k, m, htarget, hcare, hwatched, -⟩ | ⟨-, hcare, -⟩⟩ := hsound
    · exact absurd rfl hwatched
    · cases hcare
  | noCard hnone h =>
    obtain ⟨rfl, rfl⟩ | ⟨rfl, card, hcard, ha⟩ := hcovers
    · rw [h.resources, ← hrem.consistent.cards, hnone] at hthere
      cases hthere
    · cases hnone.symm.trans hcard
  | card hcard h => exact .inl (covers_ofCard hcard hcovers)
  | noKeys hnone h =>
    obtain ⟨rfl, rfl, himages⟩ := hcovers
    rw [h.resources, ← hrem.consistent.keys, hnone] at hthere
    cases hthere
  | keys h =>
    obtain ⟨rfl, rfl, himages⟩ := hcovers
    exact .inl ⟨_, List.mem_singleton_self _, rfl, rfl, h.imageAccounts ▸ himages⟩
  | @opened account key store _ hstore h =>
    obtain ⟨rfl, rfl, himages⟩ := hcovers
    refine .inl ⟨.askImages store _, ?_, rfl, rfl, h.imageAccounts ▸ himages⟩
    exact List.mem_cons_of_mem _ List.mem_cons_self
  | images himages h =>
    obtain ⟨rfl, rfl, hnone⟩ := hcovers
    rw [hsound.2] at himages
    exact absurd himages hnone
  | noImages himages h =>
    obtain ⟨rfl, rfl, -⟩ := hcovers
    exact .inl ⟨_, List.mem_singleton_self _, rfl, rfl⟩
  | _ => exact hcovers.elim

end

theorem Outcome.late_append {rest : List (Duty StoreHandle)}
    (h : Outcome c group d (some more) reports c') (hrest : ∀ d' ∈ rest, d'.isLate = true) :
    ∀ d' ∈ (more ++ rest).tail, d'.isLate = true := by
  intro d' hd'
  cases more with
  | nil => exact hrest d' (List.mem_of_mem_tail hd')
  | cons first more => exact (List.mem_append.mp hd').elim (h.late d') (hrest d')

theorem Outcome.sound_append {rest : List (Duty StoreHandle)}
    (h : Outcome c group d (some more) reports c') (hrem : c₀.Remains group may c)
    (hrest : ∀ d' ∈ rest, d'.isLate = true) (hsound : ∀ d' ∈ d :: rest, d'.Sound c₀ c group name) :
    ∀ d' ∈ more ++ rest, d'.Sound c₀ c' group name := by
  have hd := hsound d List.mem_cons_self
  intro d' hd'
  rcases List.mem_append.mp hd' with hd' | hd'
  · exact h.sound hd hrem d' hd'
  · exact (hsound d' (List.mem_cons_of_mem _ hd')).change (not_poll_of_late (hrest d' hd'))
      (h.change hd)

end Duty

end Decommission.Teardown
