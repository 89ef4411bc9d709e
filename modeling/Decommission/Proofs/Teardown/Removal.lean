import Decommission.Proofs.Teardown.Order
import Decommission.Proofs.Teardown.Outcomes

/-!
A removal in a cloud: whatever the paces of deletions and the failures, it takes away nothing but
what the machine owns, and its result tells what is gone.
-/
namespace Decommission.Teardown

open Program Simulation

variable {c₀ c c' : Cloud} {group name : String} {site : Site} {p : Plan StoreHandle}

/-- The plan of a removal fits the cloud, which was `c₀` at first. -/
structure Tracks (c₀ : Cloud) (group name : String) (p : Plan StoreHandle) (c : Cloud) : Prop where
  remains : c₀.Remains group (c₀.Owns group name) c
  sound : ∀ d ∈ p.duties, d.Sound c₀ c group name
  late : ∀ d ∈ p.duties.tail, d.isLate = true
  /-- As long as the removal goes on, a machine or a network card that is owned and there is aimed
  at, unless the deletion of the machine has failed. -/
  covered : p.failed = false → ∀ kind n, careOf kind ≠ .unwatched → c₀.Owns group name kind n →
    (kind, group, n) ∈ c.resources →
      (kind = .virtualMachine ∧ p.deleted = false) ∨ ∃ d ∈ p.duties, d.Covers c group kind n
  past : p.deleted = false →
    (.virtualMachine, group, name) ∈ c.resources ∧ ∀ d ∈ p.duties, d.isPast = true

theorem Tracks.start (h : c₀.Consistent) : Tracks c₀ group name (.start name) c₀ where
  remains := .start _ h
  sound d hd := by
    obtain rfl := List.mem_singleton.mp hd
    rfl
  late d hd := by cases hd
  covered _ kind n _ howns _ := .inr ⟨_, List.mem_singleton_self _, howns⟩
  past h := by cases h

/-- A duty that comes later aims at machines and network cards in a way that does not change. -/
theorem covers_of_late {d : Duty StoreHandle} {kind : ResourceKind} {n : String}
    (hlate : d.isLate = true) (hkind : careOf kind ≠ .unwatched) (h : d.Covers c group kind n) :
    d.Covers c' group kind n := by
  cases d with
  | fetchMachine | poll => cases hlate
  | fetchCard m =>
    obtain h | ⟨rfl, -⟩ := h
    · exact .inl h
    · exact absurd rfl hkind
  | delete kind' n' care => exact h
  | fetchKeys account | openStore account key | askImages store account =>
    obtain ⟨rfl, -⟩ := h
    exact absurd rfl hkind
  | _ => exact h.elim

/-- A duty that has nothing to do with the machine does not aim at it. -/
theorem not_machine_of_past {d : Duty StoreHandle} {kind : ResourceKind} {n : String}
    (hpast : d.isPast = true) (hsound : d.Sound c₀ c group name) (h : d.Covers c group kind n) :
    kind ≠ .virtualMachine := by
  rintro rfl
  cases d with
  | fetchMachine name => cases hpast
  | delete kind' n' care =>
    obtain ⟨rfl, -⟩ := h
    cases hpast
  | poll operation care =>
    obtain ⟨op', hop', htarget'⟩ := h
    obtain ⟨op, hop, ⟨kind', n', htarget, rfl, -⟩ | ⟨htarget, -⟩⟩ := hsound
    · obtain rfl := Option.some.inj (hop.symm.trans hop')
      cases htarget.symm.trans htarget'
      cases hpast
    · obtain rfl := Option.some.inj (hop.symm.trans hop')
      cases htarget.symm.trans htarget'
  | fetchCard m => obtain ⟨h, -⟩ | ⟨h, -⟩ := h <;> cases h
  | fetchKeys account | openStore account key | askImages store account => cases h.1
  | _ => exact h

theorem mem_closings {duties : List (Duty StoreHandle)} {d : Duty StoreHandle}
    (h : d ∈ duties.tail.filter Duty.isClose) : ∃ store, d = .close store := by
  have hclose := (List.mem_filter.mp h).2
  cases d with
  | close store => exact ⟨store, rfl⟩
  | _ => cases hclose

/-- A duty that has nothing to do with the machine leaves it there. -/
theorem machine_kept {d : Duty StoreHandle} (hpast : d.isPast = true)
    (hsound : d.Sound c₀ c group name) (hchange : c.Change group (d.TakesAway c group) c')
    (hthere : (.virtualMachine, group, name) ∈ c.resources) :
    (.virtualMachine, group, name) ∈ c'.resources := by
  refine (hchange.kept hthere).resolve_right ?_
  rintro ⟨-, hgone⟩
  exact not_machine_of_past hpast hsound hgone.covers rfl

theorem Tracks.fail (h : Tracks c₀ group name p c) {d : Duty StoreHandle} (hd : d ∈ p.duties)
    (hchange : c.Change group (d.TakesAway c group) c') : Tracks c₀ group name p.fail c' where
  remains := h.remains.change ((h.sound d hd).change_owned h.remains hchange)
  sound d hd := by
    obtain ⟨store, rfl⟩ := mem_closings hd
    trivial
  late d hd := by
    obtain ⟨store, rfl⟩ := mem_closings (List.mem_of_mem_tail hd)
    rfl
  covered hfailed := by cases hfailed
  past hdeleted := by
    obtain ⟨hthere, hpast⟩ := h.past hdeleted
    refine ⟨machine_kept (hpast d hd) (h.sound d hd) hchange hthere, fun d hd => ?_⟩
    obtain ⟨store, rfl⟩ := mem_closings hd
    rfl

/-- A deletion that is reported to have failed is that of the machine, which is still there. -/
theorem machine_of_reported {d : Duty StoreHandle} {following : Option (List (Duty StoreHandle))}
    (h : d.Outcome c group following true c') (hsound : d.Sound c₀ c group name) :
    (.virtualMachine, group, name) ∈ c'.resources ∧ following = some [] := by
  cases h with
  | reported h =>
    refine ⟨?_, rfl⟩
    rw [h.resources]
    obtain ⟨op, -, ⟨kind, n, -, hcare, -, howns, hthere⟩ | ⟨-, hcare, -⟩⟩ := hsound
    · cases howns with
      | machine _ => exact hthere
      | _ => cases hcare
    · cases hcare

section

variable {d : Duty StoreHandle} {rest more : List (Duty StoreHandle)}
  {reports deleted failed : Bool}

/-- What was aimed at by the first duty is gone or aimed at by what follows; what was aimed at by a
later one still is. -/
theorem Tracks.covered_after (h : Tracks c₀ group name ⟨d :: rest, deleted, failed⟩ c)
    (hout : d.Outcome c group (some more) reports c') (hfailed : failed = false)
    {kind : ResourceKind} {n : String} (hkind : careOf kind ≠ .unwatched)
    (howns : c₀.Owns group name kind n) (hthere : (kind, group, n) ∈ c'.resources) :
    (kind = .virtualMachine ∧ (!reports && deleted) = false) ∨
      ∃ d' ∈ more ++ rest, d'.Covers c' group kind n := by
  have hsound := h.sound d List.mem_cons_self
  have hthere₀ := (hout.change hsound).old hthere
  rcases h.covered hfailed kind n hkind howns hthere₀ with ⟨rfl, hdeleted⟩ | ⟨d', hd', hcovers⟩
  · have hdeleted : deleted = false := hdeleted
    exact .inl ⟨rfl, by rw [hdeleted, Bool.and_false]⟩
  rcases List.mem_cons.mp hd' with rfl | hd'
  · obtain ⟨d', hd', hcovers⟩ | ⟨rfl, rfl⟩ | ⟨hunwatched, -⟩ :=
      hout.covers hsound h.remains hcovers hthere
    · exact .inr ⟨d', List.mem_append_left _ hd', hcovers⟩
    · exact .inl ⟨rfl, rfl⟩
    · exact absurd hunwatched hkind
  · have hlate := h.late d' hd'
    exact .inr ⟨d', List.mem_append_right _ hd', covers_of_late hlate hkind hcovers⟩

theorem Tracks.past_after (h : Tracks c₀ group name ⟨d :: rest, deleted, failed⟩ c)
    (hout : d.Outcome c group (some more) reports c') (hdeleted : (!reports && deleted) = false) :
    (.virtualMachine, group, name) ∈ c'.resources ∧ ∀ d' ∈ more ++ rest, d'.isPast = true := by
  have hsound := h.sound d List.mem_cons_self
  cases reports with
  | true =>
    obtain ⟨hthere, heq⟩ := machine_of_reported hout hsound
    obtain rfl := Option.some.inj heq
    exact ⟨hthere, fun d' hd' => Duty.past_of_late (h.late d' hd')⟩
  | false =>
    -- the failure was reported earlier, and all that is left is past the machine
    obtain ⟨hthere, hpast⟩ := h.past hdeleted
    have hd := hpast d List.mem_cons_self
    refine ⟨machine_kept hd hsound (hout.change hsound) hthere, fun d' hd' => ?_⟩
    rcases List.mem_append.mp hd' with hd' | hd'
    · exact (hout.begets hd').past hsound hd
    · exact hpast d' (List.mem_cons_of_mem _ hd')

theorem Tracks.goOn (h : Tracks c₀ group name ⟨d :: rest, deleted, failed⟩ c)
    (hout : d.Outcome c group (some more) reports c') :
    Tracks c₀ group name ⟨more ++ rest, !reports && deleted, failed⟩ c' := by
  have hsound := h.sound d List.mem_cons_self
  constructor
  case remains => exact h.remains.change (hsound.change_owned h.remains (hout.change hsound))
  case sound => exact hout.sound_append h.remains h.late h.sound
  case late => exact hout.late_append h.late
  case covered =>
    intro hfailed kind n hkind howns hthere
    exact h.covered_after hout hfailed hkind howns hthere
  case past => exact h.past_after hout

end

/-- A call of the plan, whether it is answered or given up, leaves a plan that fits the cloud. -/
theorem Tracks.step (h : Tracks c₀ site.group name p c) {call : Call StoreHandle}
    (hcall : p.nextCall? site = some call) {answer : Option (Answer StoreHandle call)}
    (hreply : Cloud.replies c call answer c') :
    Tracks c₀ site.group name (p.after call answer) c' := by
  obtain ⟨duties, deleted, failed⟩ := p
  cases duties with
  | nil => cases hcall
  | cons d rest =>
    obtain rfl := Option.some.inj hcall
    have hout := d.outcome c site
    match answer, hreply with
    | none, hreply =>
      -- what was given up may have been carried out all the same
      obtain rfl : c' = (c.answer (d.call site)).2 := hreply
      exact h.fail List.mem_cons_self (hout.change (h.sound d List.mem_cons_self))
    | some a, hreply =>
      obtain ⟨rfl, rfl⟩ := hreply
      simp only [Plan.after]
      cases hfollowing : d.following (d.call site) (c.answer (d.call site)).1 with
      | none => exact h.fail List.mem_cons_self (hout.change (h.sound d List.mem_cons_self))
      | some more =>
        rw [Duty.Comes, hfollowing] at hout
        exact h.goOn hout

/-- Whatever the cloud answers, and whenever the removal is to stop, it ends with a plan that fits.
-/
theorem meets_in_cloud (s : TeardownSettings) (id : MachineId) (h : c₀.Consistent) :
    (removeMachine s id).run.Meets Cloud.replies.timed
      (fun c call => ∃ p, Tracks c₀ (siteOf s id).group id.name p c ∧ p.Allows (siteOf s id) call)
      (fun result c => ∃ p, Tracks c₀ (siteOf s id).group id.name p c ∧
        Leaves [] (fun deleted p => p = ⟨[], deleted, false⟩) result p) c₀ := by
  refine Meets.simulate (fun p c => Tracks c₀ (siteOf s id).group id.name p c) ?_
    (follows_removeMachine s id) (.start h)
  intro p c call answer c' hallowed htracks hreply
  cases call with
  | act call => exact ⟨_, rfl, htracks.step hallowed.1 hreply⟩
  | actWithin limit call => exact ⟨_, rfl, htracks.step hallowed.1 hreply⟩
  | pause length => exact ⟨p, rfl, by rwa [hreply]⟩
  | rest length => exact ⟨p, rfl, by rwa [hreply]⟩
  | stopRequested => exact ⟨p, rfl, by rwa [hreply]⟩
  | jitter bound => exact ⟨p, rfl, by rwa [hreply]⟩

/-- A removal that has succeeded left nothing behind that it was to watch, but a machine whose
deletion has failed. -/
theorem Tracks.gone {deleted : Bool} (h : Tracks c₀ group name ⟨[], deleted, false⟩ c)
    {kind : ResourceKind} {n : String} (hkind : careOf kind ≠ .unwatched)
    (howns : c₀.Owns group name kind n) (hthere : (kind, group, n) ∈ c.resources) :
    kind = .virtualMachine ∧ deleted = false := by
  rcases h.covered rfl kind n hkind howns hthere with hmachine | ⟨_, hd, -⟩
  · exact hmachine
  · cases hd

theorem Tracks.machine_gone (h : Tracks c₀ group name ⟨[], true, false⟩ c) (hc : c₀.Consistent) :
    (.virtualMachine, group, name) ∉ c.resources := by
  intro hthere
  have hthere₀ := h.remains.old _ hthere
  obtain ⟨m, hm⟩ := Option.isSome_iff_exists.mp ((hc.machines _ _).mpr hthere₀)
  obtain ⟨-, hdeleted⟩ := h.gone (by decide) (.machine hm) hthere
  cases hdeleted

theorem Tracks.card_gone {deleted : Bool} (h : Tracks c₀ group name ⟨[], deleted, false⟩ c)
    {m : Machine} (hm : c₀.machines.get? (group, name) = some m) {r : Reference}
    (hr : r ∈ m.networkInterfaces) : (.networkInterface, group, r.name) ∉ c.resources := by
  intro hthere
  obtain ⟨hkind, -⟩ := h.gone (by decide) (.card hm hr) hthere
  cases hkind

/-- An account that holds captured images is not owned by a machine, and is kept. -/
theorem Tracks.images_kept (h : Tracks c₀ group name p c) {account : String}
    (himages : account ∈ c₀.imageAccounts)
    (hthere : (.storageAccount, group, account) ∈ c₀.resources) :
    (.storageAccount, group, account) ∈ c.resources := by
  refine (h.remains.kept _ _ _ hthere).resolve_right ?_
  rintro ⟨-, howns⟩
  cases howns with
  | account _ _ hnone => exact hnone himages

/-- A machine that is not there counts as removed after one call. -/
theorem run_absent (s : TeardownSettings) (id : MachineId) {w : World Cloud}
    (h : w.state.machines.get? ((siteOf s id).group, id.name) = none) :
    Task.run Cloud.server (removeMachine s id).run w = (some (.ok true),
      { w with state := w.state.record (.plane (.getMachine (siteOf s id).group id.name)) }) := by
  change Task.run Cloud.server
    (.bind (.done (Except.mapError _ (.ok (w.state.machines.get? (_, id.name))))) _) _ = _
  rw [show w.state.machines.get? (groupName s.groupPrefix id.region, id.name) = none from h]
  rfl

theorem contains_eq_true {kind : ResourceKind} {n : String} :
    c.contains kind group n = true ↔ (kind, group, n) ∈ c.resources := decide_eq_true_iff

theorem contains_eq_false {kind : ResourceKind} {n : String} :
    c.contains kind group n = false ↔ (kind, group, n) ∉ c.resources := decide_eq_false_iff_not

/-- For every cloud, whatever the paces of its deletions and its failures, and every machine:
however a removal ends, all is still there but what the machine owns, and the group unless nothing
is left in it. The result tells whether the machine is gone. After a success no network card of the
machine is left, and after `true` a second removal makes one call and changes nothing. -/
theorem removal_keeps_others (s : TeardownSettings) (id : MachineId) (w : World Cloud)
    (hw : w.state.Reachable) :
    let group := (siteOf s id).group
    let c := w.state
    let result := (Task.run Cloud.server (removeMachine s id).run w).1
    let d := (Task.run Cloud.server (removeMachine s id).run w).2.state
    (∀ kind g n, c.contains kind g n = true →
      d.contains kind g n = true ∨ g = group ∧ c.Owns group id.name kind n) ∧
    (∀ g, c.hasGroup g = true →
      d.hasGroup g = true ∨ g = group ∧ ∀ kind n, d.contains kind group n = false) ∧
    (result = some (.ok true) → d.contains .virtualMachine group id.name = false) ∧
    (result = some (.ok false) → d.contains .virtualMachine group id.name = true) ∧
    (∀ deleted m, result = some (.ok deleted) → c.machines.get? (group, id.name) = some m →
      (∀ r ∈ m.networkInterfaces, d.contains .networkInterface group r.name = false) ∧
      ∀ account ∈ c.imageAccounts, c.contains .storageAccount group account = true →
        d.contains .storageAccount group account = true) ∧
    (result = some (.ok true) → ∀ w' : World Cloud, w'.state = d →
      Task.run Cloud.server (removeMachine s id).run w' =
        (some (.ok true), { w' with state := d.record (.plane (.getMachine group id.name)) })) := by
  intro group c result d
  have hc := hw.consistent
  obtain ⟨p, htracks, hleaves⟩ :=
    Task.run_meets Cloud.server_within (meets_in_cloud s id hc)
  have hrem := htracks.remains
  have hok {deleted : Bool} (h : result = some (.ok deleted)) : p = ⟨[], deleted, false⟩ := by
    change (Task.run Cloud.server (removeMachine s id).run w).1 = _ at h
    rwa [h] at hleaves
  have hgone (h : result = some (.ok true)) : (.virtualMachine, group, id.name) ∉ d.resources := by
    obtain rfl := hok h
    exact htracks.machine_gone hc
  refine ⟨fun kind g n h => ?_, fun g h => ?_, fun h => ?_, fun h => ?_,
    fun deleted m h hm => ⟨fun r hr => ?_, fun account himages hthere => ?_⟩, fun h w' hw' => ?_⟩
  · rw [contains_eq_true] at h ⊢
    exact hrem.kept kind g n h
  · refine (hrem.keptGroups g (of_decide_eq_true h)).imp (fun h => decide_eq_true h) ?_
    rintro ⟨rfl, hempty⟩
    exact ⟨rfl, fun kind n => contains_eq_false.mpr (hempty kind n)⟩
  · exact contains_eq_false.mpr (hgone h)
  · obtain rfl := hok h
    exact contains_eq_true.mpr (htracks.past rfl).1
  · obtain rfl := hok h
    exact contains_eq_false.mpr (htracks.card_gone hm hr)
  · rw [contains_eq_true] at hthere ⊢
    exact htracks.images_kept himages hthere
  · have hnone : d.machines.get? (group, id.name) = none := by
      rw [← Option.not_isSome_iff_eq_none, hrem.consistent.machines]
      exact hgone h
    rw [← hw'] at hnone
    rw [run_absent s id hnone, hw']

/-- A machine whose deletion takes two looks, in a group where another network card is. -/
theorem removal_keeps_others_two_looks :
    let c : Cloud := ({ pace := .afterPolls 1 .succeeded } : Cloud).addMachine "g-r" "m"
      [("n", ["a"])] (some "store")
    let s : TeardownSettings := ⟨"g", "vhds", ⟨1, 1, 5⟩⟩
    let id : MachineId := ⟨"r", "m", by decide, by decide⟩
    let w : World Cloud := ⟨0, .never, 1, c.addNetworkCard "g-r" "other" []⟩
    (Task.run Cloud.server (removeMachine s id).run w).1 = some (.ok true) ∧
      (Task.run Cloud.server (removeMachine s id).run w).2.state.contains
        .virtualMachine "g-r" "m" = false := by
  intro c s id w
  have hw : w.state.Reachable := .addNetworkCard (.addMachine (.setPace .empty _) _ _ _ _) _ _ _
  have hresult : (Task.run Cloud.server (removeMachine s id).run w).1 = some (.ok true) := by
    decide +kernel
  exact ⟨hresult, (removal_keeps_others s id w hw).2.2.1 hresult⟩

end Decommission.Teardown
