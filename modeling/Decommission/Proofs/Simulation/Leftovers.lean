import Decommission.Proofs.Simulation.Settled

/-!
What a cloud still shows of a group that is not there. A group goes without its resources, so that
those which it held are left behind, until they are deleted or the group comes back.
-/
namespace Decommission.Simulation.Cloud

variable {c d e : Cloud} {group : String} {r : ResourceKind × String × String}
  {call : Teardown.Call StoreHandle}

/-! ### Setting up -/

/-- No group goes, and what is new comes with its group. -/
structure Grows (c d : Cloud) : Prop where
  groups : ∀ g ∈ c.groups, g ∈ d.groups
  resources : ∀ r ∈ d.resources, r ∈ c.resources ∨ r.2.1 ∈ d.groups

theorem Grows.of_same (hgroups : d.groups = c.groups) (hresources : d.resources = c.resources) :
    Grows c d := by
  constructor
  · rw [hgroups]
    exact fun _ hg => hg
  · rw [hresources]
    exact fun _ hr => .inl hr

theorem Grows.trans (h : Grows c d) (h' : Grows d e) : Grows c e where
  groups g hg := h'.groups g (h.groups g hg)
  resources r hr := by
    rcases h'.resources r hr with hr | hgroup
    · exact (h.resources r hr).imp_right (h'.groups _)
    · exact .inr hgroup

theorem grows_addResource (c : Cloud) (kind : ResourceKind) (group name : String) :
    Grows c (c.addResource kind group name) where
  groups g hg := mem_addOnce.mpr (.inr hg)
  resources r hr := by
    rcases mem_addResource.mp hr with rfl | hr
    · exact .inr (mem_addOnce.mpr (.inl rfl))
    · exact .inl hr

theorem Grows.setUpStep (h : Grows c d) (hstep : SetUpStep d e) : Grows c e := by
  refine h.trans ?_
  cases hstep with
  | group group => exact ⟨fun g hg => mem_addOnce.mpr (.inr hg), fun r hr => .inl hr⟩
  | address group name => exact grows_addResource d .publicAddress group name
  | card group name addresses =>
    exact (grows_addResource d .networkInterface group name).trans (.of_same rfl rfl)
  | account group name =>
    exact (grows_addResource d .storageAccount group name).trans (.of_same rfl rfl)
  | machine group name cards account =>
    exact (grows_addResource d .virtualMachine group name).trans (.of_same rfl rfl)
  | image account => exact .of_same rfl rfl
  | settings pace paces groupPace keysDenied blobsDown => exact .of_same rfl rfl

theorem grows_setUp (c : Cloud) (s : SetUp) : Grows c (c.setUp s) :=
  holds_after_steps Grows.setUpStep (.of_same rfl rfl) (steps_setUp c s)

/-! ### The end of a group -/

/-- The call carries out the deletion of the group: at once, or by a look at an operation that has
succeeded. -/
inductive Ends (c : Cloud) (group : String) : Teardown.Call StoreHandle → Prop where
  | deletion (hpace : c.groupPace = .immediate) : Ends c group (.plane (.deleteGroup group))
  | look {uri : String} {op : Operation} (hop : c.IsSettled uri op)
    (hresult : op.result = .succeeded) (htarget : op.target = .group group) :
    Ends c group (look uri)

theorem stock_of_ends (hends : c.Ends group call) (hgroup : group ∈ c.groups) :
    SameStock (c.remove (.group group)) (c.answer call).2 := by
  cases hends with
  | deletion hpace =>
    obtain ⟨deletion, -, ⟨hgone, -, -⟩ | ⟨-, hstarted⟩⟩ := answer_deleteGroup c group
    · exact absurd hgroup hgone
    · cases hstarted with
      | deleted _ hstock => exact hstock
      | pending hpending _ _ _ => exact absurd hpace hpending
  | look hop hresult htarget =>
    have hstock := hop.answer_look.2
    rwa [if_pos hresult, htarget] at hstock

theorem not_mem_groups_of_ends (hends : c.Ends group call) (hgroup : group ∈ c.groups) :
    group ∉ (c.answer call).2.groups := by
  rw [(stock_of_ends hends hgroup).groups]
  exact fun hmem => (mem_without.mp hmem).2 rfl

/-- A group goes in no other way. -/
theorem ends_of_not_mem (hgroup : group ∈ c.groups) (hgone : group ∉ (c.answer call).2.groups) :
    c.Ends group call := by
  have hchanged : ¬SameStock c (c.answer call).2 := fun hsame => hgone (hsame.groups ▸ hgroup)
  obtain ⟨target, hcarries, hstock⟩ := (answer_stock c call).resolve_left hchanged
  -- only the deletion of the group itself takes it away
  have htarget : target = .group group := by
    cases target with
    | resource kind inGroup name =>
      rw [hstock.groups, groups_remove] at hgone
      exact absurd hgroup hgone
    | group other =>
      rw [hstock.groups] at hgone
      have hother : ¬group ≠ other := fun hne => hgone (mem_without.mpr ⟨hgroup, hne⟩)
      rw [not_not.mp hother]
  cases hcarries with
  | delete kind inGroup name => cases htarget
  | deleteGroup other =>
    cases htarget
    obtain ⟨deletion, -, ⟨-, -, hsame⟩ | ⟨-, hstarted⟩⟩ := answer_deleteGroup c group
    · exact absurd hsame hchanged
    · cases hstarted with
      | deleted hpace _ => exact .deletion hpace
      | pending _ hsame _ _ => exact absurd hsame hchanged
  | @poll uri op hop =>
    obtain ⟨-, hsame, -⟩ | ⟨hstatus, -⟩ | ⟨-, hsame⟩ := answer_poll hop
    · exact absurd hsame hchanged
    · obtain ⟨op', hsettled, hresult⟩ := exists_isSettled hstatus rfl
      obtain rfl : op = op' := Option.some.inj (hop.symm.trans hsettled.listed)
      exact .look hsettled hresult htarget
    · exact absurd hsame hchanged

/-! ### What is left behind -/

/-- A resource whose group is not there was there before, and its group was not, unless the group
has just been deleted. -/
theorem Step.of_missing_group (h : Step c d) (hr : r ∈ d.resources) (hgone : r.2.1 ∉ d.groups) :
    r ∈ c.resources ∧
      (r.2.1 ∈ c.groups → ∃ call, c.Ends r.2.1 call ∧ d = (c.answer call).2) := by
  cases h with
  | setUp s =>
    have hgrows := grows_setUp c s
    refine ⟨(hgrows.resources r hr).resolve_right hgone, fun hgroup => ?_⟩
    exact absurd (hgrows.groups _ hgroup) hgone
  | answer call =>
    refine ⟨?_, fun hgroup => ⟨call, ends_of_not_mem hgroup hgone, rfl⟩⟩
    rcases answer_stock c call with hsame | ⟨target, -, hstock⟩
    · rwa [hsame.resources] at hr
    · rw [hstock.resources] at hr
      cases target with
      | resource kind inGroup name => exact (mem_remove.mp hr).1
      | group other => exact hr

/-- The resource was there when its group was deleted. Since then neither the resource has gone nor
the group come back. -/
inductive LeftBehind (r : ResourceKind × String × String) : Cloud → Prop where
  | deleted {c : Cloud} {call : Teardown.Call StoreHandle} (hc : c.Reachable)
    (hr : r ∈ c.resources) (hgroup : r.2.1 ∈ c.groups) (hends : c.Ends r.2.1 call) :
    LeftBehind r (c.answer call).2
  | later {c d : Cloud} (h : LeftBehind r c) (hstep : Step c d) (hr : r ∈ d.resources)
    (hgone : r.2.1 ∉ d.groups) : LeftBehind r d

theorem LeftBehind.mem (h : LeftBehind r c) : r ∈ c.resources ∧ r.2.1 ∉ c.groups := by
  cases h with
  | deleted _ hr hgroup hends =>
    refine ⟨?_, not_mem_groups_of_ends hends hgroup⟩
    rw [(stock_of_ends hends hgroup).resources]
    exact hr
  | later _ _ hr hgone => exact ⟨hr, hgone⟩

theorem LeftBehind.of_step (hc : c.Reachable) (hstep : Step c d)
    (ih : r ∈ c.resources → r.2.1 ∉ c.groups → LeftBehind r c) (hr : r ∈ d.resources)
    (hgone : r.2.1 ∉ d.groups) : LeftBehind r d := by
  obtain ⟨hbefore, hdeleted⟩ := hstep.of_missing_group hr hgone
  by_cases hgroup : r.2.1 ∈ c.groups
  · obtain ⟨call, hends, rfl⟩ := hdeleted hgroup
    exact .deleted hc hbefore hgroup hends
  · exact .later (ih hbefore hgroup) hstep hr hgone

theorem Reachable.leftBehind_iff (hc : c.Reachable) :
    LeftBehind r c ↔ r ∈ c.resources ∧ r.2.1 ∉ c.groups := by
  refine ⟨LeftBehind.mem, fun h => ?_⟩
  obtain ⟨hr, hgone⟩ := h
  induction hc using Reachable.rec_steps with
  | empty => cases hr
  | setUp c hc s ih => exact .of_step hc (.setUp s) ih hr hgone
  | answer c hc call ih => exact .of_step hc (.answer call) ih hr hgone

/-- Clouds of which no group was ever deleted with something in it. -/
inductive Tidy : Cloud → Prop where
  | empty : Tidy {}
  | step {c d : Cloud} (h : Tidy c) (hstep : Step c d)
    (hbare : ∀ group ∈ c.groups, group ∉ d.groups →
      ∀ kind name, (kind, group, name) ∉ c.resources) : Tidy d

theorem Tidy.group_mem (h : Tidy c) (hr : r ∈ c.resources) : r.2.1 ∈ c.groups := by
  induction h with
  | empty => cases hr
  | @step c d _ hstep hbare ih =>
    by_contra hgone
    obtain ⟨hbefore, -⟩ := hstep.of_missing_group hr hgone
    exact hbare _ (ih hbefore) hgone _ _ hbefore

/-! ### What is shown -/

/-- The cloud shows nothing in the group. That keys are denied tells nothing of an account. -/
structure LooksEmpty (c : Cloud) (group : String) : Prop where
  list : ∀ kind, (c.answer (.plane (.list kind group))).1 = .ok []
  machine : ∀ name, (c.answer (.plane (.getMachine group name))).1 = .ok none
  card : ∀ name, (c.answer (.plane (.getNetworkCard group name))).1 = .ok none
  keys : c.keysDenied = false →
    ∀ name, (c.answer (.plane (.getStorageKeys group name))).1 = .ok none

/-- What the cloud shows in the group are the resources of which `P` holds. -/
structure Shows (c : Cloud) (group : String) (P : ResourceKind → String → Prop) : Prop where
  list : ∀ kind, ∃ names, (c.answer (.plane (.list kind group))).1 = .ok names ∧
    ∀ name, name ∈ names ↔ P kind name
  machine : ∀ name, ∃ m, (c.answer (.plane (.getMachine group name))).1 = .ok m ∧
    (m.isSome = true ↔ P .virtualMachine name)
  card : ∀ name, ∃ card, (c.answer (.plane (.getNetworkCard group name))).1 = .ok card ∧
    (card.isSome = true ↔ P .networkInterface name)
  keys : c.keysDenied = false →
    ∀ name, ∃ keys, (c.answer (.plane (.getStorageKeys group name))).1 = .ok keys ∧
      (keys.isSome = true ↔ P .storageAccount name)

theorem Consistent.shows (h : c.Consistent) (group : String) :
    c.Shows group fun kind name => (kind, group, name) ∈ c.resources where
  list kind := ⟨_, rfl, fun name => mem_names⟩
  machine name := ⟨_, rfl, h.machines group name⟩
  card name := ⟨_, rfl, h.cards group name⟩
  keys hallowed name := by
    have hgranted : ¬(c.record (.plane (.getStorageKeys group name))).keysDenied = true :=
      ne_true_of_eq_false hallowed
    exact ⟨_, if_neg hgranted, h.keys group name⟩

theorem Shows.congr {P Q : ResourceKind → String → Prop} (h : c.Shows group P)
    (hPQ : ∀ kind name, P kind name ↔ Q kind name) : c.Shows group Q := by
  obtain rfl : P = Q := funext fun kind => funext fun name => propext (hPQ kind name)
  exact h

theorem eq_ok_none {α : Type} {P : Prop} {answer : Except Failure (Option α)}
    (h : ∃ found, answer = .ok found ∧ (found.isSome = true ↔ P)) (hnot : ¬P) :
    answer = .ok none := by
  obtain ⟨found, hanswer, hfound⟩ := h
  rw [hanswer, Option.not_isSome_iff_eq_none.mp (mt hfound.mp hnot)]

theorem Shows.looksEmpty {P : ResourceKind → String → Prop} (h : c.Shows group P)
    (hnone : ∀ kind name, ¬P kind name) : c.LooksEmpty group where
  list kind := by
    obtain ⟨names, hanswer, hnames⟩ := h.list kind
    rw [hanswer, List.eq_nil_iff_forall_not_mem.mpr fun name hname =>
      hnone kind name ((hnames name).mp hname)]
  machine name := eq_ok_none (h.machine name) (hnone _ name)
  card name := eq_ok_none (h.card name) (hnone _ name)
  keys hallowed name := eq_ok_none (h.keys hallowed name) (hnone _ name)

/-- In a group that is not there, a cloud shows just what was there when the group was deleted, and
has been left behind since then. Where no group was deleted with something in it, it shows
nothing. -/
theorem missing_group_shows_leftovers (hc : c.Reachable) (hgone : c.hasGroup group = false) :
    (c.Shows group fun kind name => LeftBehind (kind, group, name) c) ∧
      (c.Tidy → c.LooksEmpty group) := by
  have hmissing : group ∉ c.groups := of_decide_eq_false hgone
  have hshows := hc.consistent.shows group
  refine ⟨hshows.congr fun kind name => ?_, fun htidy => hshows.looksEmpty fun kind name hr => ?_⟩
  · rw [hc.leftBehind_iff]
    exact (and_iff_left hmissing).symm
  · exact hmissing (htidy.group_mem hr)

/-- A cloud from which a group was deleted with a machine in it. -/
def abandoned : Cloud :=
  ((({} : Cloud).setUp (.addMachine "g" "m" [("n", ["a"])] (some "s"))).answer
    (.plane (.deleteGroup "g"))).2

/-- A cloud from which a group was deleted after all that was in it. -/
def cleared : Cloud :=
  (((({} : Cloud).setUp (.addPublicAddress "g" "a")).answer
    (.plane (.delete .publicAddress "g" "a"))).2.answer (.plane (.deleteGroup "g"))).2

theorem tidy_cleared : cleared.Tidy := by
  have hadded : Tidy (({} : Cloud).setUp (.addPublicAddress "g" "a")) :=
    Tidy.empty.step (.setUp _) fun group hgroup => absurd hgroup List.not_mem_nil
  have hdeleted := hadded.step (.answer (.plane (.delete .publicAddress "g" "a")))
    fun group hgroup hgone => absurd hgroup hgone
  exact hdeleted.step (.answer _) fun _ _ _ _ _ => List.not_mem_nil

theorem missing_group_shows_leftovers_machine :
    (abandoned.hasGroup "g" = false ∧
      ∃ m, (abandoned.answer (.plane (.getMachine "g" "m"))).1 = .ok m ∧ m.isSome = true) ∧
    cleared.hasGroup "g" = false ∧ cleared.LooksEmpty "g" := by
  have habandoned : abandoned.Reachable := .answer (.setUp .empty _) _
  have hcleared : cleared.Reachable := .answer (.answer (.setUp .empty _) _) _
  have hleft : LeftBehind (.virtualMachine, "g", "m") abandoned :=
    .deleted (.setUp .empty _) (by decide) (by decide) (.deletion rfl)
  obtain ⟨m, hanswer, hm⟩ := (missing_group_shows_leftovers habandoned rfl).1.machine "m"
  exact ⟨⟨rfl, m, hanswer, hm.mpr hleft⟩, rfl,
    (missing_group_shows_leftovers hcleared rfl).2 tidy_cleared⟩

/-- A group that is not there need not look empty: what was in it when it was deleted is shown. -/
theorem missing_group_lists_leftovers :
    ¬∀ (c : Cloud) (group : String), c.Reachable → c.hasGroup group = false →
      c.LooksEmpty group := by
  intro hclaim
  have hempty := hclaim abandoned "g" (.answer (.setUp .empty _) _) rfl
  have hnames : abandoned.names .publicAddress "g" = [] :=
    Except.ok.inj (hempty.list .publicAddress)
  exact names_eq_nil.mp hnames "a" (by decide)

end Decommission.Simulation.Cloud
