import Decommission.Proofs.Program.Interleaving
import Decommission.Proofs.Teardown.Order
import Decommission.Proofs.Teardown.SideBySide

/-!
Several removals in one group at the same time, where deletions are carried out at once: they are
run in any order of their calls, and all come to an end with success.
-/
namespace Decommission.Teardown

open Program Simulation

section

variable {ι : Type} {c₀ c : Cloud} {group : String} {s : ι → TeardownSettings} {ids : ι → MachineId}
  {tasks : ι → Task (Service StoreHandle) (Except Error Bool)}

/-- The tasks are removals that have come as far as plans which fit the cloud. -/
def Running (c₀ : Cloud) (group : String) (s : ι → TeardownSettings) (ids : ι → MachineId)
    (tasks : ι → Task (Service StoreHandle) (Except Error Bool)) (c : Cloud) : Prop :=
  ∃ plans, Together c₀ group (fun i => (ids i).name) plans c ∧
    ∀ i, (tasks i).Meets (Plan.surroundings StoreHandle) (Plan.Allows (siteOf (s i) (ids i)))
      (Leaves [] fun deleted p => p = ⟨[], deleted, false⟩) (plans i)

theorem Orderly.not_waits {name : String} {p : Plan StoreHandle} (h : Orderly c₀ group name p c) :
    ¬p.Waits := by
  rintro ⟨operation, care, rest, hduties⟩
  cases h.noPoll (.poll operation care) (hduties ▸ List.mem_cons_self)

/-- Where nothing is waited for, all that a removal does are the calls of its plan. -/
theorem act_of_allows {site : Site} {p : Plan StoreHandle} {call : Timed.Call (Service StoreHandle)}
    (h : p.Allows site call) (hwaits : ¬p.Waits) :
    ∃ c, call = .act c ∧ p.nextCall? site = some c := by
  cases call with
  | act c => exact ⟨c, rfl, h.1⟩
  | actWithin limit c => exact absurd h.2 hwaits
  | pause | rest | stopRequested | jitter => exact absurd h hwaits

theorem Running.turn [DecidableEq ι] (hgroup : ∀ i, (siteOf (s i) (ids i)).group = group)
    {tasks' : ι → Task (Service StoreHandle) (Except Error Bool)} {c' : Cloud}
    (h : Running c₀ group s ids tasks c)
    (hturn : OneTurn Cloud.replies.timed (tasks, c) (tasks', c')) :
    Running c₀ group s ids tasks' c' := by
  obtain ⟨plans, htogether, hmeets⟩ := h
  obtain ⟨i, hturn⟩ := hturn
  obtain ⟨call, next, a, hask, hnext, hreply⟩ := hturn.eq_ask
  have hi := hmeets i
  dsimp only at hask hnext
  rw [hask] at hi
  -- nothing is waited for, so the turn is a call of the plan
  obtain ⟨c, rfl, hcall⟩ := act_of_allows hi.1 (htogether.orderly i).not_waits
  refine ⟨_, htogether.step (hgroup i) hcall hreply, fun j => ?_⟩
  by_cases hj : j = i
  · subst hj
    rw [Function.update_self, Function.update_self, hnext]
    exact hi.2 a _ rfl
  · rw [Function.update_of_ne hj, Function.update_of_ne hj]
    exact hmeets j

theorem Running.reaches [DecidableEq ι] (hgroup : ∀ i, (siteOf (s i) (ids i)).group = group)
    {tasks' : ι → Task (Service StoreHandle) (Except Error Bool)} {c' : Cloud}
    (h : Running c₀ group s ids tasks c)
    (hr : ReachTogether Cloud.replies.timed tasks c tasks' c') :
    Running c₀ group s ids tasks' c' := by
  have hx : ∀ x, Relation.ReflTransGen (OneTurn Cloud.replies.timed) (tasks, c) x →
      Running c₀ group s ids x.1 x.2 := by
    intro x hx
    induction hx with
    | refl => exact h
    | tail _ hyz ih => exact ih.turn hgroup hyz
  exact hx (tasks', c') hr

/-- A removal is done with success, or it can go on. -/
theorem Running.progress (h : Running c₀ group s ids tasks c) (i : ι) :
    tasks i = .done (.ok true) ∨ ∃ q d, Turn Cloud.replies.timed (tasks i, c) (q, d) := by
  obtain ⟨plans, htogether, hmeets⟩ := h
  have hi := hmeets i
  have horderly := htogether.orderly i
  cases hask : tasks i with
  | done result =>
    rw [hask] at hi
    match result, hi with
    | .ok deleted, hi =>
      have hdeleted := horderly.deleted
      rw [show plans i = ⟨[], deleted, false⟩ from hi] at hdeleted
      obtain rfl : deleted = true := hdeleted
      exact .inl rfl
    | .error e, .inl ⟨hfailed, _⟩ => cases horderly.going.symm.trans hfailed
    | .error e, .inr ⟨_, hwaits⟩ => exact absurd hwaits horderly.not_waits
  | stalled =>
    rw [hask] at hi
    exact absurd hi.2 horderly.not_waits
  | ask call next =>
    rw [hask] at hi
    obtain ⟨call, rfl, -⟩ := act_of_allows hi.1 horderly.not_waits
    exact .inr ⟨_, _, .ask ⟨rfl, rfl⟩⟩

/-- The next call of a task is that of its plan. -/
theorem Running.nextCall (h : Running c₀ group s ids tasks c) {i : ι} {call : Call StoreHandle}
    (hcall : Task.nextCall? (tasks i) = some call) :
    ∃ p, Orderly c₀ group (ids i).name p c ∧ p.nextCall? (siteOf (s i) (ids i)) = some call := by
  obtain ⟨plans, htogether, hmeets⟩ := h
  have hi := hmeets i
  have horderly := htogether.orderly i
  refine ⟨plans i, horderly, ?_⟩
  cases hask : tasks i with
  | done result =>
    rw [hask] at hcall
    cases hcall
  | stalled =>
    rw [hask] at hcall
    cases hcall
  | ask call next =>
    rw [hask] at hi hcall
    obtain ⟨call, rfl, hnext⟩ := act_of_allows hi.1 horderly.not_waits
    exact hnext.trans hcall

/-- The deletion of a group is asked for only with nothing left in it. -/
theorem Running.deletesEmpty (hgroup : ∀ i, (siteOf (s i) (ids i)).group = group)
    (h : Running c₀ group s ids tasks c) {i : ι} {g : String}
    (hcall : Task.nextCall? (tasks i) = some (.plane (.deleteGroup g))) :
    g = group ∧ ∀ kind n, (kind, group, n) ∉ c.resources := by
  obtain ⟨p, horderly, hnext⟩ := h.nextCall hcall
  obtain ⟨d, hd, hcalls⟩ := Option.map_eq_some_iff.mp hnext
  have hsound := horderly.sound d (List.mem_of_mem_head? hd)
  cases d with
  | deleteGroup =>
    cases hcalls
    exact ⟨hgroup i, hsound⟩
  | _ => cases hcalls

/-- Once all is done, what nobody owns is left, and the group if there is some of it in the group.
-/
theorem Running.ended (h : Running c₀ group s ids tasks c)
    (hdone : ∀ i, tasks i = .done (.ok true)) :
    (∀ kind g n, (kind, g, n) ∈ c.resources ↔ (kind, g, n) ∈ c₀.resources ∧
      ¬(g = group ∧ ∃ i, c₀.Owns group (ids i).name kind n)) ∧
    (∀ g, g ≠ group → (g ∈ c.groups ↔ g ∈ c₀.groups)) ∧
    (group ∈ c.groups ↔ group ∈ c₀.groups ∧ ∃ kind n, (kind, group, n) ∈ c.resources) := by
  obtain ⟨plans, htogether, hmeets⟩ := h
  have hrem := htogether.remains
  have hempty (i : ι) : (plans i).duties = [] := by
    have hi := hmeets i
    rw [hdone i] at hi
    exact congrArg Plan.duties (show plans i = ⟨[], true, false⟩ from hi)
  have hactive (i : ι) : ¬Active c group (plans i).duties := fun h => h.1 (hempty i)
  refine ⟨fun kind g n => ⟨fun hthere => ⟨hrem.old _ hthere, ?_⟩, ?_⟩,
    fun g hg => ⟨hrem.oldGroups g, ?_⟩, fun hgroup => ⟨hrem.oldGroups _ hgroup, ?_⟩, ?_⟩
  · rintro ⟨rfl, i, howns⟩
    obtain ⟨j, d, hd, -⟩ := htogether.covered i kind n howns hthere
    rw [hempty j] at hd
    cases hd
  · rintro ⟨hthere, hfree⟩
    exact (hrem.kept kind g n hthere).resolve_right hfree
  · exact fun hold => (hrem.keptGroups g hold).resolve_right fun h => hg h.1
  · rcases htogether.seen hgroup with ⟨j, h⟩ | ⟨kind, n, hthere, -⟩
    · exact absurd h (hactive j)
    · exact ⟨kind, n, hthere⟩
  · rintro ⟨hold, kind, n, hthere⟩
    exact (hrem.keptGroups group hold).resolve_right fun h => h.2 kind n hthere

end

/-- Removals of machines that are there, side by side in one group, where deletions are carried out
at once and nothing fails, whatever they share: in every order of their calls the group is deleted
only with nothing left in it, they come to an end after finitely many calls, all of them with
success, and what is gone then is what one of the machines owned, and the group if nothing is left
in it. -/
theorem removals_together (k : Nat) (s : Fin (k + 1) → TeardownSettings)
    (ids : Fin (k + 1) → MachineId) {group : String} {c₀ c : Cloud}
    {tasks : Fin (k + 1) → Task (Service StoreHandle) (Except Error Bool)}
    (hgroup : ∀ i, (siteOf (s i) (ids i)).group = group) (hc : c₀.Reachable) (hplain : c₀.AtOnce)
    (hthere : ∀ i, c₀.contains .virtualMachine group (ids i).name = true)
    (hr : ReachTogether Cloud.replies.timed (fun i => (removeMachine (s i) (ids i)).run) c₀
      tasks c) :
    (∀ i g, Task.nextCall? (tasks i) = some (.plane (.deleteGroup g)) →
      g = group ∧ ∀ kind n, c.contains kind group n = false) ∧
    Acc (Function.swap (OneTurn Cloud.replies.timed)) (tasks, c) ∧
    ((∀ x, ¬OneTurn Cloud.replies.timed (tasks, c) x) →
      (∀ i, tasks i = .done (.ok true)) ∧
      (∀ kind g n, c.contains kind g n = true ↔ c₀.contains kind g n = true ∧
        ¬(g = group ∧ ∃ i, c₀.Owns group (ids i).name kind n)) ∧
      (∀ g, g ≠ group → (c.hasGroup g = true ↔ c₀.hasGroup g = true)) ∧
      (c.hasGroup group = true ↔
        c₀.hasGroup group = true ∧ ∃ kind n, c.contains kind group n = true)) := by
  have hrunning : Running c₀ group s ids tasks c := by
    refine Running.reaches hgroup ⟨fun i => .start (ids i).name, ?_, fun i => ?_⟩ hr
    · exact .start hc.consistent hplain fun i => of_decide_eq_true (hthere i)
    · exact follows_removeMachine (s i) (ids i)
  refine ⟨fun i g hcall => ?_, oneTurn_wf.apply _, fun hover => ?_⟩
  · obtain ⟨rfl, hempty⟩ := hrunning.deletesEmpty hgroup hcall
    exact ⟨rfl, fun kind n => decide_eq_false (hempty kind n)⟩
  · have hdone (i : Fin (k + 1)) : tasks i = .done (.ok true) := by
      rcases hrunning.progress i with h | ⟨q, d, h⟩
      · exact h
      · exact absurd (.by i h) (hover _)
    obtain ⟨hresources, hgroups, hgone⟩ := hrunning.ended hdone
    simp only [Cloud.contains, Cloud.hasGroup, decide_eq_true_iff]
    exact ⟨hdone, hresources, hgroups, hgone⟩

/-- Two machines that share a network card: in some order of the calls, and so in all, both removals
succeed, and the group is gone. -/
theorem removals_together_shared_card :
    let c₀ : Cloud := (({} : Cloud).addMachine "g-r" "m" [("n", ["a"])] none).addMachine "g-r" "l"
      [("n", ["a"])] none
    let s : Fin 2 → TeardownSettings := fun _ => ⟨"g", "vhds", ⟨1, 1, 5⟩⟩
    let ids : Fin 2 → MachineId
      | 0 => ⟨"r", "m", by decide, by decide⟩
      | 1 => ⟨"r", "l", by decide, by decide⟩
    ∃ tasks c,
      ReachTogether Cloud.replies.timed (fun i => (removeMachine (s i) (ids i)).run) c₀ tasks c ∧
      (∀ i, tasks i = .done (.ok true)) ∧ c.hasGroup "g-r" = false := by
  intro c₀ s ids
  obtain ⟨tasks, c, hr, hover⟩ :=
    exists_over Cloud.replies.timed (fun i => (removeMachine (s i) (ids i)).run) c₀
  have hgroup : ∀ i, (siteOf (s i) (ids i)).group = "g-r" := Fin.forall_fin_two.mpr ⟨rfl, rfl⟩
  have hc : c₀.Reachable := .addMachine (.addMachine .empty _ _ _ _) _ _ _ _
  have hthere : ∀ i, c₀.contains .virtualMachine "g-r" (ids i).name = true := by
    decide +kernel
  have hplain : c₀.AtOnce := ⟨rfl, fun key pace h => (by cases h), rfl, rfl, rfl⟩
  obtain ⟨-, -, hend⟩ := removals_together 1 s ids hgroup hc hplain hthere hr
  obtain ⟨hdone, hresources, -, hgone⟩ := hend hover
  refine ⟨tasks, c, hr, hdone, ?_⟩
  rw [Bool.eq_false_iff, Ne, hgone]
  rintro ⟨-, kind, n, hleft⟩
  obtain ⟨hold, hfree⟩ := (hresources kind "g-r" n).mp hleft
  have howned : ∃ i, c₀.Owns "g-r" (ids i).name kind n := by
    have hm : c₀.machines.get? ("g-r", "m") = some (Cloud.machineRecord "g-r" "m" ["n"] none) := by
      decide +kernel
    have hl : c₀.machines.get? ("g-r", "l") = some (Cloud.machineRecord "g-r" "l" ["n"] none) := by
      decide +kernel
    have hcard : c₀.cards.get? ("g-r", Reference.name ⟨resourcePath .networkInterface "g-r" "n"⟩) =
        some (Cloud.cardRecord "g-r" "n" ["a"]) := by
      decide +kernel
    have hname : Reference.name ⟨resourcePath .networkInterface "g-r" "n"⟩ = "n" := by
      decide +kernel
    have hresources₀ : c₀.resources = [(.virtualMachine, "g-r", "l"), (.virtualMachine, "g-r", "m"),
        (.networkInterface, "g-r", "n"), (.publicAddress, "g-r", "a")] := by
      decide +kernel
    have hmem : (kind, "g-r", n) ∈ c₀.resources := of_decide_eq_true hold
    rw [hresources₀] at hmem
    simp only [List.mem_cons, Prod.mk.injEq, List.not_mem_nil, or_false] at hmem
    rcases hmem with ⟨rfl, -, rfl⟩ | ⟨rfl, -, rfl⟩ | ⟨rfl, -, rfl⟩ | ⟨rfl, -, rfl⟩
    · exact ⟨1, .machine hl⟩
    · exact ⟨0, .machine hm⟩
    · have howns := Cloud.Owns.card hm (r := ⟨resourcePath .networkInterface "g-r" "n"⟩)
        List.mem_cons_self
      rw [hname] at howns
      exact ⟨0, howns⟩
    · exact ⟨0, .address hm List.mem_cons_self hcard (by decide +kernel)⟩
  exact hfree ⟨rfl, howned⟩

end Decommission.Teardown
