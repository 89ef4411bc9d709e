import Decommission.Proofs.Teardown.Orderly
import Mathlib.Logic.Function.Basic

/-!
The plans of several removals in one group, side by side, where deletions are carried out at once.
What one of them finds gone is taken care of by another, and the last to look sees what is left.
-/
namespace Decommission.Teardown

open Simulation

variable {ι : Type} {c₀ c c' : Cloud} {group : String} {names : ι → String}
  {plans : ι → Plan StoreHandle} {i : ι} {d : Duty StoreHandle}
  {rest more duties : List (Duty StoreHandle)}

/-- There is something to do, and it has not come too late for a machine that is gone. -/
def Active (c : Cloud) (group : String) (duties : List (Duty StoreHandle)) : Prop :=
  duties ≠ [] ∧ ∀ n, duties = [.fetchMachine n] → (c.machines.get? (group, n)).isSome = true

/-- The plans of removals side by side fit the cloud, which was `c₀` at first: all that is owned and
there is aimed at by one of them, and as long as there is the group, one of them will still look for
what is left in it, or something is left that nobody owns. -/
structure Together (c₀ : Cloud) (group : String) (names : ι → String)
    (plans : ι → Plan StoreHandle) (c : Cloud) : Prop where
  remains : c₀.Remains group (fun kind n => ∃ i, c₀.Owns group (names i) kind n) c
  atOnce : c.AtOnce
  orderly : ∀ i, Orderly c₀ group (names i) (plans i) c
  covered : ∀ i kind n, c₀.Owns group (names i) kind n → (kind, group, n) ∈ c.resources →
    ∃ j, ∃ d ∈ (plans j).duties, d.Covers c group kind n
  seen : group ∈ c.groups → (∃ j, Active c group (plans j).duties) ∨
    ∃ kind n, (kind, group, n) ∈ c.resources ∧ ∀ j, ¬c₀.Owns group (names j) kind n

theorem Together.start [Nonempty ι] (hc : c₀.Consistent) (hplain : c₀.AtOnce)
    (hthere : ∀ i, (.virtualMachine, group, names i) ∈ c₀.resources) :
    Together c₀ group names (fun i => .start (names i)) c₀ where
  remains := .start _ hc
  atOnce := hplain
  orderly i := .start
  covered i kind n howns _ := ⟨i, _, List.mem_singleton_self _, howns⟩
  seen _ := by
    obtain ⟨i⟩ := ‹Nonempty ι›
    refine .inl ⟨i, by simp [Plan.start], fun n hn => ?_⟩
    obtain rfl : names i = n := by simpa [Plan.start] using hn
    exact (hc.machines _ _).mpr (hthere i)

theorem active_of_covers {e : Duty StoreHandle} {kind : ResourceKind} {n : String}
    (he : e ∈ duties) (hcovers : e.Covers c group kind n) : Active c group duties := by
  refine ⟨List.ne_nil_of_mem he, fun name hduties => ?_⟩
  rw [hduties] at he
  obtain rfl := List.mem_singleton.mp he
  cases hcovers with
  | machine hm | card hm _ | address hm _ _ _ | account hm _ _ => rw [hm, Option.isSome_some]

theorem Active.change {may : ResourceKind → String → Prop} (h : Active c group duties)
    (hchange : c.Change group may c') (hkept : ∀ n, ¬may .virtualMachine n) :
    Active c' group duties := by
  refine ⟨h.1, fun n hn => ?_⟩
  obtain ⟨m, hm⟩ := Option.isSome_iff_exists.mp (h.2 n hn)
  have hm' := (hchange.keptMachine hm).resolve_right (hkept n)
  rw [hm', Option.isSome_some]

/-- What is left after a duty does not start with a machine: that was fetched first. -/
theorem Orderly.active {name : String} {p : Plan StoreHandle} (h : Orderly c₀ group name p c)
    (hplan : p.duties = d :: rest) (hout : d.Outcome c group (some more) false c')
    (hmore : more ++ rest ≠ []) : Active c' group (more ++ rest) := by
  refine ⟨hmore, fun n hn => ?_⟩
  have hfetch : .fetchMachine n ∈ more ++ rest := hn ▸ List.mem_singleton_self _
  rcases List.mem_append.mp hfetch with hfetch | hfetch
  · exact (hout.begets hfetch).not_fetch.elim
  · have hlate := h.late (.fetchMachine n) (by rwa [hplan])
    cases hlate

variable [DecidableEq ι]

/-- The plans after the duties of one of them have changed. -/
def withDuties (plans : ι → Plan StoreHandle) (i : ι) (duties : List (Duty StoreHandle)) :
    ι → Plan StoreHandle :=
  Function.update plans i { plans i with duties }

theorem withDuties_self {duties : List (Duty StoreHandle)} :
    (withDuties plans i duties i).duties = duties := by
  rw [withDuties, Function.update_self]

theorem withDuties_of_ne {duties : List (Duty StoreHandle)} {j : ι} (h : j ≠ i) :
    withDuties plans i duties j = plans j := Function.update_of_ne h _ _

/-- What is aimed at and still there after a duty is aimed at afterwards. -/
theorem Together.covered_step (h : Together c₀ group names plans c)
    (hplan : (plans i).duties = d :: rest) (hout : d.Outcome c group (some more) false c')
    {kind : ResourceKind} {n : String} (hthere : (kind, group, n) ∈ c'.resources)
    (hcovered : ∃ j, ∃ e ∈ (plans j).duties, e.Covers c group kind n) :
    ∃ j, ∃ e ∈ (withDuties plans i (more ++ rest) j).duties, e.Covers c' group kind n := by
  have hd : d ∈ (plans i).duties := hplan ▸ List.mem_cons_self
  have hsound := (h.orderly i).sound d hd
  have hchange := hout.change hsound
  have hself {e : Duty StoreHandle} (he : e ∈ more ++ rest) (hcovers : e.Covers c' group kind n) :
      ∃ j, ∃ e ∈ (withDuties plans i (more ++ rest) j).duties, e.Covers c' group kind n :=
    ⟨i, e, by rwa [withDuties_self], hcovers⟩
  -- a duty that is not the one that was done
  have hother {j : ι} {e : Duty StoreHandle} (he : e ∈ (plans j).duties)
      (hkept : e.Covers c' group kind n →
        ∃ j, ∃ e ∈ (withDuties plans i (more ++ rest) j).duties, e.Covers c' group kind n)
      (hcovers : e.Covers c group kind n) :
      ∃ j, ∃ e ∈ (withDuties plans i (more ++ rest) j).duties, e.Covers c' group kind n := by
    rcases Duty.covers_after hchange ((h.orderly i).noPoll d hd) ((h.orderly i).ready d rest hplan)
      (hchange.consistent h.remains.consistent) ((h.orderly j).noPoll e he) hcovers hthere with
      hcovers | ⟨e', he', hcovers⟩
    · exact hkept hcovers
    · exact hself (List.mem_append_right _ he') hcovers
  obtain ⟨j, e, he, hcovers⟩ := hcovered
  by_cases hj : j = i
  · subst hj
    rw [hplan] at he
    rcases List.mem_cons.mp he with rfl | he
    · -- deletions are carried out at once, so nothing that was aimed at is left for later
      obtain ⟨e, he, hcovers⟩ | ⟨h', -⟩ | ⟨-, hpace⟩ :=
        hout.covers hsound h.remains hcovers hthere
      · exact hself (List.mem_append_left _ he) hcovers
      · cases h'
      · exact absurd (h.atOnce.paceOf _) hpace
    · refine hother (j := j) (hplan ▸ List.mem_cons_of_mem _ he) (fun hcovers => ?_) hcovers
      exact hself (List.mem_append_right _ he) hcovers
  · exact hother he (fun hcovers => ⟨j, e, by rwa [withDuties_of_ne hj], hcovers⟩) hcovers

/-- The last duty of a removal leaves the group to another removal, or sees what is left for good.
-/
theorem Together.seen_last (h : Together c₀ group names plans c) (hplan : (plans i).duties = [d])
    (hout : d.Outcome c group (some []) false c') (hactive : Active c group [d])
    (hgroup : group ∈ c'.groups) :
    (∃ j, Active c' group (withDuties plans i [] j).duties) ∨
      ∃ kind n, (kind, group, n) ∈ c'.resources ∧ ∀ j, ¬c₀.Owns group (names j) kind n := by
  have hover := over_of_last hout rfl h.atOnce ((h.orderly i).ending_of_last hplan)
  obtain ⟨n, rfl, hnone⟩ | ⟨hsame, kind, n, hthere⟩ | hgone := hover
  · have hsome := hactive.2 n rfl
    rw [hnone] at hsome
    cases hsome
  · have hthere' : (kind, group, n) ∈ c'.resources := hsame.resources ▸ hthere
    by_cases howned : ∃ k, c₀.Owns group (names k) kind n
    · -- what is owned and still there is taken care of by another removal
      obtain ⟨k, howns⟩ := howned
      obtain ⟨j, e, he, hcovers⟩ :=
        h.covered_step hplan hout hthere' (h.covered k kind n howns hthere)
      exact .inl ⟨j, active_of_covers he hcovers⟩
    · exact .inr ⟨kind, n, hthere', not_exists.mp howned⟩
  · exact absurd hgroup hgone

/-- As long as there is the group, it is still looked at, or something is left in it for good. -/
theorem Together.seen_step (h : Together c₀ group names plans c)
    (hplan : (plans i).duties = d :: rest) (hout : d.Outcome c group (some more) false c')
    (hgroup : group ∈ c'.groups) :
    (∃ j, Active c' group (withDuties plans i (more ++ rest) j).duties) ∨
      ∃ kind n, (kind, group, n) ∈ c'.resources ∧ ∀ j, ¬c₀.Owns group (names j) kind n := by
  have hsound := (h.orderly i).sound d (hplan ▸ List.mem_cons_self)
  have hchange := hout.change hsound
  rcases h.seen (hchange.oldGroups hgroup) with ⟨j, hactive⟩ | ⟨kind, n, hthere, hfree⟩
  · by_cases hmore : more ++ rest = []
    · obtain ⟨rfl, rfl⟩ := List.append_eq_nil_iff.mp hmore
      by_cases hj : j = i
      · subst hj
        exact h.seen_last hplan hout (hplan ▸ hactive) hgroup
      · refine .inl ⟨j, ?_⟩
        rw [withDuties_of_ne hj]
        have hlast := (h.orderly i).ending_of_last hplan
        exact hactive.change hchange fun _ => not_takesAway_of_last hlast
    · refine .inl ⟨i, ?_⟩
      rw [withDuties_self]
      exact (h.orderly i).active hplan hout hmore
  · -- nobody owns it, so this duty has not taken it away
    refine .inr ⟨kind, n, (hchange.kept hthere).resolve_right ?_, hfree⟩
    rintro ⟨-, hgone⟩
    exact hfree i (hsound.owns h.remains hgone.covers)

theorem Together.goOn (h : Together c₀ group names plans c) (hplan : (plans i).duties = d :: rest)
    (hout : d.Outcome c group (some more) false c') (hpoll : ∀ d' ∈ more, d'.isPoll = false)
    (hsettings : c.SameSettings c') :
    Together c₀ group names (withDuties plans i (more ++ rest)) c' := by
  have hd : d ∈ (plans i).duties := hplan ▸ List.mem_cons_self
  have hsound := (h.orderly i).sound d hd
  have hchange := hout.change hsound
  constructor
  case remains =>
    have howned := hsound.change_owned h.remains hchange
    exact h.remains.change (howned.imp fun _ _ howns => ⟨i, howns⟩)
  case atOnce => exact h.atOnce.of_same hsettings
  case orderly =>
    intro j
    by_cases hj : j = i
    · subst hj
      rw [withDuties, Function.update_self]
      have hj := h.orderly j
      rw [show plans j = ⟨d :: rest, (plans j).deleted, (plans j).failed⟩ by rw [← hplan]] at hj
      exact hj.goOn h.remains hpoll hout
    · rw [withDuties_of_ne hj]
      exact (h.orderly j).change hchange
  case covered =>
    intro k kind n howns hthere
    exact h.covered_step hplan hout hthere (h.covered k kind n howns (hchange.old hthere))
  case seen => exact h.seen_step hplan hout

/-- A call of one of the plans leaves plans that fit the cloud. -/
theorem Together.step (h : Together c₀ group names plans c) {site : Site}
    (hsite : site.group = group) {call : Call StoreHandle}
    (hcall : (plans i).nextCall? site = some call)
    {answer : Answer StoreHandle call} (hreply : Cloud.replies c call (some answer) c') :
    Together c₀ group names (Function.update plans i ((plans i).after call (some answer))) c' := by
  subst hsite
  cases hplan : (plans i).duties with
  | nil => simp [Plan.nextCall?, hplan] at hcall
  | cons d rest =>
    obtain rfl : d.call site = call := by simpa [Plan.nextCall?, hplan] using hcall
    obtain ⟨rfl, rfl⟩ := hreply
    have hout := d.outcome c site
    have hd : d ∈ (plans i).duties := hplan ▸ List.mem_cons_self
    have hd' := (h.orderly i).noPoll d hd
    obtain ⟨more, hfollowing, hreports⟩ := hout.goesOn hd' h.atOnce
    have hafter : (plans i).after (d.call site) (some (c.answer (d.call site)).1) =
        { plans i with duties := more ++ rest } := by
      simp [Plan.after, hplan, hfollowing, hreports]
    rw [Duty.Comes, hfollowing, hreports] at hout
    rw [hafter]
    exact h.goOn hplan hout (hout.noPoll hd' h.atOnce) (c.settings_answer _)

end Decommission.Teardown
