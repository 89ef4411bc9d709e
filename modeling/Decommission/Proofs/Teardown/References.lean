import Decommission.Proofs.Teardown.Course
import Mathlib.Data.List.DropRight

/-!
Network cards and public addresses are deleted in the group of the machine, by the last segment of a
reference. The group that the reference names itself plays no part.
-/
namespace Decommission

namespace Reference

/-- The path ends in this segment. -/
def EndsIn (r : Reference) (name : String) : Prop :=
  '/' ∉ name.toList ∧
    (r.path.toList = name.toList ∨ ∃ before, r.path.toList = before ++ '/' :: name.toList)

theorem endsIn_name (r : Reference) : r.EndsIn r.name := by
  have hname : r.name.toList = r.path.toList.rtakeWhile fun c => c != '/' := String.toList_ofList
  have hpath : (r.path.toList.rdropWhile fun c => c != '/') ++ r.name.toList = r.path.toList := by
    rw [hname, List.rdropWhile_append_rtakeWhile]
  refine ⟨?_, ?_⟩
  · intro hslash
    rw [hname] at hslash
    have hkept := List.mem_rtakeWhile_imp hslash
    simp at hkept
  · by_cases hnil : (r.path.toList.rdropWhile fun c => c != '/') = []
    · left
      rw [hnil, List.nil_append] at hpath
      exact hpath.symm
    · right
      have hlast : (r.path.toList.rdropWhile fun c => c != '/').getLast hnil = '/' := by
        simpa using List.rdropWhile_last_not (fun c => c != '/') r.path.toList hnil
      refine ⟨(r.path.toList.rdropWhile fun c => c != '/').dropLast, ?_⟩
      have hcut := List.dropLast_append_getLast hnil
      rw [hlast] at hcut
      rw [← List.singleton_append, ← List.append_assoc, hcut, hpath]

/-- The segment after the word `resourceGroups`, in any case. -/
def groupAmong : List (List Char) → Option (List Char)
  | word :: group :: rest =>
    if word.map Char.toLower = "resourcegroups".toList then some group
    else groupAmong (group :: rest)
  | _ => none

/-- The resource group that the path names. -/
def group? (r : Reference) : Option String :=
  (groupAmong (r.path.toList.splitOn '/')).map String.ofList

/-- The reference is to the resource of this name in this group; the case of the group does not
matter. -/
def PointsTo (r : Reference) (group name : String) : Prop :=
  r.EndsIn name ∧ ∃ g, r.group? = some g ∧
    g.toList.map Char.toLower = group.toList.map Char.toLower

end Reference

namespace Teardown

open Program

variable {σ : Type} {group name : String} {log : List (Exchange (Service σ))}

/-- The call that fetched the card of a reference. -/
def fetchedCard (group : String) (r : Reference) (card : NetworkCard) : Exchange (Service σ) :=
  ⟨.plane (.getNetworkCard group r.name), some (.ok (some card))⟩

/-- The references to network resources that were found so far: those of the machine to its cards,
and those of these cards to their public addresses. -/
inductive Found (group name : String) (log : List (Exchange (Service σ))) :
    ResourceKind → Reference → Prop where
  | card {m : Machine} {r : Reference} (hm : fetched group name m ∈ log)
    (hr : r ∈ m.networkInterfaces) : Found group name log .networkInterface r
  | address {r : Reference} {card : NetworkCard} {config : IpConfiguration} {a : Reference}
    (hr : Found group name log .networkInterface r) (hcard : fetchedCard group r card ∈ log)
    (hconfig : config ∈ card.configurations) (ha : config.publicAddress = some a) :
    Found group name log .publicAddress a

theorem Found.append {kind : ResourceKind} {r : Reference} (h : Found group name log kind r)
    (e : Exchange (Service σ)) : Found group name (log ++ [e]) kind r := by
  induction h with
  | card hm hr => exact .card (List.mem_append_left _ hm) hr
  | address _ hcard hconfig ha ih => exact .address ih (List.mem_append_left _ hcard) hconfig ha

namespace Duty

/-- What the duty does to a network resource goes back to a reference that was found. -/
def Grounded (group name : String) (log : List (Exchange (Service σ))) : Duty σ → Prop
  | fetchMachine n => n = name
  | fetchCard n => ∃ r, Found group name log .networkInterface r ∧ r.name = n
  | delete kind n _ => kind = .networkInterface ∨ kind = .publicAddress →
    ∃ r, Found group name log kind r ∧ r.name = n
  | _ => True

theorem Grounded.append {d : Duty σ} (h : d.Grounded group name log) (e : Exchange (Service σ)) :
    d.Grounded group name (log ++ [e]) := by
  cases d with
  | fetchMachine n => exact h
  | fetchCard n =>
    obtain ⟨r, hr, hn⟩ := h
    exact ⟨r, hr.append e, hn⟩
  | delete kind n care =>
    intro hkind
    obtain ⟨r, hr, hn⟩ := h hkind
    exact ⟨r, hr.append e, hn⟩
  | _ => trivial

theorem grounded_ofMachine {m : Machine} (hm : fetched group name m ∈ log) {d : Duty σ}
    (hd : d ∈ ofMachine m) : d.Grounded group name log := by
  rcases List.mem_cons.mp hd with rfl | hd
  · intro hkind
    simp at hkind
  rcases mem_afterMachine hd with ⟨r, hr, rfl⟩ | ⟨account, -, rfl⟩ | rfl
  · exact ⟨r, .card hm hr, rfl⟩
  · trivial
  · trivial

theorem grounded_ofCard {r : Reference} {card : NetworkCard}
    (hr : Found group name log .networkInterface r) (hcard : fetchedCard group r card ∈ log)
    {d : Duty σ} (hd : d ∈ ofCard r.name card) : d.Grounded group name log := by
  rcases List.mem_cons.mp hd with rfl | hd
  · intro _
    exact ⟨r, hr, rfl⟩
  · obtain ⟨n, hn, rfl⟩ := mem_ofAddresses hd
    obtain ⟨config, hconfig, ha⟩ := List.mem_filterMap.mp hn
    obtain ⟨a, haddress, rfl⟩ := Option.map_eq_some_iff.mp ha
    intro _
    exact ⟨a, .address hr hcard hconfig haddress, rfl⟩

/-- What follows from a grounded duty is grounded, in what was found up to the answer. -/
theorem Grounded.following {site : Site} {d : Duty σ} (h : d.Grounded site.group name log)
    {a : Answer σ (d.call site)} {more : List (Duty σ)} (hleads : d.Leads site a more) :
    ∀ d' ∈ more, d'.Grounded site.group name (log ++ [⟨d.call site, some a⟩]) := by
  intro d' hd'
  have hlast : (⟨d.call site, some a⟩ : Exchange (Service σ)) ∈ log ++ [⟨d.call site, some a⟩] :=
    List.mem_append_right log (List.mem_singleton_self _)
  cases hleads with
  | @machine n m =>
    obtain rfl : n = name := h
    exact grounded_ofMachine hlast hd'
  | deletion | groupDeletion =>
    obtain ⟨operation, -, -, rfl⟩ := mem_afterDeletion hd'
    trivial
  | @card n card =>
    obtain ⟨r, hr, rfl⟩ := h
    exact grounded_ofCard (hr.append _) hlast hd'
  | noImages =>
    obtain rfl := List.mem_singleton.mp hd'
    intro hkind
    simp at hkind
  | inProgress | keys =>
    obtain rfl := List.mem_singleton.mp hd'
    trivial
  | opened =>
    simp only [List.mem_cons, List.not_mem_nil, or_false] at hd'
    rcases hd' with rfl | rfl | rfl <;> trivial
  | @notFound kind later =>
    obtain rfl := List.mem_singleton.mp hd'
    cases later <;> trivial
  | noMachine | terminal | noCard | noKeys | emptied | images | closed | found => cases hd'

end Duty

/-- Each duty of a removal that is to do something to a network resource is grounded. -/
theorem grounded_of_runs {site : Site} {name : String}
    (h : (Plan.start name).Runs site log) :
    ∀ d ∈ ((Plan.start name).afterAll log).duties, Duty.Grounded site.group name log d := by
  refine h.forall_duties (P := fun log d => d.Grounded site.group name log) ?_ ?_ ?_
  · intro log e d hd
    exact hd.append e
  · intro d hd
    obtain rfl := List.mem_singleton.mp hd
    exact rfl
  · intro log d a more hd hmore
    exact hd.following (Duty.leads hmore)

/-- Whatever is answered, a network card or public address is deleted only in the group of the
machine, and only by the last segment of a reference that was found before: one of the machine to a
card, or one of such a card to a public address. -/
theorem network_deletions_by_name {s : TeardownSettings} {text : String}
    {q : Task (Service σ) (Except Error Bool)}
    (hr : Reaches (Exchange.recording (Service σ)) (remove s text).run [] q log) :
    Exchange.AllRight (fun before (c : Call σ) => ∀ kind group n,
      c = .plane (.delete kind group n) → kind = .networkInterface ∨ kind = .publicAddress →
        ∃ id, MachineId.decode text = .ok id ∧ group = (siteOf s id).group ∧
          ∃ r, Found group id.name before kind r ∧ r.EndsIn n) log := by
  rcases reaches_remove hr with ⟨e, -, -, rfl⟩ | ⟨id, hid, hr⟩
  · exact Exchange.allRight_nil
  have hruns := runs_of_reaches hr
  intro before e after hlog kind group n hcall hkind
  -- the deletion is the first duty of the plan before it
  have hnext := hruns before e after hlog
  have hbefore := grounded_of_runs (hlog ▸ hruns).of_append.1
  obtain ⟨d, rest, hd, hdcall⟩ := Plan.duties_of_nextCall hnext
  have hgrounded := hbefore d (hd ▸ List.mem_cons_self)
  rw [hcall] at hdcall
  cases d with
  | delete kind' n' care =>
    cases hdcall
    obtain ⟨r, hr, rfl⟩ := hgrounded hkind
    exact ⟨id, hid, rfl, r, hr, r.endsIn_name⟩
  | _ => cases hdcall

/-- A card of the group `other`. -/
def elsewhere : Reference :=
  ⟨"/subscriptions/s/resourceGroups/other/providers/Microsoft.Network/networkInterfaces/n"⟩

/-- A machine in the group `armsweep-r` with the card `elsewhere`. -/
def farMachine : Machine := ⟨"", "m", "", .empty, [elsewhere], none⟩

/-- A removal of that machine, where its own group has a card of the same name. -/
def farLog : List (Exchange (Service Unit)) :=
  [fetched "armsweep-r" "m" farMachine, askedToDelete "armsweep-r" farMachine (.ok .deleted),
    fetchedCard "armsweep-r" elsewhere ⟨"", "n", []⟩,
    ⟨.plane (.delete .networkInterface "armsweep-r" "n"), some (.ok .deleted)⟩,
    ⟨.plane (.list .virtualMachine "armsweep-r"), some (.ok ["other"])⟩]

theorem reaches_far : Reaches (Exchange.recording (Service Unit)) (remove {} "r/m").run []
    (.done (.ok true)) farLog := by
  rw [remove, decode_sampleId]
  refine Reaches.ask (a := .ok (some farMachine)) rfl ?_
  refine Reaches.ask (a := .ok .deleted) rfl ?_
  refine Reaches.ask (a := .ok (some ⟨"", "n", []⟩)) rfl ?_
  refine Reaches.ask (a := .ok .deleted) rfl ?_
  refine Reaches.ask (a := .ok ["other"]) rfl ?_
  exact .refl

/-- The deletion in that removal is by the last segment of `elsewhere`. -/
theorem network_deletions_by_name_far :
    Reaches (Exchange.recording (Service Unit)) (remove {} "r/m").run [] (.done (.ok true)) farLog ∧
      ∃ r, Found "armsweep-r" "m" (farLog.take 3) .networkInterface r ∧ r.EndsIn "n" := by
  refine ⟨reaches_far, ?_⟩
  obtain ⟨id, hid, -, hr⟩ := network_deletions_by_name reaches_far (farLog.take 3) _ _ rfl
    .networkInterface "armsweep-r" "n" rfl (.inl rfl)
  rw [decode_sampleId] at hid
  obtain rfl := Except.ok.inj hid
  exact hr

theorem found_far {kind : ResourceKind} {r : Reference}
    (h : Found "armsweep-r" "m" (farLog.take 3) kind r) : r = elsewhere := by
  have hcard {m : Machine} (hm : fetched "armsweep-r" "m" m ∈ farLog.take 3) : m = farMachine := by
    simpa [farLog, fetched, askedToDelete, fetchedCard] using hm
  induction h with
  | card hm hr =>
    obtain rfl := hcard hm
    exact List.mem_singleton.mp hr
  | @address r card config a hr hfetched hconfig ha ih =>
    -- the card that was fetched has no addresses
    have hnone : card = ⟨"", "n", []⟩ := by
      simpa [farLog, fetched, askedToDelete, fetchedCard, ih] using hfetched
    subst hnone
    cases hconfig

/-- A card is deleted to which neither the machine nor any card of it refers: it has the name of a
card of another group that the machine does refer to. -/
theorem card_without_reference_deleted :
    ¬∀ (s : TeardownSettings) (text : String) (q : Task (Service Unit) (Except Error Bool))
      (log : List (Exchange (Service Unit))),
      Reaches (Exchange.recording (Service Unit)) (remove s text).run [] q log →
        Exchange.AllRight (fun before (c : Call Unit) => ∀ kind group n,
          c = .plane (.delete kind group n) →
            kind = .networkInterface ∨ kind = .publicAddress →
              ∃ id, MachineId.decode text = .ok id ∧ ∃ held r,
                Found (siteOf s id).group id.name before held r ∧ r.PointsTo group n) log := by
  intro hclaim
  obtain ⟨id, hid, held, r, hr, -, g, hgroup, hsame⟩ :=
    hclaim {} "r/m" _ farLog reaches_far (farLog.take 3) _ _ rfl .networkInterface "armsweep-r" "n"
      rfl (.inl rfl)
  rw [decode_sampleId] at hid
  obtain rfl := Except.ok.inj hid
  obtain rfl : r = elsewhere := found_far hr
  have hother : elsewhere.group? = some "other" := by decide +kernel
  obtain rfl : "other" = g := Option.some.inj (hother.symm.trans hgroup)
  revert hsame
  decide

end Teardown

end Decommission
