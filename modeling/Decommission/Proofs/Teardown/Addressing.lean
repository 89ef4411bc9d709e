import Decommission.Proofs.ControlPlane.Addresses
import Decommission.Proofs.Teardown.Course
import Decommission.Proofs.Teardown.Scope

/-!
Where the requests of a removal go that are made of nothing but the id of the machine. An id may
hold the characters that end a path.
-/
namespace Decommission

open Http (endsPath pathOf)

/-- How often the character stands in the text. -/
def Text.occurrences (x : Char) (s : String) : Nat := s.toList.count x

/-- Neither a query nor a fragment begins in the text. -/
def IsPath (s : String) : Prop := ∀ c ∈ s.toList, endsPath c = false

instance (s : String) : Decidable (IsPath s) :=
  decidable_of_iff ((s.toList.all fun c => !endsPath c) = true) <| by
    simp only [IsPath, List.all_eq_true, Bool.not_eq_true']

open Text (occurrences)

section

variable {s s' : String} {x : Char}

theorem Text.occurrences_append : occurrences x (s ++ s') = occurrences x s + occurrences x s' := by
  rw [occurrences, String.toList_append, List.count_append]
  rfl

theorem IsPath.append (h : IsPath s) (h' : IsPath s') : IsPath (s ++ s') := by
  intro c hc
  rw [String.toList_append, List.mem_append] at hc
  rcases hc with hc | hc
  · exact h c hc
  · exact h' c hc

theorem isPath_iff : IsPath s ↔ occurrences '?' s = 0 ∧ occurrences '#' s = 0 := by
  simp only [IsPath, endsPath, Bool.or_eq_false_iff, beq_eq_false_iff_ne, occurrences,
    List.count_eq_zero]
  constructor
  · intro h
    exact ⟨fun hmem => (h _ hmem).1 rfl, fun hmem => (h _ hmem).2 rfl⟩
  · rintro ⟨hquery, hfragment⟩ c hc
    exact ⟨fun heq => hquery (heq ▸ hc), fun heq => hfragment (heq ▸ hc)⟩

theorem IsPath.occurrences_eq_zero (h : IsPath s) (hx : endsPath x = true) :
    occurrences x s = 0 := by
  refine List.count_eq_zero.mpr fun hmem => ?_
  rw [h x hmem] at hx
  cases hx

end

namespace ControlPlane

variable {t : Target} {x : Char} {r : Root}

theorem Target.isPath_kind (kind : ResourceKind) :
    IsPath kind.provider ∧ IsPath kind.typeName := by
  cases kind <;> decide

/-- Only the names of a target may bring such characters into its segments. -/
theorem Target.occurrences_segments (hx : endsPath x = true) :
    ((t.folders ++ [t.leaf]).map (occurrences x)).sum = (t.names.map (occurrences x)).sum := by
  have hprovider (kind : ResourceKind) : occurrences x kind.provider = 0 :=
    (isPath_kind kind).1.occurrences_eq_zero hx
  have htype (kind : ResourceKind) : occurrences x kind.typeName = 0 :=
    (isPath_kind kind).2.occurrences_eq_zero hx
  have hproviders : occurrences x "providers" = 0 := IsPath.occurrences_eq_zero (by decide) hx
  have hkeys : occurrences x "listKeys" = 0 := IsPath.occurrences_eq_zero (by decide) hx
  cases t with
  | group | collection | resource | keys =>
    simp [folders, leaf, names, hprovider, htype, hproviders, hkeys]

theorem Target.isPath_version : IsPath t.version := by
  have hkind (kind : ResourceKind) : IsPath kind.apiVersion := by
    cases kind <;> decide
  cases t with
  | group g => exact (by decide : IsPath groupApiVersion)
  | collection kind g => exact hkind kind
  | resource kind g name => exact hkind kind
  | keys g account => exact hkind .storageAccount

theorem occurrences_joined {segments : List String} (hx : x ≠ '/') :
    (joined segments).count x = (segments.map (occurrences x)).sum := by
  rw [joined, Text.count_intercalate hx, List.map_map]
  rfl

/-- An address has the mark that begins its query, and those of the names in it. -/
theorem Root.occurrences_address (hroot : IsPath (r.groupPath "")) (hx : endsPath x = true) :
    occurrences x (r.address t) =
      (t.names.map (occurrences x)).sum + occurrences x "?api-version=" := by
  have hne : x ≠ '/' := by
    rintro rfl
    cases hx
  have hcount : occurrences x (r.address t) = occurrences x (r.groupPath "") +
      (joined (t.folders ++ [t.leaf])).count x + occurrences x ("?api-version=" ++ t.version) := by
    rw [occurrences, Root.toList_address, List.count_append, List.count_append]
    rfl
  rw [hcount, hroot.occurrences_eq_zero hx, occurrences_joined hne,
    Target.occurrences_segments hx, Text.occurrences_append,
    Target.isPath_version.occurrences_eq_zero hx, Nat.zero_add, Nat.add_zero]

theorem Root.isPath_groupPath (hendpoint : IsPath r.endpoint)
    (hsubscription : IsPath r.subscription) : IsPath (r.groupPath "") := by
  have hsubscriptions : IsPath "/subscriptions/" := by decide
  have hgroups : IsPath "/resourceGroups/" := by decide
  have hempty : IsPath "" := by decide
  exact (((hendpoint.append hsubscriptions).append hsubscription).append hgroups).append hempty

/-- The path of an address, as it was put together. -/
def Root.path (r : Root) (t : Target) : List Char :=
  (r.groupPath "").toList ++ joined (t.folders ++ [t.leaf])

/-- The path of an address is read back as it was put together. -/
theorem Root.splitOn_path (hsubscription : '/' ∉ r.subscription.toList) (ht : t.IsPlain) :
    (r.path t).splitOn '/' = r.endpoint.toList.splitOn '/' ++
      ("subscriptions" :: r.subscription :: "resourceGroups" :: (t.folders ++ [t.leaf])).map
        String.toList := by
  have hpath : r.path t = r.endpoint.toList ++ '/' ::
      joined
        ("subscriptions" :: r.subscription :: "resourceGroups" :: (t.folders ++ [t.leaf])) := by
    have hsubscriptions : "/subscriptions/".toList = '/' :: ("subscriptions".toList ++ ['/']) := by
      decide
    have hgroups : "/resourceGroups/".toList = '/' :: ("resourceGroups".toList ++ ['/']) := by
      decide
    obtain ⟨first, later, hsegments⟩ := List.exists_cons_of_ne_nil
      (l := t.folders ++ [t.leaf]) (by simp)
    rw [path, hsegments]
    simp only [groupPath, String.toList_append, String.toList_empty, hsubscriptions, hgroups,
      joined_cons_cons, List.append_assoc, List.cons_append, List.nil_append]
  have hplain : ∀ part ∈ ("subscriptions" :: r.subscription :: "resourceGroups" ::
      (t.folders ++ [t.leaf])).map String.toList, '/' ∉ part := by
    simp only [List.forall_mem_map, List.forall_mem_cons]
    exact ⟨by decide, hsubscription, by decide, Target.not_mem_segment ht⟩
  have hsplit := List.splitOnP_append_cons (p := fun c => c == '/') r.endpoint.toList
    (joined ("subscriptions" :: r.subscription :: "resourceGroups" :: (t.folders ++ [t.leaf])))
    (beq_self_eq_true '/')
  rw [hpath]
  exact hsplit.trans (congrArg _ (List.splitOn_intercalate '/' hplain (by simp)))

/-- An address is cut at its first mark into the path and the query. -/
theorem Root.cutFirst_address (hroot : IsPath (r.groupPath ""))
    (ht : ∀ name ∈ t.names, IsPath name) :
    Text.cutFirst '?' (r.address t).toList =
      some (r.path t, ("api-version=" ++ t.version).toList) := by
  have hquery : ("?api-version=" ++ t.version).toList =
      '?' :: ("api-version=" ++ t.version).toList := by
    rw [String.toList_append, String.toList_append]
    rfl
  have hpath : '?' ∉ r.path t := by
    have hnames : (t.names.map (occurrences '?')).sum = 0 := by
      rw [List.sum_eq_zero_iff_forall_eq_nat, List.forall_mem_map]
      exact fun name hname => (ht name hname).occurrences_eq_zero rfl
    rw [path, List.mem_append, not_or, ← List.count_eq_zero, ← List.count_eq_zero,
      occurrences_joined (by decide), Target.occurrences_segments rfl]
    exact ⟨hroot.occurrences_eq_zero rfl, hnames⟩
  rw [toList_address, hquery]
  exact Text.cutFirst_append hpath

end ControlPlane

namespace Teardown

open ControlPlane (Root Target)

/-- The call is about nothing but what the id of the machine tells. -/
def fromId : ControlPlane.Call → Bool
  | .getMachine .. | .list .. | .deleteGroup _ => true
  | _ => false

/-- What such calls are about: the machine of the id, the resources of a kind in its group, and the
group itself. -/
inductive Aimed (s : TeardownSettings) (id : MachineId) : Target → Prop where
  | machine : Aimed s id (.resource .virtualMachine (groupName s.groupPrefix id.region) id.name)
  | kind (kind : ResourceKind) : Aimed s id (.collection kind (groupName s.groupPrefix id.region))
  | group : Aimed s id (.group (groupName s.groupPrefix id.region))

/-- The parts of the id in the address of the target. -/
def idParts (id : MachineId) : Target → List String
  | .resource .. | .keys .. => [id.region, id.name]
  | .collection .. | .group _ => [id.region]

section

variable {σ : Type} {s : TeardownSettings} {id : MachineId} {t : Target} {x : Char}

theorem Aimed.occurrences_names (h : Aimed s id t) (hgroups : IsPath s.groupPrefix)
    (hx : endsPath x = true) :
    (t.names.map (occurrences x)).sum = ((idParts id t).map (occurrences x)).sum := by
  have hdash : IsPath "-" := by decide
  have hgroup : occurrences x (groupName s.groupPrefix id.region) = occurrences x id.region := by
    rw [groupName, Text.occurrences_append, (hgroups.append hdash).occurrences_eq_zero hx,
      Nat.zero_add]
  cases h with
  | machine | kind | group => simp [Target.names, idParts, hgroup]

theorem Aimed.isPath_names (h : Aimed s id t) (hgroups : IsPath s.groupPrefix)
    (hid : ∀ part ∈ idParts id t, IsPath part) : ∀ name ∈ t.names, IsPath name := by
  have hdash : IsPath "-" := by decide
  have hgroup (hregion : IsPath id.region) : IsPath (groupName s.groupPrefix id.region) :=
    (hgroups.append hdash).append hregion
  cases h with
  | machine =>
    obtain ⟨hregion, hname⟩ := List.forall_mem_cons.mp hid
    exact List.forall_mem_cons.mpr ⟨hgroup hregion, hname⟩
  | kind | group =>
    exact List.forall_mem_singleton.mpr (hgroup (List.forall_mem_singleton.mp hid))

theorem Aimed.isPlain (h : Aimed s id t) (hgroups : '/' ∉ s.groupPrefix.toList) : t.IsPlain := by
  have hgroup : '/' ∉ (groupName s.groupPrefix id.region).toList := by
    simp only [groupName, String.toList_append, List.mem_append, not_or]
    exact ⟨⟨hgroups, by decide⟩, id.region_ok.2⟩
  cases h with
  | machine =>
    exact List.forall_mem_cons.mpr ⟨hgroup, List.forall_mem_singleton.mpr id.name_ok.2⟩
  | kind | group => exact List.forall_mem_singleton.mpr hgroup

/-- The calls of a removal that are about nothing but the id go where it aims. -/
theorem makes_aimed {text : String} (hid : MachineId.decode text = .ok id) :
    Action.Makes (fun call => ∀ c t, call = .plane c → fromId c = true → c.target? = some t →
      Aimed s id t) (remove (σ := σ) s text) := by
  have hcall {c : ControlPlane.Call}
      (h : ∀ t, fromId c = true → c.target? = some t → Aimed s id t) :
      ∀ c' t, Call.plane (σ := σ) c = .plane c' → fromId c' = true → c'.target? = some t →
        Aimed s id t := by
    rintro _ t ⟨⟩
    exact h t
  have hpermits : Permits (σ := σ) (fun call => ∀ c t, call = .plane c → fromId c = true →
      c.target? = some t → Aimed s id t) (groupName s.groupPrefix id.region) := {
    card := fun _ => hcall nofun
    delete := fun _ _ => hcall nofun
    look := fun _ => hcall nofun
    list := fun kind => hcall fun _ _ ht => Option.some.inj ht ▸ .kind kind
    deleteGroup := hcall fun _ _ ht => Option.some.inj ht ▸ .group }
  rw [remove, hid]
  refine makes_bind (makes_act (hcall fun _ _ ht => Option.some.inj ht ▸ .machine)) fun found => ?_
  match found with
  | none => trivial
  | some machine =>
    refine makes_bind (makes_deleteAndSettle hpermits) fun deleted => ?_
    refine makes_bind (makes_deleteNetworkCards hpermits) fun _ => ?_
    refine makes_bind ?_ fun _ => makes_bind (makes_deleteGroupIfEmpty hpermits) fun _ => trivial
    exact makes_deleteStorage (fun _ => hpermits.delete _ _)
      (fun account => hcall (c := .getStorageKeys _ account) nofun) (fun _ => nofun)

/-- An id may be written so that a query or a fragment begins in it. In each address that is made of
the id and of nothing else but texts in which none begins, there are one mark of a query for its
version, and besides just those that the parts of the id bring. Where these bring none the path is
read back as the group and the machine, and the version is the query. -/
theorem marks_of_id {text : String} {r : Root} (hid : MachineId.decode text = .ok id)
    (hendpoint : IsPath r.endpoint) (hsubscription : IsPath r.subscription)
    (hgroups : IsPath s.groupPrefix) (hfolder : '/' ∉ r.subscription.toList)
    (hstart : '/' ∉ s.groupPrefix.toList) :
    Action.Makes (fun call => ∀ c t, call = .plane c → fromId c = true → c.target? = some t →
      Aimed s id t) (remove (σ := σ) s text) ∧
    ∀ t, Aimed s id t →
      occurrences '?' (r.address t) = ((idParts id t).map (occurrences '?')).sum + 1 ∧
      occurrences '#' (r.address t) = ((idParts id t).map (occurrences '#')).sum ∧
      ((occurrences '?' (r.address t) = 1 ∧ occurrences '#' (r.address t) = 0) ↔
        ∀ part ∈ idParts id t, IsPath part) ∧
      ((∀ part ∈ idParts id t, IsPath part) →
        Text.cutFirst '?' (r.address t).toList =
          some (r.path t, ("api-version=" ++ t.version).toList) ∧
        (r.path t).splitOn '/' = r.endpoint.toList.splitOn '/' ++
          ("subscriptions" :: r.subscription :: "resourceGroups" :: (t.folders ++ [t.leaf])).map
            String.toList) := by
  have hroot : IsPath (r.groupPath "") := Root.isPath_groupPath hendpoint hsubscription
  refine ⟨makes_aimed hid, fun t ht => ?_⟩
  have hquery : occurrences '?' (r.address t) =
      ((idParts id t).map (occurrences '?')).sum + 1 := by
    rw [Root.occurrences_address hroot rfl, ht.occurrences_names hgroups rfl]
    rfl
  have hfragment : occurrences '#' (r.address t) =
      ((idParts id t).map (occurrences '#')).sum := by
    rw [Root.occurrences_address hroot rfl, ht.occurrences_names hgroups rfl]
    rfl
  refine ⟨hquery, hfragment, ?_, ?_⟩
  · have hparts : (∀ part ∈ idParts id t, IsPath part) ↔
        (∀ part ∈ idParts id t, occurrences '?' part = 0) ∧
          ∀ part ∈ idParts id t, occurrences '#' part = 0 := by
      simp only [isPath_iff]
      exact forall₂_and
    rw [hquery, hfragment, hparts, Nat.succ_inj, List.sum_eq_zero_iff_forall_eq_nat,
      List.sum_eq_zero_iff_forall_eq_nat, List.forall_mem_map, List.forall_mem_map]
  · intro hparts
    exact ⟨Root.cutFirst_address hroot (ht.isPath_names hgroups hparts),
      Root.splitOn_path hfolder (ht.isPlain hstart)⟩

end

/-- Where the samples are. -/
def sampleRoot : Root := ⟨"https://e", "s"⟩

/-- The machine `m` of the region `r` is asked for by one query. -/
theorem marks_of_id_sample :
    MachineId.decode "r/m" = .ok sampleId ∧ IsPath sampleRoot.endpoint ∧
    IsPath sampleRoot.subscription ∧ IsPath ({} : TeardownSettings).groupPrefix ∧
    '/' ∉ sampleRoot.subscription.toList ∧ '/' ∉ ({} : TeardownSettings).groupPrefix.toList ∧
    occurrences '?' (sampleRoot.address (.resource .virtualMachine "armsweep-r" "m")) = 1 ∧
    occurrences '#' (sampleRoot.address (.resource .virtualMachine "armsweep-r" "m")) = 0 := by
  have hendpoint : IsPath sampleRoot.endpoint := by decide
  have hsubscription : IsPath sampleRoot.subscription := by decide
  have hgroups : IsPath ({} : TeardownSettings).groupPrefix := by decide
  have hfolder : '/' ∉ sampleRoot.subscription.toList := by decide
  have hstart : '/' ∉ ({} : TeardownSettings).groupPrefix.toList := by decide
  obtain ⟨-, haddresses⟩ := marks_of_id (σ := Unit) (s := {}) decode_sampleId hendpoint
    hsubscription hgroups hfolder hstart
  obtain ⟨-, -, hmarks, -⟩ := haddresses _ .machine
  exact ⟨decode_sampleId, hendpoint, hsubscription, hgroups, hfolder, hstart,
    hmarks.mpr (by decide)⟩

/-- An id in whose region a query begins. -/
def queryId : MachineId := ⟨"r?x", "m", by decide, sampleId.name_ok⟩

/-- The address made of an id that is accepted may have two marks of a query. What comes before the
first is the path of a group, and not even that of the group of the region. -/
theorem query_begins_in_id :
    (¬∀ (s : TeardownSettings) (text : String) (id : MachineId) (r : Root) (t : Target),
      MachineId.decode text = .ok id → IsPath r.endpoint → IsPath r.subscription →
      IsPath s.groupPrefix → '/' ∉ r.subscription.toList → '/' ∉ s.groupPrefix.toList →
      Aimed s id t → occurrences '?' (r.address t) = 1 ∧ occurrences '#' (r.address t) = 0) ∧
    MachineId.decode "r?x/m" = .ok queryId ∧
    pathOf (sampleRoot.address (.resource .virtualMachine "armsweep-r?x" "m")) =
      pathOf (sampleRoot.groupUrl "armsweep-r") := by
  have hid : MachineId.decode "r?x/m" = .ok queryId := by decide +kernel
  refine ⟨fun hclaim => ?_, hid, by decide +kernel⟩
  have hmarks := hclaim {} "r?x/m" queryId sampleRoot _ hid (by decide) (by decide) (by decide)
    (by decide) (by decide) .machine
  revert hmarks
  decide +kernel

end Teardown

end Decommission
