import Decommission.Proofs.ControlPlane.Operations
import Decommission.Proofs.Text.Joined

/-!
The addresses of management requests. They are put together of segments, and each of them is the
address of one thing only.
-/
namespace Decommission

open Http (Transport)

theorem Text.dropEnd_append_replicate (c : Char) (cs : List Char) (n : Nat) :
    dropEnd c (cs ++ List.replicate n c) = dropEnd c cs := by
  have hdrop : ∀ x ∈ List.replicate n c, (x == c) = true := by
    intro x hx
    rw [List.eq_of_mem_replicate hx, beq_self_eq_true]
  rw [dropEnd, List.reverse_append, List.reverse_replicate, List.dropWhile_append_of_pos hdrop]
  rfl

namespace ResourceKind

/-- The first of the two segments that name the kind. -/
def provider (kind : ResourceKind) : String :=
  String.ofList (Text.upTo (· == '/') kind.providerPath.toList)

/-- The second of them. -/
def typeName (kind : ResourceKind) : String :=
  String.ofList (Text.lastSegment '/' kind.providerPath.toList)

variable {kind kind' : ResourceKind}

theorem providerPath_eq : kind.providerPath = kind.provider ++ "/" ++ kind.typeName := by
  cases kind <;> decide

theorem not_mem_provider : '/' ∉ kind.provider.toList := by
  cases kind <;> decide

theorem not_mem_typeName : '/' ∉ kind.typeName.toList := by
  cases kind <;> decide

theorem eq_of_typeName_eq (h : kind.typeName = kind'.typeName) : kind = kind' := by
  cases kind <;> cases kind' <;> revert h <;> decide

/-- No name of a kind goes on where the query of an address begins. -/
theorem eq_of_versioned_eq {rest rest' : List Char}
    (h : kind.typeName.toList ++ '?' :: rest = kind'.typeName.toList ++ '?' :: rest') :
    kind = kind' := by
  have hmark (kind : ResourceKind) : '?' ∉ kind.typeName.toList := by
    cases kind <;> decide
  have hcut := congrArg (Text.cutFirst '?') h
  rw [Text.cutFirst_append (hmark kind), Text.cutFirst_append (hmark kind')] at hcut
  exact eq_of_typeName_eq (String.toList_injective (Prod.mk.inj (Option.some.inj hcut)).1)

end ResourceKind

namespace ControlPlane

/-- What a management request is about. -/
inductive Target where
  | group (group : String)
  | collection (kind : ResourceKind) (group : String)
  | resource (kind : ResourceKind) (group name : String)
  | keys (group account : String)
  deriving DecidableEq, Repr

/-- What the call is about. An operation is looked at where the service says that it is. -/
def Call.target? : Call → Option Target
  | .getMachine group name => some (.resource .virtualMachine group name)
  | .getNetworkCard group name => some (.resource .networkInterface group name)
  | .getStorageKeys group account => some (.keys group account)
  | .list kind group => some (.collection kind group)
  | .delete kind group name => some (.resource kind group name)
  | .deleteGroup group => some (.group group)
  | .operationStatus _ => none

namespace Target

/-- The names that tell the target from others of its form and kind. -/
def names : Target → List String
  | group g => [g]
  | collection _ g => [g]
  | resource _ g name => [g, name]
  | keys g account => [g, account]

/-- No name holds the separator of segments. -/
def IsPlain (t : Target) : Prop := ∀ name ∈ t.names, '/' ∉ name.toList

instance (t : Target) : Decidable t.IsPlain :=
  inferInstanceAs (Decidable (∀ name ∈ t.names, '/' ∉ name.toList))

/-- The segments of the path below the groups, without the last one. -/
def folders : Target → List String
  | group _ => []
  | collection kind g => [g, "providers", kind.provider]
  | resource kind g _ => [g, "providers", kind.provider, kind.typeName]
  | keys g account => [g, "providers", ResourceKind.storageAccount.provider,
      ResourceKind.storageAccount.typeName, account]

/-- The last segment of the path. -/
def leaf : Target → String
  | group g => g
  | collection kind _ => kind.typeName
  | resource _ _ name => name
  | keys .. => "listKeys"

/-- The version of the interface that requests about the target name. -/
def version : Target → String
  | group _ => groupApiVersion
  | collection kind _ => kind.apiVersion
  | resource kind .. => kind.apiVersion
  | keys .. => ResourceKind.storageAccount.apiVersion

end Target

/-- Segments of a path, put together. -/
def joined (segments : List String) : List Char := ['/'].intercalate (segments.map String.toList)

theorem joined_singleton (segment : String) : joined [segment] = segment.toList :=
  List.intercalate_singleton

theorem joined_cons_cons (segment next : String) (segments : List String) :
    joined (segment :: next :: segments) = segment.toList ++ '/' :: joined (next :: segments) := by
  rw [joined, List.map_cons, List.map_cons, List.intercalate_cons_cons, List.append_assoc]
  rfl

namespace Root

/-- Where the target is. -/
def address (r : Root) : Target → String
  | .group group => r.groupUrl group
  | .collection kind group => r.collectionUrl kind group
  | .resource kind group name => r.resourceUrl kind group name
  | .keys group account => r.keysUrl group account

variable {r : Root} {t t' : Target}

theorem toList_collectionPath {kind : ResourceKind} {group : String} :
    (r.collectionPath kind group).toList =
      (r.groupPath "").toList ++ joined [group, "providers", kind.provider, kind.typeName] := by
  have hproviders : "/providers/" = "/" ++ "providers" ++ "/" := by decide
  have hslash : "/".toList = ['/'] := by decide
  simp only [collectionPath, groupPath, ResourceKind.providerPath_eq, hproviders,
    String.toList_append, String.toList_empty, hslash, joined_cons_cons, joined_singleton,
    List.append_assoc, List.cons_append, List.nil_append]

theorem toList_resourcePath {kind : ResourceKind} {group name : String} :
    (r.resourcePath kind group name).toList = (r.groupPath "").toList ++
      joined [group, "providers", kind.provider, kind.typeName, name] := by
  have hslash : "/".toList = ['/'] := by decide
  rw [resourcePath, String.toList_append, String.toList_append, toList_collectionPath, hslash]
  simp only [joined_cons_cons, joined_singleton, List.append_assoc, List.cons_append,
    List.nil_append]

theorem toList_versioned (path version : String) :
    (versioned path version).toList = path.toList ++ ("?api-version=" ++ version).toList := by
  rw [versioned, String.append_assoc, String.toList_append]

/-- An address is made of the segments of its target, and of the version in the query. -/
theorem toList_address : (r.address t).toList =
    (r.groupPath "").toList ++ joined (t.folders ++ [t.leaf]) ++
      ("?api-version=" ++ t.version).toList := by
  cases t with
  | group g =>
    have hgroup : r.groupPath g = r.groupPath "" ++ g := by
      simp only [groupPath, String.append_empty]
    rw [address, groupUrl, toList_versioned, hgroup, String.toList_append, Target.folders,
      Target.leaf, Target.version, List.nil_append, joined_singleton]
  | collection kind g =>
    rw [address, collectionUrl, toList_versioned, toList_collectionPath, Target.folders,
      Target.leaf, Target.version]
    rfl
  | resource kind g name =>
    rw [address, resourceUrl, toList_versioned, toList_resourcePath, Target.folders, Target.leaf,
      Target.version]
    rfl
  | keys g account =>
    have hkeys : "/listKeys".toList = '/' :: "listKeys".toList := by decide
    rw [address, keysUrl, toList_versioned, String.toList_append, toList_resourcePath, hkeys,
      Target.folders, Target.leaf, Target.version]
    simp only [joined_cons_cons, joined_singleton, List.append_assoc, List.cons_append,
      List.nil_append]

end Root

namespace Target

variable {t t' : Target}

theorem not_mem_segment (h : t.IsPlain) :
    ∀ segment ∈ t.folders ++ [t.leaf], '/' ∉ segment.toList := by
  have hproviders : '/' ∉ "providers".toList := by decide
  have hkeys : '/' ∉ "listKeys".toList := by decide
  have hprovider (kind : ResourceKind) : '/' ∉ kind.provider.toList := ResourceKind.not_mem_provider
  have htype (kind : ResourceKind) : '/' ∉ kind.typeName.toList := ResourceKind.not_mem_typeName
  have hnil : ∀ segment ∈ ([] : List String), '/' ∉ segment.toList := nofun
  cases t with
  | group g => exact h
  | collection kind g =>
    obtain ⟨hg, -⟩ := List.forall_mem_cons.mp h
    simp only [folders, leaf, List.cons_append, List.nil_append, List.forall_mem_cons]
    exact ⟨hg, hproviders, hprovider kind, htype kind, hnil⟩
  | resource kind g name =>
    obtain ⟨hg, hname⟩ := List.forall_mem_cons.mp h
    simp only [folders, leaf, List.cons_append, List.nil_append, List.forall_mem_cons]
    exact ⟨hg, hproviders, hprovider kind, htype kind, List.forall_mem_cons.mp hname⟩
  | keys g account =>
    obtain ⟨hg, hname⟩ := List.forall_mem_cons.mp h
    simp only [folders, leaf, List.cons_append, List.nil_append, List.forall_mem_cons]
    exact ⟨hg, hproviders, hprovider _, htype _, (List.forall_mem_cons.mp hname).1, hkeys, hnil⟩

theorem not_mem_query : '/' ∉ ("?api-version=" ++ t.version).toList := by
  have hgroup : '/' ∉ ("?api-version=" ++ groupApiVersion).toList := by decide
  have hkind (kind : ResourceKind) : '/' ∉ ("?api-version=" ++ kind.apiVersion).toList := by
    cases kind <;> decide
  cases t with
  | group g => exact hgroup
  | collection kind g => exact hkind kind
  | resource kind g name => exact hkind kind
  | keys g account => exact hkind .storageAccount

/-- The segments and the version tell the target. -/
theorem eq_of_segments_eq (hfolders : t.folders = t'.folders)
    (hleaf : t.leaf.toList ++ ("?api-version=" ++ t.version).toList =
      t'.leaf.toList ++ ("?api-version=" ++ t'.version).toList) : t = t' := by
  have hmark (version : String) :
      ("?api-version=" ++ version).toList = '?' :: ("api-version=" ++ version).toList := by
    rw [String.toList_append, String.toList_append]
    rfl
  -- targets of different forms have different numbers of segments
  cases t with
  | group g =>
    cases t' with
    | group g' =>
      have hg : g.toList = g'.toList := List.append_cancel_right hleaf
      rw [String.toList_injective hg]
    | collection | resource | keys => cases hfolders
  | collection kind g =>
    cases t' with
    | collection kind' g' =>
      obtain rfl : g = g' := (List.cons.inj hfolders).1
      rw [hmark, hmark] at hleaf
      rw [ResourceKind.eq_of_versioned_eq hleaf]
    | group | resource | keys => simp [folders] at hfolders
  | resource kind g name =>
    cases t' with
    | resource kind' g' name' =>
      simp only [folders, List.cons.injEq, and_true, true_and] at hfolders
      obtain ⟨rfl, -, htype⟩ := hfolders
      obtain rfl := ResourceKind.eq_of_typeName_eq htype
      have hname : name.toList = name'.toList := List.append_cancel_right hleaf
      rw [String.toList_injective hname]
    | group | collection | keys => simp [folders] at hfolders
  | keys g account =>
    cases t' with
    | keys g' account' =>
      simp only [folders, List.cons.injEq, and_true, true_and] at hfolders
      obtain ⟨rfl, rfl⟩ := hfolders
      rfl
    | group | collection | resource => simp [folders] at hfolders

end Target

namespace Root

/-- The query is a part of the last segment. -/
theorem toList_address_eq_intercalate (r : Root) (t : Target) :
    (r.address t).toList = (r.groupPath "").toList ++ ['/'].intercalate
      (t.folders.map String.toList ++
        [t.leaf.toList ++ ("?api-version=" ++ t.version).toList]) := by
  rw [toList_address, joined, List.map_append, List.map_singleton,
    Text.intercalate_append_cons, Text.intercalate_append_cons, List.flatMap_nil]
  simp only [List.append_assoc, List.append_nil]

/-- An address tells what it is the address of. -/
theorem eq_of_address_eq {r : Root} {t t' : Target} (ht : t.IsPlain) (ht' : t'.IsPlain)
    (h : r.address t = r.address t') : t = t' := by
  have hparts {t : Target} (ht : t.IsPlain) : ∀ part ∈ t.folders.map String.toList ++
      [t.leaf.toList ++ ("?api-version=" ++ t.version).toList], '/' ∉ part := by
    intro part hpart
    rcases List.mem_append.mp hpart with hpart | hpart
    · obtain ⟨segment, hsegment, rfl⟩ := List.mem_map.mp hpart
      exact Target.not_mem_segment ht segment (List.mem_append_left _ hsegment)
    · obtain rfl := List.mem_singleton.mp hpart
      have hleaf := Target.not_mem_segment ht t.leaf (List.mem_append_right _ List.mem_cons_self)
      rw [List.mem_append, not_or]
      exact ⟨hleaf, Target.not_mem_query⟩
  have hjoined := congrArg String.toList h
  rw [toList_address_eq_intercalate, toList_address_eq_intercalate] at hjoined
  have hsegments := Text.eq_of_intercalate_eq (hparts ht) (hparts ht') (by simp) (by simp)
    (List.append_cancel_left hjoined)
  obtain ⟨hfolders, hleaf⟩ := List.append_inj' hsegments rfl
  have hinjective : Function.Injective String.toList := fun _ _ => String.toList_injective
  exact Target.eq_of_segments_eq (List.map_injective_iff.mpr hinjective hfolders)
    (List.cons.inj hleaf).1

/-- Slashes at the end of an endpoint make no difference. -/
theorem ofEndpoint_append_slashes (endpoint subscription : String) (n : Nat) :
    ofEndpoint (endpoint ++ String.ofList (List.replicate n '/')) subscription =
      ofEndpoint endpoint subscription := by
  rw [ofEndpoint, String.toList_append, String.toList_ofList, Text.dropEnd_append_replicate,
    ofEndpoint]

end Root

namespace Connection

variable {c : Connection} {call : Call} {t : Target}

/-- A call of one request sends it to the address of its target. -/
theorem url_of_oneRequest? {r : OneRequest (Result call)} (hcall : c.oneRequest? call = some r)
    (ht : call.target? = some t) : r.url = c.root.address t := by
  cases call with
  | list | operationStatus => cases hcall <;> cases ht
  | getMachine | getNetworkCard | getStorageKeys | delete | deleteGroup =>
    obtain rfl := Option.some.inj hcall
    obtain rfl := Option.some.inj ht
    rfl

/-- Whatever the call asks for, it begins with a request to the address of its target. -/
theorem exists_carryOut_eq (ht : call.target? = some t) {x : Http.Call}
    (hx : (c.carryOut call).nextCall? = some x) :
    ∃ method, x = .send (c.request method (c.root.address t)) c.requestTimeout := by
  cases hcall : c.oneRequest? call with
  | some r =>
    obtain ⟨next, hsend⟩ := exists_send_eq c r.method r.url
    rw [carryOut_eq hcall, hsend] at hx
    rw [← url_of_oneRequest? hcall ht]
    exact ⟨r.method, (Option.some.inj hx).symm⟩
  | none =>
    cases call with
    | list kind group =>
      obtain rfl := Option.some.inj ht
      obtain ⟨next, hsend⟩ := exists_send_eq c .get (c.root.collectionUrl kind group)
      rw [carryOut, list] at hx
      cases hlimit : c.pageLimit with
      | zero =>
        rw [hlimit] at hx
        cases hx
      | succ limit =>
        rw [hlimit, listFrom, get, fetch, hsend] at hx
        exact ⟨.get, (Option.some.inj hx).symm⟩
    | _ => cases hcall

/-- All that such a call sends is that request. -/
theorem makes_carryOut {r : OneRequest (Result call)} (hcall : c.oneRequest? call = some r) :
    (c.carryOut call).Makes fun x =>
      x = Http.Call.send (c.request r.method r.url) c.requestTimeout := by
  rw [carryOut_eq hcall]
  exact makes_send.bind fun answer => trivial

end Connection

/-- Where names hold no separator, an address tells what it is the address of: the form, the kind,
the group and the name, whatever else is in them. What is about no group is never addressed to one.
A call begins with a request to the address of its target, and sends no other if it is not a
listing. Slashes at the end of the endpoint make no difference. -/
theorem addresses_unambiguous {t t' : Target} (ht : t.IsPlain) (ht' : t'.IsPlain) :
    (∀ r : Root, r.address t = r.address t' ↔ t = t') ∧
    (∀ (r : Root) (group : String), '/' ∉ group.toList → r.address t = r.groupUrl group →
      t = .group group) ∧
    (∀ (c : Connection) (call : Call), call.target? = some t →
      (∀ x, (c.carryOut call).nextCall? = some x →
        ∃ method, x = .send (c.request method (c.root.address t)) c.requestTimeout) ∧
      ∀ r, c.oneRequest? call = some r → (c.carryOut call).Makes fun x =>
        x = Http.Call.send (c.request r.method (c.root.address t)) c.requestTimeout) ∧
    ∀ (endpoint subscription : String) (m n : Nat),
      (Root.ofEndpoint (endpoint ++ String.ofList (List.replicate m '/')) subscription).address t =
        (Root.ofEndpoint (endpoint ++ String.ofList (List.replicate n '/')) subscription).address
          t := by
  refine ⟨?_, ?_, ?_, ?_⟩
  · intro r
    exact ⟨Root.eq_of_address_eq ht ht', congrArg r.address⟩
  · intro r group hgroup h
    have hplain : (Target.group group).IsPlain := List.forall_mem_singleton.mpr hgroup
    exact Root.eq_of_address_eq ht hplain h
  · intro c call hcall
    refine ⟨fun x hx => Connection.exists_carryOut_eq hcall hx, ?_⟩
    intro r hr
    rw [← Connection.url_of_oneRequest? hr hcall]
    exact Connection.makes_carryOut hr
  · intro endpoint subscription m n
    rw [Root.ofEndpoint_append_slashes, Root.ofEndpoint_append_slashes]

/-- A machine whose name is made like the query of a group is not taken for a group. -/
theorem addresses_unambiguous_query :
    (Target.resource .virtualMachine "g" "m?api-version=2017-05-10").IsPlain ∧
    (Target.group "g").IsPlain ∧
    ∀ r : Root, r.address (.resource .virtualMachine "g" "m?api-version=2017-05-10") ≠
      r.address (.group "g") := by
  have hmachine : (Target.resource .virtualMachine "g" "m?api-version=2017-05-10").IsPlain := by
    decide
  have hgroup : (Target.group "g").IsPlain := by decide
  refine ⟨hmachine, hgroup, fun r h => ?_⟩
  have htarget := ((addresses_unambiguous hmachine hgroup).1 r).mp h
  cases htarget

end ControlPlane

end Decommission
