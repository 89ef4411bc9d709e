import Decommission.Proofs.Json.Documents
import Decommission.Proofs.Json.Variation
import Decommission.Resource.Machine
import Decommission.Resource.NetworkCard
import Decommission.Resource.StorageKeys

/-!
Machines, network cards and storage keys are read back from the documents that write them, whatever
the order and the spacing of the document, whatever else it tells, and whether or not it writes out
what is absent.
-/
namespace Decommission

open Json (Variation Field)
open Json.Field (required defaulted)
open Json.Variation (exact Optional Items Members)

namespace Json.Layout

variable {α : Type} {layout : Layout α} {toJson : α → Json} {R : Variation}

/-- Every value is read back from its document, and from each text that writes a variation of it. -/
def ReadsBack (layout : Layout α) (toJson : α → Json) (R : Variation) : Prop :=
  ∀ a, layout.read (toJson a).write = .ok a ∧
    ∀ (v : Json) (text : String), R (toJson a) v → v.IsWrittenAs text → layout.read text = .ok a

theorem read_of_isWrittenAs {v : Json} {a : α} {text : String} (ha : layout.ofJson? v = some a)
    (htext : v.IsWrittenAs text) : layout.read text = .ok a := by
  rw [read, Json.read?_of_isWrittenAs htext, Option.bind_some, ha]

theorem readsBack_of_keeps (hround : ∀ a, layout.ofJson? (toJson a) = some a)
    (hnumberless : ∀ a, (toJson a).Numberless) (hkeeps : R.Keeps layout.ofJson?) :
    layout.ReadsBack toJson R := by
  refine fun a => ⟨read_of_isWrittenAs (hround a) (hnumberless a).isWrittenAs_write, ?_⟩
  intro v text hv htext
  exact read_of_isWrittenAs (hkeeps hv (hround a)) htext

end Json.Layout

namespace Reference

/-- How the document of a reference may vary. -/
def variation : Variation := Members [required "id" exact]

theorem keeps_variation : variation.Keeps ofJson? := by
  intro v w r hvw h
  simp only [ofJson?, Option.bind_eq_bind, Option.bind_eq_some_iff] at h ⊢
  obtain ⟨found, hfound, path, hpath, hr⟩ := h
  obtain ⟨found', hfound', hfate⟩ := hvw.record (by decide) hfound
  simp only [List.forall_mem_cons] at hfate
  obtain ⟨hid, -⟩ := hfate
  exact ⟨found', hfound', path, hid.require Variation.keeps_exact hpath, hr⟩

theorem ofJson?_toJson (r : Reference) : ofJson? r.toJson = some r := rfl

theorem numberless_toJson (r : Reference) : r.toJson.Numberless :=
  Json.numberless_ofFields (List.forall_mem_singleton.mpr (Json.numberless_ofText r.path))

end Reference

namespace SystemDisk

/-- How the document of the blob that holds a disk may vary. -/
def blobVariation : Variation := Members [required "uri" exact]

/-- How the document of a disk may vary. -/
def variation : Variation :=
  Members [defaulted "name" .null (Optional exact), defaulted "vhd" .null (Optional blobVariation)]

theorem keeps_blobVariation : blobVariation.Keeps blobOfJson? := by
  intro v w uri hvw h
  simp only [blobOfJson?, Option.bind_eq_bind, Option.bind_eq_some_iff] at h ⊢
  obtain ⟨found, hfound, huri⟩ := h
  obtain ⟨found', hfound', hfate⟩ := hvw.record (by decide) hfound
  simp only [List.forall_mem_cons] at hfate
  obtain ⟨hfield, -⟩ := hfate
  exact ⟨found', hfound', hfield.require Variation.keeps_exact huri⟩

theorem keeps_variation : variation.Keeps ofJson? := by
  -- a field that is left out is read as what it was left out for
  intro v w d hvw h
  simp only [ofJson?, Option.bind_eq_bind, Option.bind_eq_some_iff] at h ⊢
  obtain ⟨found, hfound, name, hname, blob, hblob, hd⟩ := h
  obtain ⟨found', hfound', hfate⟩ := hvw.record (by decide) hfound
  simp only [List.forall_mem_cons] at hfate
  obtain ⟨hnameField, hblobField, -⟩ := hfate
  refine ⟨found', hfound', name, ?_, blob, ?_, hd⟩
  · exact hnameField.getD Variation.keeps_nullable_exact rfl hname
  · exact hblobField.getD (Variation.keeps_nullable_members keeps_blobVariation) rfl hblob

theorem ofJson?_toJson (d : SystemDisk) : ofJson? d.toJson = some d := by
  obtain ⟨_ | name, _ | uri⟩ := d <;> rfl

theorem numberless_toJson (d : SystemDisk) : d.toJson.Numberless := by
  refine Json.numberless_ofFields ?_
  simp only [List.forall_mem_cons]
  refine ⟨Json.numberless_ofOption Json.numberless_ofText d.name,
    Json.numberless_ofOption (fun uri => ?_) d.blobUri, List.forall_mem_nil _⟩
  exact Json.numberless_ofFields (List.forall_mem_singleton.mpr (Json.numberless_ofText uri))

end SystemDisk

namespace StorageProfile

/-- How the document of a storage profile may vary. -/
def variation : Variation := Members [defaulted "osDisk" .null (Optional SystemDisk.variation)]

theorem keeps_variation : variation.Keeps ofJson? := by
  intro v w p hvw h
  simp only [ofJson?, Option.bind_eq_bind, Option.bind_eq_some_iff] at h ⊢
  obtain ⟨found, hfound, disk, hdisk, hp⟩ := h
  obtain ⟨found', hfound', hfate⟩ := hvw.record (by decide) hfound
  simp only [List.forall_mem_cons] at hfate
  obtain ⟨hfield, -⟩ := hfate
  exact ⟨found', hfound', disk,
    hfield.getD (Variation.keeps_nullable_members SystemDisk.keeps_variation) rfl hdisk, hp⟩

theorem ofJson?_toJson (p : StorageProfile) : ofJson? p.toJson = some p := by
  obtain ⟨_ | d⟩ := p
  · rfl
  · obtain ⟨_ | name, _ | uri⟩ := d <;> rfl

theorem numberless_toJson (p : StorageProfile) : p.toJson.Numberless :=
  Json.numberless_ofFields (List.forall_mem_singleton.mpr
    (Json.numberless_ofOption SystemDisk.numberless_toJson p.systemDisk))

end StorageProfile

namespace Machine

/-- How the document of the network side of a machine may vary. -/
def networkVariation : Variation :=
  Members [defaulted "networkInterfaces" (.array []) (Items Reference.variation)]

/-- How the document of the properties of a machine may vary. -/
def propertiesVariation : Variation :=
  Members [
    defaulted "storageProfile" StorageProfile.empty.toJson StorageProfile.variation,
    defaulted "networkProfile" (.ofFields [("networkInterfaces", .array [])]) networkVariation,
    defaulted "provisioningState" .null (Optional exact)]

/-- The properties of a machine of which nothing is told. -/
def absentProperties : Json := .ofFields [
  ("storageProfile", StorageProfile.empty.toJson),
  ("networkProfile", .ofFields [("networkInterfaces", .array [])]),
  ("provisioningState", .null)]

/-- How the document of a machine may vary. -/
def variation : Variation :=
  Members [
    defaulted "id" (.ofText "") exact,
    required "name" exact,
    defaulted "location" (.ofText "") exact,
    defaulted "properties" absentProperties propertiesVariation]

theorem keeps_networkVariation : networkVariation.Keeps networkOfJson? := by
  intro v w references hvw h
  simp only [networkOfJson?, Option.bind_eq_bind, Option.bind_eq_some_iff] at h ⊢
  obtain ⟨found, hfound, hreferences⟩ := h
  obtain ⟨found', hfound', hfate⟩ := hvw.record (by decide) hfound
  simp only [List.forall_mem_cons] at hfate
  obtain ⟨hfield, -⟩ := hfate
  exact ⟨found', hfound', hfield.getD (Variation.keeps_listOf Reference.keeps_variation) rfl
    hreferences⟩

theorem keeps_propertiesVariation : propertiesVariation.Keeps propertiesOfJson? := by
  intro v w properties hvw h
  simp only [propertiesOfJson?, Option.bind_eq_bind, Option.bind_eq_some_iff] at h ⊢
  obtain ⟨found, hfound, storage, hstorage, network, hnetwork, state, hstate, hproperties⟩ := h
  obtain ⟨found', hfound', hfate⟩ := hvw.record (by decide) hfound
  simp only [List.forall_mem_cons] at hfate
  obtain ⟨hstorageField, hnetworkField, hstateField, -⟩ := hfate
  refine ⟨found', hfound', storage, ?_, network, ?_, state, ?_, hproperties⟩
  · exact hstorageField.getD StorageProfile.keeps_variation rfl hstorage
  · exact hnetworkField.getD keeps_networkVariation rfl hnetwork
  · exact hstateField.getD Variation.keeps_nullable_exact rfl hstate

theorem keeps_variation : variation.Keeps ofJson? := by
  intro v w m hvw h
  simp only [ofJson?, Option.bind_eq_bind, Option.bind_eq_some_iff] at h ⊢
  obtain ⟨found, hfound, path, hpath, name, hname, location, hlocation, properties, hproperties,
    hm⟩ := h
  obtain ⟨found', hfound', hfate⟩ := hvw.record (by decide) hfound
  simp only [List.forall_mem_cons] at hfate
  obtain ⟨hpathField, hnameField, hlocationField, hpropertiesField, -⟩ := hfate
  refine ⟨found', hfound', path, ?_, name, ?_, location, ?_, properties, ?_, hm⟩
  · exact hpathField.getD Variation.keeps_exact rfl hpath
  · exact hnameField.require Variation.keeps_exact hname
  · exact hlocationField.getD Variation.keeps_exact rfl hlocation
  · exact hpropertiesField.getD keeps_propertiesVariation rfl hproperties

theorem networkOfJson?_map_toJson (references : List Reference) :
    networkOfJson? (.ofFields [("networkInterfaces", .array (references.map Reference.toJson))]) =
      some references := by
  change Json.listOf Reference.ofJson? (.array (references.map Reference.toJson)) = some references
  exact Json.listOf_map Reference.ofJson?_toJson references

theorem propertiesOfJson?_ofFields (storage network state : Json) :
    propertiesOfJson? (.ofFields [("storageProfile", storage), ("networkProfile", network),
      ("provisioningState", state)]) = (do
        some (← StorageProfile.ofJson? storage, ← networkOfJson? network,
          ← Json.nullable Json.text? state)) := rfl

theorem ofJson?_ofFields (path name location : String) (properties : Json) :
    ofJson? (.ofFields [("id", .ofText path), ("name", .ofText name),
      ("location", .ofText location), ("properties", properties)]) = (do
        let (storage, networkInterfaces, provisioningState) ← propertiesOfJson? properties
        some { path, name, location, storage, networkInterfaces, provisioningState }) := rfl

theorem ofJson?_toJson (m : Machine) : ofJson? m.toJson = some m := by
  have hstate : Json.nullable Json.text? (.ofOption .ofText m.provisioningState) =
      some m.provisioningState := by
    cases m.provisioningState <;> rfl
  rw [toJson, ofJson?_ofFields, propertiesOfJson?_ofFields, StorageProfile.ofJson?_toJson,
    networkOfJson?_map_toJson, hstate]
  rfl

theorem numberless_toJson (m : Machine) : m.toJson.Numberless := by
  have hnetwork : (Json.ofFields [("networkInterfaces",
      .array (m.networkInterfaces.map Reference.toJson))]).Numberless := by
    refine Json.numberless_ofFields (List.forall_mem_singleton.mpr (Json.numberless_array ?_))
    exact List.forall_mem_map.mpr fun r _ => r.numberless_toJson
  refine Json.numberless_ofFields ?_
  simp only [List.forall_mem_cons]
  refine ⟨Json.numberless_ofText _, Json.numberless_ofText _, Json.numberless_ofText _,
    Json.numberless_ofFields ?_, List.forall_mem_nil _⟩
  simp only [List.forall_mem_cons]
  exact ⟨m.storage.numberless_toJson, hnetwork,
    Json.numberless_ofOption Json.numberless_ofText m.provisioningState, List.forall_mem_nil _⟩

end Machine

namespace IpConfiguration

/-- How the document of the properties of an address may vary. -/
def addressVariation : Variation :=
  Members [defaulted "publicIPAddress" .null (Optional Reference.variation)]

/-- How the document of an address may vary. -/
def variation : Variation :=
  Members [
    defaulted "name" (.ofText "") exact,
    defaulted "properties" (.ofFields [("publicIPAddress", .null)]) addressVariation]

theorem keeps_addressVariation : addressVariation.Keeps addressOfJson? := by
  intro v w address hvw h
  simp only [addressOfJson?, Option.bind_eq_bind, Option.bind_eq_some_iff] at h ⊢
  obtain ⟨found, hfound, haddress⟩ := h
  obtain ⟨found', hfound', hfate⟩ := hvw.record (by decide) hfound
  simp only [List.forall_mem_cons] at hfate
  obtain ⟨hfield, -⟩ := hfate
  exact ⟨found', hfound',
    hfield.getD (Variation.keeps_nullable_members Reference.keeps_variation) rfl haddress⟩

theorem keeps_variation : variation.Keeps ofJson? := by
  intro v w c hvw h
  simp only [ofJson?, Option.bind_eq_bind, Option.bind_eq_some_iff] at h ⊢
  obtain ⟨found, hfound, name, hname, address, haddress, hc⟩ := h
  obtain ⟨found', hfound', hfate⟩ := hvw.record (by decide) hfound
  simp only [List.forall_mem_cons] at hfate
  obtain ⟨hnameField, haddressField, -⟩ := hfate
  refine ⟨found', hfound', name, ?_, address, ?_, hc⟩
  · exact hnameField.getD Variation.keeps_exact rfl hname
  · exact haddressField.getD keeps_addressVariation rfl haddress

theorem ofJson?_toJson (c : IpConfiguration) : ofJson? c.toJson = some c := by
  obtain ⟨name, _ | address⟩ := c <;> rfl

theorem numberless_toJson (c : IpConfiguration) : c.toJson.Numberless := by
  refine Json.numberless_ofFields ?_
  simp only [List.forall_mem_cons]
  refine ⟨Json.numberless_ofText c.name, ?_, List.forall_mem_nil _⟩
  exact Json.numberless_ofFields (List.forall_mem_singleton.mpr
    (Json.numberless_ofOption Reference.numberless_toJson c.publicAddress))

end IpConfiguration

namespace NetworkCard

/-- How the document of the properties of a card may vary. -/
def propertiesVariation : Variation :=
  Members [defaulted "ipConfigurations" (.array []) (Items IpConfiguration.variation)]

/-- How the document of a card may vary. -/
def variation : Variation :=
  Members [
    defaulted "id" (.ofText "") exact,
    required "name" exact,
    defaulted "properties" (.ofFields [("ipConfigurations", .array [])]) propertiesVariation]

theorem keeps_propertiesVariation : propertiesVariation.Keeps configurationsOfJson? := by
  intro v w configurations hvw h
  simp only [configurationsOfJson?, Option.bind_eq_bind, Option.bind_eq_some_iff] at h ⊢
  obtain ⟨found, hfound, hconfigurations⟩ := h
  obtain ⟨found', hfound', hfate⟩ := hvw.record (by decide) hfound
  simp only [List.forall_mem_cons] at hfate
  obtain ⟨hfield, -⟩ := hfate
  exact ⟨found', hfound', hfield.getD (Variation.keeps_listOf IpConfiguration.keeps_variation) rfl
    hconfigurations⟩

theorem keeps_variation : variation.Keeps ofJson? := by
  intro v w n hvw h
  simp only [ofJson?, Option.bind_eq_bind, Option.bind_eq_some_iff] at h ⊢
  obtain ⟨found, hfound, path, hpath, name, hname, configurations, hconfigurations, hn⟩ := h
  obtain ⟨found', hfound', hfate⟩ := hvw.record (by decide) hfound
  simp only [List.forall_mem_cons] at hfate
  obtain ⟨hpathField, hnameField, hconfigurationsField, -⟩ := hfate
  refine ⟨found', hfound', path, ?_, name, ?_, configurations, ?_, hn⟩
  · exact hpathField.getD Variation.keeps_exact rfl hpath
  · exact hnameField.require Variation.keeps_exact hname
  · exact hconfigurationsField.getD keeps_propertiesVariation rfl hconfigurations

theorem configurationsOfJson?_map_toJson (configurations : List IpConfiguration) :
    configurationsOfJson? (.ofFields [("ipConfigurations",
      .array (configurations.map IpConfiguration.toJson))]) = some configurations := by
  change Json.listOf IpConfiguration.ofJson? (.array (configurations.map IpConfiguration.toJson)) =
    some configurations
  exact Json.listOf_map IpConfiguration.ofJson?_toJson configurations

theorem ofJson?_ofFields (path name : String) (properties : Json) :
    ofJson? (.ofFields [("id", .ofText path), ("name", .ofText name),
      ("properties", properties)]) = (do
        let configurations ← configurationsOfJson? properties
        some { path, name, configurations }) := rfl

theorem ofJson?_toJson (n : NetworkCard) : ofJson? n.toJson = some n := by
  rw [toJson, ofJson?_ofFields, configurationsOfJson?_map_toJson]
  rfl

theorem numberless_toJson (n : NetworkCard) : n.toJson.Numberless := by
  refine Json.numberless_ofFields ?_
  simp only [List.forall_mem_cons]
  refine ⟨Json.numberless_ofText n.path, Json.numberless_ofText n.name, ?_, List.forall_mem_nil _⟩
  refine Json.numberless_ofFields (List.forall_mem_singleton.mpr (Json.numberless_array ?_))
  exact List.forall_mem_map.mpr fun c _ => c.numberless_toJson

end NetworkCard

namespace StorageKeys

/-- How the document of the keys may vary. -/
def variation : Variation := Members [required "key1" exact, required "key2" exact]

theorem keeps_variation : variation.Keeps ofJson? := by
  intro v w k hvw h
  simp only [ofJson?, Option.bind_eq_bind, Option.bind_eq_some_iff] at h ⊢
  obtain ⟨found, hfound, key1, hkey1, key2, hkey2, hk⟩ := h
  obtain ⟨found', hfound', hfate⟩ := hvw.record (by decide) hfound
  simp only [List.forall_mem_cons] at hfate
  obtain ⟨hfirst, hsecond, -⟩ := hfate
  exact ⟨found', hfound', key1, hfirst.require Variation.keeps_exact hkey1,
    key2, hsecond.require Variation.keeps_exact hkey2, hk⟩

theorem ofJson?_toJson (k : StorageKeys) : ofJson? k.toJson = some k := rfl

theorem numberless_toJson (k : StorageKeys) : k.toJson.Numberless := by
  refine Json.numberless_ofFields ?_
  simp only [List.forall_mem_cons]
  exact ⟨Json.numberless_ofText k.key1, Json.numberless_ofText k.key2, List.forall_mem_nil _⟩

end StorageKeys

/-- A document is read back as what it was written for, also where its members come in another
order, others stand between them at any level, white space is added, and what is absent is left out.
-/
theorem documents_read_back :
    Machine.layout.ReadsBack Machine.toJson Machine.variation ∧
      NetworkCard.layout.ReadsBack NetworkCard.toJson NetworkCard.variation ∧
      StorageKeys.layout.ReadsBack StorageKeys.toJson StorageKeys.variation :=
  ⟨Json.Layout.readsBack_of_keeps Machine.ofJson?_toJson Machine.numberless_toJson
      Machine.keeps_variation,
    Json.Layout.readsBack_of_keeps NetworkCard.ofJson?_toJson NetworkCard.numberless_toJson
      NetworkCard.keeps_variation,
    Json.Layout.readsBack_of_keeps StorageKeys.ofJson?_toJson StorageKeys.numberless_toJson
      StorageKeys.keeps_variation⟩

namespace Machine

/-- A machine with a disk and one card, and with nothing told of it otherwise. -/
def bare : Machine :=
  { path := "", name := "vm", location := "", storage := ⟨some ⟨none, some "u"⟩⟩,
    networkInterfaces := [⟨"n"⟩], provisioningState := none }

/-- The document of the machine in another order, without what is absent, and with members of other
names. -/
def bareRetold : Json :=
  .ofFields [
    ("properties", .ofFields [
      ("networkProfile", .ofFields [("networkInterfaces", .array [
        .ofFields [("x", .bool true), ("id", .ofText "n")]])]),
      ("storageProfile", .ofFields [("osDisk", .ofFields [
        ("vhd", .ofFields [("uri", .ofText "u")])])])]),
    ("name", .ofText "vm"),
    ("zones", .array [.number "1"])]

theorem bareRetold_varies : variation bare.toJson bareRetold := by
  -- from the inner records outward, each with what became of its members
  have hreference : Reference.variation (Reference.toJson ⟨"n"⟩)
      (.ofFields [("x", .bool true), ("id", .ofText "n")]) := by
    refine @Members.object _ _ [(some "id", .ofText "n")] [(some "x", .bool true)] _
      (.keep (.head _) rfl .nil) (by simp [required]) (.swap _ _ _)
  have hnetwork : networkVariation
      (.ofFields [("networkInterfaces", .array [Reference.toJson ⟨"n"⟩])]) _ :=
    .of_kept (.keep (.head _) (.array (.cons hreference .nil)) .nil)
  have hblob : SystemDisk.blobVariation (.ofFields [("uri", .ofText "u")]) _ :=
    .of_kept (.keep (.head _) rfl .nil)
  have hdisk : SystemDisk.variation (SystemDisk.toJson ⟨none, some "u"⟩) _ :=
    .of_kept (.leaveOut (.head _) rfl (.keep (.tail _ (.head _)) (.value hblob) .nil))
  have hstorage : StorageProfile.variation bare.storage.toJson _ :=
    .of_kept (.keep (.head _) (.value hdisk) .nil)
  have hproperties : propertiesVariation (.ofFields [("storageProfile", bare.storage.toJson),
      ("networkProfile", .ofFields [("networkInterfaces", .array [Reference.toJson ⟨"n"⟩])]),
      ("provisioningState", .null)]) _ :=
    .object (.keep (.head _) hstorage (.keep (.tail _ (.head _)) hnetwork
      (.leaveOut (.tail _ (.tail _ (.head _))) rfl .nil))) (List.forall_mem_nil _) (.swap _ _ _)
  refine @Members.object _ _ _ [(some "zones", .array [.number "1"])] _
    (.leaveOut (.head _) rfl (.keep (.tail _ (.head _)) rfl
      (.leaveOut (.tail _ (.tail _ (.head _))) rfl
        (.keep (.tail _ (.tail _ (.tail _ (.head _)))) hproperties .nil))))
    (by simp [required, defaulted]) (.swap _ _ _)

/-- A text of that document. -/
def bareText : String :=
  "\n \x7b\"properties\":\x7b\"networkProfile\":\x7b\"networkInterfaces\":" ++
    "[\x7b\"x\":true,\"id\":\"n\"\x7d]\x7d,\"storageProfile\":\x7b\"osDisk\":" ++
    "\x7b\"vhd\":\x7b\"uri\":\"u\"\x7d\x7d\x7d\x7d,\"name\":\"vm\",\"zones\":[1]\x7d"

theorem bareRetold_isWrittenAs : bareRetold.IsWrittenAs bareText := by
  have hone : Json.IsNumeral "1".toList :=
    @Json.IsNumeral.parts [] ['1'] [] [] (.inl rfl)
      (.digits (by decide) ⟨List.cons_ne_nil _ _, List.forall_mem_singleton.mpr rfl⟩)
      .absent .absent
  have hwrite : bareRetold.IsWrittenAs bareRetold.write := by
    -- the one numeral is that of the zone
    refine Json.isWrittenAs_write fun n hn => ?_
    have hnumber : n = "1" := by
      simpa [bareRetold, Json.ofFields, Json.ofText, Json.tokens, Json.memberTokens,
        Json.itemTokens] using hn
    exact hnumber ▸ hone
  have htext : bareText = String.ofList ('\n' :: ' ' :: Json.render bareRetold) := by
    decide +kernel
  rw [Json.IsWrittenAs, Json.write, String.toList_ofList] at hwrite
  rw [Json.IsWrittenAs, htext, String.toList_ofList]
  exact .space rfl (.space rfl hwrite)

end Machine

/-- The machine is read back from that text. -/
theorem documents_read_back_bare : Machine.layout.read Machine.bareText = .ok Machine.bare :=
  (documents_read_back.1 Machine.bare).2 Machine.bareRetold Machine.bareText
    Machine.bareRetold_varies Machine.bareRetold_isWrittenAs

end Decommission
