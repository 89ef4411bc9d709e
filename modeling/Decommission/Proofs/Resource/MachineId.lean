import Decommission.Proofs.Json.Documents
import Decommission.Resource.MachineId
import Mathlib.Tactic.SplitIfs

/-!
The ids of machines and the texts that write them: every text writes one id at most, every id is
written by one text, and a text that writes none is refused with the reason.
-/
namespace Decommission.MachineId

section Parts

variable {region name : String} {id : MachineId} {e : IdError}

/-- Two parts make the id that has them, if there is one. -/
theorem ofParts_eq_ok_iff : ofParts region name = .ok id ↔ id.region = region ∧ id.name = name := by
  constructor
  · intro h
    rw [ofParts] at h
    split_ifs at h
    obtain rfl := Except.ok.inj h
    exact ⟨rfl, rfl⟩
  · rintro ⟨rfl, rfl⟩
    rw [ofParts, dif_pos id.region_ok, dif_pos id.name_ok]

theorem exists_ofParts_iff :
    (∃ id, ofParts region name = .ok id) ↔ IsIdPart region ∧ IsIdPart name := by
  constructor
  · rintro ⟨id, h⟩
    obtain ⟨rfl, rfl⟩ := ofParts_eq_ok_iff.mp h
    exact ⟨id.region_ok, id.name_ok⟩
  · rintro ⟨hregion, hname⟩
    exact ⟨⟨region, name, hregion, hname⟩, ofParts_eq_ok_iff.mpr ⟨rfl, rfl⟩⟩

/-- Of parts without a separator only an empty one is refused, and the region before the name. -/
theorem ofParts_eq_error_iff (hregion : '/' ∉ region.toList) (hname : '/' ∉ name.toList) :
    ofParts region name = .error e ↔
      (region = "" ∧ e = .empty .region) ∨ (region ≠ "" ∧ name = "" ∧ e = .empty .name) := by
  have hpart {s : String} (hs : '/' ∉ s.toList) : IsIdPart s ↔ s ≠ "" := and_iff_left hs
  rw [ofParts]
  simp only [hpart hregion, hpart hname]
  by_cases hr : region = ""
  · simp [hr, partError, eq_comm]
  by_cases hn : name = ""
  · simp [hr, hn, partError, eq_comm]
  · simp [hr, hn]

end Parts

/-- A character stands once in a text that it cuts into two without it. -/
theorem count_eq_one_iff {sep : Char} {cs : List Char} :
    cs.count sep = 1 ↔
      ∃ before after, sep ∉ before ∧ sep ∉ after ∧ cs = before ++ sep :: after := by
  constructor
  · intro h
    have hmem : sep ∈ cs := List.count_pos_iff.mp (by omega)
    obtain ⟨before, after, rfl, hbefore⟩ := List.eq_append_cons_of_mem hmem
    rw [List.count_append, List.count_cons_self] at h
    exact ⟨before, after, hbefore, List.count_eq_zero.mp (by omega), rfl⟩
  · rintro ⟨before, after, hbefore, hafter, rfl⟩
    rw [List.count_append, List.count_cons_self, List.count_eq_zero.mpr hbefore,
      List.count_eq_zero.mpr hafter]

section Decoding

variable {before after : List Char} {text : String} {id : MachineId} {e : IdError}

/-- A text with one separator writes the id of the two parts around it. -/
theorem decode_of_toList_eq (hbefore : '/' ∉ before) (hafter : '/' ∉ after)
    (htext : text.toList = before ++ '/' :: after) :
    decode text = ofParts (String.ofList before) (String.ofList after) := by
  have hcut : Text.cutFirst '/' text.toList = some (before, after) :=
    Text.cutFirst_eq_some_iff.mpr ⟨hbefore, htext⟩
  rw [decode, hcut]
  exact if_neg hafter

theorem decode_of_count_ne_one (h : text.toList.count '/' ≠ 1) :
    decode text = .error (.malformed text) := by
  rw [decode]
  cases hcut : Text.cutFirst '/' text.toList with
  | none => rfl
  | some parts =>
    obtain ⟨before, after⟩ := parts
    obtain ⟨hbefore, htext⟩ := Text.cutFirst_eq_some_iff.mp hcut
    -- the text is cut at its first separator, so a further one is behind that
    have hafter : '/' ∈ after := by
      by_contra hnot
      exact h (count_eq_one_iff.mpr ⟨before, after, hbefore, hnot, htext⟩)
    exact if_pos hafter

theorem toList_encode (id : MachineId) :
    id.encode.toList = id.region.toList ++ '/' :: id.name.toList := by
  rw [encode, String.toList_append, String.toList_append, List.append_assoc]
  rfl

theorem decode_encode (id : MachineId) : decode id.encode = .ok id := by
  rw [decode_of_toList_eq id.region_ok.2 id.name_ok.2 id.toList_encode, String.ofList_toList,
    String.ofList_toList]
  exact ofParts_eq_ok_iff.mpr ⟨rfl, rfl⟩

theorem decode_eq_ok_iff : decode text = .ok id ↔ id.encode = text := by
  constructor
  · intro h
    by_cases hcount : text.toList.count '/' = 1
    · obtain ⟨before, after, hbefore, hafter, htext⟩ := count_eq_one_iff.mp hcount
      rw [decode_of_toList_eq hbefore hafter htext] at h
      obtain ⟨hregion, hname⟩ := ofParts_eq_ok_iff.mp h
      apply String.toList_injective
      rw [toList_encode, hregion, hname, String.toList_ofList, String.toList_ofList, htext]
    · rw [decode_of_count_ne_one hcount] at h
      cases h
  · rintro rfl
    exact id.decode_encode

theorem head?_of_toList_eq (hbefore : '/' ∉ before) (htext : text.toList = before ++ '/' :: after) :
    text.toList.head? = some '/' ↔ before = [] := by
  rw [htext]
  cases before with
  | nil => simp
  | cons c before =>
    have hc : c ≠ '/' := fun heq => hbefore (heq ▸ List.mem_cons_self)
    simp [hc]

theorem getLast?_of_toList_eq (hafter : '/' ∉ after)
    (htext : text.toList = before ++ '/' :: after) :
    text.toList.getLast? = some '/' ↔ after = [] := by
  rw [htext, List.getLast?_append_cons]
  -- the last character is the separator itself, or the last one behind it
  rcases List.eq_nil_or_concat after with rfl | ⟨init, c, rfl⟩
  · simp
  · rw [List.concat_eq_append] at hafter ⊢
    have hc : c ≠ '/' := fun heq => hafter (heq ▸ List.mem_append_right init List.mem_cons_self)
    rw [← List.cons_append, List.getLast?_concat]
    simp [hc]

theorem exists_decode_iff :
    (∃ id, decode text = .ok id) ↔ text.toList.count '/' = 1 ∧
      text.toList.head? ≠ some '/' ∧ text.toList.getLast? ≠ some '/' := by
  by_cases hcount : text.toList.count '/' = 1
  · obtain ⟨before, after, hbefore, hafter, htext⟩ := count_eq_one_iff.mp hcount
    rw [decode_of_toList_eq hbefore hafter htext, exists_ofParts_iff]
    simp [IsIdPart, hcount, hbefore, hafter, head?_of_toList_eq hbefore htext,
      getLast?_of_toList_eq hafter htext]
  · simp [decode_of_count_ne_one hcount, hcount]

/-- A text is refused as malformed unless it has exactly one separator, and else for the first part
of it that is empty. -/
theorem decode_eq_error_iff :
    decode text = .error e ↔
      (text.toList.count '/' ≠ 1 ∧ e = .malformed text) ∨
      (text.toList.count '/' = 1 ∧ text.toList.head? = some '/' ∧ e = .empty .region) ∨
      (text.toList.count '/' = 1 ∧ text.toList.head? ≠ some '/' ∧
        text.toList.getLast? = some '/' ∧ e = .empty .name) := by
  by_cases hcount : text.toList.count '/' = 1
  -- the text is cut into two parts without separators, of which one is empty
  · obtain ⟨before, after, hbefore, hafter, htext⟩ := count_eq_one_iff.mp hcount
    have hregion : '/' ∉ (String.ofList before).toList := by rwa [String.toList_ofList]
    have hname : '/' ∉ (String.ofList after).toList := by rwa [String.toList_ofList]
    rw [decode_of_toList_eq hbefore hafter htext, ofParts_eq_error_iff hregion hname]
    simp [hcount, head?_of_toList_eq hbefore htext, getLast?_of_toList_eq hafter htext]
  · rw [decode_of_count_ne_one hcount]
    simp [hcount, eq_comm]

end Decoding

theorem read_toJson (id : MachineId) : (Json.read? id.toJson.write).bind ofJson? = some id := by
  have hread : Json.read? id.toJson.write = some id.toJson :=
    Json.read?_of_isWrittenAs (Json.numberless_ofText id.encode).isWrittenAs_write
  have hid : ofJson? id.toJson = (decode id.encode).toOption := rfl
  rw [hread, Option.bind_some, hid, decode_encode]
  rfl

/-- The texts that write ids and the ids are in one-to-one correspondence, and so are the pairs of
parts that make ids and the ids. A text that writes none is told apart by the separators in it. -/
theorem slash_encoding_bijective (text region name : String) (id : MachineId) (e : IdError) :
    ((∃ id, decode text = .ok id) ↔ text.toList.count '/' = 1 ∧
      text.toList.head? ≠ some '/' ∧ text.toList.getLast? ≠ some '/') ∧
    (decode text = .ok id ↔ id.encode = text) ∧
    toString id = id.encode ∧
    ((∃ id, ofParts region name = .ok id) ↔
      (region ≠ "" ∧ '/' ∉ region.toList) ∧ name ≠ "" ∧ '/' ∉ name.toList) ∧
    (ofParts region name = .ok id ↔ id.region = region ∧ id.name = name) ∧
    decode id.encode = .ok id ∧
    (Json.read? id.toJson.write).bind ofJson? = some id ∧
    (decode text = .error e ↔
      (text.toList.count '/' ≠ 1 ∧ e = .malformed text) ∨
      (text.toList.count '/' = 1 ∧ text.toList.head? = some '/' ∧ e = .empty .region) ∨
      (text.toList.count '/' = 1 ∧ text.toList.head? ≠ some '/' ∧
        text.toList.getLast? = some '/' ∧ e = .empty .name)) :=
  ⟨exists_decode_iff, decode_eq_ok_iff, rfl, exists_ofParts_iff, ofParts_eq_ok_iff,
    decode_encode id, read_toJson id, decode_eq_error_iff⟩

end Decommission.MachineId
