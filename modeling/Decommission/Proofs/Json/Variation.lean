import Decommission.Json.Record
import Mathlib.Data.List.Forall2
import Mathlib.Data.List.Nodup
import Mathlib.Data.List.Perm.Basic
import Mathlib.Tactic.SplitIfs

/-!
In how far the same value may be written in different ways: the members of an object may come in
another order, members of other names may come between them, and some members may be left out. The
reading of a record does not tell such documents apart.
-/
namespace Decommission.Json

/-- Which values may be written in place of a value. -/
abbrev Variation : Type := Json → Json → Prop

/-- A field of a record: the value for which it may be left out, if there is one, and how its values
may vary. -/
structure Field where
  name : String
  absent : Option Json
  varies : Variation

/-- A field that is always written. -/
def Field.required (name : String) (varies : Variation) : Field := ⟨name, none, varies⟩

/-- A field that may be left out where it holds `absent`. -/
def Field.defaulted (name : String) (absent : Json) (varies : Variation) : Field :=
  ⟨name, some absent, varies⟩

namespace Variation

/-- Nothing else is written in place of the value. -/
def exact : Variation := fun v w => w = v

/-- `null` stays, and other values vary. -/
inductive Optional (R : Variation) : Variation where
  | null : Optional R .null .null
  | value {v w : Json} (h : R v w) : Optional R v w

/-- The items of an array vary. -/
inductive Items (R : Variation) : Variation where
  | array {vs ws : List Json} (h : List.Forall₂ R vs ws) : Items R (.array vs) (.array ws)

/-- What is kept of the members of a record: each with a value that may vary, except for those that
are left out. -/
inductive Kept (fields : List Field) :
    List (Option String × Json) → List (Option String × Json) → Prop where
  | nil : Kept fields [] []
  | keep {f : Field} {v w : Json} {members kept : List (Option String × Json)} (hf : f ∈ fields)
    (hv : f.varies v w) (h : Kept fields members kept) :
    Kept fields ((some f.name, v) :: members) ((some f.name, w) :: kept)
  | leaveOut {f : Field} {v : Json} {members kept : List (Option String × Json)} (hf : f ∈ fields)
    (hv : f.absent = some v) (h : Kept fields members kept) :
    Kept fields ((some f.name, v) :: members) kept

/-- The kept members of a record and any others of other names, in any order. -/
inductive Members (fields : List Field) : Variation where
  | object {members kept added varied : List (Option String × Json)}
    (hkept : Kept fields members kept)
    (hadded : ∀ p ∈ added, ∃ key, p.1 = some key ∧ key ∉ fields.map Field.name)
    (hvaried : varied.Perm (kept ++ added)) : Members fields (.object members) (.object varied)

/-- What is read from a value is read from all that may be written in its place. -/
def Keeps {α : Type} (R : Variation) (decode : Json → Option α) : Prop :=
  ∀ ⦃v w : Json⦄ ⦃a : α⦄, R v w → decode v = some a → decode w = some a

end Variation

/-- What comes of a field: it was not there, its value varies, or it is left out. -/
inductive Field.Fate (f : Field) : Option Json → Option Json → Prop where
  | missing : Fate f none none
  | kept {v w : Json} (h : f.varies v w) : Fate f (some v) (some w)
  | leftOut {v : Json} (h : f.absent = some v) : Fate f (some v) none

section KnownFields

variable {names : List String} {members : List (Option String × Json)}
  {fields : List (String × Json)}

/-- The member as a field, if it is one of these names. -/
def knownField? (names : List String) (p : Option String × Json) : Option (String × Json) :=
  p.1.bind fun key => if key ∈ names then some (key, p.2) else none

/-- The members of these names, as fields. -/
def known (names : List String) (members : List (Option String × Json)) : List (String × Json) :=
  members.filterMap (knownField? names)

theorem known_cons_of_mem {key : String} {value : Json} (h : key ∈ names) :
    known names ((some key, value) :: members) = (key, value) :: known names members := by
  rw [known, List.filterMap_cons_some]
  · rfl
  · rw [knownField?, Option.bind_some, if_pos h]

theorem known_cons_of_not_mem {key : String} {value : Json} (h : key ∉ names) :
    known names ((some key, value) :: members) = known names members := by
  rw [known, List.filterMap_cons_none]
  · rfl
  · rw [knownField?, Option.bind_some, if_neg h]

theorem any_key_iff {key : String} :
    (fields.any fun p => p.1 == key) = true ↔ key ∈ fields.map Prod.fst := by
  simp

/-- The fields are the members of known names, and none of them stands twice. -/
theorem of_knownFields (h : knownFields names members = some fields) :
    fields = known names members ∧ (fields.map Prod.fst).Nodup := by
  induction members generalizing fields with
  | nil =>
    obtain rfl := Option.some.inj h
    exact ⟨rfl, List.nodup_nil⟩
  | cons p members ih =>
    obtain ⟨_ | key, value⟩ := p
    · cases h
    rw [knownFields] at h
    cases hrest : knownFields names members with
    | none =>
      rw [hrest] at h
      cases h
    | some rest =>
      obtain ⟨hfields, hnodup⟩ := ih hrest
      simp only [hrest] at h
      split_ifs at h with hkey htwice
      · obtain rfl := Option.some.inj h
        rw [known_cons_of_mem hkey, ← hfields]
        exact ⟨rfl, List.nodup_cons.mpr ⟨fun hmem => htwice (any_key_iff.mpr hmem), hnodup⟩⟩
      · obtain rfl := Option.some.inj h
        rw [known_cons_of_not_mem hkey]
        exact ⟨hfields, hnodup⟩

theorem knownFields_eq (hkeys : ∀ p ∈ members, ∃ key, p.1 = some key)
    (hnodup : ((known names members).map Prod.fst).Nodup) :
    knownFields names members = some (known names members) := by
  induction members with
  | nil => rfl
  | cons p members ih =>
    obtain ⟨key, hkey⟩ := hkeys p List.mem_cons_self
    obtain ⟨_, value⟩ := p
    obtain rfl := hkey
    have hrest := ih fun q hq => hkeys q (List.mem_cons_of_mem _ hq)
    by_cases hknown : key ∈ names
    · rw [known_cons_of_mem hknown] at hnodup ⊢
      obtain ⟨hfirst, hnodup⟩ := List.nodup_cons.mp hnodup
      rw [knownFields, hrest hnodup]
      simp only [if_pos hknown]
      rw [if_neg fun htwice => hfirst (any_key_iff.mp htwice)]
    · rw [known_cons_of_not_mem hknown] at hnodup ⊢
      rw [knownFields, hrest hnodup]
      simp only [if_neg hknown]

end KnownFields

section Lookup

variable {l l' : List (String × Json)} {key : String} {v : Json}

theorem lookup_eq_some_iff (h : (l.map Prod.fst).Nodup) :
    l.lookup key = some v ↔ (key, v) ∈ l := by
  induction l with
  | nil => simp
  | cons p l ih =>
    obtain ⟨hp, hl⟩ := List.nodup_cons.mp h
    rw [List.lookup_cons, List.mem_cons]
    cases hkey : key == p.1 with
    | true =>
      obtain rfl : key = p.1 := eq_of_beq hkey
      have hother : (p.1, v) ∉ l := fun hmem => hp (List.mem_map.mpr ⟨_, hmem, rfl⟩)
      simp [hother, Prod.ext_iff, eq_comm]
    | false =>
      have hne : key ≠ p.1 := by simpa using hkey
      simp [ih hl, Prod.ext_iff, hne]

/-- The order of fields of different names does not matter. -/
theorem lookup_eq_of_perm (hperm : l.Perm l') (h : (l.map Prod.fst).Nodup) :
    l.lookup key = l'.lookup key := by
  have h' : (l'.map Prod.fst).Nodup := (hperm.map Prod.fst).nodup_iff.mp h
  ext v
  rw [lookup_eq_some_iff h, lookup_eq_some_iff h', hperm.mem_iff]

end Lookup

namespace Variation

variable {fields : List Field} {members kept added varied : List (Option String × Json)}

theorem Kept.exists_key (h : Kept fields members kept) :
    ∀ p ∈ kept, ∃ key, p.1 = some key := by
  induction h with
  | nil => simp
  | keep _ _ _ ih => exact List.forall_mem_cons.mpr ⟨⟨_, rfl⟩, ih⟩
  | leaveOut _ _ _ ih => exact ih

/-- No name comes up that the record did not have before. -/
theorem Kept.sublist (h : Kept fields members kept) :
    ((known (fields.map Field.name) kept).map Prod.fst).Sublist
      ((known (fields.map Field.name) members).map Prod.fst) := by
  induction h with
  | nil => exact List.Sublist.refl _
  | keep hf _ _ ih =>
    have hname := List.mem_map_of_mem (f := Field.name) hf
    rw [known_cons_of_mem hname, known_cons_of_mem hname]
    exact ih.cons_cons _
  | leaveOut hf _ _ ih =>
    rw [known_cons_of_mem (List.mem_map_of_mem hf)]
    exact ih.cons _

/-- Of each field the kept members have what came of it. -/
theorem Kept.fate (hnames : (fields.map Field.name).Nodup) (h : Kept fields members kept)
    (hnodup : ((known (fields.map Field.name) members).map Prod.fst).Nodup) {f : Field}
    (hf : f ∈ fields) :
    f.Fate ((known (fields.map Field.name) members).lookup f.name)
      ((known (fields.map Field.name) kept).lookup f.name) := by
  induction h with
  | nil => exact .missing
  | @keep g v w members kept hg hv h ih =>
    have hname : g.name ∈ fields.map Field.name := List.mem_map_of_mem hg
    rw [known_cons_of_mem hname] at hnodup
    rw [known_cons_of_mem hname, known_cons_of_mem hname, List.lookup_cons, List.lookup_cons]
    cases hsame : f.name == g.name with
    | true =>
      obtain rfl : f = g := List.inj_on_of_nodup_map hnames hf hg (eq_of_beq hsame)
      exact .kept hv
    | false => exact ih (List.nodup_cons.mp hnodup).2
  | @leaveOut g v members kept hg hv h ih =>
    have hname : g.name ∈ fields.map Field.name := List.mem_map_of_mem hg
    rw [known_cons_of_mem hname] at hnodup
    rw [known_cons_of_mem hname, List.lookup_cons]
    obtain ⟨hfirst, hnodup⟩ := List.nodup_cons.mp hnodup
    cases hsame : f.name == g.name with
    | true =>
      obtain rfl : f = g := List.inj_on_of_nodup_map hnames hf hg (eq_of_beq hsame)
      -- the name does not come up among the others
      have hmissing : (known (fields.map Field.name) kept).lookup f.name = none := by
        rw [List.lookup_eq_none_iff]
        intro p hp
        have hmem := h.sublist.subset (List.mem_map_of_mem (f := Prod.fst) hp)
        rw [bne_iff_ne]
        intro heq
        exact hfirst (heq ▸ hmem)
      rw [hmissing]
      exact .leftOut hv
    | false => exact ih hnodup

/-- What is left out is all that differs. -/
theorem Members.of_kept (h : Kept fields members kept) :
    Members fields (.object members) (.object kept) := by
  refine .object h (List.forall_mem_nil _) ?_
  rw [List.append_nil]

/-- The added members are no fields of the record. -/
theorem known_perm_of_added
    (hadded : ∀ p ∈ added, ∃ key, p.1 = some key ∧ key ∉ fields.map Field.name)
    (hvaried : varied.Perm (kept ++ added)) :
    (known (fields.map Field.name) varied).Perm (known (fields.map Field.name) kept) := by
  have hnone : known (fields.map Field.name) added = [] := by
    rw [known, List.filterMap_eq_nil_iff]
    intro p hp
    obtain ⟨key, hkey, hother⟩ := hadded p hp
    rw [knownField?, hkey, Option.bind_some, if_neg hother]
  have hperm := hvaried.filterMap (knownField? (fields.map Field.name))
  rw [List.filterMap_append] at hperm
  have hsplit : (known (fields.map Field.name) kept ++ known (fields.map Field.name) added) =
      known (fields.map Field.name) kept := by
    rw [hnone, List.append_nil]
  rw [← hsplit]
  exact hperm

/-- From all that may be written in place of a record a record is read, each field of which has one
of its fates. -/
theorem Members.record {v w : Json} {r : Record} (hnames : (fields.map Field.name).Nodup)
    (h : Members fields v w) (hr : Record.of? (fields.map Field.name) v = some r) :
    ∃ r', Record.of? (fields.map Field.name) w = some r' ∧
      ∀ f ∈ fields, f.Fate (r.get? f.name) (r'.get? f.name) := by
  cases h with
  | @object members kept added varied hkept hadded hvaried =>
    obtain ⟨found, hfound, rfl⟩ := Option.map_eq_some_iff.mp hr
    obtain ⟨rfl, hnodup⟩ := of_knownFields hfound
    -- the known fields are those that were kept, and none of them stands twice
    have hperm := known_perm_of_added hadded hvaried
    have hnodupKept := hkept.sublist.nodup hnodup
    have hnodupVaried : ((known (fields.map Field.name) varied).map Prod.fst).Nodup :=
      (hperm.map Prod.fst).nodup_iff.mpr hnodupKept
    have hkeys : ∀ p ∈ varied, ∃ key, p.1 = some key := by
      intro p hp
      rcases List.mem_append.mp (hvaried.mem_iff.mp hp) with hp | hp
      · exact hkept.exists_key p hp
      · obtain ⟨key, hkey, -⟩ := hadded p hp
        exact ⟨key, hkey⟩
    refine ⟨⟨true, known (fields.map Field.name) varied⟩, ?_, ?_⟩
    · rw [Record.of?, knownFields_eq hkeys hnodupVaried, Option.map_some]
    · intro f hf
      rw [Record.get?, Record.get?, lookup_eq_of_perm hperm hnodupVaried]
      exact hkept.fate hnames hnodup hf

end Variation

section Fields

variable {α : Type} {name : String} {R : Variation} {r r' : Record} {decode : Json → Option α}
  {absent a : α}

theorem Field.Fate.require (h : (Field.required name R).Fate (r.get? name) (r'.get? name))
    (hkeeps : R.Keeps decode) (hr : r.require name decode = some a) :
    r'.require name decode = some a := by
  rw [Record.require] at hr ⊢
  generalize r.get? name = v? at h hr
  generalize r'.get? name = w? at h ⊢
  cases h with
  | missing => exact hr
  | kept hv => exact hkeeps hv hr
  | leftOut hv => cases hv

/-- A field is read as before if its default is read from what it may be left out for. -/
theorem Field.Fate.getD {v : Json}
    (h : (Field.defaulted name v R).Fate (r.get? name) (r'.get? name)) (hkeeps : R.Keeps decode)
    (habsent : decode v = some absent) (hr : r.getD name decode absent = some a) :
    r'.getD name decode absent = some a := by
  rw [Record.getD] at hr ⊢
  generalize r.get? name = v? at h hr
  generalize r'.get? name = w? at h ⊢
  cases h with
  | missing => exact hr
  | kept hv => exact hkeeps hv hr
  | leftOut hv =>
    obtain rfl := Option.some.inj hv
    exact habsent.symm.trans hr

end Fields

namespace Variation

variable {α : Type} {R : Variation} {decode : Json → Option α}

theorem keeps_exact : exact.Keeps decode := by
  rintro v w a rfl h
  exact h

/-- A variation that leaves `null` apart from the other values. -/
def SparesNull (R : Variation) : Prop := ∀ ⦃v w : Json⦄, R v w → (v = .null ↔ w = .null)

theorem sparesNull_exact : exact.SparesNull := by
  rintro v w rfl
  exact Iff.rfl

theorem sparesNull_members {fields : List Field} : (Members fields).SparesNull := by
  rintro v w ⟨hkept, hadded, hvaried⟩
  simp

theorem nullable_of_ne {v : Json} (hv : v ≠ .null) :
    nullable decode v = (decode v).map some := by
  cases v with
  | null => exact absurd rfl hv
  | _ => rfl

theorem keeps_nullable (hnull : R.SparesNull) (h : R.Keeps decode) :
    (Optional R).Keeps (nullable decode) := by
  intro v w a hvw hv
  cases hvw with
  | null => exact hv
  | value hR =>
    -- a value that is not `null` must not turn into `null`, which is read as no value
    by_cases hw : w = .null
    · obtain rfl : v = .null := (hnull hR).mpr hw
      rw [hw]
      exact hv
    · rw [nullable_of_ne fun heq => hw ((hnull hR).mp heq)] at hv
      obtain ⟨b, hb, rfl⟩ := Option.map_eq_some_iff.mp hv
      rw [nullable_of_ne hw, h hR hb, Option.map_some]

theorem keeps_nullable_exact : (Optional exact).Keeps (nullable decode) :=
  keeps_nullable sparesNull_exact keeps_exact

theorem keeps_nullable_members {fields : List Field} (h : (Members fields).Keeps decode) :
    (Optional (Members fields)).Keeps (nullable decode) :=
  keeps_nullable sparesNull_members h

theorem keeps_listOf (h : R.Keeps decode) : (Items R).Keeps (listOf decode) := by
  rintro v w a ⟨hitems⟩ hv
  change List.mapM decode _ = some a at hv
  change List.mapM decode _ = some a
  induction hitems generalizing a with
  | nil => exact hv
  | cons hR _ ih =>
    rw [List.mapM_cons] at hv ⊢
    obtain ⟨b, hb, hv⟩ := Option.bind_eq_some_iff.mp hv
    obtain ⟨bs, hbs, hv⟩ := Option.bind_eq_some_iff.mp hv
    rw [h hR hb, ih hbs]
    exact hv

end Variation

theorem listOf_map {α : Type} {encode : α → Json} {decode : Json → Option α}
    (h : ∀ a, decode (encode a) = some a) (l : List α) :
    listOf decode (.array (l.map encode)) = some l := by
  change List.mapM decode (l.map encode) = some l
  induction l with
  | nil => rfl
  | cons a l ih =>
    rw [List.map_cons, List.mapM_cons, h a, ih]
    rfl

end Decommission.Json
