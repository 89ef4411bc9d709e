import Decommission.Blob.Signature
import Decommission.Proofs.Text.Joined
import Decommission.Proofs.Text.Numerals
import Mathlib.Data.Multiset.Defs
import Mathlib.Tactic.SplitIfs

/-!
The text that is signed tells the request apart from all others, but for what the service does not
tell apart either: the order of headers and of query pairs, the ASCII case of their names, blanks
around headers, and headers that are not the service's own.
-/
namespace Decommission.Blob

/-- The headers of the service, in the order in which they were given. -/
def coveredHeaders (headers : List (String × String)) : List (String × String) :=
  (headers.map fun p => (lowerAscii (Text.trim p.1), Text.trim p.2)).filter
    fun p => "x-ms-".toList.isPrefixOf p.1.toList

/-- The query pairs, in the order in which they were given. -/
def coveredQuery (query : List (String × String)) : List (String × String) :=
  query.map fun p => (lowerAscii p.1, p.2)

/-- Two requests agree in all that a signature covers. -/
structure SameContent (r s : Signable) : Prop where
  method : upperAscii r.method = upperAscii s.method
  contentLength : r.contentLength = s.contentLength
  path : r.path = s.path
  headers : (coveredHeaders r.headers : Multiset (String × String)) = coveredHeaders s.headers
  query : (coveredQuery r.query : Multiset (String × String)) = coveredQuery s.query

/-- No part of the request holds a character that divides the parts from each other. -/
structure IsDivisible (r : Signable) : Prop where
  method : '\n' ∉ r.method.toList
  path : '\n' ∉ r.path.toList
  headers : ∀ p ∈ r.headers, "x-ms-".toList.isPrefixOf (lowerAscii (Text.trim p.1)).toList →
    ':' ∉ (Text.trim p.1).toList ∧ '\n' ∉ (Text.trim p.1).toList ∧ '\n' ∉ (Text.trim p.2).toList
  query : ∀ p ∈ r.query,
    ':' ∉ p.1.toList ∧ '\n' ∉ p.1.toList ∧ ',' ∉ p.2.toList ∧ '\n' ∉ p.2.toList

section Order

variable {p q t : String × String} {ps qs : List (String × String)}

theorem pairLe_iff : pairLe p q = true ↔ p.1 < q.1 ∨ p.1 = q.1 ∧ p.2 ≤ q.2 := by
  simp only [pairLe, Bool.or_eq_true, Bool.and_eq_true, decide_eq_true_eq, beq_iff_eq,
    Bool.not_eq_true', decide_eq_false_iff_not, String.not_lt]

theorem pairLe_total (p q : String × String) : (pairLe p q || pairLe q p) = true := by
  rw [Bool.or_eq_true, pairLe_iff, pairLe_iff]
  by_cases hpq : p.1 < q.1
  · exact .inl (.inl hpq)
  by_cases hqp : q.1 < p.1
  · exact .inr (.inl hqp)
  -- the names are the same, and the values decide
  have hname : p.1 = q.1 := String.le_antisymm (String.not_lt.mp hqp) (String.not_lt.mp hpq)
  rcases String.le_total p.2 q.2 with h | h
  · exact .inl (.inr ⟨hname, h⟩)
  · exact .inr (.inr ⟨hname.symm, h⟩)

theorem pairLe_trans (p q t : String × String) (hpq : pairLe p q = true)
    (hqt : pairLe q t = true) : pairLe p t = true := by
  rw [pairLe_iff] at hpq hqt ⊢
  rcases hpq with hpq | ⟨hpq, hpq'⟩
  · rcases hqt with hqt | ⟨hqt, -⟩
    · exact .inl (String.lt_trans hpq hqt)
    · exact .inl (hqt ▸ hpq)
  · rcases hqt with hqt | ⟨hqt, hqt'⟩
    · exact .inl (hpq ▸ hqt)
    · exact .inr ⟨hpq.trans hqt, String.le_trans hpq' hqt'⟩

theorem pairLe_antisymm (hpq : pairLe p q = true) (hqp : pairLe q p = true) : p = q := by
  rw [pairLe_iff] at hpq hqp
  rcases hpq with hpq | ⟨hname, hpq⟩
  · rcases hqp with hqp | ⟨hqp, -⟩
    · exact absurd hqp (String.lt_asymm hpq)
    · exact absurd (hqp ▸ hpq) (String.lt_irrefl _)
  · rcases hqp with hqp | ⟨-, hqp⟩
    · exact absurd (hname ▸ hqp) (String.lt_irrefl _)
    · exact Prod.ext hname (String.le_antisymm hpq hqp)

/-- Pairs are in one order only, whatever order they are given in. -/
theorem sortPairs_eq_iff : sortPairs ps = sortPairs qs ↔ ps.Perm qs := by
  have hsorted (l : List (String × String)) :
      (sortPairs l).Pairwise fun p q => pairLe p q = true :=
    List.pairwise_mergeSort pairLe_trans pairLe_total l
  have hperm (l : List (String × String)) : (sortPairs l).Perm l := List.mergeSort_perm l pairLe
  constructor
  · intro h
    exact (hperm ps).symm.trans (h ▸ hperm qs)
  · intro h
    have hsame : (sortPairs ps).Perm (sortPairs qs) := (hperm ps).trans (h.trans (hperm qs).symm)
    exact hsame.eq_of_pairwise (fun _ _ _ _ => pairLe_antisymm) (hsorted ps) (hsorted qs)

end Order

section Groups

variable {ps : List (String × String)}

/-- The pairs of which groups are made. -/
def ungroup (groups : List (String × List String)) : List (String × String) :=
  groups.flatMap fun g => g.2.map fun value => (g.1, value)

/-- No pair is lost where neighbours are put together, and none is added. -/
theorem ungroup_groupByName (ps : List (String × String)) : ungroup (groupByName ps) = ps := by
  induction ps with
  | nil => rfl
  | cons p ps ih =>
    obtain ⟨name, value⟩ := p
    rw [groupByName]
    cases hgroups : groupByName ps with
    | nil =>
      rw [hgroups] at ih
      rw [← ih]
      rfl
    | cons g groups =>
      rw [hgroups] at ih
      obtain ⟨other, values⟩ := g
      simp only
      split_ifs with hname
      · rw [hname, ← ih]
        rfl
      · rw [← ih]
        rfl

theorem values_ne_nil {g : String × List String} (hg : g ∈ groupByName ps) : g.2 ≠ [] := by
  induction ps generalizing g with
  | nil => cases hg
  | cons p ps ih =>
    obtain ⟨name, value⟩ := p
    rw [groupByName] at hg
    cases hgroups : groupByName ps with
    | nil =>
      rw [hgroups, List.mem_singleton] at hg
      rw [hg]
      exact List.cons_ne_nil _ _
    | cons first groups =>
      rw [hgroups] at hg ih
      simp only at hg
      split_ifs at hg with hname
      · rcases List.mem_cons.mp hg with rfl | hg
        · exact List.cons_ne_nil _ _
        · exact ih (List.mem_cons_of_mem _ hg)
      · rcases List.mem_cons.mp hg with rfl | hg
        · exact List.cons_ne_nil _ _
        · exact ih hg

theorem mem_of_mem_ungroup {g : String × List String} (hg : g ∈ groupByName ps) {value : String}
    (hvalue : value ∈ g.2) : (g.1, value) ∈ ps := by
  rw [← ungroup_groupByName ps]
  exact List.mem_flatMap.mpr ⟨g, hg, List.mem_map_of_mem hvalue⟩

end Groups

section Case

variable {c sep : Char}

/-- Only letters come of letters. -/
theorem eq_of_toUpper_eq (hsep : sep.isUpper = false) (h : c.toUpper = sep) : c = sep := by
  unfold Char.toUpper at h
  split at h
  · next hc =>
    have hlow : 97 ≤ c.val.toNat := UInt32.le_iff_toNat_le.mp hc.1
    have hhigh : c.val.toNat ≤ 122 := UInt32.le_iff_toNat_le.mp hc.2
    have hshift : ('A'.val - 'a'.val).toNat = 4294967264 := rfl
    have hval : sep.val.toNat = c.val.toNat - 32 := by
      rw [← h, UInt32.toNat_add, hshift]
      omega
    have hupper : sep.isUpper = true := by
      unfold Char.isUpper
      simp only [ge_iff_le, decide_eq_true_eq, UInt32.le_iff_toNat_le, hval]
      exact ⟨Nat.le_sub_of_add_le hlow, Nat.sub_le_of_le_add hhigh⟩
    rw [hupper] at hsep
    cases hsep
  · exact h

theorem eq_of_toLower_eq (hsep : sep.isLower = false) (h : c.toLower = sep) : c = sep := by
  unfold Char.toLower at h
  split at h
  · next hc =>
    have hlow : 65 ≤ c.val.toNat := UInt32.le_iff_toNat_le.mp hc.1
    have hhigh : c.val.toNat ≤ 90 := UInt32.le_iff_toNat_le.mp hc.2
    have hshift : ('a'.val - 'A'.val).toNat = 32 := rfl
    have hval : sep.val.toNat = c.val.toNat + 32 := by
      rw [← h, UInt32.toNat_add, hshift]
      omega
    have hlower : sep.isLower = true := by
      unfold Char.isLower
      simp only [ge_iff_le, Bool.and_eq_true, decide_eq_true_eq, UInt32.le_iff_toNat_le, hval]
      exact ⟨Nat.add_le_add_right hlow 32, Nat.add_le_add_right hhigh 32⟩
    rw [hlower] at hsep
    cases hsep
  · exact h

theorem notMem_upperAscii {s : String} (hsep : sep.isUpper = false) (h : sep ∉ s.toList) :
    sep ∉ (upperAscii s).toList := by
  rw [upperAscii, String.toList_ofList, List.mem_map]
  rintro ⟨c, hc, hupper⟩
  exact h (eq_of_toUpper_eq hsep hupper ▸ hc)

theorem notMem_lowerAscii {s : String} (hsep : sep.isLower = false) (h : sep ∉ s.toList) :
    sep ∉ (lowerAscii s).toList := by
  rw [lowerAscii, String.toList_ofList, List.mem_map]
  rintro ⟨c, hc, hlower⟩
  exact h (eq_of_toLower_eq hsep hlower ▸ hc)

end Case

section Lines

/-- A name and what is given for it. -/
def namedLine (name value : List Char) : List Char := name ++ ':' :: value

def headerLine (p : String × String) : List Char := namedLine p.1.toList p.2.toList

def queryLine (g : String × List String) : List Char :=
  namedLine g.1.toList ([','].intercalate (g.2.map String.toList))

def resourceLine (account path : String) : List Char := '/' :: (account.toList ++ path.toList)

/-- The numeral of the length, which is empty for zero. -/
def lengthLine (n : Nat) : List Char := (if n = 0 then "" else toString n).toList

/-- The lines of the text that is signed. -/
def signedLines (account : String) (r : Signable) : List (List Char) :=
  (upperAscii r.method).toList :: [] :: [] :: lengthLine r.contentLength ::
    (List.replicate 8 [] ++ ((canonicalHeaders r.headers).map headerLine ++
      resourceLine account r.path :: (canonicalQuery r.query).map queryLine))

variable {account : String} {r s : Signable}

theorem toList_headerLines (headers : List (String × String)) :
    (headerLines headers).toList =
      ((canonicalHeaders headers).map headerLine).flatMap fun l => l ++ ['\n'] := by
  rw [headerLines, String.toList_join, List.flatMap_map, List.flatMap_map]
  refine List.flatMap_congr fun p _ => ?_
  simp [headerLine, namedLine]

theorem toList_resourceLines (account path : String) (query : List (String × String)) :
    (resourceLines account path query).toList = resourceLine account path ++
      ((canonicalQuery query).map queryLine).flatMap fun l => '\n' :: l := by
  have hquery : (String.join ((canonicalQuery query).map fun p =>
      "\n" ++ p.1 ++ ":" ++ String.intercalate "," p.2)).toList =
        ((canonicalQuery query).map queryLine).flatMap fun l => '\n' :: l := by
    rw [String.toList_join, List.flatMap_map, List.flatMap_map]
    refine List.flatMap_congr fun p _ => ?_
    simp [queryLine, namedLine]
  rw [resourceLines, String.toList_append, hquery]
  simp [resourceLine]

/-- The text that is signed consists of these lines. -/
theorem toList_stringToSign :
    (stringToSign account r).toList = ['\n'].intercalate (signedLines account r) := by
  have hlast (lines : List (List Char)) (hlines : lines ≠ []) :
      ['\n'].intercalate (List.replicate 8 [] ++ lines) =
        List.replicate 8 '\n' ++ ['\n'].intercalate lines := by
    simp [List.replicate, List.intercalate_cons_of_ne_nil, hlines]
  rw [signedLines, List.intercalate_cons_cons, List.intercalate_cons_cons,
    List.intercalate_cons_cons, List.intercalate_cons_of_ne_nil (by simp), hlast _ (by simp),
    Text.intercalate_append_cons, ← toList_headerLines]
  simp [stringToSign, lengthLine, toList_resourceLines, List.replicate]

theorem notMem_lengthLine (n : Nat) : '\n' ∉ lengthLine n := by
  unfold lengthLine
  split_ifs with hzero
  · simp
  · intro hmem
    rw [Text.toList_toString] at hmem
    have hdigit := Nat.isDigit_of_mem_toDigits (by decide) (by decide) hmem
    exact absurd hdigit (by decide)

theorem lengthLine_inj {m n : Nat} (h : lengthLine m = lengthLine n) : m = n := by
  have hnonempty (k : Nat) : (toString k).toList ≠ [] :=
    Text.toList_toString k ▸ Nat.toDigits_ne_nil
  unfold lengthLine at h
  split_ifs at h with hm hn hn
  · rw [hm, hn]
  · exact absurd h.symm (hnonempty n)
  · exact absurd h (hnonempty m)
  · exact Text.toString_inj.mp (String.toList_injective h)

/-- The headers that are written are among those of the service. -/
theorem coveredHeaders_divisible (hr : IsDivisible r) {p : String × String}
    (hp : p ∈ canonicalHeaders r.headers) :
    ':' ∉ p.1.toList ∧ '\n' ∉ p.1.toList ∧ '\n' ∉ p.2.toList := by
  have hcovered : p ∈ coveredHeaders r.headers := (List.mergeSort_perm _ _).mem_iff.mp hp
  obtain ⟨hmem, hservice⟩ := List.mem_filter.mp hcovered
  obtain ⟨q, hq, rfl⟩ := List.mem_map.mp hmem
  obtain ⟨hcolon, hbreak, hvalue⟩ := hr.headers q hq hservice
  exact ⟨notMem_lowerAscii (by decide) hcolon, notMem_lowerAscii (by decide) hbreak, hvalue⟩

/-- The pairs that are written are those of the query. -/
theorem coveredQuery_divisible (hr : IsDivisible r) {g : String × List String}
    (hg : g ∈ canonicalQuery r.query) :
    ':' ∉ g.1.toList ∧ '\n' ∉ g.1.toList ∧ ∀ v ∈ g.2, ',' ∉ v.toList ∧ '\n' ∉ v.toList := by
  have hpair (v : String) (hv : v ∈ g.2) : ∃ p ∈ r.query, lowerAscii p.1 = g.1 ∧ p.2 = v := by
    have hmem : (g.1, v) ∈ coveredQuery r.query :=
      (List.mergeSort_perm _ _).mem_iff.mp (mem_of_mem_ungroup hg hv)
    obtain ⟨p, hp, heq⟩ := List.mem_map.mp hmem
    exact ⟨p, hp, congrArg Prod.fst heq, congrArg Prod.snd heq⟩
  have hname : ':' ∉ g.1.toList ∧ '\n' ∉ g.1.toList := by
    obtain ⟨v, hv⟩ := List.exists_mem_of_ne_nil _ (values_ne_nil hg)
    obtain ⟨p, hp, hlower, -⟩ := hpair v hv
    obtain ⟨hcolon, hbreak, -, -⟩ := hr.query p hp
    rw [← hlower]
    exact ⟨notMem_lowerAscii (by decide) hcolon, notMem_lowerAscii (by decide) hbreak⟩
  refine ⟨hname.1, hname.2, ?_⟩
  intro v hv
  obtain ⟨p, hp, -, rfl⟩ := hpair v hv
  obtain ⟨-, -, hcomma, hbreak⟩ := hr.query p hp
  exact ⟨hcomma, hbreak⟩

theorem notMem_namedLine {c : Char} {name value : List Char} (hc : c ≠ ':') (hname : c ∉ name)
    (hvalue : c ∉ value) : c ∉ namedLine name value := by
  simp [namedLine, hc, hname, hvalue]

/-- No line of the text is broken. -/
theorem notMem_signedLines (haccount : '\n' ∉ account.toList) (hr : IsDivisible r) {l : List Char}
    (hl : l ∈ signedLines account r) : '\n' ∉ l := by
  simp only [signedLines, List.mem_cons, List.mem_append, List.mem_replicate, List.mem_map] at hl
  rcases hl with rfl | rfl | rfl | rfl | ⟨-, rfl⟩ | ⟨p, hp, rfl⟩ | rfl | ⟨g, hg, rfl⟩
  · exact notMem_upperAscii (by decide) hr.method
  · exact List.not_mem_nil
  · exact List.not_mem_nil
  · exact notMem_lengthLine r.contentLength
  · exact List.not_mem_nil
  · obtain ⟨-, hname, hvalue⟩ := coveredHeaders_divisible hr hp
    exact notMem_namedLine (by decide) hname hvalue
  · simp [resourceLine, haccount, hr.path]
  · obtain ⟨-, hname, hvalues⟩ := coveredQuery_divisible hr hg
    refine notMem_namedLine (by decide) hname (Text.not_mem_intercalate (by decide) ?_)
    intro l hl
    obtain ⟨v, hv, rfl⟩ := List.mem_map.mp hl
    exact (hvalues v hv).2

/-- Lines tell the headers that they were written for. -/
theorem eq_of_map_headerLine {ps qs : List (String × String)} (hps : ∀ p ∈ ps, ':' ∉ p.1.toList)
    (hqs : ∀ p ∈ qs, ':' ∉ p.1.toList) (h : ps.map headerLine = qs.map headerLine) : ps = qs := by
  have hread {l : List (String × String)} (hl : ∀ p ∈ l, ':' ∉ p.1.toList) :
      (l.map headerLine).map (Text.cutFirst ':') =
        l.map fun p => some (p.1.toList, p.2.toList) := by
    rw [List.map_map]
    apply List.map_congr_left
    intro p hp
    exact Text.cutFirst_append (hl p hp)
  have hcut := congrArg (List.map (Text.cutFirst ':')) h
  rw [hread hps, hread hqs] at hcut
  apply List.map_injective_iff.mpr ?_ hcut
  rintro ⟨a, b⟩ ⟨c, d⟩ heq
  obtain ⟨hname, hvalue⟩ := Prod.mk.inj (Option.some.inj heq)
  exact Prod.ext (String.toList_injective hname) (String.toList_injective hvalue)

/-- Lines tell the names and values that they were written for. -/
theorem eq_of_map_queryLine {gs ks : List (String × List String)}
    (hgs : ∀ g ∈ gs, g.2 ≠ [] ∧ ':' ∉ g.1.toList ∧ ∀ v ∈ g.2, ',' ∉ v.toList)
    (hks : ∀ g ∈ ks, g.2 ≠ [] ∧ ':' ∉ g.1.toList ∧ ∀ v ∈ g.2, ',' ∉ v.toList)
    (h : gs.map queryLine = ks.map queryLine) : gs = ks := by
  let read (l : List Char) : Option (List Char × List (List Char)) :=
    (Text.cutFirst ':' l).map fun p => (p.1, List.splitOn ',' p.2)
  have hread {l : List (String × List String)}
      (hl : ∀ g ∈ l, g.2 ≠ [] ∧ ':' ∉ g.1.toList ∧ ∀ v ∈ g.2, ',' ∉ v.toList) :
      (l.map queryLine).map read =
        l.map fun g => some (g.1.toList, g.2.map String.toList) := by
    rw [List.map_map]
    apply List.map_congr_left
    intro g hg
    obtain ⟨hsome, hname, hvalues⟩ := hl g hg
    have hsplit : List.splitOn ',' ([','].intercalate (g.2.map String.toList)) =
        g.2.map String.toList := by
      apply List.splitOn_intercalate
      · intro l hl
        obtain ⟨v, hv, rfl⟩ := List.mem_map.mp hl
        exact hvalues v hv
      · simpa using hsome
    simp only [Function.comp_apply, read, queryLine, namedLine, Text.cutFirst_append hname,
      Option.map_some, hsplit]
  have hcut := congrArg (List.map read) h
  rw [hread hgs, hread hks] at hcut
  apply List.map_injective_iff.mpr ?_ hcut
  rintro ⟨a, vs⟩ ⟨b, ws⟩ heq
  obtain ⟨hname, hvalues⟩ := Prod.mk.inj (Option.some.inj heq)
  have hlists : vs = ws :=
    List.map_injective_iff.mpr (fun _ _ => String.toList_injective) hvalues
  exact Prod.ext (String.toList_injective hname) hlists

end Lines

section Content

variable {account : String} {r s : Signable}

/-- Requests that agree are written alike. -/
theorem SameContent.stringToSign_eq (h : SameContent r s) (account : String) :
    stringToSign account r = stringToSign account s := by
  have hheaders : canonicalHeaders r.headers = canonicalHeaders s.headers :=
    sortPairs_eq_iff.mpr (Multiset.coe_eq_coe.mp h.headers)
  have hquery : canonicalQuery r.query = canonicalQuery s.query :=
    congrArg groupByName (sortPairs_eq_iff.mpr (Multiset.coe_eq_coe.mp h.query))
  simp only [stringToSign, headerLines, resourceLines, h.method, h.contentLength, h.path, hheaders,
    hquery]

/-- Requests that are written in the same lines agree. -/
theorem SameContent.of_lines (hr : IsDivisible r) (hs : IsDivisible s)
    (h : signedLines account r = signedLines account s) : SameContent r s := by
  simp only [signedLines, List.cons.injEq, true_and] at h
  obtain ⟨hmethod, hlength, hrest⟩ := h
  -- the line of the resource is the first that starts with a slash
  have hheader {t : Signable} {l : List Char} (hl : l ∈ (canonicalHeaders t.headers).map headerLine) :
      ¬l.head? = some '/' := by
    obtain ⟨p, hp, rfl⟩ := List.mem_map.mp hl
    have hcovered : p ∈ coveredHeaders t.headers := (List.mergeSort_perm _ _).mem_iff.mp hp
    obtain ⟨rest, hrest⟩ := List.isPrefixOf_iff_prefix.mp (List.mem_filter.mp hcovered).2
    simp [headerLine, namedLine, ← hrest]
  obtain ⟨hheaders, hresource, hquery⟩ := Text.eq_of_append_cons_eq
    (p := fun l : List Char => l.head? = some '/') (fun _ => hheader) (fun _ => hheader) rfl rfl
    (List.append_cancel_left hrest)
  have hcanonical : canonicalHeaders r.headers = canonicalHeaders s.headers :=
    eq_of_map_headerLine (fun _ hp => (coveredHeaders_divisible hr hp).1)
      (fun _ hp => (coveredHeaders_divisible hs hp).1) hheaders
  have hgroups {t : Signable} (ht : IsDivisible t) (g : String × List String)
      (hg : g ∈ canonicalQuery t.query) :
      g.2 ≠ [] ∧ ':' ∉ g.1.toList ∧ ∀ v ∈ g.2, ',' ∉ v.toList := by
    obtain ⟨hname, -, hvalues⟩ := coveredQuery_divisible ht hg
    exact ⟨values_ne_nil hg, hname, fun v hv => (hvalues v hv).1⟩
  have hgrouped : canonicalQuery r.query = canonicalQuery s.query :=
    eq_of_map_queryLine (hgroups hr) (hgroups hs) hquery
  have hsorted := congrArg ungroup hgrouped
  simp only [canonicalQuery, ungroup_groupByName] at hsorted
  refine ⟨String.toList_injective hmethod, lengthLine_inj hlength, ?_, ?_, ?_⟩
  · have hpath := List.append_cancel_left (List.cons.inj hresource).2
    exact String.toList_injective hpath
  · exact Multiset.coe_eq_coe.mpr (sortPairs_eq_iff.mp hcanonical)
  · exact Multiset.coe_eq_coe.mpr (sortPairs_eq_iff.mp hsorted)

/-- Requests that agree in all that a signature covers have the same text, whatever characters they
hold. Where no part holds a character that divides the parts, the text is the same only for requests
that agree. -/
theorem stringToSign_eq_iff_sameContent (account : String) (r s : Signable) :
    (SameContent r s → stringToSign account r = stringToSign account s) ∧
    ('\n' ∉ account.toList → IsDivisible r → IsDivisible s →
      (stringToSign account r = stringToSign account s ↔ SameContent r s)) := by
  refine ⟨fun h => h.stringToSign_eq account, ?_⟩
  intro haccount hr hs
  refine ⟨?_, fun h => h.stringToSign_eq account⟩
  intro htext
  have hjoined := congrArg String.toList htext
  rw [toList_stringToSign, toList_stringToSign] at hjoined
  have hlines : signedLines account r = signedLines account s :=
    Text.eq_of_intercalate_eq (fun _ => notMem_signedLines haccount hr)
      (fun _ => notMem_signedLines haccount hs) (List.cons_ne_nil _ _) (List.cons_ne_nil _ _)
      hjoined
  exact .of_lines hr hs hlines

/-- A listing of blobs. -/
def listing : Signable :=
  ⟨"GET", "/system", [("comp", "list"), ("restype", "container")],
    [("x-ms-date", "d"), ("x-ms-version", "v")], 0⟩

/-- The same listing, put down in another way. -/
def shuffledListing : Signable :=
  ⟨"get", "/system", [("RESTYPE", "container"), ("Comp", "list")],
    [(" X-MS-Version", "v "), ("accept", "*"), ("x-ms-date", "d")], 0⟩

/-- The listing from a marker on. -/
def laterListing : Signable := { listing with query := ("marker", "m") :: listing.query }

/-- The listing in another order has the same text, and the listing from a marker on has not. -/
theorem stringToSign_eq_iff_sameContent_listing :
    '\n' ∉ "a".toList ∧ IsDivisible listing ∧ IsDivisible shuffledListing ∧
      IsDivisible laterListing ∧
      stringToSign "a" listing = stringToSign "a" shuffledListing ∧
      stringToSign "a" listing ≠ stringToSign "a" laterListing := by
  have haccount : '\n' ∉ "a".toList := by decide
  have hlisting : IsDivisible listing := ⟨by decide, by decide, by decide +kernel, by decide⟩
  have hshuffled : IsDivisible shuffledListing :=
    ⟨by decide, by decide, by decide +kernel, by decide⟩
  have hlater : IsDivisible laterListing := ⟨by decide, by decide, by decide +kernel, by decide⟩
  have hsame : SameContent listing shuffledListing :=
    ⟨by decide +kernel, rfl, rfl, by decide +kernel, by decide +kernel⟩
  have hother : ¬SameContent listing laterListing := by
    intro h
    exact absurd h.query (by decide +kernel)
  refine ⟨haccount, hlisting, hshuffled, hlater, ?_, ?_⟩
  · exact (stringToSign_eq_iff_sameContent "a" listing shuffledListing).1 hsame
  · intro htext
    exact hother (((stringToSign_eq_iff_sameContent "a" listing laterListing).2 haccount hlisting
      hlater).mp htext)

end Content

end Decommission.Blob
