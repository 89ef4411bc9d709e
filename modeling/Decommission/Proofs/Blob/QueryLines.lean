import Decommission.Proofs.Blob.CanonicalText
import Decommission.Proofs.Text.ByteOrder

/-!
The lines that stand for the query of a request in the text that is signed. There is one for each
name, whatever its spellings, and it holds all values that were given for it.
-/
namespace Decommission.Blob

variable {ps query : List (String × String)} {account path name value text last : String}

/-! ### The loop -/

/-- The values at the front, as long as they belong to the name. -/
def frontValues (name : String) (ps : List (String × String)) : List String :=
  (ps.takeWhile fun p => p.1 = name).map Prod.snd

/-- A loop that ends after so many rounds. Each round writes a line for the first pair that is left,
with the values at the front that belong to its name, and goes on behind as many pairs. -/
inductive WritesLines : Nat → List (String × String) → String → String → Prop where
  | done {text : String} : WritesLines 0 [] text text
  | round {rounds : Nat} {p : String × String} {rest : List (String × String)}
    {values : List String} {text last : String} (hvalues : values = frontValues p.1 (p :: rest))
    (h : WritesLines rounds ((p :: rest).drop values.length)
      (text ++ "\n" ++ p.1 ++ ":" ++ String.intercalate "," values) last) :
    WritesLines (rounds + 1) (p :: rest) text last

theorem WritesLines.unique {m n : Nat} {first second : String} (h : WritesLines m ps text first)
    (h' : WritesLines n ps text second) : m = n ∧ first = second := by
  induction h generalizing n with
  | done =>
    cases h'
    exact ⟨rfl, rfl⟩
  | round hvalues _ ih =>
    cases h' with
    | round hvalues' h' =>
      subst hvalues hvalues'
      obtain ⟨rfl, rfl⟩ := ih h'
      exact ⟨rfl, rfl⟩

theorem groupByName_cons (name value : String) (rest : List (String × String)) :
    groupByName ((name, value) :: rest) =
      (name, value :: frontValues name rest) ::
        groupByName (rest.dropWhile fun p => p.1 = name) := by
  induction rest generalizing name value with
  | nil => rfl
  | cons p rest ih =>
    obtain ⟨other, next⟩ := p
    rw [groupByName, ih other next]
    by_cases hname : name = other
    · subst hname
      simp [frontValues]
    · have hother : ¬other = name := fun h => hname h.symm
      simp [frontValues, hname, hother, ih]

theorem drop_frontValues (name : String) (ps : List (String × String)) :
    ps.drop (frontValues name ps).length = ps.dropWhile fun p => p.1 = name := by
  have hdrop : (ps.takeWhile (fun p => p.1 = name) ++ ps.dropWhile fun p => p.1 = name).drop
      (ps.takeWhile fun p => p.1 = name).length = ps.dropWhile fun p => p.1 = name :=
    List.drop_left
  rwa [List.takeWhile_append_dropWhile, ← List.length_map Prod.snd] at hdrop

/-- The loop comes to its end, and has written what the groups are written as. -/
theorem writesLines_groupByName (ps : List (String × String)) (text : String) :
    WritesLines (groupByName ps).length ps text
      (text ++ String.join ((groupByName ps).map fun g =>
        "\n" ++ g.1 ++ ":" ++ String.intercalate "," g.2)) := by
  induction hlength : ps.length using Nat.strongRecOn generalizing ps text with
  | _ length ih =>
    cases ps with
    | nil =>
      rw [groupByName, List.map_nil, String.join_nil, String.append_empty]
      exact .done
    | cons p rest =>
      have hfront : frontValues p.1 (p :: rest) = p.2 :: frontValues p.1 rest := by
        simp [frontValues]
      have hshorter : (rest.dropWhile fun q => q.1 = p.1).length < length := by
        rw [← hlength, List.length_cons]
        exact Nat.lt_succ_of_le (List.dropWhile_sublist _).length_le
      have hrest := ih _ hshorter (rest.dropWhile fun q => q.1 = p.1)
        (text ++ "\n" ++ p.1 ++ ":" ++ String.intercalate "," (p.2 :: frontValues p.1 rest)) rfl
      rw [groupByName_cons, List.map_cons, String.join_cons, List.length_cons]
      refine .round hfront.symm ?_
      rw [List.length_cons, List.drop_succ_cons, drop_frontValues]
      simpa only [String.append_assoc] using hrest

/-! ### The groups -/

variable {groups : List (String × List String)} {g : String × List String}

/-- Pairs in order make groups in order, each with a name of its own. -/
theorem groupByName_ascending (h : ps.Pairwise fun p q => p.1 ≤ q.1) :
    ((groupByName ps).map Prod.fst).Pairwise (· < ·) := by
  induction ps with
  | nil => exact .nil
  | cons p rest ih =>
    obtain ⟨name, value⟩ := p
    obtain ⟨hfirst, hrest⟩ := List.pairwise_cons.mp h
    have hlater := ih hrest
    rw [groupByName]
    cases hgroups : groupByName rest with
    | nil => exact List.pairwise_singleton _ _
    | cons g groups =>
      obtain ⟨other, values⟩ := g
      rw [hgroups] at hlater
      simp only
      split_ifs with hname
      · rw [hname]
        exact hlater
      · have hmem : (other, values) ∈ groupByName rest := hgroups ▸ List.mem_cons_self
        obtain ⟨v, hv⟩ := List.exists_mem_of_ne_nil _ (values_ne_nil hmem)
        have hle : name ≤ other := hfirst _ (mem_of_mem_ungroup hmem hv)
        have hlt : name < other := by
          by_contra hnot
          exact hname (String.le_antisymm hle (String.not_lt.mp hnot))
        refine List.pairwise_cons.mpr ⟨fun n hn => ?_, hlater⟩
        rcases List.mem_cons.mp hn with rfl | hn
        · exact hlt
        · exact String.lt_trans hlt (List.rel_of_pairwise_cons hlater hn)

theorem filter_map_pair (n m : String) (values : List String) :
    ((values.map fun value => (n, value)).filter fun p => p.1 = m).map Prod.snd =
      if n = m then values else [] := by
  by_cases h : n = m <;> simp [List.filter_map, Function.comp_def, h]

/-- Where no two groups have the same name, the values of a group are those of the pairs of its
name. -/
theorem filter_ungroup (hnames : (groups.map Prod.fst).Nodup) (hg : g ∈ groups) :
    ((ungroup groups).filter fun p => p.1 = g.1).map Prod.snd = g.2 := by
  induction groups with
  | nil => cases hg
  | cons a groups ih =>
    obtain ⟨hfirst, hrest⟩ := List.nodup_cons.mp hnames
    rw [ungroup, List.flatMap_cons, ← ungroup, List.filter_append, List.map_append,
      filter_map_pair]
    rcases List.mem_cons.mp hg with rfl | hg
    · have hnone : (ungroup groups).filter (fun p => p.1 = g.1) = [] := by
        rw [List.filter_eq_nil_iff]
        intro p hp
        obtain ⟨b, hb, hvalue⟩ := List.mem_flatMap.mp hp
        obtain ⟨v, -, rfl⟩ := List.mem_map.mp hvalue
        have hne : b.1 ≠ g.1 := fun h => hfirst (h ▸ List.mem_map_of_mem hb)
        simpa using hne
      rw [if_pos rfl, hnone, List.map_nil, List.append_nil]
    · have hne : a.1 ≠ g.1 := fun h => hfirst (h ▸ List.mem_map_of_mem hg)
      rw [if_neg hne, ih hrest hg, List.nil_append]

/-! ### The query -/

/-- The pairs of the query in order. -/
theorem sorted_query (query : List (String × String)) :
    (sortPairs (coveredQuery query)).Pairwise fun p q => pairLe p q = true :=
  List.pairwise_mergeSort pairLe_trans pairLe_total _

theorem canonicalQuery_ascending (query : List (String × String)) :
    ((canonicalQuery query).map Prod.fst).Pairwise (· < ·) := by
  refine groupByName_ascending ((sorted_query query).imp fun {p q} hpq => ?_)
  rcases pairLe_iff.mp hpq with hlt | ⟨heq, -⟩
  · exact String.not_lt.mp (String.lt_asymm hlt)
  · exact heq ▸ String.le_refl _

theorem ungroup_canonicalQuery (query : List (String × String)) :
    (ungroup (canonicalQuery query)).Perm (coveredQuery query) := by
  rw [canonicalQuery, ungroup_groupByName]
  exact List.mergeSort_perm _ _

/-- The values of a line are those that were given for its name in any spelling, in order. -/
theorem values_canonicalQuery (hg : g ∈ canonicalQuery query) :
    g.2.Pairwise (· ≤ ·) ∧
      g.2.Perm ((query.filter fun p => lowerAscii p.1 = g.1).map Prod.snd) := by
  have hnames : ((canonicalQuery query).map Prod.fst).Nodup :=
    (canonicalQuery_ascending query).imp fun h => String.ne_of_lt h
  have hvalues := filter_ungroup hnames hg
  constructor
  · rw [← hvalues, canonicalQuery, ungroup_groupByName, List.pairwise_map]
    refine ((sorted_query query).filter _).imp_of_mem fun {p q} hp hq hpq => ?_
    have hp : p.1 = g.1 := of_decide_eq_true (List.mem_filter.mp hp).2
    have hq : q.1 = g.1 := of_decide_eq_true (List.mem_filter.mp hq).2
    rcases pairLe_iff.mp hpq with hlt | ⟨-, hle⟩
    · rw [hp, hq] at hlt
      exact absurd hlt (String.lt_irrefl _)
    · exact hle
  · have hperm := (((ungroup_canonicalQuery query).filter fun p => p.1 = g.1).map Prod.snd)
    rw [hvalues] at hperm
    refine hperm.trans (.of_eq ?_)
    rw [coveredQuery, List.filter_map, List.map_map]
    rfl

/-- A name has a line just if it was given in some spelling. -/
theorem mem_names_canonicalQuery :
    name ∈ (canonicalQuery query).map Prod.fst ↔ ∃ p ∈ query, lowerAscii p.1 = name := by
  constructor
  · intro hname
    obtain ⟨g, hg, rfl⟩ := List.mem_map.mp hname
    obtain ⟨v, hv⟩ := List.exists_mem_of_ne_nil _ (values_ne_nil hg)
    obtain ⟨p, hp, -⟩ := List.mem_map.mp ((values_canonicalQuery hg).2.mem_iff.mp hv)
    obtain ⟨hp, hname⟩ := List.mem_filter.mp hp
    exact ⟨p, hp, of_decide_eq_true hname⟩
  · rintro ⟨p, hp, rfl⟩
    have hcovered : (lowerAscii p.1, p.2) ∈ coveredQuery query := List.mem_map_of_mem hp
    obtain ⟨g, hg, hvalue⟩ :=
      List.mem_flatMap.mp ((ungroup_canonicalQuery query).mem_iff.mpr hcovered)
    obtain ⟨v, -, heq⟩ := List.mem_map.mp hvalue
    exact List.mem_map.mpr ⟨g, hg, congrArg Prod.fst heq⟩

/-- The loop over the sorted pairs ends, after one round for each line, with the resource and its
lines as its only result. The lines are in the order of the bytes of their names, one for each name
in lower case. Each has the values that were given for any spelling of its name, in the order of
their bytes, and all lines together have each pair of the query just once. -/
theorem resourceLines_by_name (account path : String) (query : List (String × String)) :
    (∀ rounds text,
      WritesLines rounds (sortPairs (coveredQuery query)) ("/" ++ account ++ path) text ↔
        rounds = (canonicalQuery query).length ∧ text = resourceLines account path query) ∧
    resourceLines account path query = "/" ++ account ++ path ++
      String.join ((canonicalQuery query).map fun g =>
        "\n" ++ g.1 ++ ":" ++ String.intercalate "," g.2) ∧
    ((canonicalQuery query).map Prod.fst).Pairwise
      (fun a b => a.toUTF8.toList < b.toUTF8.toList) ∧
    (∀ name, name ∈ (canonicalQuery query).map Prod.fst ↔ ∃ p ∈ query, lowerAscii p.1 = name) ∧
    (∀ g ∈ canonicalQuery query,
      g.2.Pairwise (fun v w => v.toUTF8.toList ≤ w.toUTF8.toList) ∧
        g.2.Perm ((query.filter fun p => lowerAscii p.1 = g.1).map Prod.snd)) ∧
    ((canonicalQuery query).flatMap fun g => g.2.map fun value => (g.1, value)).Perm
      (query.map fun p => (lowerAscii p.1, p.2)) := by
  have hloop := writesLines_groupByName (sortPairs (coveredQuery query)) ("/" ++ account ++ path)
  refine ⟨fun rounds text => ⟨fun h => h.unique hloop, ?_⟩, rfl, ?_,
    fun name => mem_names_canonicalQuery, fun g hg => ?_, ungroup_canonicalQuery query⟩
  · rintro ⟨rfl, rfl⟩
    exact hloop
  · simpa only [Text.toUTF8_lt_iff] using canonicalQuery_ascending query
  · simpa only [Text.toUTF8_le_iff] using values_canonicalQuery hg

/-- A query with two spellings of a name, which also begins another one. -/
def spelledQuery : List (String × String) := [("b", "2"), ("Bb", "x"), ("B", "1"), ("b", "2")]

theorem sortPairs_spelledQuery : sortPairs (coveredQuery spelledQuery) =
    [("b", "1"), ("b", "2"), ("b", "2"), ("bb", "x")] := by
  have hperm : (coveredQuery spelledQuery).Perm
      [("b", "1"), ("b", "2"), ("b", "2"), ("bb", "x")] := by decide +kernel
  rw [sortPairs_eq_iff.mpr hperm]
  exact List.mergeSort_of_pairwise (by decide +kernel)

theorem resourceLines_by_name_spelled :
    ("b", ["1", "2", "2"]) ∈ canonicalQuery spelledQuery ∧
      ["1", "2", "2"].Perm ((spelledQuery.filter fun p => lowerAscii p.1 = "b").map Prod.snd) ∧
      WritesLines 2 (sortPairs (coveredQuery spelledQuery)) "/a/c" "/a/c\nb:1,2,2\nbb:x" := by
  have hlines : canonicalQuery spelledQuery = [("b", ["1", "2", "2"]), ("bb", ["x"])] := by
    rw [canonicalQuery, ← coveredQuery, sortPairs_spelledQuery]
    decide +kernel
  obtain ⟨hloop, htext, -, -, hvalues, -⟩ := resourceLines_by_name "a" "/c" spelledQuery
  have hmem : ("b", ["1", "2", "2"]) ∈ canonicalQuery spelledQuery := by
    rw [hlines]
    exact List.mem_cons_self
  refine ⟨hmem, (hvalues _ hmem).2, (hloop 2 _).mpr ⟨by rw [hlines]; rfl, ?_⟩⟩
  rw [htext, hlines]
  decide +kernel

end Decommission.Blob
