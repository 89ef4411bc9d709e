import Decommission.Text.Segment
import Mathlib.Algebra.GroupWithZero.Nat

/-! Text put together from parts around a separator, which can be taken apart in one way only. -/
namespace Decommission.Text

theorem cutFirst_append {sep : Char} {before after : List Char} (h : sep ∉ before) :
    cutFirst sep (before ++ sep :: after) = some (before, after) :=
  cutFirst_eq_some_iff.mpr ⟨h, rfl⟩

theorem count_intercalate {sep x : Char} {parts : List (List Char)} (hsep : x ≠ sep) :
    ([sep].intercalate parts).count x = (parts.map (List.count x)).sum := by
  induction parts with
  | nil => rfl
  | cons part parts ih =>
    cases parts with
    | nil => rw [List.intercalate_singleton, List.map_singleton, List.sum_singleton]
    | cons next parts =>
      have hcount : List.count x [sep] = 0 := List.count_eq_zero.mpr (by simpa using hsep)
      rw [List.intercalate_cons_cons, List.count_append, List.count_append, ih, hcount,
        Nat.add_zero, List.map_cons (l := next :: parts), List.sum_cons]

theorem not_mem_intercalate {sep x : Char} {parts : List (List Char)} (hsep : x ≠ sep)
    (hparts : ∀ part ∈ parts, x ∉ part) : x ∉ [sep].intercalate parts := by
  rw [← List.count_eq_zero, count_intercalate hsep, List.sum_eq_zero_iff_forall_eq_nat,
    List.forall_mem_map]
  exact fun part hpart => List.count_eq_zero.mpr (hparts part hpart)

/-- Parts that do not hold the separator are told by what is joined of them. -/
theorem eq_of_intercalate_eq {sep : Char} {xs ys : List (List Char)} (hxs : ∀ l ∈ xs, sep ∉ l)
    (hys : ∀ l ∈ ys, sep ∉ l) (hx : xs ≠ []) (hy : ys ≠ [])
    (h : [sep].intercalate xs = [sep].intercalate ys) : xs = ys := by
  have hsplit := congrArg (List.splitOn sep) h
  rwa [List.splitOn_intercalate sep hxs hx, List.splitOn_intercalate sep hys hy] at hsplit

/-- What comes before the first part that satisfies `p`, that part, and what comes after it. -/
theorem eq_of_append_cons_eq {α : Type} {p : α → Prop} {xs ys zs ws : List α} {a b : α}
    (hxs : ∀ x ∈ xs, ¬p x) (hys : ∀ y ∈ ys, ¬p y) (ha : p a) (hb : p b)
    (h : xs ++ a :: zs = ys ++ b :: ws) : xs = ys ∧ a = b ∧ zs = ws := by
  induction xs generalizing ys with
  | nil =>
    cases ys with
    | nil =>
      obtain ⟨hab, hrest⟩ := List.cons.inj h
      exact ⟨rfl, hab, hrest⟩
    | cons y ys =>
      obtain ⟨hay, -⟩ := List.cons.inj h
      exact absurd (hay ▸ ha) (hys y List.mem_cons_self)
  | cons x xs ih =>
    cases ys with
    | nil =>
      obtain ⟨hxb, -⟩ := List.cons.inj h
      exact absurd (hxb ▸ hb) (hxs x List.mem_cons_self)
    | cons y ys =>
      obtain ⟨hxy, hrest⟩ := List.cons.inj h
      obtain ⟨hlists, hab, hlater⟩ := ih (fun x hx => hxs x (List.mem_cons_of_mem _ hx))
        (fun y hy => hys y (List.mem_cons_of_mem _ hy)) hrest
      exact ⟨by rw [hxy, hlists], hab, hlater⟩

/-- Joined text, where one of the parts is picked out. -/
theorem intercalate_append_cons (sep : Char) (before after : List (List Char)) (part : List Char) :
    [sep].intercalate (before ++ part :: after) =
      before.flatMap (fun l => l ++ [sep]) ++ part ++ after.flatMap (fun l => sep :: l) := by
  induction before with
  | nil =>
    simp only [List.nil_append, List.flatMap_nil]
    induction after generalizing part with
    | nil => simp
    | cons next after ih =>
      rw [List.intercalate_cons_cons, ih, List.flatMap_cons]
      simp only [List.append_assoc, List.cons_append, List.nil_append]
  | cons l before ih =>
    have hrest : before ++ part :: after ≠ [] := by simp
    rw [List.cons_append, List.intercalate_cons_of_ne_nil hrest, ih, List.flatMap_cons]
    simp only [List.append_assoc]

end Decommission.Text
