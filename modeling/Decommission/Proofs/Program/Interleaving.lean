import Decommission.Proofs.Program.Surroundings
import Mathlib.Data.DFinsupp.WellFounded

/-!
Programs that run side by side before the same surroundings, where each call of any of them is one
step.
-/
namespace Decommission.Program

variable {I : Interface} {σ α ι : Type} {E : Surroundings I σ}

/-- One call of one of the programs, and its answer. -/
inductive OneTurn [DecidableEq ι] (E : Surroundings I σ) :
    (ι → Program I α) × σ → (ι → Program I α) × σ → Prop where
  | by {ps : ι → Program I α} {s t : σ} {q : Program I α} (i : ι) (h : Turn E (ps i, s) (q, t)) :
    OneTurn E (ps, s) (Function.update ps i q, t)

/-- The programs come to this, in some order of their calls. -/
abbrev ReachTogether [DecidableEq ι] (E : Surroundings I σ) (ps : ι → Program I α) (s : σ)
    (qs : ι → Program I α) (t : σ) : Prop :=
  Relation.ReflTransGen (OneTurn E) (ps, s) (qs, t)

/-- The first program is what the second goes on with after one of its calls. -/
inductive Continues : Program I α → Program I α → Prop where
  | after {c : I.Call} {next : I.Answer c → Program I α} (a : I.Answer c) :
    Continues (next a) (.ask c next)

theorem Turn.continues {x y : Program I α × σ} (h : Turn E x y) : Continues y.1 x.1 := by
  obtain ⟨_⟩ := h
  exact .after _

theorem Turn.eq_ask {x y : Program I α × σ} (h : Turn E x y) :
    ∃ c next a, x.1 = .ask c next ∧ y.1 = next a ∧ E x.2 c a y.2 := by
  obtain ⟨ha⟩ := h
  exact ⟨_, _, _, rfl, rfl, ha⟩

theorem continues_wf : WellFounded (Continues (I := I) (α := α)) := by
  refine ⟨fun p => ?_⟩
  induction p with
  | done a => exact ⟨_, fun q h => by cases h⟩
  | stalled => exact ⟨_, fun q h => by cases h⟩
  | ask c next ih =>
    refine ⟨_, fun q h => ?_⟩
    cases h with
    | after a => exact ih a

/-- A program makes finitely many calls. -/
theorem turn_wf : WellFounded (Function.swap (Turn (α := α) E)) :=
  Subrelation.wf (fun h => Turn.continues h) (InvImage.wf Prod.fst continues_wf)

/-- However their calls are ordered, finitely many programs make finitely many of them. -/
theorem oneTurn_wf [LinearOrder ι] [Finite ι] :
    WellFounded (Function.swap (OneTurn (ι := ι) (α := α) E)) := by
  have hlex := Pi.Lex.wellFounded (· < · : ι → ι → Prop) fun _ : ι => continues_wf (I := I) (α := α)
  refine Subrelation.wf ?_ (InvImage.wf Prod.fst hlex)
  -- a turn replaces one program by what it goes on with, and leaves the others alone
  rintro _ _ ⟨i, h⟩
  refine ⟨i, fun j hj => Function.update_of_ne hj.ne _ _, ?_⟩
  simpa only [Function.update_self] using h.continues

/-- Some order of their calls brings the programs to where none of them can go on. -/
theorem exists_over [LinearOrder ι] [Finite ι] (E : Surroundings I σ) (ps : ι → Program I α)
    (s : σ) : ∃ qs t, ReachTogether E ps s qs t ∧ ∀ x, ¬OneTurn E (qs, t) x := by
  suffices h : ∀ x : (ι → Program I α) × σ,
      ∃ y, Relation.ReflTransGen (OneTurn E) x y ∧ ∀ z, ¬OneTurn E y z by
    obtain ⟨⟨qs, t⟩, hr, hover⟩ := h (ps, s)
    exact ⟨qs, t, hr, hover⟩
  intro x
  have hacc : Acc (Function.swap (OneTurn E)) x := oneTurn_wf.apply x
  induction hacc with
  | intro x _ ih =>
    by_cases hover : ∃ y, OneTurn E x y
    · obtain ⟨y, hy⟩ := hover
      obtain ⟨z, hr, hz⟩ := ih y hy
      exact ⟨z, .head hy hr, hz⟩
    · exact ⟨x, .refl, not_exists.mp hover⟩

end Decommission.Program
