import Decommission.Proofs.Program.History
import Mathlib.Data.List.Forall2

/-!
Programs that do not tell certain answers apart. Where a program goes on after one answer as it does
after another, the one may stand for the other in any history.
-/
namespace Decommission

open Program

variable {I : Interface} {σ α β : Type}

/-- Which answers to a call are alike. -/
abbrev Likeness (I : Interface) : Type := (c : I.Call) → I.Answer c → I.Answer c → Prop

/-- The same call, with the same answer or with one that is alike. -/
inductive Event.Alike (alike : Likeness I) : Event I → Event I → Prop where
  | same (e : Event I) : Alike alike e e
  | answers {c : I.Call} {a b : I.Answer c} (h : alike c a b) : Alike alike ⟨c, a⟩ ⟨c, b⟩

/-- Histories that are alike are of the same calls. -/
theorem Event.calls_eq_of_alike {alike : Likeness I} {h h' : List (Event I)}
    (hh : List.Forall₂ (Event.Alike alike) h h') : h.map Event.call = h'.map Event.call := by
  induction hh with
  | nil => rfl
  | cons he _ ih =>
    cases he with
    | same => exact congrArg (List.cons _) ih
    | answers => exact congrArg (List.cons _) ih

namespace Program

/-- The program is answered by these events one after the other, and then goes on as the second. -/
inductive Along : Program I α → List (Event I) → Program I α → Prop where
  | here {p : Program I α} : Along p [] p
  | answered {c : I.Call} {next : I.Answer c → Program I α} {a : I.Answer c}
    {events : List (Event I)} {q : Program I α} (h : Along (next a) events q) :
    Along (.ask c next) (⟨c, a⟩ :: events) q

theorem Along.of_nil {p q : Program I α} (hp : p.Along [] q) : q = p := by
  cases hp with
  | here => rfl

theorem Along.append {p q r : Program I α} {h h' : List (Event I)} (hp : p.Along h q)
    (hq : q.Along h' r) : p.Along (h ++ h') r := by
  induction hp with
  | here => exact hq
  | answered _ ih => exact .answered (ih hq)

theorem along_of_reaches {p q : Program I α} {h : List (Event I)}
    (hr : Reaches (Event.recording I) p [] q h) : p.Along h q := by
  have hx : ∀ x, Relation.ReflTransGen (Turn (Event.recording I)) (p, []) x → p.Along x.2 x.1 := by
    intro x hx
    induction hx with
    | refl => exact .here
    | tail _ hturn ih =>
      obtain ⟨ha⟩ := hturn
      obtain rfl := ha
      exact ih.append (.answered .here)
  exact hx (q, h) hr

theorem reaches_of_along {p q : Program I α} {h : List (Event I)} (hp : p.Along h q)
    (earlier : List (Event I)) : Reaches (Event.recording I) p earlier q (earlier ++ h) := by
  induction hp generalizing earlier with
  | here => rw [List.append_nil]
  | @answered c next a events q _ ih =>
    have hlater := ih (earlier ++ [⟨c, a⟩])
    rw [List.append_assoc, List.singleton_append] at hlater
    exact .ask rfl hlater

/-- The history of a program is its way along the events. -/
theorem reaches_iff_along {p q : Program I α} {h : List (Event I)} :
    Reaches (Event.recording I) p [] q h ↔ p.Along h q :=
  ⟨along_of_reaches, fun hp => reaches_of_along hp []⟩

/-- What holds of each call that the program can come to, and of how it goes on after it. -/
def Throughout (P : (c : I.Call) → (I.Answer c → Program I α) → Prop) : Program I α → Prop
  | .done _ => True
  | .stalled => True
  | .ask c next => P c next ∧ ∀ a, Throughout P (next a)

section Throughout

variable {P : (c : I.Call) → (I.Answer c → Program I α) → Prop}
  {Q : (c : I.Call) → (I.Answer c → Program I β) → Prop}

theorem Throughout.bind {p : Program I α} {f : α → Program I β} (hp : p.Throughout P)
    (hPQ : ∀ c next, P c next → Q c fun a => (next a).bind f) (hf : ∀ a, (f a).Throughout Q) :
    (p.bind f).Throughout Q := by
  induction p with
  | done a => exact hf a
  | stalled => trivial
  | ask c next ih => exact ⟨hPQ c next hp.1, fun a => ih a (hp.2 a)⟩

theorem Throughout.imp {P' : (c : I.Call) → (I.Answer c → Program I α) → Prop} {p : Program I α}
    (hp : p.Throughout P) (himp : ∀ c next, P c next → P' c next) : p.Throughout P' := by
  induction p with
  | done a => trivial
  | stalled => trivial
  | ask c next ih => exact ⟨himp c next hp.1, fun a => ih a (hp.2 a)⟩

/-- What holds throughout holds of the last call that the program came to. -/
theorem Throughout.last {p q : Program I α} {h : List (Event I)} {c : I.Call} {a : I.Answer c}
    (hp : p.Throughout P) (hq : p.Along (h ++ [⟨c, a⟩]) q) : ∃ next, P c next ∧ q = next a := by
  induction h generalizing p with
  | nil =>
    rcases hq with _ | hnext
    exact ⟨_, hp.1, hnext.of_nil⟩
  | cons e h ih =>
    rcases hq with _ | hnext
    exact ih (hp.2 _) hnext

/-- A program that makes only calls of which something holds, however it goes on after them. -/
theorem Throughout.of_meets {allowed : σ → I.Call → Prop} {post : Option α → σ → Prop}
    (hP : ∀ s c next, allowed s c → P c next) {p : Program I α} {s : σ}
    (h : p.Meets (fun s _ _ t => t = s) allowed post s) : p.Throughout P := by
  induction p with
  | done a => trivial
  | stalled => trivial
  | ask c next ih => exact ⟨hP s c next h.1, fun a => ih a (h.2 a s rfl)⟩

end Throughout

/-- After answers that are alike a program goes on alike. -/
def Indifferent (alike : Likeness I) (c : I.Call) (next : I.Answer c → Program I α) : Prop :=
  ∀ a b, alike c a b → next a = next b

theorem Along.of_alike {alike : Likeness I} {p q : Program I α} {h h' : List (Event I)}
    (hp : p.Throughout (Indifferent alike)) (hh : List.Forall₂ (Event.Alike alike) h h') :
    p.Along h q ↔ p.Along h' q := by
  induction hh generalizing p with
  | nil => exact Iff.rfl
  | cons he _ ih =>
    cases he with
    | same =>
      constructor
      · rintro (_ | hnext)
        exact .answered ((ih (hp.2 _)).mp hnext)
      · rintro (_ | hnext)
        exact .answered ((ih (hp.2 _)).mpr hnext)
    | answers hab =>
      constructor
      · rintro (_ | hnext)
        rw [hp.1 _ _ hab] at hnext
        exact .answered ((ih (hp.2 _)).mp hnext)
      · rintro (_ | hnext)
        rw [← hp.1 _ _ hab] at hnext
        exact .answered ((ih (hp.2 _)).mpr hnext)

/-- A program that is indifferent to some answers has the one history exactly if it has the other.
-/
theorem reaches_iff_of_alike {alike : Likeness I} {p q : Program I α} {h h' : List (Event I)}
    (hp : p.Throughout (Indifferent alike)) (hh : List.Forall₂ (Event.Alike alike) h h') :
    Reaches (Event.recording I) p [] q h ↔ Reaches (Event.recording I) p [] q h' := by
  rw [reaches_iff_along, reaches_iff_along]
  exact Along.of_alike hp hh

end Program

end Decommission
