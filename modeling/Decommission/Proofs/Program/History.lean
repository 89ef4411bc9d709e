import Decommission.Proofs.Program.Surroundings

/-!
The whole history of a task: its calls and their answers, and with them what it was told of the time
and of a stop.
-/
namespace Decommission

open Program

/-- One call of a program, whatever it is, and its answer. -/
structure Event (J : Interface) where
  call : J.Call
  answer : J.Answer call

/-- Any answers at all, which are all written down. -/
def Event.recording (J : Interface) : Surroundings J (List (Event J)) :=
  fun h c a h' => h' = h ++ [⟨c, a⟩]

namespace Event

variable {I : Interface}

/-- What an event was to the surroundings of a task, if it was a call to them. -/
def exchange? : Event (Timed I) → Option (Exchange I)
  | ⟨.act c, a⟩ => some ⟨c, some a⟩
  | ⟨.actWithin _ c, a⟩ => some ⟨c, a.value?⟩
  | _ => none

/-- The calls of a history to the surroundings. -/
def exchanges (h : List (Event (Timed I))) : List (Exchange I) := h.filterMap exchange?

theorem exchanges_append {h h' : List (Event (Timed I))} :
    exchanges (h ++ h') = exchanges h ++ exchanges h' := List.filterMap_append

theorem exchanges_recording {h h' : List (Event (Timed I))} {c : Timed.Call I}
    {a : Timed.Answer I c} (hc : recording (Timed I) h c a h') :
    Exchange.recording I (exchanges h) c a (exchanges h') := by
  have hh : exchanges h' = exchanges h ++ exchanges [⟨c, a⟩] := by
    rw [hc, exchanges_append]
  rw [hh]
  cases c with
  | act c => rfl
  | actWithin limit c => rfl
  | pause length => exact List.append_nil _
  | rest length => exact List.append_nil _
  | stopRequested => exact List.append_nil _
  | jitter bound => exact List.append_nil _

/-- A task that has a history has the calls of it as its log. -/
theorem reaches_exchanges {α : Type} {p q : Task I α} {h h' : List (Event (Timed I))}
    (hr : Reaches (recording (Timed I)) p h q h') :
    Reaches (Exchange.recording I) p (exchanges h) q (exchanges h') := by
  refine hr.lift (fun x => (x.1, exchanges x.2)) ?_
  intro x y hxy
  obtain ⟨ha⟩ := hxy
  exact .ask (exchanges_recording ha)

/-- What a program may call after what came before is what it did call. -/
theorem eachAfter_of_meets {J : Interface} {α : Type} {P : List (Event J) → Event J → Prop}
    {allowed : List (Event J) → J.Call → Prop} {post : Option α → List (Event J) → Prop}
    {p q : Program J α} {h : List (Event J)}
    (hcall : ∀ before c a, allowed before c → P before ⟨c, a⟩)
    (hmeets : p.Meets (recording J) allowed post []) (hr : Reaches (recording J) p [] q h) :
    EachAfter P h := by
  have hx : ∀ x, Relation.ReflTransGen (Turn (recording J)) (p, []) x → EachAfter P x.2 := by
    intro x hx
    induction hx with
    | refl => exact eachAfter_nil
    | tail hy hyz ih =>
      have hm := hmeets.reaches hy
      obtain ⟨rfl⟩ := hyz
      exact ih.append (hcall _ _ _ hm.1)
  exact hx (q, h) hr

end Event

end Decommission
