import Decommission.Proofs.Program.Indifference
import Decommission.Retry

/-!
Tasks whose calls are carried out by tasks over another interface: the history of the whole falls
into parts, one for each call.
-/
namespace Decommission

open Program

variable {I J : Interface} {α β : Type}

/-- The call to the surroundings, with a limit or without. -/
def Timed.Call.act? : Timed.Call J → Option J.Call
  | .act c => some c
  | .actWithin _ c => some c
  | _ => none

/-- A call of a task, what was done to carry it out, and its answer unless it is still under way. -/
structure Part (I J : Interface) where
  call : Timed.Call J
  history : List (Event (Timed I))
  answer : Option (Timed.Answer J call)

namespace Part

/-- The call with its answer, if there is one. -/
def event? (part : Part I J) : Option (Event (Timed J)) := part.answer.map fun a => ⟨part.call, a⟩

/-- What an answered part was to the surroundings, if it was a call to them. -/
def exchange? (part : Part I J) : Option (Exchange J) := part.event?.bind Event.exchange?

section

variable {part : Part I J}

theorem act?_of_exchange? {e : Exchange J} (h : part.exchange? = some e) :
    part.call.act? = some e.call := by
  obtain ⟨call, history, _ | a⟩ := part
  · cases h
  cases call with
  | act c | actWithin limit c =>
    obtain rfl := Option.some.inj h
    rfl
  | pause length | rest length | stopRequested | jitter bound => cases h

end

end Part

namespace Task

/-- How a call is carried out: under its limit, if it has one. Time is left to the surroundings. -/
def carry (carryOut : (c : J.Call) → Task I (J.Answer c)) :
    (c : Timed.Call J) → Task I (Timed.Answer J c)
  | .act c => carryOut c
  | .actWithin limit c => within limit (carryOut c)
  | .pause length => pause length
  | .rest length => rest length
  | .stopRequested => stopRequested
  | .jitter bound => Program.call (I := Timed I) (.jitter bound)

variable {carryOut : (c : J.Call) → Task I (J.Answer c)}

end Task

/-- Each call that the task may come to make is one of which `P` holds. -/
def Task.Makes (P : I.Call → Prop) (p : Task I α) : Prop :=
  p.Throughout fun (c : Timed.Call I) _ => ∀ x, c.act? = some x → P x

section Makes

variable {P : I.Call → Prop} {p : Task I α}

theorem Task.Makes.bind {f : α → Task I β} (hp : p.Makes P) (hf : ∀ a, (f a).Makes P) :
    Task.Makes P (p.bind f) :=
  Throughout.bind hp (fun _ _ h => h) hf

/-- A limit gives calls up, and adds none. -/
theorem Task.Makes.withinFrom (hp : p.Makes P) (limit spent : Duration) :
    (Task.withinFrom limit spent p).Makes P := by
  induction p generalizing spent with
  | done a => trivial
  | stalled => trivial
  | ask c next ih =>
    obtain ⟨hc, hnext⟩ := hp
    cases c with
    | act c =>
      rw [Task.withinFrom]
      refine ⟨hc, fun cut => ?_⟩
      match cut with
      | .finished elapsed a => exact ih a (hnext a) _
      | .expired => trivial
      | .stopped => trivial
    | actWithin inner c =>
      rw [Task.withinFrom]
      refine ⟨hc, fun cut => ?_⟩
      match cut with
      | .finished elapsed a => exact ih _ (hnext _) _
      | .expired =>
        change Task.Makes P (if inner ≤ limit - spent then _ else _)
        split
        · exact ih _ (hnext _) _
        · trivial
      | .stopped => trivial
    | pause length | rest length =>
      rw [Task.withinFrom]
      refine ⟨nofun, fun passed => ?_⟩
      match passed with
      | none => trivial
      | some elapsed =>
        change Task.Makes P (if length.onTimer ≤ limit - spent then _ else _)
        split
        · exact ih _ (hnext _) _
        · trivial
    | stopRequested => exact ⟨nofun, fun asked => ih asked (hnext asked) _⟩
    | jitter bound => exact ⟨nofun, fun extra => ih extra (hnext extra) _⟩

theorem Task.Makes.carry {carryOut : (c : J.Call) → Task I (J.Answer c)} {c : J.Call}
    {call : Timed.Call J} (hcall : call.act? = some c) (h : (carryOut c).Makes P) :
    (Task.carry carryOut call).Makes P := by
  cases call with
  | act x =>
    obtain rfl := Option.some.inj hcall
    exact h
  | actWithin limit x =>
    obtain rfl := Option.some.inj hcall
    exact h.withinFrom limit 0
  | pause length | rest length | stopRequested | jitter bound => cases hcall

/-- Further attempts make the same calls, with pauses between. -/
theorem Task.Makes.run {ε : Type} {attempt : Task I (Except ε α)} (hattempt : attempt.Makes P)
    (policy : RetryPolicy) (retryable : ε → Bool) : (policy.run retryable attempt).Makes P := by
  have hfrom (more : Nat) (delay : Duration) :
      (RetryPolicy.runFrom policy.backoff retryable attempt more delay).Makes P := by
    induction more generalizing delay with
    | zero => exact hattempt
    | succ more ih =>
      rw [RetryPolicy.runFrom]
      refine hattempt.bind fun answer => ?_
      match answer with
      | .ok a => trivial
      | .error e =>
        change Task.Makes P (if retryable e then _ else _)
        split
        · exact ⟨nofun, fun _ => ih _⟩
        · trivial
  exact hfrom _ _

end Makes

/-- The program stands where it is, or has ended and what follows has gone on. -/
theorem Program.along_bind {p : Program I α} {f : α → Program I β} {h : List (Event I)}
    {q : Program I β} (hp : (p.bind f).Along h q) :
    (∃ r, p.Along h r ∧ (∀ a, r ≠ .done a) ∧ q = r.bind f) ∨
      ∃ before after a, h = before ++ after ∧ p.Along before (.done a) ∧ (f a).Along after q := by
  induction p generalizing h with
  | done a => exact .inr ⟨[], h, a, rfl, .here, hp⟩
  | stalled =>
    cases hp with
    | here => exact .inl ⟨.stalled, .here, nofun, rfl⟩
  | ask c next ih =>
    cases hp with
    | here => exact .inl ⟨.ask c next, .here, nofun, rfl⟩
    | @answered _ _ a events _ hnext =>
      rcases ih a hnext with ⟨r, hr, hdone, hq⟩ | ⟨before, after, b, rfl, hbefore, hafter⟩
      · exact .inl ⟨r, .answered hr, hdone, hq⟩
      · exact .inr ⟨⟨c, a⟩ :: before, after, b, rfl, .answered hbefore, hafter⟩

theorem Program.Along.bind_left {p q : Program I α} {h : List (Event I)} (hp : p.Along h q)
    (f : α → Program I β) : (p.bind f).Along h (q.bind f) := by
  induction hp with
  | here => exact .here
  | answered _ ih => exact .answered ih

theorem Program.along_done_iff {a b : α} {h : List (Event I)} :
    (Program.done a).Along h (.done b) ↔ h = [] ∧ b = a := by
  constructor
  · rintro ⟨⟩
    exact ⟨rfl, rfl⟩
  · rintro ⟨rfl, rfl⟩
    exact .here

theorem Program.along_ask_done_iff {c : I.Call} {next : I.Answer c → Program I α} {b : α}
    {h : List (Event I)} :
    (Program.ask c next).Along h (.done b) ↔
      ∃ a rest, h = ⟨c, a⟩ :: rest ∧ (next a).Along rest (.done b) := by
  constructor
  · rintro ⟨⟩
    exact ⟨_, _, rfl, ‹_›⟩
  · rintro ⟨a, rest, rfl, hrest⟩
    exact .answered hrest

/-- A program with one that follows has ended when both have, one after the other. -/
theorem Program.along_bind_done_iff {p : Program I α} {f : α → Program I β} {b : β}
    {h : List (Event I)} :
    (p.bind f).Along h (.done b) ↔
      ∃ before after a, h = before ++ after ∧ p.Along before (.done a) ∧
        (f a).Along after (.done b) := by
  constructor
  · intro hp
    rcases Program.along_bind hp with ⟨r, -, hdone, hq⟩ | hsplit
    · cases r with
      | done a => exact absurd rfl (hdone a)
      | stalled => cases hq
      | ask c next => cases hq
    · exact hsplit
  · rintro ⟨before, after, a, rfl, hbefore, hafter⟩
    exact (hbefore.bind_left f).append hafter

/-- A task that is one call to the surroundings ends with its answer. -/
theorem Task.along_act_iff {c : I.Call} {a : I.Answer c} {h : List (Event (Timed I))} :
    (Task.act c).Along h (.done a) ↔ ∃ x, h = [⟨.act c, x⟩] ∧ a = x := by
  refine Program.along_ask_done_iff.trans ⟨?_, ?_⟩
  · rintro ⟨x, rest, rfl, hrest⟩
    obtain ⟨rfl, rfl⟩ := Program.along_done_iff.mp hrest
    exact ⟨a, rfl, rfl⟩
  · rintro ⟨x, rfl, rfl⟩
    exact ⟨a, [], rfl, .here⟩

/-- The task has made these calls, each after the answer to the one before, and `q` is left to do.
Only the last one may still be under way. -/
inductive Transcript (carryOut : (c : J.Call) → Task I (J.Answer c)) :
    Task J α → List (Part I J) → Task I α → Prop where
  | done {a : α} : Transcript carryOut (.done a) [] (.done a)
  | stalled : Transcript carryOut .stalled [] .stalled
  | underWay {c : Timed.Call J} {next : Timed.Answer J c → Task J α} {h : List (Event (Timed I))}
    {r : Task I (Timed.Answer J c)} (hcarried : (Task.carry carryOut c).Along h r)
    (hr : ∀ a, r ≠ .done a) :
    Transcript carryOut (.ask c next) [⟨c, h, none⟩]
      (r.bind fun a => Task.implement carryOut (next a))
  | answered {c : Timed.Call J} {next : Timed.Answer J c → Task J α} {h : List (Event (Timed I))}
    {a : Timed.Answer J c} {parts : List (Part I J)} {q : Task I α}
    (hcarried : (Task.carry carryOut c).Along h (.done a))
    (hrest : Transcript carryOut (next a) parts q) :
    Transcript carryOut (.ask c next) (⟨c, h, some a⟩ :: parts) q

section

variable {carryOut : (c : J.Call) → Task I (J.Answer c)} {p : Task J α} {q : Task I α}
  {parts : List (Part I J)}

/-- Each part is what comes of carrying its call out. -/
theorem Transcript.carried (h : Transcript carryOut p parts q) {part : Part I J}
    (hpart : part ∈ parts) :
    ∃ r, (Task.carry carryOut part.call).Along part.history r ∧
      ∀ a, part.answer = some a → r = .done a := by
  induction h with
  | done => cases hpart
  | stalled => cases hpart
  | @underWay c next h r hcarried hr =>
    obtain rfl := List.mem_singleton.mp hpart
    exact ⟨r, hcarried, nofun⟩
  | @answered c next h a parts q hcarried hrest ih =>
    rcases List.mem_cons.mp hpart with rfl | hpart
    · refine ⟨_, hcarried, ?_⟩
      intro b hb
      rw [Option.some.inj hb]
    · exact ih hpart

/-- The parts before one were answered, and led the task to the call of that one. -/
theorem Transcript.before (h : Transcript carryOut p parts q) {earlier later : List (Part I J)}
    {part : Part I J} (hparts : parts = earlier ++ part :: later) :
    ∃ events next, earlier.map Part.event? = events.map some ∧
      p.Along events (.ask part.call next) := by
  induction h generalizing earlier with
  | done => simp at hparts
  | stalled => simp at hparts
  | @underWay c next h r hcarried hr =>
    obtain ⟨rfl, hpart⟩ : earlier = [] ∧ part = ⟨c, h, none⟩ := by
      cases earlier with
      | nil => exact ⟨rfl, (List.cons.inj hparts).1.symm⟩
      | cons first earlier => simp at hparts
    subst hpart
    exact ⟨[], next, rfl, .here⟩
  | @answered c next h a parts q hcarried hrest ih =>
    cases earlier with
    | nil =>
      obtain ⟨rfl, -⟩ := List.cons.inj hparts
      exact ⟨[], next, rfl, .here⟩
    | cons first earlier =>
      obtain ⟨rfl, hlater⟩ := List.cons.inj hparts
      obtain ⟨events, next, hevents, halong⟩ := ih hlater
      refine ⟨⟨c, a⟩ :: events, next, ?_, .answered halong⟩
      rw [List.map_cons, hevents]
      rfl

/-- Where the whole has ended all parts were answered, and so has the task. -/
theorem Transcript.over {a : α} (h : Transcript carryOut p parts (.done a)) :
    ∃ events, parts.map Part.event? = events.map some ∧ p.Along events (.done a) := by
  generalize hq : Program.done a = q at h
  induction h with
  | done =>
    obtain rfl := Program.done.inj hq
    exact ⟨[], rfl, .here⟩
  | stalled => cases hq
  | @underWay c next h r hcarried hr =>
    -- what is under way has not come to its end
    cases r with
    | done b => exact absurd rfl (hr b)
    | stalled => cases hq
    | ask c next => cases hq
  | @answered c next h b parts q hcarried hrest ih =>
    obtain ⟨events, hevents, halong⟩ := ih hq
    refine ⟨⟨c, b⟩ :: events, ?_, .answered halong⟩
    rw [List.map_cons, hevents]
    rfl

end

end Decommission
