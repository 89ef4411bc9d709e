import Decommission.Proofs.Program.Transcript

/-!
Two programs side by side. Their calls go in pairs, and where the answers to a pair are related the
programs go on side by side.
-/
namespace Decommission

open Program

variable {I J : Interface} {α β γ δ ε : Type}

/-- Which calls may be made side by side, with the relation between the answers to them. -/
abbrev Pairing (I : Interface) : Type :=
  (c d : I.Call) → (I.Answer c → I.Answer d → Prop) → Prop

/-- The same failure, or values that are related. -/
inductive Except.Alike (R : α → β → Prop) : Except ε α → Except ε β → Prop where
  | ok {a : α} {b : β} (h : R a b) : Alike R (.ok a) (.ok b)
  | error (e : ε) : Alike R (.error e) (.error e)

/-- Both have ended after the same time with values that are related, or both were given up. -/
inductive Cut.Alike (R : α → β → Prop) : Cut α → Cut β → Prop where
  | finished (elapsed : Duration) {a : α} {b : β} (h : R a b) :
    Alike R (.finished elapsed a) (.finished elapsed b)
  | expired : Alike R .expired .expired
  | stopped : Alike R .stopped .stopped

theorem Except.alike_refl {R : α → α → Prop} (hR : ∀ a, R a a) (x : Except ε α) :
    Except.Alike R x x := by
  cases x with
  | ok a => exact .ok (hR a)
  | error e => exact .error e

theorem Except.eq_of_alike {x y : Except ε α} (h : Except.Alike (· = ·) x y) : x = y := by
  cases h with
  | ok h => rw [h]
  | error e => rfl

/-- Calls of tasks go side by side if they are such calls under the same limit, or the same call to
the clock. -/
inductive Pairing.timed (P : Pairing I) :
    (c d : Timed.Call I) → (Timed.Answer I c → Timed.Answer I d → Prop) → Prop where
  | act {c d : I.Call} {R : I.Answer c → I.Answer d → Prop} (h : P c d R) :
    timed P (.act c) (.act d) R
  | actWithin (limit : Duration) {c d : I.Call} {R : I.Answer c → I.Answer d → Prop}
    (h : P c d R) : timed P (.actWithin limit c) (.actWithin limit d) (Cut.Alike R)
  | pause (length : Duration) : timed P (.pause length) (.pause length) (· = ·)
  | rest (length : Duration) : timed P (.rest length) (.rest length) (· = ·)
  | stopRequested : timed P .stopRequested .stopRequested (· = ·)
  | jitter (bound : Duration) : timed P (.jitter bound) (.jitter bound) (· = ·)

namespace Program

/-- The programs make paired calls as long as the answers are related, and `post` holds of what they
end with. -/
inductive Paired (P : Pairing I) (post : α → β → Prop) : Program I α → Program I β → Prop where
  | done {a : α} {b : β} (h : post a b) : Paired P post (.done a) (.done b)
  | stalled : Paired P post .stalled .stalled
  | ask {c d : I.Call} {R : I.Answer c → I.Answer d → Prop} {next : I.Answer c → Program I α}
    {next' : I.Answer d → Program I β} (hcall : P c d R)
    (hnext : ∀ a b, R a b → Paired P post (next a) (next' b)) :
    Paired P post (.ask c next) (.ask d next')

section

variable {P : Pairing I} {post : α → β → Prop}

theorem Paired.bind {post' : γ → δ → Prop} {p : Program I α} {q : Program I β}
    {f : α → Program I γ} {g : β → Program I δ} (h : Paired P post p q)
    (hnext : ∀ a b, post a b → Paired P post' (f a) (g b)) :
    Paired P post' (p.bind f) (q.bind g) := by
  induction h with
  | done h => exact hnext _ _ h
  | stalled => exact .stalled
  | ask hcall _ ih => exact .ask hcall ih

theorem Paired.imp {post' : α → β → Prop} {p : Program I α} {q : Program I β}
    (h : Paired P post p q) (himp : ∀ a b, post a b → post' a b) : Paired P post' p q := by
  induction h with
  | done h => exact .done (himp _ _ h)
  | stalled => exact .stalled
  | ask hcall _ ih => exact .ask hcall ih

/-- A task whose calls may each go beside themselves goes beside itself. -/
theorem paired_self {p : Task I α} (h : p.Makes fun c => P c c (· = ·)) :
    Paired P.timed (· = ·) p p := by
  induction p with
  | done a => exact .done rfl
  | stalled => exact .stalled
  | ask c next ih =>
    obtain ⟨hcall, hnext⟩ := h
    have hgo (hc : P.timed c c (· = ·)) : Paired P.timed (· = ·) (ask c next) (ask c next) := by
      refine .ask hc ?_
      rintro a _ rfl
      exact ih a (hnext a)
    cases c with
    | act c => exact hgo (.act (hcall c rfl))
    | actWithin limit c =>
      refine .ask (.actWithin limit (hcall c rfl)) ?_
      intro a b hab
      cases hab with
      | finished elapsed h =>
        subst h
        exact ih _ (hnext _)
      | expired | stopped => exact ih _ (hnext _)
    | pause length => exact hgo (.pause length)
    | rest length => exact hgo (.rest length)
    | stopRequested => exact hgo .stopRequested
    | jitter bound => exact hgo (.jitter bound)

/-- Under a limit both are given up at the same time. -/
theorem Paired.withinFrom {p : Task I α} {q : Task I β} (h : Paired P.timed post p q)
    (limit spent : Duration) : Paired P.timed (Cut.Alike post) (Task.withinFrom limit spent p)
      (Task.withinFrom limit spent q) := by
  induction h generalizing spent with
  | done h => exact .done (.finished spent h)
  | stalled => exact .stalled
  | ask hcall _ ih =>
    cases hcall with
    | act h =>
      rw [Task.withinFrom, Task.withinFrom]
      refine .ask (.actWithin _ h) ?_
      intro a b hab
      cases hab with
      | finished elapsed h => exact ih _ _ h _
      | expired => exact .done .expired
      | stopped => exact .done .stopped
    | actWithin inner h =>
      rw [Task.withinFrom, Task.withinFrom]
      refine .ask (.actWithin _ h) ?_
      intro a b hab
      cases hab with
      | finished elapsed h => exact ih _ _ (.finished elapsed h) _
      | expired =>
        change Paired _ _ (if inner ≤ limit - spent then _ else _)
          (if inner ≤ limit - spent then _ else _)
        split
        · exact ih _ _ .expired _
        · exact .done .expired
      | stopped => exact .done .stopped
    | pause length | rest length =>
      rw [Task.withinFrom, Task.withinFrom]
      refine .ask (.rest _) ?_
      rintro passed _ rfl
      cases passed with
      | none => exact .done .stopped
      | some elapsed =>
        change Paired _ _ (if length.onTimer ≤ limit - spent then _ else _)
          (if length.onTimer ≤ limit - spent then _ else _)
        split
        · exact ih _ _ rfl _
        · exact .done .expired
    | stopRequested =>
      refine .ask .stopRequested ?_
      rintro asked _ rfl
      exact ih _ _ rfl _
    | jitter bound =>
      refine .ask (.jitter bound) ?_
      rintro extra _ rfl
      exact ih _ _ rfl _

/-- Attempts side by side are made again side by side. -/
theorem Paired.run {R : α → β → Prop} {attempt : Task I (Except ε α)}
    {attempt' : Task I (Except ε β)} (h : Paired P.timed (Except.Alike R) attempt attempt')
    (policy : RetryPolicy) (retryable : ε → Bool) :
    Paired P.timed (Except.Alike R) (policy.run retryable attempt)
      (policy.run retryable attempt') := by
  have hfrom (more : Nat) (delay : Duration) : Paired P.timed (Except.Alike R)
      (RetryPolicy.runFrom policy.backoff retryable attempt more delay)
      (RetryPolicy.runFrom policy.backoff retryable attempt' more delay) := by
    induction more generalizing delay with
    | zero => exact h
    | succ more ih =>
      refine h.bind ?_
      intro a b hab
      cases hab with
      | ok hR => exact .done (.ok hR)
      | error e =>
        change Paired _ _ (if retryable e then _ else _) (if retryable e then _ else _)
        split
        · exact .ask (.pause delay) fun _ _ _ => ih _
        · exact .done (.error e)
  exact hfrom _ _

/-- Where paired calls are carried out side by side, so are the tasks that make them. -/
theorem Paired.implement {Q : Pairing J} {carryOut carryOut' : (c : J.Call) → Task I (J.Answer c)}
    (hcarry : ∀ c d R, Q c d R → Paired P.timed R (carryOut c) (carryOut' d)) {p : Task J α}
    {q : Task J β} (h : Paired Q.timed post p q) :
    Paired P.timed post (Task.implement carryOut p) (Task.implement carryOut' q) := by
  induction h with
  | done h => exact .done h
  | stalled => exact .stalled
  | ask hcall _ ih =>
    cases hcall with
    | act h => exact (hcarry _ _ _ h).bind ih
    | actWithin limit h => exact ((hcarry _ _ _ h).withinFrom limit 0).bind ih
    | pause length => exact .ask (.pause length) ih
    | rest length => exact .ask (.rest length) ih
    | stopRequested => exact .ask .stopRequested ih
    | jitter bound => exact .ask (.jitter bound) ih

end

end Program

end Decommission
