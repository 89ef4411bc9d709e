import Decommission.Proofs.Program.Surroundings
import Decommission.Retry

/-!
Attempting something several times: which attempts are made, at what times, and which of them gives
the result.
-/
namespace Decommission

open Program

namespace Task

variable {I : Interface} {σ α β : Type} {server : Server I σ}

/-- What follows a task goes on in the world that the task leaves. -/
theorem run_bind (p : Task I α) (f : α → Task I β) (w : World σ) :
    Task.run server (p.bind f) w =
      match Task.run server p w with
      | (some a, u) => Task.run server (f a) u
      | (none, u) => (none, u) := by
  induction p generalizing w with
  | done a => rfl
  | stalled => rfl
  | ask c next ih =>
    cases c with
    | act c => exact ih _ _
    | actWithin limit c =>
      simp only [bind_ask, Task.run]
      split_ifs
      · exact ih _ _
      · exact ih _ _
      · exact ih _ _
    | pause length => exact ih _ _
    | rest length =>
      simp only [bind_ask, Task.run]
      split_ifs
      · exact ih _ _
      · exact ih _ _
    | stopRequested => exact ih _ _
    | jitter bound => exact ih _ _

end Task

namespace RetryPolicy

variable {I : Interface} {σ τ ε α : Type}

/-- The delay after the attempt before which there were `i` others. -/
def delay (p : RetryPolicy) : Nat → Duration
  | 0 => p.backoff.first
  | i + 1 => p.backoff.following (p.delay i)

section

variable (server : Server I σ) (p : RetryPolicy) (attempt : Task I (Except ε α))

/-- The world after a pause of the delay after `i` others. -/
def afterPause (i : Nat) (w : World σ) : World σ := w.after (w.pauseLength (p.delay i))

/-- The world before the attempt that `i` others come before. -/
def worldBefore (w : World σ) : Nat → World σ
  | 0 => w
  | i + 1 => p.afterPause i (Task.run server attempt (worldBefore w i)).2

/-- What the attempt that `i` others come before gives. -/
def outcome (w : World σ) (i : Nat) : Option (Except ε α) :=
  (Task.run server attempt (p.worldBefore server attempt w i)).1

end

variable {server : Server I σ} {p : RetryPolicy} {retryable : ε → Bool}
  {attempt : Task I (Except ε α)} {w : World σ}

/-- The attempts from one on, up to the first that is not tried again. -/
theorem run_runFrom {n i more : Nat} (hin : i ≤ n) (hmore : n ≤ i + more)
    (hbefore : ∀ j, i ≤ j → j < n →
      ∃ e, p.outcome server attempt w j = some (.error e) ∧ retryable e = true)
    (hlast : n = i + more ∨
      ∀ e, p.outcome server attempt w n = some (.error e) → retryable e = false) :
    Task.run server (runFrom p.backoff retryable attempt more (p.delay i))
        (p.worldBefore server attempt w i) =
      Task.run server attempt (p.worldBefore server attempt w n) := by
  induction more generalizing i with
  | zero =>
    obtain rfl : i = n := by omega
    rfl
  | succ more ih =>
    rw [runFrom, Task.run_bind]
    rcases Nat.eq_or_lt_of_le hin with rfl | hlt
    -- the last attempt gives the result
    · have hfinal : ∀ e, p.outcome server attempt w i = some (.error e) → retryable e = false :=
        hlast.resolve_left (by omega)
      rcases hrun : Task.run server attempt (p.worldBefore server attempt w i) with ⟨r, u⟩
      have hr : p.outcome server attempt w i = r := congrArg Prod.fst hrun
      match r, hr with
      | none, _ => rfl
      | some (.ok a), _ => rfl
      | some (.error e), hr =>
        simp only [hfinal e hr]
        rfl
    · obtain ⟨e, he, hretry⟩ := hbefore i (Nat.le_refl i) hlt
      have hnext := ih (i := i + 1) hlt (by omega) (fun j hj hjn => hbefore j (by omega) hjn)
        (hlast.imp_left (by omega))
      rcases hrun : Task.run server attempt (p.worldBefore server attempt w i) with ⟨r, u⟩
      have hr : r = some (.error e) := by
        rw [← he]
        exact (congrArg Prod.fst hrun).symm
      subst hr
      have hworld : p.worldBefore server attempt w (i + 1) = p.afterPause i u := by
        rw [worldBefore, hrun]
      rw [hworld] at hnext
      simp only [hretry]
      exact hnext

/-- Attempts are made up to the first that is not tried again, and the last one gives the result. -/
theorem run_run {n : Nat} (hn : n < p.attempts)
    (hbefore : ∀ i < n, ∃ e, p.outcome server attempt w i = some (.error e) ∧ retryable e = true)
    (hlast : n + 1 = p.attempts ∨
      ∀ e, p.outcome server attempt w n = some (.error e) → retryable e = false) :
    Task.run server (p.run retryable attempt) w =
      Task.run server attempt (p.worldBefore server attempt w n) :=
  run_runFrom (i := 0) (Nat.zero_le n) (by omega) (fun i _ hi => hbefore i hi)
    (hlast.imp_left (by omega))

/-- What holds before each attempt holds before the next, if the attempt may be tried again. -/
theorem meets_runFrom {E : Surroundings (Timed I) τ} {allowed : τ → Timed.Call I → Prop}
    {post : Option (Except ε α) → τ → Prop} (inv : τ → Prop)
    (hattempt : ∀ t, inv t → attempt.Meets E allowed (fun r u => post r u ∧
      ∀ e, r = some (.error e) → retryable e = true → ∀ length, allowed u (.pause length) ∧
        ∀ v, E u (.pause length) () v → inv v) t)
    {backoff : Backoff} {more : Nat} {delay : Duration} {t : τ} (ht : inv t) :
    (runFrom backoff retryable attempt more delay).Meets E allowed post t := by
  induction more generalizing delay t with
  | zero => exact (hattempt t ht).imp fun r u h => h.1
  | succ more ih =>
    refine meets_bind.mpr ((hattempt t ht).imp ?_)
    rintro r u ⟨hpost, hagain⟩
    match r with
    | none => exact hpost
    | some (.ok a) => exact hpost
    | some (.error e) =>
      change Meets E allowed post (if retryable e then _ else _) u
      split_ifs with hretry
      · obtain ⟨hallowed, hinv⟩ := hagain e rfl hretry delay
        exact ⟨hallowed, fun _ v hv => ih (hinv v hv)⟩
      · exact hpost

section Counted

variable {β : Type} {f : Except ε α × Nat → Task I β}

/-- Attempts that are counted, where the number is only asked for after an error that might be
retried: that is then the number of all attempts that are allowed. -/
theorem runKeepingFrom_counted
    (hf : ∀ r, (∀ e, r = .error e → retryable e = false) → ∀ m n, f (r, m) = f (r, n))
    {backoff : Backoff} {more count : Nat} {delay : Duration} :
    (runKeepingFrom backoff retryable
        (fun count => attempt.bind fun r => .done (r, count + 1)) more delay count).bind f =
      (runFrom backoff retryable attempt more delay).bind fun r => f (r, count + more + 1) := by
  induction more generalizing delay count with
  | zero => exact bind_assoc _ _ _
  | succ more ih =>
    rw [runKeepingFrom, runFrom, bind_assoc, bind_assoc, bind_assoc]
    congr 1
    funext r
    cases r with
    | ok a =>
      have hfinal : ∀ e, (.ok a : Except ε α) = .error e → retryable e = false := nofun
      exact hf _ hfinal _ _
    | error e =>
      change Program.bind (if retryable e then _ else _) f =
        Program.bind (if retryable e then _ else _) _
      split_ifs with hretry
      · have hcount : count + 1 + more + 1 = count + (more + 1) + 1 := by omega
        rw [← hcount]
        exact congrArg (Program.ask (I := Timed I) (.pause delay)) (funext fun _ => ih)
      · have hfinal : ∀ e', (.error e : Except ε α) = .error e' → retryable e' = false := by
          rintro e' ⟨⟩
          exact eq_false_of_ne_true hretry
        exact hf _ hfinal _ _

theorem runKeeping_counted
    (hf : ∀ r, (∀ e, r = .error e → retryable e = false) → ∀ m n, f (r, m) = f (r, n)) :
    (p.runKeeping retryable (fun count => attempt.bind fun r => .done (r, count + 1)) 0).bind f =
      (p.run retryable attempt).bind fun r => f (r, p.attempts) := by
  have hattempts : 0 + (p.attempts - 1) + 1 = p.attempts := by
    have hpos : 1 ≤ p.attempts := Nat.le_max_right _ _
    omega
  rw [runKeeping, runKeepingFrom_counted hf, hattempts]
  rfl

end Counted

theorem isTotal_run (hattempt : attempt.IsTotal) (p : RetryPolicy) (retryable : ε → Bool) :
    (p.run retryable attempt).IsTotal := by
  have hfrom (more : Nat) (delay : Duration) :
      (runFrom p.backoff retryable attempt more delay).IsTotal := by
    induction more generalizing delay with
    | zero => exact hattempt
    | succ more ih =>
      rw [runFrom]
      refine hattempt.bind fun outcome => ?_
      cases outcome with
      | ok a => trivial
      | error e =>
        change IsTotal (if retryable e then _ else _)
        split_ifs
        · exact fun _ => ih _
        · trivial
  exact hfrom _ _

end RetryPolicy

end Decommission
