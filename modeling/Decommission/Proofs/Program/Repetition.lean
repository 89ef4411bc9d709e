import Decommission.Proofs.Program.Retrying
import Decommission.Proofs.Program.Transcript
import Decommission.Simulation.Replay
import Mathlib.Algebra.Ring.Nat
import Mathlib.Data.Nat.Find

/-!
Everything that is done where something is attempted several times: the attempts, and the pauses
between them. A policy makes attempts up to the first outcome that is not to be retried.
-/
namespace Decommission

open Program
open Simulation (Attempt attempt)

namespace Event

/-- A pause that was made. -/
def paused {I : Interface} (length : Duration) : Event (Timed I) := ⟨.pause length, ()⟩

variable {β : Type}

/-- An attempt that had this outcome. -/
def tried (outcome : β) : Event (Timed (Attempt β)) := ⟨.act (), outcome⟩

/-- The outcome of an attempt. -/
def outcome? : Event (Timed (Attempt β)) → Option β
  | ⟨.act _, outcome⟩ => some outcome
  | _ => none

/-- The attempts had the first of these outcomes, one after the other. -/
def HadOutcomes (outcomes : ℕ → β) (h : List (Event (Timed (Attempt β)))) : Prop :=
  ∃ n, h.filterMap outcome? = (List.range n).map outcomes

end Event

namespace Backoff

/-- Where a delay below the greatest is doubled, that is exact. -/
def DoublesExactly : Backoff → Prop
  | .fixed _ => True
  | .exponential initial max =>
    ∀ i, initial * 2 ^ i < max → Duration.doubled (initial * 2 ^ i) = initial * 2 ^ (i + 1)

/-- The delay after attempt `i`, the first attempt being `1`. -/
def delayAfter : Backoff → ℕ → Duration
  | .fixed delay, _ => delay
  | .exponential initial max, i => if i = 1 then initial else min (initial * 2 ^ (i - 1)) max

/-- Only the powers below the greatest delay have to be looked at. -/
theorem doublesExactly_of_forall_lt {initial max : Duration} {n : ℕ} (hmax : max ≤ initial * 2 ^ n)
    (h : ∀ i < n, Duration.doubled (initial * 2 ^ i) = initial * 2 ^ (i + 1)) :
    (exponential initial max).DoublesExactly := by
  intro i hi
  have hpow : 2 ^ i < 2 ^ n := Nat.lt_of_mul_lt_mul_left (Nat.lt_of_lt_of_le hi hmax)
  exact h i ((Nat.pow_lt_pow_iff_right (by decide)).mp hpow)

end Backoff

theorem doubledUpTo_eq {max delay : Duration} (h : delay < max → delay.doubled = 2 * delay) :
    doubledUpTo max delay = min (2 * delay) max := by
  unfold doubledUpTo
  split_ifs with hdelay
  · rw [h hdelay]
  · have hle : max ≤ 2 * delay := by lia
    exact (Nat.min_eq_right hle).symm

namespace RetryPolicy

variable {I : Interface} {ε α X : Type} {p : RetryPolicy} {retryable : ε → Bool}

/-- The outcome is a failure that may be retried. -/
def isRetried (retryable : ε → Bool) : Except ε α → Bool
  | .ok _ => false
  | .error e => retryable e

theorem isRetried_iff {outcome : Except ε α} :
    isRetried retryable outcome = true ↔ ∃ e, outcome = .error e ∧ retryable e = true := by
  cases outcome with
  | ok a => simp [isRetried]
  | error e => simp [isRetried]

theorem one_le_attempts (p : RetryPolicy) : 1 ≤ p.attempts := Nat.le_max_right _ _

/-- The attempts `again` and then `last`, each with what is `told` of it, and between them the pauses
of the policy from the one on that comes after `i` others. -/
def historyFrom (p : RetryPolicy) (told : X → List (Event (Timed I))) (i : ℕ) (again : List X)
    (last : X) : List (Event (Timed I)) :=
  (again.zipIdx i).flatMap (fun x => told x.1 ++ [.paused (p.delay x.2)]) ++ told last

section Attempts

variable {attempt : Task I (Except ε α)} {told : X → List (Event (Timed I))}
  {outcome : X → Except ε α} {h : List (Event (Timed I))} {r : Except ε α}

theorem historyFrom_nil {i : ℕ} {last : X} : p.historyFrom told i [] last = told last := rfl

theorem historyFrom_cons {i : ℕ} {x last : X} {again : List X} :
    p.historyFrom told i (x :: again) last =
      told x ++ Event.paused (p.delay i) :: p.historyFrom told (i + 1) again last := by
  simp [historyFrom]

/-- An attempt that is not the last one allowed ends it, or is retried after a pause. -/
theorem along_runFrom_succ_iff {more i : ℕ} :
    (runFrom p.backoff retryable attempt (more + 1) (p.delay i)).Along h (.done r) ↔
      ∃ before after first, h = before ++ after ∧ attempt.Along before (.done first) ∧
        if isRetried retryable first then ∃ rest, after = Event.paused (p.delay i) :: rest ∧
          (runFrom p.backoff retryable attempt more (p.delay (i + 1))).Along rest (.done r)
        else after = [] ∧ r = first := by
  rw [runFrom, along_bind_done_iff]
  refine exists_congr fun before => exists_congr fun after => exists_congr fun first => ?_
  refine and_congr_right fun _ => and_congr_right fun _ => ?_
  cases first with
  | ok a => exact along_done_iff
  | error e =>
    change (if retryable e then _ else _ : Task I (Except ε α)).Along after (.done r) ↔
      if retryable e then _ else _
    split_ifs
    · refine along_ask_done_iff.trans ⟨?_, ?_⟩
      · rintro ⟨⟨⟩, rest, rfl, hrest⟩
        exact ⟨rest, rfl, hrest⟩
      · rintro ⟨rest, rfl, hrest⟩
        exact ⟨(), rest, rfl, hrest⟩
    · exact along_done_iff

/-- Attempts of which it is known what is done in each and what comes of it. -/
theorem along_runFrom_iff (hattempt : ∀ h r, attempt.Along h (.done r) ↔
      ∃ x, h = told x ∧ r = outcome x) {more i : ℕ} :
    (runFrom p.backoff retryable attempt more (p.delay i)).Along h (.done r) ↔
      ∃ again last, (∀ x ∈ again, isRetried retryable (outcome x) = true) ∧ again.length ≤ more ∧
        (again.length = more ∨ isRetried retryable (outcome last) = false) ∧
        h = p.historyFrom told i again last ∧ r = outcome last := by
  -- the induction is on the attempts that are left after the next one
  induction more generalizing i h with
  | zero =>
    rw [runFrom, hattempt]
    constructor
    · rintro ⟨x, rfl, rfl⟩
      exact ⟨[], x, List.forall_mem_nil _, Nat.le_refl 0, .inl rfl, rfl, rfl⟩
    · rintro ⟨again, last, -, hlength, -, rfl, rfl⟩
      obtain rfl := List.eq_nil_of_length_eq_zero (Nat.le_zero.mp hlength)
      exact ⟨last, rfl, rfl⟩
  | succ more ih =>
    rw [along_runFrom_succ_iff]
    constructor
    · rintro ⟨before, after, first, rfl, hbefore, hafter⟩
      obtain ⟨x, rfl, rfl⟩ := (hattempt _ _).mp hbefore
      split_ifs at hafter with hretried
      -- an attempt that is retried is put before those that follow, and another one is the last
      · obtain ⟨rest, rfl, hrest⟩ := hafter
        obtain ⟨again, last, hagain, hlength, hlast, rfl, rfl⟩ := ih.mp hrest
        refine ⟨x :: again, last, List.forall_mem_cons.mpr ⟨hretried, hagain⟩,
          Nat.succ_le_succ hlength, hlast.imp_left (congrArg Nat.succ), ?_, rfl⟩
        rw [historyFrom_cons]
      · obtain ⟨rfl, rfl⟩ := hafter
        have hfinal : isRetried retryable (outcome x) = false := by simpa using hretried
        exact ⟨[], x, List.forall_mem_nil _, Nat.zero_le _, .inr hfinal, List.append_nil _, rfl⟩
    · rintro ⟨again, last, hagain, hlength, hlast, rfl, rfl⟩
      cases again with
      | nil =>
        have hfinal : isRetried retryable (outcome last) = false := hlast.resolve_left (by simp)
        refine ⟨told last, [], outcome last, (List.append_nil _).symm,
          (hattempt _ _).mpr ⟨last, rfl, rfl⟩, ?_⟩
        rw [hfinal]
        exact ⟨rfl, rfl⟩
      | cons x again =>
        obtain ⟨hfirst, hagain⟩ := List.forall_mem_cons.mp hagain
        refine ⟨told x, _, outcome x, historyFrom_cons, (hattempt _ _).mpr ⟨x, rfl, rfl⟩, ?_⟩
        rw [hfirst]
        exact ⟨_, rfl, ih.mpr ⟨again, last, hagain, Nat.le_of_succ_le_succ hlength,
          hlast.imp_left Nat.succ.inj, rfl, rfl⟩⟩

/-- Something is attempted again after each outcome that is to be retried, as often as the policy
allows, and the last outcome is the result. -/
theorem along_run_iff (hattempt : ∀ h r, attempt.Along h (.done r) ↔
      ∃ x, h = told x ∧ r = outcome x) :
    (p.run retryable attempt).Along h (.done r) ↔
      ∃ again last, (∀ x ∈ again, isRetried retryable (outcome x) = true) ∧
        again.length < p.attempts ∧
        (again.length + 1 = p.attempts ∨ isRetried retryable (outcome last) = false) ∧
        h = p.historyFrom told 0 again last ∧ r = outcome last := by
  have hattempts : 1 ≤ p.attempts := p.one_le_attempts
  have hlength (n : ℕ) : n ≤ p.attempts - 1 ↔ n < p.attempts := by omega
  have hlast (n : ℕ) : n = p.attempts - 1 ↔ n + 1 = p.attempts := by omega
  simp only [← hlength, ← hlast]
  exact along_runFrom_iff hattempt (i := 0)

end Attempts

section Delays

variable {attempts : ℕ} {initial max : Duration}

/-- Each delay but the first is the exact power up to the greatest delay. -/
theorem delay_exponential (hexact : (Backoff.exponential initial max).DoublesExactly) (i : ℕ) :
    (exponential attempts initial max).delay (i + 1) = min (initial * 2 ^ (i + 1)) max := by
  have hstep (i : ℕ) : (exponential attempts initial max).delay (i + 1) =
      doubledUpTo max ((exponential attempts initial max).delay i) := rfl
  have hpow (i : ℕ) : initial * 2 ^ (i + 1) = 2 * (initial * 2 ^ i) := by
    rw [pow_succ]
    ac_rfl
  -- a delay is the power itself, or both have come to the greatest delay
  have hnext (i : ℕ) (hdelay : (exponential attempts initial max).delay i = initial * 2 ^ i ∨
        max ≤ (exponential attempts initial max).delay i ∧ max ≤ initial * 2 ^ i) :
      (exponential attempts initial max).delay (i + 1) = min (initial * 2 ^ (i + 1)) max := by
    rw [hstep, hpow]
    rcases hdelay with heq | ⟨hle, hpower⟩
    · rw [heq, doubledUpTo_eq fun h => (hexact i h).trans (hpow i)]
    · have hcapped : doubledUpTo max ((exponential attempts initial max).delay i) = max :=
        if_neg (Nat.not_lt_of_le hle)
      rw [hcapped]
      lia
  refine hnext i ?_
  induction i with
  | zero => exact .inl (Nat.mul_one initial).symm
  | succ i ih =>
    rw [hnext i ih]
    lia

theorem delay_eq_delayAfter (hexact : p.backoff.DoublesExactly) (i : ℕ) :
    p.delay i = p.backoff.delayAfter (i + 1) := by
  obtain ⟨attempts, backoff⟩ := p
  cases backoff with
  | fixed delay =>
    cases i with
    | zero => rfl
    | succ i => rfl
  | exponential initial max =>
    cases i with
    | zero => rfl
    | succ i => exact delay_exponential hexact i

end Delays

section Last

variable {outcomes : ℕ → Except ε α} {n : ℕ}

/-- The attempt after `n` others is the last one: it is the first that is not to be retried, or the
last that is allowed. -/
structure IsLast (p : RetryPolicy) (retryable : ε → Bool) (outcomes : ℕ → Except ε α) (n : ℕ) :
    Prop where
  allowed : n < p.attempts
  before : ∀ i < n, isRetried retryable (outcomes i) = true
  last : n + 1 = p.attempts ∨ isRetried retryable (outcomes n) = false

theorem IsLast.unique {m : ℕ} (hn : IsLast p retryable outcomes n)
    (hm : IsLast p retryable outcomes m) : n = m := by
  have hle {n m : ℕ} (hn : IsLast p retryable outcomes n) (hm : IsLast p retryable outcomes m) :
      n ≤ m := by
    by_contra hlt
    have hlt : m < n := Nat.lt_of_not_le hlt
    rcases hm.last with hlast | hfinal
    · have hallowed := hn.allowed
      omega
    · rw [hn.before m hlt] at hfinal
      cases hfinal
  exact Nat.le_antisymm (hle hn hm) (hle hm hn)

theorem exists_isLast (p : RetryPolicy) (retryable : ε → Bool) (outcomes : ℕ → Except ε α) :
    ∃ n, IsLast p retryable outcomes n := by
  have hattempts : 1 ≤ p.attempts := p.one_le_attempts
  have hexists : ∃ n, n + 1 = p.attempts ∨ isRetried retryable (outcomes n) = false :=
    ⟨p.attempts - 1, .inl (by omega)⟩
  have hle : Nat.find hexists ≤ p.attempts - 1 := Nat.find_min' hexists (.inl (by omega))
  refine ⟨Nat.find hexists, by omega, ?_, Nat.find_spec hexists⟩
  intro i hi
  obtain ⟨-, hretried⟩ := not_or.mp (Nat.find_min hexists hi)
  simpa using hretried

end Last

section Sequence

variable {outcomes : ℕ → Except ε α} {n : ℕ} {attempt : Task I (Except ε α)}
  {told : Except ε α → List (Event (Timed I))} {answer? : Event (Timed I) → Option (Except ε α)}
  {h : List (Event (Timed I))} {r : Except ε α}

theorem historyFrom_range :
    p.historyFrom told 0 ((List.range n).map outcomes) (outcomes n) =
      (List.range n).flatMap (fun i => told (outcomes i) ++ [.paused (p.delay i)]) ++
        told (outcomes n) := by
  have hindices : ((List.range n).map outcomes).zipIdx =
      (List.range n).map fun i => (outcomes i, i) := by
    apply List.ext_getElem
    · simp
    · intro i hi hi'
      simp
  rw [historyFrom, hindices, List.flatMap_map]

theorem filterMap_historyFrom (htold : ∀ x, (told x).filterMap answer? = [x])
    (hpause : ∀ length, answer? (.paused length) = none) (i : ℕ) (again : List (Except ε α))
    (last : Except ε α) :
    (p.historyFrom told i again last).filterMap answer? = again ++ [last] := by
  induction again generalizing i with
  | nil => exact htold last
  | cons x again ih =>
    rw [historyFrom_cons, List.filterMap_append, List.filterMap_cons_none (hpause _), ih, htold]
    rfl

/-- Attempts of which the answers can be told, and have these outcomes, are made up to the last
one. -/
theorem along_run_sequence_iff
    (hattempt : ∀ h r, attempt.Along h (.done r) ↔ ∃ x, h = told x ∧ r = x)
    (htold : ∀ x, (told x).filterMap answer? = [x])
    (hpause : ∀ length, answer? (.paused length) = none) (hn : IsLast p retryable outcomes n) :
    (∃ k, h.filterMap answer? = (List.range k).map outcomes) ∧
        (p.run retryable attempt).Along h (.done r) ↔
      h = p.historyFrom told 0 ((List.range n).map outcomes) (outcomes n) ∧ r = outcomes n := by
  rw [along_run_iff hattempt]
  constructor
  · rintro ⟨⟨k, hk⟩, again, last, hagain, hlength, hlast, rfl, rfl⟩
    rw [filterMap_historyFrom htold hpause] at hk
    obtain rfl : again.length + 1 = k := by
      simpa using congrArg List.length hk
    rw [List.range_succ, List.map_append] at hk
    obtain ⟨hagain', hlast'⟩ := List.append_inj' hk rfl
    obtain rfl : r = outcomes again.length := (List.cons.inj hlast').1
    have hm : IsLast p retryable outcomes again.length := by
      refine ⟨hlength, ?_, hlast⟩
      intro i hi
      apply hagain
      rw [hagain']
      exact List.mem_map_of_mem (List.mem_range.mpr hi)
    obtain rfl := hn.unique hm
    exact ⟨by rw [← hagain'], rfl⟩
  · rintro ⟨rfl, rfl⟩
    refine ⟨⟨n + 1, ?_⟩, (List.range n).map outcomes, outcomes n, ?_, ?_, ?_, rfl, rfl⟩
    · rw [filterMap_historyFrom htold hpause, List.range_succ, List.map_append]
      rfl
    · intro x hx
      obtain ⟨i, hi, rfl⟩ := List.mem_map.mp hx
      exact hn.before i (List.mem_range.mp hi)
    · simpa using hn.allowed
    · simpa using hn.last

end Sequence

section Outcomes

variable {h : List (Event (Timed (Attempt (Except ε α))))} {r : Except ε α}

/-- What is done where the attempts have these outcomes, and the last one is attempt `n + 1`. -/
def historyOf (p : RetryPolicy) (outcomes : ℕ → Except ε α) (n : ℕ) :
    List (Event (Timed (Attempt (Except ε α)))) :=
  (List.range n).flatMap (fun i => [.tried (outcomes i), .paused (p.delay i)]) ++
    [.tried (outcomes n)]

variable {outcomes : ℕ → Except ε α} {n : ℕ}

/-- Attempts that have these outcomes are made up to the last one. -/
theorem along_run_outcomes_iff (hn : IsLast p retryable outcomes n) :
    Event.HadOutcomes outcomes h ∧ (p.run retryable attempt).Along h (.done r) ↔
      h = p.historyOf outcomes n ∧ r = outcomes n := by
  have hhistory : p.historyOf outcomes n =
      p.historyFrom (fun x => [.tried x]) 0 ((List.range n).map outcomes) (outcomes n) := by
    rw [historyFrom_range, historyOf]
    rfl
  rw [hhistory]
  exact along_run_sequence_iff (fun _ _ => Task.along_act_iff) (fun _ => rfl) (fun _ => rfl) hn

/-- Whatever the policy and the outcomes are, attempts are made up to the first that succeeds or fails
for good, or the last that the policy allows, and at least one is made; its outcome is the result.
There is one pause after each of the others and none after the last: the fixed delay, or, where
doubling is exact, the first delay doubled again and again up to the greatest. -/
theorem attempts_and_pauses (p : RetryPolicy) (retryable : ε → Bool) (outcomes : ℕ → Except ε α) :
    (∃ n, 0 < n ∧ n ≤ max 1 p.maxAttempts ∧
      (∀ i, i + 1 < n → ∃ e, outcomes i = .error e ∧ retryable e = true) ∧
      (n = max 1 p.maxAttempts ∨ ∀ e, outcomes (n - 1) = .error e → retryable e = false) ∧
      ∀ h r, Event.HadOutcomes outcomes h ∧
          Reaches (Event.recording (Timed (Attempt (Except ε α)))) (p.run retryable attempt) []
            (.done r) h ↔
        h = (List.range (n - 1)).flatMap (fun i =>
            [.tried (outcomes i), .paused (p.delay i)]) ++ [.tried (outcomes (n - 1))] ∧
          r = outcomes (n - 1)) ∧
    (p.backoff.DoublesExactly → ∀ i, p.delay i = p.backoff.delayAfter (i + 1)) := by
  refine ⟨?_, delay_eq_delayAfter⟩
  obtain ⟨n, hn⟩ := p.exists_isLast retryable outcomes
  have hattempts : p.attempts = max 1 p.maxAttempts := Nat.max_comm _ _
  refine ⟨n + 1, Nat.succ_pos n, ?_, ?_, ?_, ?_⟩
  · rw [← hattempts]
    exact hn.allowed
  · intro i hi
    exact isRetried_iff.mp (hn.before i (Nat.lt_of_succ_lt_succ hi))
  · rw [← hattempts]
    refine hn.last.imp_right ?_
    intro hfinal e he
    rw [Nat.add_sub_cancel] at he
    rw [he] at hfinal
    exact hfinal
  · intro h r
    rw [reaches_iff_along]
    exact along_run_outcomes_iff hn

end Outcomes

/-- Five attempts, with delays of half a second, one second and then two. -/
def persistent : RetryPolicy := exponential 5 (Duration.millis 500) (Duration.seconds 2)

theorem persistent_doublesExactly : persistent.backoff.DoublesExactly := by
  have hpowers : ∀ i < 2, Duration.doubled (Duration.millis 500 * 2 ^ i) =
      Duration.millis 500 * 2 ^ (i + 1) := by decide +kernel
  exact Backoff.doublesExactly_of_forall_lt (by decide) hpowers

/-- Three failures that may be retried, and then successes. -/
def failsThrice (i : ℕ) : Except Bool Unit := if i < 3 then .error true else .ok ()

/-- The fourth attempt succeeds, and no pause comes after it. -/
theorem attempts_and_pauses_fourth : persistent.backoff.DoublesExactly ∧
    Reaches (Event.recording (Timed (Attempt (Except Bool Unit)))) (persistent.run id attempt) []
      (.done (.ok ()))
      [.tried (.error true), .paused (Duration.millis 500), .tried (.error true),
        .paused (Duration.seconds 1), .tried (.error true), .paused (Duration.seconds 2),
        .tried (.ok ())] := by
  refine ⟨persistent_doublesExactly, ?_⟩
  obtain ⟨⟨n, hpos, -, hbefore, hlast, hruns⟩, hdelays⟩ :=
    attempts_and_pauses persistent id failsThrice
  -- the fourth outcome is no failure, and the ones before it are
  have hle : n ≤ 4 := by
    by_contra hlt
    obtain ⟨e, he, -⟩ := hbefore 3 (by omega)
    cases he
  have hge : 4 ≤ n := by
    by_contra hlt
    rcases hlast with hattempts | hfinal
    · have hfive : n = 5 := hattempts
      omega
    · have hfails : failsThrice (n - 1) = .error true := if_pos (by omega)
      cases hfinal true hfails
  obtain rfl : n = 4 := Nat.le_antisymm hle hge
  refine ((hruns _ _).mpr ⟨?_, rfl⟩).2
  simp only [hdelays persistent_doublesExactly]
  rfl

end RetryPolicy

end Decommission
