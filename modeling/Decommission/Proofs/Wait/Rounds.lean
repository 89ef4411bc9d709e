import Decommission.Proofs.Program.Repetition
import Decommission.Proofs.Wait.Deadline

/-!
What is counted while waiting: the rounds, whose number a timeout tells, and the delays that are still
to grow. Nothing here depends on how many rounds are allowed.
-/
namespace Decommission

open Program
open Simulation (attempt)

variable {α : Type}

/-- The delays that grow, which are those between four attempts. -/
def WaitSettings.growing (s : WaitSettings) : RetryPolicy :=
  .exponential 4 s.initialDelay s.maxDelay

/-- A delay of `base` and a random part of less than `base`, or none if `base` is zero. -/
def Jittered (base delay : Duration) : Prop :=
  if base = 0 then delay = 0 else base ≤ delay ∧ delay < 2 * base

/-- The delay after `checks` checks: a growing one with a random part, or the greatest. -/
structure DelayAfter (s : WaitSettings) (checks : ℕ) (delay : Duration) : Prop where
  grows : checks ≤ 3 → Jittered (s.growing.delay (checks - 1)) delay
  greatest : 3 < checks → delay = s.maxDelay

/-- The delays to come after this many rounds. -/
def Growth.after (s : WaitSettings) (rounds : ℕ) : Growth := ⟨3 - rounds, s.growing.delay rounds⟩

/-- Before a round: the rounds are as many as the checks, all of which were pending, and what is left
of the time and of the delays is known. -/
structure Counted (s : WaitSettings) (deadline : Duration) (p : Waiting) (u : Watched α) : Prop where
  rounds : p.rounds = u.state.length
  remaining : p.remaining = deadline - u.now
  growth : p.growth = .after s u.state.length
  pending : ∀ c ∈ u.state, c.answer = some (.ok none)

/-- A rest comes right after a check, all checks so far were pending, and it takes the delay after
them or the time that is left. -/
structure RestsAfter (s : WaitSettings) (deadline : Duration) (u : Watched α) (length : Duration) :
    Prop where
  pending : ∀ c ∈ u.state, c.answer = some (.ok none)
  last : ∃ c, u.state.getLast? = some c ∧ c.ended = u.now
  length : ∃ delay, DelayAfter s u.state.length delay ∧ length = min delay (deadline - u.now)

/-- Only rests are looked at. -/
def Rests (s : WaitSettings) (deadline : Duration) (u : Watched α) :
    Timed.Call (Checking α) → Prop
  | .rest length => RestsAfter s deadline u length
  | _ => True

/-- A timeout tells the number of checks if the last one was given up, and one more if all were
pending. -/
def Counts (u : Watched α) : Option (Except WaitError α) → Prop
  | some (.error (.timeout _ _ attempts)) =>
    (attempts = u.state.length ∧ ∃ c, u.state.getLast? = some c ∧ c.answer = none) ∨
      (attempts = u.state.length + 1 ∧ ∀ c ∈ u.state, c.answer = some (.ok none))
  | _ => True

theorem World.length_record {u : Watched α} {started : Duration}
    {answer : Option (Except Failure (Option α))} :
    (u.record started () answer).state.length = u.state.length + 1 := List.length_append

theorem jittered_of_lt {base extra : Duration} (h : extra < max base 1) :
    Jittered base (base + extra) := by
  rw [Jittered]
  split_ifs with hbase
  · lia
  · constructor
    · lia
    · lia

theorem Growth.next_after (s : WaitSettings) (rounds : ℕ) :
    (Growth.after s rounds).next s = .after s (rounds + 1) := by
  have hleft : 3 - rounds - 1 = 3 - (rounds + 1) := Nat.sub_sub _ _ _
  exact congrArg (fun left => Growth.mk left _) hleft

section Rounds

variable {s : WaitSettings} {resource : String} {deadline : Duration} {limit : ℕ} {p : Waiting}
  {u : Watched α}

/-- What follows a delay goes on after a growing one with any random part, or after the greatest. -/
theorem meets_delay {β : Type} {post : Option β → Watched α → Prop} {rounds : ℕ}
    {f : Duration → Task (Checking α) β}
    (hf : ∀ delay, DelayAfter s (rounds + 1) delay →
      (f delay).Meets (Span.passing (Checking α)) (Rests s deadline) post u) :
    (((Growth.after s rounds).pick s).bind f).Meets (Span.passing (Checking α)) (Rests s deadline)
      post u := by
  refine Growth.meets_pick ?_ (fun _ => trivial) ?_
  · intro hleft
    have hthree : 3 ≤ rounds := Nat.le_of_sub_eq_zero hleft
    exact hf s.maxDelay ⟨fun hle => by omega, fun _ => rfl⟩
  · intro hleft extra hextra
    have hthree : rounds < 3 := Nat.lt_of_sub_ne_zero hleft
    exact hf _ ⟨fun _ => jittered_of_lt hextra, fun hlt => by omega⟩

/-- The rest after a check that was pending, and the rounds after it. -/
theorem Counted.meets_rest {elapsed delay : Duration}
    (hnext : ∀ p u, Counted s deadline p u →
      (Waiting.poll s resource attempt limit p).Meets (Span.passing (Checking α)) (Rests s deadline)
        (fun r u => Counts u r) u)
    (h : Counted s deadline p u) (hdelay : DelayAfter s (u.state.length + 1) delay) :
    ((Task.rest (min delay (p.remaining - elapsed))).bind fun
      | none => .done (.error (.stopped resource))
      | some rested => Waiting.poll s resource attempt limit
        ⟨p.rounds + 1, p.remaining - elapsed - rested,
          (Growth.after s u.state.length).next s⟩).Meets
      (Span.passing (Checking α)) (Rests s deadline) (fun r u => Counts u r)
      ((u.after elapsed).record u.now () (some (.ok none))) := by
  have hlength : ((u.after elapsed).record u.now () (some (.ok none))).state.length =
      u.state.length + 1 := World.length_record
  have hleft : p.remaining - elapsed = deadline - (u.now + elapsed) := by
    rw [h.remaining, Nat.sub_sub]
  have hpending : ∀ c ∈ ((u.after elapsed).record u.now () (some (.ok none))).state,
      c.answer = some (.ok none) := by
    intro c hc
    rcases List.mem_append.mp hc with hc | hc
    · exact h.pending c hc
    · rw [List.mem_singleton.mp hc]
  refine ⟨⟨hpending, ⟨_, List.getLast?_concat, rfl⟩, delay, ?_, congrArg (min delay) hleft⟩, ?_⟩
  · rw [hlength]
    exact hdelay
  intro answer v hv
  cases answer with
  | none => trivial
  | some rested =>
    obtain ⟨-, -, rfl⟩ := hv
    apply hnext
    exact {
      rounds := (congrArg Nat.succ h.rounds).trans hlength.symm
      remaining := by
        rw [hleft, Nat.sub_sub]
        rfl
      growth := by
        rw [Growth.next_after]
        exact congrArg (Growth.after s) hlength.symm
      pending := hpending }

/-- Rounds are counted one by one, however many are allowed. -/
theorem meets_rounds (h : Counted s deadline p u) :
    (Waiting.poll s resource attempt limit p).Meets (Span.passing (Checking α)) (Rests s deadline)
      (fun r u => Counts u r) u := by
  induction limit generalizing p u with
  | zero => trivial
  | succ limit ih =>
    rw [Waiting.poll]
    refine ⟨trivial, ?_⟩
    intro asked v hv
    cases asked with
    | true => trivial
    | false =>
      obtain ⟨-, rfl⟩ := hv
      change Meets _ _ _ (if p.remaining = 0 then _ else _) _
      split_ifs with hremaining
      -- the time is up before a check is started
      · refine .inr ⟨?_, h.pending⟩
        rw [h.rounds]
      apply meets_within trivial
      · intro elapsed outcome helapsed hstop
        rcases outcome with f | _ | a
        · trivial
        · rw [h.growth]
          exact meets_delay fun delay hdelay => h.meets_rest (fun _ _ => ih) hdelay
        · trivial
      -- the time is up in a check, which has been started
      · intro _
        refine .inl ⟨?_, _, List.getLast?_concat, rfl⟩
        rw [h.rounds]
        exact (World.length_record (u := v.after (v.alarmLength p.remaining))).symm
      · intro _
        trivial

theorem counted_start (s : WaitSettings) (now : Duration) (stop : Stop) (tick : Duration) :
    Counted s (now + s.timeout) (.start s) (⟨now, stop, tick, []⟩ : Watched α) where
  rounds := rfl
  remaining := (Nat.add_sub_cancel_left _ _).symm
  growth := rfl
  pending := nofun

end Rounds

section Undisturbed

variable {s : WaitSettings} {resource : String} {limit : ℕ} {p : Waiting} {now : Duration}
  {moments : List Duration}

/-- An exact clock on which no stop is asked for, and checks at these moments that were pending at
once. -/
def undisturbed (now : Duration) (moments : List Duration) : Watched Unit :=
  ⟨now, .never, 0, moments.map fun moment => ⟨(), moment, moment, some (.ok none)⟩⟩

theorem undisturbed_record :
    ((undisturbed now moments).after 0).record now () (some (.ok none)) =
      undisturbed now (moments ++ [now]) := by
  rw [undisturbed, undisturbed, List.map_append]
  rfl

/-- What follows the rest after a check that was pending at once. -/
def Waiting.goOn (s : WaitSettings) (resource : String) (limit : ℕ) (p : Waiting) :
    Option Duration → Task (Checking Unit) (Except WaitError Unit)
  | none => .done (.error (.stopped resource))
  | some rested =>
    Waiting.poll s resource attempt limit ⟨p.rounds + 1, p.remaining - rested, p.growth.next s⟩

/-- The rest after a check that was pending at once, if its delay has no random part. -/
theorem reaches_rest (hremaining : p.remaining ≠ 0) :
    Reaches (Span.passing (Checking Unit)) (Waiting.poll s resource attempt (limit + 1) p)
      (undisturbed now moments)
      (.ask (.rest (min (if p.growth.left = 0 then s.maxDelay else p.growth.delay) p.remaining))
        (p.goOn s resource limit))
      (undisturbed now (moments ++ [now])) := by
  have hcheck : Span.passing (Checking Unit) (undisturbed now moments)
      (.actWithin p.remaining ()) (.finished 0 (.ok none))
      (undisturbed now (moments ++ [now])) :=
    ⟨Nat.zero_le _, rfl, undisturbed_record.symm⟩
  have hgoOn : (fun
      | none => .done (.error (.stopped resource))
      | some rested => Waiting.poll s resource attempt limit
        ⟨p.rounds + 1, p.remaining - 0 - rested, p.growth.next s⟩) = p.goOn s resource limit := by
    funext rested
    cases rested <;> rfl
  rw [Waiting.poll]
  refine .ask (a := false) ⟨rfl, rfl⟩ ?_
  change Reaches _ (if p.remaining = 0 then _ else _) _ _ _
  rw [if_neg hremaining, within_attempt]
  refine .ask hcheck ?_
  rw [← hgoOn]
  change Reaches _ (Program.bind (Growth.pick s p.growth) _) _ _ _
  rw [Growth.pick]
  by_cases hleft : p.growth.left = 0
  · rw [if_pos hleft, if_pos hleft]
    exact .refl
  · rw [if_neg hleft, if_neg hleft]
    exact .ask (a := (⟨0, by omega⟩ : Fin (max p.growth.delay 1))) rfl .refl

/-- A whole round of which the delay is still to grow. -/
theorem reaches_round {q : Waiting} (length : Duration) (hremaining : p.remaining ≠ 0)
    (hleft : p.growth.left ≠ 0) (hlength : length = min p.growth.delay p.remaining)
    (htimer : length ≤ Duration.longestTimer)
    (hq : q = ⟨p.rounds + 1, p.remaining - length, p.growth.next s⟩) :
    Reaches (Span.passing (Checking Unit)) (Waiting.poll s resource attempt (limit + 1) p)
      (undisturbed now moments) (Waiting.poll s resource attempt limit q)
      (undisturbed (now + length) (moments ++ [now])) := by
  have hrest : Reaches (Span.passing (Checking Unit))
      (Waiting.poll s resource attempt (limit + 1) p) (undisturbed now moments)
      (.ask (.rest length) (p.goOn s resource limit)) (undisturbed now (moments ++ [now])) := by
    have hgrowing : (if p.growth.left = 0 then s.maxDelay else p.growth.delay) = p.growth.delay :=
      if_neg hleft
    rw [hlength, ← hgrowing]
    exact reaches_rest hremaining
  have hpause : (undisturbed now (moments ++ [now])).pauseLength length = length :=
    World.pauseLength_eq htimer (.inl rfl)
  have hpassing : Span.passing (Checking Unit) (undisturbed now (moments ++ [now]))
      (.rest length) (some length) (undisturbed (now + length) (moments ++ [now])) :=
    ⟨hpause.symm, rfl, rfl⟩
  rw [hq]
  exact hrest.trans (Reaches.ask hpassing .refl)

/-- The time is up before a check. -/
theorem reaches_timeout (hremaining : p.remaining = 0) :
    Reaches (Span.passing (Checking Unit)) (Waiting.poll s resource attempt (limit + 1) p)
      (undisturbed now moments) (.done (.error (.timeout resource s.timeout (p.rounds + 1))))
      (undisturbed now moments) := by
  rw [Waiting.poll]
  refine .ask (a := false) ⟨rfl, rfl⟩ ?_
  change Reaches _ (if p.remaining = 0 then _ else _) _ _ _
  rw [if_pos hremaining]

end Undisturbed

section Results

variable {s : WaitSettings} {resource : String} {limit : ℕ} {u : Watched α}

/-- However often it is checked, a timeout tells the number of checks that were started if the time
is up in a check. If it is up before one, all checks were over, and it tells one more. -/
theorem timeout_counts_checks {now : Duration} {stop : Stop} {tick : Duration} {name : String}
    {length : Duration} {attempts : ℕ}
    (hr : Reaches (Span.passing (Checking α)) (Waiting.poll s resource attempt limit (.start s))
      ⟨now, stop, tick, []⟩ (.done (.error (.timeout name length attempts))) u) :
    (attempts = u.state.length ∧ ∃ c, u.state.getLast? = some c ∧ c.answer = none) ∨
      (attempts = u.state.length + 1 ∧ ∀ c ∈ u.state, c.answer = some (.ok none)) :=
  (meets_rounds (counted_start s now stop tick)).reaches hr

end Results

/-- A second between checks, but half a second in all. -/
def impatient : WaitSettings where
  initialDelay := .seconds 1
  maxDelay := .seconds 1
  timeout := .millis 500

/-- One check is pending, and half a second later the time is up. -/
theorem reaches_impatient :
    Reaches (Span.passing (Checking Unit)) (waitFor impatient "r" attempt) (undisturbed 0 [])
      (.done (.error (.timeout "r" (.millis 500) 2))) (undisturbed (.millis 500) [0]) := by
  have hlimit : impatient.roundLimit = 5 := by decide +kernel
  have hround : Reaches (Span.passing (Checking Unit))
      (Waiting.poll impatient "r" attempt 5 (.start impatient)) (undisturbed 0 [])
      (Waiting.poll impatient "r" attempt 4 ⟨1, 0, ⟨2, .seconds 1⟩⟩)
      (undisturbed (0 + .millis 500) [0]) :=
    reaches_round (.millis 500) (by decide) (by decide) (by decide) (by decide) (by decide +kernel)
  rw [waitFor, hlimit]
  exact hround.trans (reaches_timeout rfl)

theorem timeout_counts_checks_impatient :
    Reaches (Span.passing (Checking Unit)) (waitFor impatient "r" attempt) (undisturbed 0 [])
      (.done (.error (.timeout "r" (.millis 500) 2))) (undisturbed (.millis 500) [0]) ∧
    ((2 = [0].length ∧ ∃ c, (undisturbed (.millis 500) [0]).state.getLast? = some c ∧
        c.answer = none) ∨
      (2 = [0].length + 1 ∧ ∀ c ∈ (undisturbed (.millis 500) [0]).state,
        c.answer = some (.ok none))) :=
  ⟨reaches_impatient, timeout_counts_checks reaches_impatient⟩

/-- A timeout may tell one more than the checks that were started. -/
theorem timeout_counts_unstarted :
    ¬∀ (s : WaitSettings) (resource : String) (now : Duration) (stop : Stop) (tick : Duration)
      (name : String) (length : Duration) (attempts : ℕ) (u : Watched Unit),
      Reaches (Span.passing (Checking Unit)) (waitFor s resource attempt) ⟨now, stop, tick, []⟩
        (.done (.error (.timeout name length attempts))) u → attempts = u.state.length := by
  intro hclaim
  have htold : 2 = 1 := hclaim impatient "r" 0 .never 0 _ _ _ _ reaches_impatient
  cases htold

section Results

variable {s : WaitSettings} {resource : String} {limit : ℕ} {u : Watched α}

/-- The growing delays are the exact powers up to the greatest delay. -/
theorem WaitSettings.growing_delay (hle : s.initialDelay ≤ s.maxDelay)
    (hexact : s.growing.backoff.DoublesExactly) (i : ℕ) :
    s.growing.delay i = min (s.initialDelay * 2 ^ i) s.maxDelay := by
  cases i with
  | zero =>
    have hfirst : s.initialDelay * 2 ^ 0 = s.initialDelay := Nat.mul_one _
    rw [hfirst, Nat.min_eq_left hle]
    rfl
  | succ i => exact RetryPolicy.delay_exponential hexact i

/-- A rest follows a check that was pending, and lasts for a delay or for the time that is left. The
first three delays grow and have a random part; every later one is the greatest, however far the
doubling has come. -/
theorem rest_after_check {now : Duration} {stop : Stop} {tick length : Duration}
    {next : Option Duration → Task (Checking α) (Except WaitError α)}
    (hr : Reaches (Span.passing (Checking α)) (Waiting.poll s resource attempt limit (.start s))
      ⟨now, stop, tick, []⟩ (.ask (.rest length) next) u) :
    (∀ c ∈ u.state, c.answer = some (.ok none)) ∧
    (∃ c, u.state.getLast? = some c ∧ c.ended = u.now) ∧
    ∃ delay, length = min delay (now + s.timeout - u.now) ∧
      (u.state.length ≤ 3 → Jittered (s.growing.delay (u.state.length - 1)) delay) ∧
      (3 < u.state.length → delay = s.maxDelay) ∧
      (s.initialDelay ≤ s.maxDelay → s.growing.backoff.DoublesExactly →
        s.growing.delay (u.state.length - 1) =
          min (s.initialDelay * 2 ^ (u.state.length - 1)) s.maxDelay) := by
  obtain ⟨hrest, -⟩ := (meets_rounds (counted_start s now stop tick)).reaches hr
  obtain ⟨delay, hdelay, hlength⟩ := hrest.length
  exact ⟨hrest.pending, hrest.last, delay, hlength, hdelay.grows, hdelay.greatest,
    fun hle hexact => WaitSettings.growing_delay hle hexact _⟩

end Results

/-- Delays from a second up to a minute, and fifty seconds in all. -/
def steep : WaitSettings where
  initialDelay := .seconds 1
  maxDelay := .seconds 60
  timeout := .seconds 50

theorem steep_doublesExactly : steep.growing.backoff.DoublesExactly := by
  have hpowers : ∀ i < 6, Duration.doubled (Duration.seconds 1 * 2 ^ i) =
      Duration.seconds 1 * 2 ^ (i + 1) := by decide +kernel
  exact Backoff.doublesExactly_of_forall_lt (by decide) hpowers

/-- Four checks are pending, and what is left of the time follows at once. -/
theorem reaches_steep :
    Reaches (Span.passing (Checking Unit)) (waitFor steep "r" attempt) (undisturbed 0 [])
      (.ask (.rest (.seconds 43))
        (Waiting.goOn steep "r" 1 ⟨3, .seconds 43, ⟨0, .seconds 8⟩⟩))
      (undisturbed (.seconds 7) [0, .seconds 1, .seconds 3, .seconds 7]) := by
  have hlimit : steep.roundLimit = 5 := by decide +kernel
  have hfirst : Reaches (Span.passing (Checking Unit))
      (Waiting.poll steep "r" attempt 5 (.start steep)) (undisturbed 0 [])
      (Waiting.poll steep "r" attempt 4 ⟨1, .seconds 49, ⟨2, .seconds 2⟩⟩)
      (undisturbed (.seconds 1) [0]) :=
    reaches_round (.seconds 1) (by decide) (by decide) (by decide) (by decide)
      (by decide +kernel)
  have hsecond : Reaches (Span.passing (Checking Unit))
      (Waiting.poll steep "r" attempt 4 ⟨1, .seconds 49, ⟨2, .seconds 2⟩⟩)
      (undisturbed (.seconds 1) [0])
      (Waiting.poll steep "r" attempt 3 ⟨2, .seconds 47, ⟨1, .seconds 4⟩⟩)
      (undisturbed (.seconds 3) [0, .seconds 1]) :=
    reaches_round (.seconds 2) (by decide) (by decide) (by decide) (by decide)
      (by decide +kernel)
  have hthird : Reaches (Span.passing (Checking Unit))
      (Waiting.poll steep "r" attempt 3 ⟨2, .seconds 47, ⟨1, .seconds 4⟩⟩)
      (undisturbed (.seconds 3) [0, .seconds 1])
      (Waiting.poll steep "r" attempt 2 ⟨3, .seconds 43, ⟨0, .seconds 8⟩⟩)
      (undisturbed (.seconds 7) [0, .seconds 1, .seconds 3]) :=
    reaches_round (.seconds 4) (by decide) (by decide) (by decide) (by decide)
      (by decide +kernel)
  rw [waitFor, hlimit]
  refine hfirst.trans (hsecond.trans (hthird.trans ?_))
  exact reaches_rest (p := ⟨3, .seconds 43, ⟨0, .seconds 8⟩⟩) (by decide)

theorem rest_after_check_steep :
    Reaches (Span.passing (Checking Unit)) (waitFor steep "r" attempt) (undisturbed 0 [])
      (.ask (.rest (.seconds 43)) (Waiting.goOn steep "r" 1 ⟨3, .seconds 43, ⟨0, .seconds 8⟩⟩))
      (undisturbed (.seconds 7) [0, .seconds 1, .seconds 3, .seconds 7]) ∧
    ∃ delay, Duration.seconds 43 = min delay (0 + steep.timeout - .seconds 7) ∧
      delay = steep.maxDelay ∧
      steep.growing.delay 3 = min (steep.initialDelay * 2 ^ 3) steep.maxDelay := by
  obtain ⟨-, -, delay, hlength, -, hgreatest, hpower⟩ := rest_after_check reaches_steep
  have hfourth : 3 < [0, Duration.seconds 1, .seconds 3, .seconds 7].length := by decide
  have hle : steep.initialDelay ≤ steep.maxDelay := by decide
  exact ⟨reaches_steep, delay, hlength, hgreatest hfourth, hpower hle steep_doublesExactly⟩

/-- The fourth delay may jump ahead of the doubling: eight seconds and a random part would be over
before the end of the time. -/
theorem fourth_rest_jumps_ahead :
    ¬∀ (s : WaitSettings) (resource : String) (now : Duration) (stop : Stop)
      (tick length : Duration) (next : Option Duration → Task (Checking Unit) (Except WaitError Unit))
      (u : Watched Unit), s.initialDelay ≤ s.maxDelay →
      Reaches (Span.passing (Checking Unit)) (waitFor s resource attempt) ⟨now, stop, tick, []⟩
        (.ask (.rest length) next) u →
      ∃ delay, length = min delay (now + s.timeout - u.now) ∧
        Jittered (min (s.initialDelay * 2 ^ (u.state.length - 1)) s.maxDelay) delay := by
  intro hclaim
  obtain ⟨delay, hlength, hdelay⟩ := hclaim steep "r" 0 .never 0 _ _ _ (by decide) reaches_steep
  have hbase : min (steep.initialDelay * 2 ^ 3) steep.maxDelay = .seconds 8 := by decide
  have hupper : delay < 2 * .seconds 8 := by
    have hjittered : Jittered (min (steep.initialDelay * 2 ^ 3) steep.maxDelay) delay := hdelay
    rw [hbase, Jittered, if_neg (by decide)] at hjittered
    exact hjittered.2
  have hlower : Duration.seconds 43 ≤ delay := hlength.trans_le (Nat.min_le_left _ _)
  exact absurd (Nat.lt_of_le_of_lt hlower hupper) (by decide)

end Decommission
