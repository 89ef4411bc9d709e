import Decommission.Proofs.Program.Clock
import Decommission.Proofs.Program.Interleaving
import Decommission.Simulation.Replay
import Decommission.Wait

/-!
Waiting ends in time, whatever the checks, the random parts of the delays and the stop do; what it
ends with tells what has happened. Its time is up when an alarm for the timeout goes off, which is on
the first tick of the clock from then on.
-/
namespace Decommission

open Program
open Simulation (Attempt attempt)

variable {α : Type}

/-- The interface of a check that gives a value, nothing yet, or a failure. -/
abbrev Checking (α : Type) : Interface := Attempt (Except Failure (Option α))

/-- The clock, and the checks that were made. -/
abbrev Watched (α : Type) : Type := World (List (Span (Checking α)))

/-- When the time of a wait is up: an alarm for the timeout goes off then, and there is none if no
time is given at all. -/
def World.closing {σ : Type} (start : World σ) (timeout : Duration) : Duration :=
  if timeout = 0 then start.now else start.now + start.alarmLength timeout

/-- The checks up to `u` came one after the other. None was begun after the timeout or the stop, or
was over after the alarm, and all but the last one were pending. -/
structure OneByOne (start : Watched α) (timeout : Duration) (u : Watched α) : Prop where
  apart : u.state.Pairwise fun a b => a.ended ≤ b.started
  started : ∀ c ∈ u.state, start.now ≤ c.started ∧ c.started < start.now + timeout ∧
    start.stopsBefore c.started = false
  ended : ∀ c ∈ u.state, c.started ≤ c.ended ∧ c.ended ≤ start.closing timeout ∧ c.ended ≤ u.now
  pending : ∀ c ∈ u.state.dropLast, c.answer = some (.ok none)

/-- The last check gave `outcome` just now, in time. -/
def LastGave (start : Watched α) (timeout : Duration) (u : Watched α)
    (outcome : Except Failure (Option α)) : Prop :=
  ∃ c, u.state.getLast? = some c ∧ c.answer = some outcome ∧ c.ended = u.now ∧
    c.ended ≤ start.closing timeout ∧ start.stopsBefore c.ended = false

/-- The result of waiting tells what has happened at the end. -/
def Explained (resource : String) (timeout : Duration) (start u : Watched α) :
    Except WaitError α → Prop
  | .ok a => LastGave start timeout u (.ok (some a))
  | .error (.check name f) => name = resource ∧ LastGave start timeout u (.error f)
  | .error (.timeout name length _) => name = resource ∧ length = timeout ∧
    u.now = start.closing timeout
  | .error (.stopped name) => name = resource ∧ start.stop ≠ .never ∧ u.now = start.atStop.now

namespace Waiting

variable {s : WaitSettings} {p : Waiting} {limit : Nat}

/-- So many rounds suffice for the growing delays and for the time that is left, cut into pieces of
the greatest delay. -/
def Lasts (s : WaitSettings) (limit : Nat) (p : Waiting) : Prop :=
  ∃ pieces, p.growth.left + pieces + 1 ≤ limit ∧ p.remaining ≤ pieces * s.maxDelay.onTimer

theorem lasts_start (hmax : 0 < s.maxDelay) : (start s).Lasts s s.roundLimit := by
  have hpiece : 0 < s.maxDelay.onTimer := Nat.lt_min.mpr ⟨hmax, by decide⟩
  refine ⟨s.timeout / s.maxDelay.onTimer + 1, ?_, ?_⟩
  · rw [WaitSettings.roundLimit, if_neg (Nat.ne_of_gt hmax)]
    change 3 + (s.timeout / s.maxDelay.onTimer + 1) + 1 ≤ s.timeout / s.maxDelay.onTimer + 5
    lia
  · rw [Nat.mul_comm]
    exact Nat.le_of_lt (Nat.lt_mul_div_succ _ hpiece)

theorem not_lasts_zero : ¬p.Lasts s 0 := by
  rintro ⟨pieces, hlimit, -⟩
  omega

/-- A delay that still grows uses up one of the first rounds, and a rest of the greatest one takes a
piece of the time that is left. -/
theorem Lasts.next (h : p.Lasts s (limit + 1)) (hremaining : p.remaining ≠ 0) {rounds : Nat}
    {elapsed wish rested : Duration} (hwish : p.growth.left = 0 → wish = s.maxDelay)
    (hrested : Duration.onTimer (min wish (p.remaining - elapsed)) ≤ rested) :
    Lasts s limit ⟨rounds, p.remaining - elapsed - rested, p.growth.next s⟩ := by
  obtain ⟨pieces, hlimit, hpieces⟩ := h
  by_cases hgrowth : p.growth.left = 0
  · obtain ⟨fewer, rfl⟩ : ∃ fewer, pieces = fewer + 1 := by
      refine Nat.exists_eq_succ_of_ne_zero ?_
      rintro rfl
      lia
    refine ⟨fewer, ?_, ?_⟩
    · change p.growth.left - 1 + fewer + 1 ≤ limit
      omega
    · change p.remaining - elapsed - rested ≤ fewer * s.maxDelay.onTimer
      rw [hwish hgrowth] at hrested
      rw [Nat.add_mul, Nat.one_mul] at hpieces
      unfold Duration.onTimer at *
      lia
  · refine ⟨pieces, ?_, ?_⟩
    · change p.growth.left - 1 + pieces + 1 ≤ limit
      omega
    · change p.remaining - elapsed - rested ≤ pieces * s.maxDelay.onTimer
      lia

end Waiting

namespace World

variable {σ : Type} {start : World σ} {state : σ} {now moment timeout : Duration}

theorem le_closing (start : World σ) : start.now + timeout ≤ start.closing timeout := by
  rw [closing]
  split_ifs with htimeout
  · rw [htimeout, Nat.add_zero]
  · exact Nat.add_le_add_left le_alarmLength _

theorem closing_lt (start : World σ) :
    start.closing timeout < start.now + timeout + max start.tick 1 := by
  rw [closing]
  split_ifs with htimeout
  · rw [htimeout]
    exact Nat.lt_add_of_pos_right (Nat.le_max_right start.tick 1)
  · rw [Nat.add_assoc]
    exact Nat.add_lt_add_left alarmLength_lt _

theorem isTick_closing (start : World σ) (htimeout : timeout ≠ 0) :
    start.IsTick (start.closing timeout) := by
  rw [closing, if_neg htimeout]
  exact isTick_alarm

theorem closing_le (start : World σ) (hmoment : start.IsTick moment)
    (hle : start.now + timeout ≤ moment) : start.closing timeout ≤ moment := by
  rw [closing]
  split_ifs
  · exact Nat.le_trans (Nat.le_add_right _ _) hle
  · exact now_add_alarmLength_le hmoment hle

theorem closing_eq (start : World σ) (htick : start.IsTick (start.now + timeout)) :
    start.closing timeout = start.now + timeout :=
  Nat.le_antisymm (start.closing_le htick (Nat.le_refl _)) start.le_closing

/-- Another moment on the same clock. -/
def atTime (start : World σ) (now : Duration) (state : σ) : World σ := { start with now, state }

/-- Whatever was begun before a stop notices it at the same time. -/
theorem atStop_atTime (hlater : start.now ≤ now)
    (hbefore : now = start.now ∨ start.stopsBefore now = false)
    (hstop : (start.atTime now state).StopsBy moment) :
    start.stop ≠ .never ∧
      (start.atTime now state).atStop = start.atTime start.atStop.now state := by
  obtain ⟨first, stop, tick, other⟩ := start
  cases stop with
  | never => cases hstop
  | beforehand =>
    obtain rfl : now = first := hbefore.resolve_right nofun
    exact ⟨nofun, rfl⟩
  | timed t =>
    have hmax : max now t = max first t := by
      rcases hbefore with hnow | hbefore
      · exact congrArg (max · t) hnow
      · have hle : now ≤ t := Nat.le_of_not_lt (of_decide_eq_false hbefore)
        rw [Nat.max_eq_right hle, Nat.max_eq_right (Nat.le_trans hlater hle)]
    exact ⟨nofun, congrArg (fun now => World.mk now (.timed t) tick state) hmax⟩

theorem now_atStop_le (hstop : start.StopsBy moment) (hle : start.now ≤ moment) :
    start.atStop.now ≤ moment := by
  obtain ⟨first, stop, tick, other⟩ := start
  cases stop with
  | never => cases hstop
  | beforehand => exact hle
  | timed t => exact Nat.max_le.mpr ⟨hle, hstop⟩

theorem le_now_atStop (start : World σ) : start.now ≤ start.atStop.now := by
  obtain ⟨first, stop, tick, other⟩ := start
  cases stop with
  | never => exact Nat.le_refl _
  | beforehand => exact Nat.le_refl _
  | timed t => exact Nat.le_max_left _ _

end World

section Checks

variable {start : Watched α} {timeout now later : Duration}
  {log : List (Span (Checking α))}

theorem OneByOne.mono (h : OneByOne start timeout (start.atTime now log)) (hle : now ≤ later) :
    OneByOne start timeout (start.atTime later log) where
  apart := h.apart
  started := h.started
  ended c hc := by
    obtain ⟨hstarted, hclosing, hnow⟩ := h.ended c hc
    exact ⟨hstarted, hclosing, Nat.le_trans hnow hle⟩
  pending := h.pending

/-- A check that is begun in time, and over by the alarm, comes after the others. -/
theorem OneByOne.record (h : OneByOne start timeout (start.atTime now log))
    (hpending : ∀ c ∈ log, c.answer = some (.ok none)) (hlater : start.now ≤ now)
    (hnow : now < start.now + timeout) (hstop : start.stopsBefore now = false) (hle : now ≤ later)
    (hclosing : later ≤ start.closing timeout) (answer : Option (Except Failure (Option α))) :
    OneByOne start timeout (start.atTime later (log ++ [⟨(), now, later, answer⟩])) where
  apart := by
    refine List.pairwise_append.mpr ⟨h.apart, List.pairwise_singleton _ _, ?_⟩
    intro a ha b hb
    rw [List.mem_singleton.mp hb]
    exact (h.ended a ha).2.2
  started c hc := by
    rcases List.mem_append.mp hc with hc | hc
    · exact h.started c hc
    · rw [List.mem_singleton.mp hc]
      exact ⟨hlater, hnow, hstop⟩
  ended c hc := by
    rcases List.mem_append.mp hc with hc | hc
    · exact (h.mono hle).ended c hc
    · rw [List.mem_singleton.mp hc]
      exact ⟨hle, hclosing, Nat.le_refl _⟩
  pending := by
    change ∀ c ∈ (log ++ [(⟨(), now, later, answer⟩ : Span (Checking α))]).dropLast, _
    rw [List.dropLast_concat]
    exact hpending

theorem lastGave_record {outcome : Except Failure (Option α)}
    (hclosing : later ≤ start.closing timeout) (hstop : start.stopsBefore later = false) :
    LastGave start timeout (start.atTime later (log ++ [⟨(), now, later, some outcome⟩]))
      outcome :=
  ⟨_, List.getLast?_concat, rfl, rfl, hclosing, hstop⟩

end Checks

section Rounds

variable {s : WaitSettings} {resource : String} {start : Watched α} {limit : Nat} {p : Waiting}
  {now : Duration} {log : List (Span (Checking α))}

/-- All checks so far were pending, and no stop has come. -/
structure Quiet (s : WaitSettings) (start : Watched α) (now : Duration)
    (log : List (Span (Checking α))) : Prop where
  checks : OneByOne start s.timeout (start.atTime now log)
  pending : ∀ c ∈ log, c.answer = some (.ok none)
  inTime : now ≤ start.closing s.timeout
  later : start.now ≤ now
  before : now = start.now ∨ start.stopsBefore now = false

/-- Before a round, which begins on a tick unless it is the first. -/
structure Ready (s : WaitSettings) (start : Watched α) (limit : Nat) (p : Waiting) (now : Duration)
    (log : List (Span (Checking α))) : Prop extends Quiet s start now log where
  onTick : now = start.now ∨ start.IsTick now
  remaining : p.remaining = start.now + s.timeout - now
  rounds : p.Lasts s limit

/-- What holds all the while. -/
def Orderly (s : WaitSettings) (start u : Watched α) : Prop :=
  OneByOne start s.timeout u ∧ u.now ≤ start.closing s.timeout

/-- What holds at the end. -/
def Over (s : WaitSettings) (resource : String) (start : Watched α) :
    Option (Except WaitError α) → Watched α → Prop :=
  fun r u => Orderly s start u ∧ ∃ result, r = some result ∧
    Explained resource s.timeout start u result

theorem within_attempt (limit : Duration) :
    Task.within limit (attempt : Task (Checking α) (Except Failure (Option α))) =
      Program.call (I := Timed (Checking α)) (.actWithin limit ()) :=
  Task.within_act (I := Checking α) limit ()

/-- A check under a limit is answered, or given up when the alarm goes off or for a stop. -/
theorem meets_within {β : Type} {allowed : Watched α → Timed.Call (Checking α) → Prop}
    {post : Option β → Watched α → Prop} {u : Watched α} {limit : Duration}
    {f : Cut (Except Failure (Option α)) → Task (Checking α) β}
    (hallowed : allowed u (.actWithin limit ()))
    (hfinished : ∀ elapsed outcome, elapsed ≤ u.alarmLength limit → u.stopsWithin elapsed = false →
      (f (.finished elapsed outcome)).Meets (Span.passing (Checking α)) allowed post
        ((u.after elapsed).record u.now () (some outcome)))
    (hexpired : u.stopsWithin (u.alarmLength limit) = false →
      (f .expired).Meets (Span.passing (Checking α)) allowed post
        ((u.after (u.alarmLength limit)).record u.now () none))
    (hstopped : u.StopsBy (u.now + u.alarmLength limit) →
      (f .stopped).Meets (Span.passing (Checking α)) allowed post (u.atStop.record u.now () none)) :
    ((Task.within limit attempt).bind f).Meets (Span.passing (Checking α)) allowed post u := by
  rw [within_attempt]
  refine ⟨hallowed, ?_⟩
  intro cut v hv
  cases cut with
  | finished elapsed outcome =>
    obtain ⟨hle, hstop, rfl⟩ := hv
    exact hfinished elapsed outcome hle hstop
  | expired =>
    obtain ⟨hstop, rfl⟩ := hv
    exact hexpired hstop
  | stopped =>
    obtain ⟨hstop, rfl⟩ := hv
    exact hstopped hstop

/-- The delay that is picked is the greatest, or a growing one with any random part. -/
theorem Growth.meets_pick {β : Type} {allowed : Watched α → Timed.Call (Checking α) → Prop}
    {post : Option β → Watched α → Prop} {u : Watched α} {g : Growth}
    {f : Duration → Task (Checking α) β}
    (hgreatest : g.left = 0 → (f s.maxDelay).Meets (Span.passing (Checking α)) allowed post u)
    (hallowed : g.left ≠ 0 → allowed u (.jitter g.delay))
    (hgrows : g.left ≠ 0 → ∀ extra, extra < max g.delay 1 →
      (f (g.delay + extra)).Meets (Span.passing (Checking α)) allowed post u) :
    ((g.pick s).bind f).Meets (Span.passing (Checking α)) allowed post u := by
  rw [Growth.pick]
  split_ifs with hleft
  · exact hgreatest hleft
  · refine ⟨hallowed hleft, ?_⟩
    rintro extra _ rfl
    exact hgrows hleft extra extra.isLt

/-- A stop that comes by some moment is noticed once, at a time that is the same for all. -/
theorem Quiet.atStop (h : Quiet s start now log) {moment : Duration}
    (hstop : (start.atTime now log).StopsBy moment) (hle : now ≤ moment) :
    (start.atTime now log).atStop = start.atTime start.atStop.now log ∧ start.stop ≠ .never ∧
      now ≤ start.atStop.now ∧ start.atStop.now ≤ moment := by
  obtain ⟨hnever, hatStop⟩ := World.atStop_atTime h.later h.before hstop
  have hnow : (start.atTime now log).atStop.now = start.atStop.now := by
    rw [hatStop]
    rfl
  refine ⟨hatStop, hnever, ?_, ?_⟩
  · rw [← hnow]
    exact (start.atTime now log).le_now_atStop
  · rw [← hnow]
    exact World.now_atStop_le hstop hle

/-- A stop in a rest, or before a round. -/
theorem Quiet.over_stopped (h : Quiet s start now log) {moment : Duration}
    (hstop : (start.atTime now log).StopsBy moment) (hle : now ≤ moment)
    (hmoment : moment ≤ start.closing s.timeout) :
    Over s resource start (some (.error (.stopped resource))) (start.atTime now log).atStop := by
  obtain ⟨hatStop, hnever, hlater, hby⟩ := h.atStop hstop hle
  rw [hatStop]
  exact ⟨⟨h.checks.mono hlater, Nat.le_trans hby hmoment⟩, _, rfl, rfl, hnever, rfl⟩

/-- A rest after a check, and the rounds after it. -/
theorem meets_rest {rounds : Nat} {wish left : Duration} {growth : Growth}
    (hnext : ∀ p now log, Ready s start limit p now log →
      (Waiting.poll s resource attempt limit p).Meets (Span.passing (Checking α))
        (fun u _ => Orderly s start u) (Over s resource start) (start.atTime now log))
    (h : Quiet s start now log) (htimeout : s.timeout ≠ 0)
    (hleft : left = start.now + s.timeout - now)
    (hrounds : ∀ rested, Duration.onTimer (min wish left) ≤ rested →
      Waiting.Lasts s limit ⟨rounds, left - rested, growth⟩) :
    ((Task.rest (min wish left)).bind fun
      | none => .done (.error (.stopped resource))
      | some rested =>
        Waiting.poll s resource attempt limit ⟨rounds, left - rested, growth⟩).Meets
      (Span.passing (Checking α)) (fun u _ => Orderly s start u) (Over s resource start)
      (start.atTime now log) := by
  have hrest : now + (start.atTime now log).pauseLength (min wish left) ≤
      start.closing s.timeout := by
    have hticks : start.IsTick (start.closing s.timeout) := start.isTick_closing htimeout
    have honTimer : Duration.onTimer (min wish left) ≤ left :=
      Nat.le_trans (Nat.min_le_left _ _) (Nat.min_le_right _ _)
    have hclosing : start.now + s.timeout ≤ start.closing s.timeout := start.le_closing
    have hnow := h.inTime
    have hlength : now + Duration.onTimer (min wish left) ≤ start.closing s.timeout := by lia
    exact World.now_add_alarmLength_le (w := start.atTime now log) hticks hlength
  refine ⟨⟨h.checks, h.inTime⟩, ?_⟩
  intro answer v hv
  cases answer with
  | none =>
    obtain ⟨hstop, rfl⟩ := hv
    exact h.over_stopped hstop (Nat.le_add_right _ _) hrest
  | some rested =>
    obtain ⟨hrested, hstop, rfl⟩ := hv
    have hle : now ≤ now + rested := Nat.le_add_right _ _
    subst hrested
    have htick : (start.atTime now log).IsTick
        (now + (start.atTime now log).pauseLength (min wish left)) := World.isTick_pause
    refine hnext _ _ log ?_
    exact {
      checks := h.checks.mono hle
      pending := h.pending
      inTime := hrest
      later := Nat.le_trans h.later hle
      before := .inr hstop
      onTick := .inr htick
      remaining := by rw [hleft, Nat.sub_sub]; rfl
      rounds := hrounds _ World.onTimer_le_pauseLength }

section Check

variable {elapsed : Duration}

theorem Ready.moment (h : Ready s start limit p now log) (hremaining : p.remaining ≠ 0) :
    now + p.remaining = start.now + s.timeout := by
  have hleft := h.remaining
  lia

theorem Ready.timeout_ne_zero (h : Ready s start limit p now log) (hremaining : p.remaining ≠ 0) :
    s.timeout ≠ 0 := by
  have hleft := h.remaining
  have hlater := h.later
  lia

/-- The alarm of every check goes off when the time of the wait is up. -/
theorem Ready.alarm (h : Ready s start limit p now log) (hremaining : p.remaining ≠ 0) :
    now + (start.atTime now log).alarmLength p.remaining = start.closing s.timeout := by
  have hmoment : (start.atTime now log).now + p.remaining = start.now + s.timeout :=
    h.moment hremaining
  rw [World.closing, if_neg (h.timeout_ne_zero hremaining)]
  exact World.now_add_alarmLength_congr hmoment rfl

/-- A round for which no time is left begins when the time of the wait is up. -/
theorem Ready.due (h : Ready s start limit p now log) (hremaining : p.remaining = 0) :
    now = start.closing s.timeout := by
  have hle : start.now + s.timeout ≤ now :=
    Nat.le_of_sub_eq_zero (h.remaining.symm.trans hremaining)
  refine Nat.le_antisymm h.inTime ?_
  rcases h.onTick with rfl | htick
  · have htimeout : s.timeout = 0 := by lia
    rw [World.closing, if_pos htimeout]
  · exact start.closing_le htick hle

/-- What a check adds to the log, wherever it is over. -/
theorem Ready.orderly_record (h : Ready s start limit p now log) (hremaining : p.remaining ≠ 0)
    (hrunning : start.stopsBefore now = false) {later : Duration} (hle : now ≤ later)
    (hby : later ≤ start.closing s.timeout) (answer : Option (Except Failure (Option α))) :
    Orderly s start (start.atTime later (log ++ [⟨(), now, later, answer⟩])) := by
  have hnow : now < start.now + s.timeout := by
    have hleft := h.remaining
    lia
  exact ⟨h.checks.record h.pending h.later hnow hrunning hle hby answer, hby⟩

theorem Ready.elapsed_le (h : Ready s start limit p now log) (hremaining : p.remaining ≠ 0)
    (helapsed : elapsed ≤ (start.atTime now log).alarmLength p.remaining) :
    now + elapsed ≤ start.closing s.timeout := by
  rw [← h.alarm hremaining]
  exact Nat.add_le_add_left helapsed _

/-- A check that gave something in time. -/
theorem Ready.over_given (h : Ready s start limit p now log) (hremaining : p.remaining ≠ 0)
    (hrunning : start.stopsBefore now = false)
    (helapsed : elapsed ≤ (start.atTime now log).alarmLength p.remaining)
    (hstop : start.stopsBefore (now + elapsed) = false) {outcome : Except Failure (Option α)}
    {result : Except WaitError α}
    (hresult : ∀ u, LastGave start s.timeout u outcome →
      Explained resource s.timeout start u result) :
    Over s resource start (some result) (start.atTime (now + elapsed)
      (log ++ [⟨(), now, now + elapsed, some outcome⟩])) := by
  have hby := h.elapsed_le hremaining helapsed
  refine ⟨h.orderly_record hremaining hrunning (Nat.le_add_right _ _) hby _, result, rfl, ?_⟩
  exact hresult _ (lastGave_record hby hstop)

/-- A check that is given up when the time is up. -/
theorem Ready.over_expired (h : Ready s start limit p now log) (hremaining : p.remaining ≠ 0)
    (hrunning : start.stopsBefore now = false) (attempts : Nat) :
    Over s resource start (some (.error (.timeout resource s.timeout attempts)))
      (((start.atTime now log).after ((start.atTime now log).alarmLength p.remaining)).record now ()
        none) := by
  have hby := h.elapsed_le hremaining (Nat.le_refl _)
  exact ⟨h.orderly_record hremaining hrunning (Nat.le_add_right _ _) hby none, _, rfl, rfl, rfl,
    h.alarm hremaining⟩

/-- A check that is given up for a stop. -/
theorem Ready.over_givenUp (h : Ready s start limit p now log) (hremaining : p.remaining ≠ 0)
    (hrunning : start.stopsBefore now = false)
    (hstop : (start.atTime now log).StopsBy
      (now + (start.atTime now log).alarmLength p.remaining)) :
    Over s resource start (some (.error (.stopped resource)))
      ((start.atTime now log).atStop.record now () none) := by
  obtain ⟨hatStop, hnever, hlater, hby⟩ := h.toQuiet.atStop hstop (Nat.le_add_right _ _)
  rw [h.alarm hremaining] at hby
  rw [hatStop]
  exact ⟨h.orderly_record hremaining hrunning hlater hby none, _, rfl, rfl, hnever, rfl⟩

/-- A check that was pending. -/
theorem Ready.quiet_pending (h : Ready s start limit p now log) (hremaining : p.remaining ≠ 0)
    (hrunning : start.stopsBefore now = false)
    (helapsed : elapsed ≤ (start.atTime now log).alarmLength p.remaining)
    (hstop : start.stopsBefore (now + elapsed) = false) :
    Quiet s start (now + elapsed) (log ++ [⟨(), now, now + elapsed, some (.ok none)⟩]) := by
  have hle : now ≤ now + elapsed := Nat.le_add_right _ _
  have hby := h.elapsed_le hremaining helapsed
  obtain ⟨hchecks, hin⟩ := h.orderly_record hremaining hrunning hle hby (some (.ok none))
  refine ⟨hchecks, ?_, hin, Nat.le_trans h.later hle, .inr hstop⟩
  intro c hc
  rcases List.mem_append.mp hc with hc | hc
  · exact h.pending c hc
  · rw [List.mem_singleton.mp hc]

/-- The rest after a check that was pending, and the rounds after it. -/
theorem meets_pick {rounds : Nat} {later : List (Span (Checking α))}
    (hnext : ∀ p now log, Ready s start limit p now log →
      (Waiting.poll s resource attempt limit p).Meets (Span.passing (Checking α))
        (fun u _ => Orderly s start u) (Over s resource start) (start.atTime now log))
    (h : Ready s start (limit + 1) p now log) (hremaining : p.remaining ≠ 0)
    (hquiet : Quiet s start (now + elapsed) later) :
    ((p.growth.pick s).bind fun wish => (Task.rest (min wish (p.remaining - elapsed))).bind fun
      | none => .done (.error (.stopped resource))
      | some rested => Waiting.poll s resource attempt limit
        ⟨rounds, p.remaining - elapsed - rested, p.growth.next s⟩).Meets
      (Span.passing (Checking α)) (fun u _ => Orderly s start u) (Over s resource start)
      (start.atTime (now + elapsed) later) := by
  have htimeout := h.timeout_ne_zero hremaining
  have hleft : p.remaining - elapsed = start.now + s.timeout - (now + elapsed) := by
    rw [h.remaining, Nat.sub_sub]
  refine Growth.meets_pick ?_ (fun _ => ⟨hquiet.checks, hquiet.inTime⟩) ?_
  · intro _
    exact meets_rest hnext hquiet htimeout hleft fun _ => h.rounds.next hremaining fun _ => rfl
  · intro hgrowth extra _
    refine meets_rest hnext hquiet htimeout hleft fun _ => h.rounds.next hremaining ?_
    exact fun hzero => absurd hzero hgrowth

end Check

/-- Rounds end in time with a result that tells what has happened, and do not run out. -/
theorem meets_poll (h : Ready s start limit p now log) :
    (Waiting.poll s resource attempt limit p).Meets (Span.passing (Checking α))
      (fun u _ => Orderly s start u) (Over s resource start) (start.atTime now log) := by
  induction limit generalizing p now log with
  | zero => exact absurd h.rounds Waiting.not_lasts_zero
  | succ limit ih =>
    rw [Waiting.poll]
    refine ⟨⟨h.checks, h.inTime⟩, ?_⟩
    intro asked u hu
    cases asked with
    | true =>
      obtain ⟨hstop, rfl⟩ := hu
      obtain ⟨-, hnever, hlater, hby⟩ := h.toQuiet.atStop hstop (Nat.le_refl _)
      exact ⟨⟨h.checks, h.inTime⟩, _, rfl, rfl, hnever, Nat.le_antisymm hlater hby⟩
    | false =>
      obtain ⟨hrunning, rfl⟩ := hu
      change Meets _ _ _ (if p.remaining = 0 then _ else _) _
      split_ifs with hremaining
      · exact ⟨⟨h.checks, h.inTime⟩, _, rfl, rfl, rfl, h.due hremaining⟩
      apply meets_within ⟨h.checks, h.inTime⟩
      · intro elapsed outcome helapsed hstop
        match outcome with
        | .ok (some a) => exact h.over_given hremaining hrunning helapsed hstop fun u hu => hu
        | .error f =>
          exact h.over_given hremaining hrunning helapsed hstop fun u hu => ⟨rfl, hu⟩
        | .ok none =>
          have hquiet := h.quiet_pending hremaining hrunning helapsed hstop
          exact meets_pick (fun _ _ _ => ih) h hremaining hquiet
      · intro _
        exact h.over_expired hremaining hrunning _
      · intro hstop
        exact h.over_givenUp hremaining hrunning hstop

theorem ready_start (hmax : 0 < s.maxDelay) (start : Watched α) :
    Ready s start s.roundLimit (.start s) start.now [] where
  checks := ⟨.nil, nofun, nofun, nofun⟩
  pending := nofun
  inTime := Nat.le_trans (Nat.le_add_right _ _) start.le_closing
  later := Nat.le_refl _
  before := .inl rfl
  onTick := .inl rfl
  remaining := (Nat.add_sub_cancel_left _ _).symm
  rounds := Waiting.lasts_start hmax

theorem meets_waitFor (hmax : 0 < s.maxDelay) (resource : String) (now : Duration) (stop : Stop)
    (tick : Duration) :
    (waitFor s resource attempt).Meets (Span.passing (Checking α))
      (fun u _ => Orderly s ⟨now, stop, tick, []⟩ u) (Over s resource ⟨now, stop, tick, []⟩)
      ⟨now, stop, tick, []⟩ :=
  meets_poll (ready_start hmax ⟨now, stop, tick, []⟩)

end Rounds

/-- With a greatest delay that is not zero, waiting ends, whatever the checks do and however long
they take: it never stops short of a result, and all the while its time is not past. That is up on
the first tick of the clock from the timeout on, and exactly then if the clock ticks. The checks come
one after the other, and the result tells what has happened at its very time. -/
theorem waiting_ends_in_time {s : WaitSettings} (hmax : 0 < s.maxDelay) (resource : String)
    (now : Duration) (stop : Stop) (tick : Duration) :
    let start : Watched α := ⟨now, stop, tick, []⟩
    let close := start.closing s.timeout
    Acc (Function.swap (Turn (Span.passing (Checking α)))) (waitFor s resource attempt, start) ∧
    now + s.timeout ≤ close ∧ close < now + s.timeout + max tick 1 ∧
    (s.timeout ≠ 0 → start.IsTick close) ∧
    (start.IsTick (now + s.timeout) → close = now + s.timeout) ∧
    ∀ q u, Reaches (Span.passing (Checking α)) (waitFor s resource attempt) start q u →
      OneByOne start s.timeout u ∧ u.now ≤ close ∧
      ((∃ result, q = .done result ∧ Explained resource s.timeout start u result) ∨
        ∃ x, Turn (Span.passing (Checking α)) (q, u) x) := by
  intro start close
  refine ⟨turn_wf.apply _, start.le_closing, start.closing_lt, start.isTick_closing,
    start.closing_eq, ?_⟩
  intro q u hr
  have hmeets := (meets_waitFor hmax resource now stop tick).reaches hr
  match q with
  | .done result =>
    obtain ⟨⟨hchecks, htime⟩, r, hresult, hexplained⟩ := hmeets
    obtain rfl := Option.some.inj hresult
    exact ⟨hchecks, htime, .inl ⟨_, rfl, hexplained⟩⟩
  | .stalled =>
    obtain ⟨-, r, hresult, -⟩ := hmeets
    cases hresult
  | .ask c next =>
    obtain ⟨⟨hchecks, htime⟩, -⟩ := hmeets
    have hanswers : ∀ c, Nonempty ((Checking α).Answer c) := fun _ => ⟨.ok none⟩
    obtain ⟨a, v, hnext⟩ := Task.exists_passing u c
    exact ⟨hchecks, htime, .inr ⟨_, .ask hnext⟩⟩

/-- Whatever serves the checks, waiting gives a result before its time is past. -/
theorem run_waitFor {σ : Type} {s : WaitSettings} (hmax : 0 < s.maxDelay) (resource : String)
    (server : Server (Checking α) σ) (w : World σ) :
    ∃ result u, Task.run server (waitFor s resource attempt) w = (some result, u) ∧
      u.now ≤ w.closing s.timeout := by
  obtain ⟨log, hr⟩ := Task.reaches_run server (waitFor s resource attempt) w []
  have hmeets := (meets_waitFor hmax resource w.now w.stop w.tick).reaches hr
  rcases hrun : Task.run server (waitFor s resource attempt) w with ⟨r, u⟩
  rw [hrun] at hmeets
  match r with
  | none =>
    obtain ⟨-, result, hresult, -⟩ := hmeets
    cases hresult
  | some result =>
    obtain ⟨⟨-, htime⟩, -⟩ := hmeets
    exact ⟨result, u, rfl, htime⟩

/-- Ten nanoseconds, with delays of two and four. -/
def brisk : WaitSettings where
  initialDelay := 2
  maxDelay := 4
  timeout := 10

/-- An exact clock of a wait that is stopped at eight nanoseconds. -/
def stoppedAtEight (now : Duration) (log : List (Span (Checking Unit))) : Watched Unit :=
  ⟨now, .timed 8, 0, log⟩

/-- A check that does not end is given up when a stop is asked for. -/
theorem waiting_ends_in_time_stopped : ∃ u : Watched Unit,
    Reaches (Span.passing (Checking Unit)) (waitFor brisk "r" attempt) (stoppedAtEight 0 [])
      (.done (.error (.stopped "r"))) u ∧
    u.state.map (fun c => (c.started, c.ended)) = [(0, 2), (5, 8)] ∧
    Explained "r" 10 (stoppedAtEight 0 []) u (.error (.stopped "r")) := by
  let pending : Span (Checking Unit) := ⟨(), 0, 2, some (.ok none)⟩
  let unending : Span (Checking Unit) := ⟨(), 5, 8, none⟩
  have hfirst : Span.passing (Checking Unit) (stoppedAtEight 0 []) (.actWithin 10 ())
      (.finished 2 (.ok none)) (stoppedAtEight 2 [pending]) := ⟨by decide, by decide, rfl⟩
  have hrest : Span.passing (Checking Unit) (stoppedAtEight 2 [pending]) (.rest 3)
      (some (3 : Duration)) (stoppedAtEight 5 [pending]) := ⟨by decide, by decide, rfl⟩
  have hsecond : Span.passing (Checking Unit) (stoppedAtEight 5 [pending]) (.actWithin 5 ())
      .stopped (stoppedAtEight 8 [pending, unending]) := by
    have halarm : (stoppedAtEight 5 [pending]).alarmLength 5 = 5 := World.alarmLength_eq (.inl rfl)
    have hby : 8 ≤ 5 + 5 := by decide
    refine ⟨?_, rfl⟩
    rw [halarm]
    exact hby
  have hrunning {now : Duration} {log : List (Span (Checking Unit))} (hnow : now ≤ 8) :
      Span.passing (Checking Unit) (stoppedAtEight now log) .stopRequested false
        (stoppedAtEight now log) := ⟨decide_eq_false (Nat.not_lt_of_le hnow), rfl⟩
  have hreaches : Reaches (Span.passing (Checking Unit)) (waitFor brisk "r" attempt)
      (stoppedAtEight 0 []) (.done (.error (.stopped "r")))
      (stoppedAtEight 8 [pending, unending]) := by
    refine .ask (hrunning (by decide)) ?_
    change Reaches _ (Program.bind (Task.within 10 attempt) _) _ _ _
    rw [within_attempt]
    refine .ask hfirst ?_
    refine .ask (a := (⟨1, by decide⟩ : Fin (max 2 1))) rfl ?_
    refine .ask hrest ?_
    refine .ask (hrunning (by decide)) ?_
    change Reaches _ (Program.bind (Task.within 5 attempt) _) _ _ _
    rw [within_attempt]
    exact .ask hsecond .refl
  refine ⟨_, hreaches, rfl, ?_⟩
  obtain ⟨-, -, -, -, -, hall⟩ := waiting_ends_in_time (s := brisk) (by decide) "r" 0 (.timed 8) 0
  obtain ⟨-, -, ⟨result, hresult, hexplained⟩ | ⟨x, hx⟩⟩ := hall _ _ hreaches
  · obtain rfl := Program.done.inj hresult
    exact hexplained
  · cases hx

/-- One millisecond and a half, with a second between checks. -/
def fractional : WaitSettings where
  initialDelay := .seconds 1
  maxDelay := .seconds 1
  timeout := .millis 1 + 500000

/-- A second between checks, for a millisecond longer than a timer runs. -/
def longLasting : WaitSettings where
  initialDelay := .seconds 1
  maxDelay := .seconds 1
  timeout := Duration.longestTimer + .millis 1

/-- A clock of milliseconds, and checks that all come to `outcome` after a timer of this length. -/
def slowly (length : Duration) (outcome : Except Failure (Option Nat)) :
    World (Simulation.Attempts (Except Failure (Option Nat))) where
  now := 0
  stop := .never
  tick := .millis 1
  state := ⟨⟨(length, outcome), []⟩, []⟩

/-- Waiting goes on past a timeout that lies between ticks, up to the next one; and a check that is
set to take longer than the timeout gives its value if that is longer than a timer runs. -/
theorem waiting_past_timeout :
    (¬∀ (s : WaitSettings) (resource : String)
      (w : World (Simulation.Attempts (Except Failure (Option Nat)))), 0 < s.maxDelay →
        (Task.run Simulation.Replay.server (waitFor s resource attempt) w).2.now ≤
          w.now + s.timeout) ∧
    ¬∀ (s : WaitSettings) (resource : String) (length : Duration)
      (outcome : Except Failure (Option Nat)), 0 < s.maxDelay → s.timeout < length → ∀ a,
        (Task.run Simulation.Replay.server (waitFor s resource attempt)
          (slowly length outcome)).1 ≠ some (.ok a) := by
  constructor
  · intro hclaim
    have hnow := hclaim fractional "r" (slowly 0 (.ok none)) (by decide)
    revert hnow
    decide +kernel
  · intro hclaim
    have hvalue := hclaim longLasting "r" (Duration.longestTimer + .millis 2) (.ok (some 7))
      (by decide) (by decide) 7
    apply hvalue
    decide +kernel

end Decommission
