import Decommission.Proofs.Program.History
import Mathlib.Tactic.SplitIfs

/-!
Tasks on a clock. Calls take any time, pauses last as timers run, and a stop may be asked for at any
moment; of what happens at the same time, either may come first.
-/
namespace Decommission

open Program

/-- A call that was made, from when to when, and its answer unless it was given up. -/
structure Span (I : Interface) where
  call : I.Call
  started : Duration
  ended : Duration
  answer : Option (I.Answer call)

namespace World

variable {σ : Type} {w : World σ} {length : Duration}

/-- A time at which the clock ticks, or a length of time between such. -/
def IsTick (w : World σ) (t : Duration) : Prop := w.tick = 0 ∨ w.tick ∣ t

theorem IsTick.add {t u : Duration} (ht : w.IsTick t) (hu : w.IsTick u) : w.IsTick (t + u) := by
  rcases ht with hzero | ht
  · exact .inl hzero
  rcases hu with hzero | hu
  · exact .inl hzero
  exact .inr (Nat.dvd_add ht hu)

theorem isTick_alarm : w.IsTick (w.now + w.alarmLength length) := by
  rcases Nat.eq_zero_or_pos w.tick with hzero | hpos
  · exact .inl hzero
  right
  have hlt : (w.now + length) % w.tick < w.tick := Nat.mod_lt _ hpos
  rw [alarmLength, ← Nat.add_assoc, Nat.dvd_iff_mod_eq_zero, Nat.add_mod, Nat.mod_mod]
  -- the length ends on a tick, or what is missing to the next one is added
  rcases Nat.eq_zero_or_pos ((w.now + length) % w.tick) with hmod | hmod
  · simp [hmod]
  · rw [Nat.mod_eq_of_lt (Nat.sub_lt hpos hmod), Nat.add_sub_cancel' (Nat.le_of_lt hlt),
      Nat.mod_self]

theorem le_alarmLength : length ≤ w.alarmLength length := Nat.le_add_right _ _

theorem alarmLength_lt : w.alarmLength length < length + max w.tick 1 := by
  refine Nat.add_lt_add_left ?_ _
  rcases Nat.eq_zero_or_pos w.tick with hzero | hpos
  · simp [hzero]
  · exact Nat.lt_of_lt_of_le (Nat.mod_lt _ hpos) (Nat.le_max_left _ _)

/-- An alarm for a tick of the clock is exact. -/
theorem alarmLength_eq (htick : w.IsTick (w.now + length)) : w.alarmLength length = length := by
  rw [alarmLength]
  rcases htick with hzero | htick
  · simp [hzero]
  · rw [Nat.mod_eq_zero_of_dvd htick, Nat.sub_zero, Nat.mod_self, Nat.add_zero]

/-- Alarms for the same moment go off together. -/
theorem now_add_alarmLength_congr {τ : Type} {v : World τ} {other : Duration}
    (hmoment : w.now + length = v.now + other) (htick : w.tick = v.tick) :
    w.now + w.alarmLength length = v.now + v.alarmLength other := by
  rw [alarmLength, alarmLength, ← Nat.add_assoc, ← Nat.add_assoc, hmoment, htick]

/-- An alarm goes off by every tick that comes after its length. -/
theorem now_add_alarmLength_le {t : Duration} (ht : w.IsTick t) (hle : w.now + length ≤ t) :
    w.now + w.alarmLength length ≤ t := by
  have hlt : w.alarmLength length < length + max w.tick 1 := alarmLength_lt
  rcases Nat.eq_zero_or_pos w.tick with hzero | hpos
  · rw [hzero] at hlt
    lia
  -- both are ticks, and less than one apart
  obtain ⟨m, hm⟩ : w.tick ∣ w.now + w.alarmLength length :=
    isTick_alarm.resolve_left (Nat.ne_of_gt hpos)
  obtain ⟨n, rfl⟩ : w.tick ∣ t := ht.resolve_left (Nat.ne_of_gt hpos)
  rw [Nat.max_eq_left hpos] at hlt
  have hnext : w.tick * m < w.tick * (n + 1) := by
    rw [← hm, Nat.mul_add, Nat.mul_one]
    lia
  rw [hm]
  exact Nat.mul_le_mul_left _ (Nat.lt_succ_iff.mp (Nat.lt_of_mul_lt_mul_left hnext))

theorem isTick_pause : w.IsTick (w.now + w.pauseLength length) := isTick_alarm

theorem onTimer_le_pauseLength : length.onTimer ≤ w.pauseLength length := le_alarmLength

theorem pauseLength_lt : w.pauseLength length < length.onTimer + max w.tick 1 := alarmLength_lt

/-- A pause keeps its length if a timer runs that long, and the clock ticks at its end. -/
theorem pauseLength_eq (htimer : length ≤ Duration.longestTimer)
    (htick : w.IsTick (w.now + length)) : w.pauseLength length = length := by
  have honTimer : length.onTimer = length := Nat.min_eq_left htimer
  rw [pauseLength, honTimer]
  exact alarmLength_eq htick

/-- The same time, with another state of the surroundings. -/
def holding {τ : Type} (w : World σ) (state : τ) : World τ := ⟨w.now, w.stop, w.tick, state⟩

theorem atStop_holding {τ : Type} {state : τ} :
    (w.holding state).atStop = w.atStop.holding state := by
  obtain ⟨now, stop, tick, other⟩ := w
  cases stop <;> rfl

/-- A stop is asked for by this moment, or just then. -/
def StopsBy (w : World σ) (moment : Duration) : Prop :=
  match w.stop with
  | .never => False
  | .beforehand => True
  | .timed t => t ≤ moment

theorem stopsBy_of_stopsBefore {moment : Duration} (h : w.stopsBefore moment = true) :
    w.StopsBy moment := by
  obtain ⟨now, stop, tick, state⟩ := w
  cases stop with
  | never => cases h
  | beforehand => trivial
  | timed t => exact Nat.le_of_lt (of_decide_eq_true h)

theorem StopsBy.mono {moment later : Duration} (h : w.StopsBy moment) (hle : moment ≤ later) :
    w.StopsBy later := by
  obtain ⟨now, stop, tick, state⟩ := w
  cases stop with
  | never => cases h
  | beforehand => trivial
  | timed t => exact Nat.le_trans h hle

/-- The world where a call that was made at `started` is over. -/
def record {I : Interface} (w : World (List (Span I))) (started : Duration) (call : I.Call)
    (answer : Option (I.Answer call)) : World (List (Span I)) :=
  { w with state := w.state ++ [⟨call, started, w.now, answer⟩] }

end World

/-- What may happen on a clock, and the calls that were made. -/
def Span.passing (I : Interface) : Surroundings (Timed I) (World (List (Span I)))
  | w, .act c, a, u => ∃ elapsed, u = (w.after elapsed).record w.now c (some a)
  | w, .actWithin limit c, .finished elapsed a, u =>
    elapsed ≤ w.alarmLength limit ∧ w.stopsWithin elapsed = false ∧
      u = (w.after elapsed).record w.now c (some a)
  | w, .actWithin limit c, .expired, u =>
    w.stopsWithin (w.alarmLength limit) = false ∧
      u = (w.after (w.alarmLength limit)).record w.now c none
  | w, .actWithin limit c, .stopped, u =>
    w.StopsBy (w.now + w.alarmLength limit) ∧ u = w.atStop.record w.now c none
  | w, .pause length, _, u => u = w.after (w.pauseLength length)
  | w, .rest length, some elapsed, u =>
    elapsed = w.pauseLength length ∧ w.stopsWithin elapsed = false ∧ u = w.after elapsed
  | w, .rest length, none, u => w.StopsBy (w.now + w.pauseLength length) ∧ u = w.atStop
  | w, .stopRequested, true, u => w.StopsBy w.now ∧ u = w
  | w, .stopRequested, false, u => w.isStopped = false ∧ u = w
  | w, .jitter _, _, u => u = w

namespace Task

variable {I : Interface} {σ α : Type}

/-- One call under a limit. -/
theorem within_act (limit : Duration) (c : I.Call) :
    within limit (act c) = Program.call (I := Timed I) (.actWithin limit c) := by
  rw [within, act, Program.call, withinFrom, Program.call]
  congr 1
  funext cut
  cases cut with
  | finished elapsed a => simp only [Nat.zero_add, withinFrom]
  | expired => rfl
  | stopped => rfl

/-- Something happens next, whatever the call is. -/
theorem exists_passing [∀ c, Nonempty (I.Answer c)] (w : World (List (Span I)))
    (c : Timed.Call I) : ∃ a u, Span.passing I w c a u := by
  cases c with
  | act c =>
    obtain ⟨a⟩ : Nonempty (I.Answer c) := inferInstance
    exact ⟨a, _, 0, rfl⟩
  | actWithin limit c =>
    cases h : w.stopsWithin (w.alarmLength limit) with
    | false => exact ⟨.expired, _, h, rfl⟩
    | true => exact ⟨.stopped, _, World.stopsBy_of_stopsBefore h, rfl⟩
  | pause length => exact ⟨(), _, rfl⟩
  | rest length =>
    cases h : w.stopsWithin (w.pauseLength length) with
    | false => exact ⟨some _, _, rfl, h, rfl⟩
    | true => exact ⟨none, _, World.stopsBy_of_stopsBefore h, rfl⟩
  | stopRequested =>
    cases h : w.isStopped with
    | false => exact ⟨false, _, h, rfl⟩
    | true => exact ⟨true, _, World.stopsBy_of_stopsBefore h, rfl⟩
  | jitter bound => exact ⟨⟨0, by omega⟩, _, rfl⟩

/-- What is left of the program where it ended with this result. -/
def ended : Option α → Task I α
  | some a => .done a
  | none => .stalled

/-- A server answers a call by something that may happen on the clock. -/
theorem exists_step (server : Server I σ) {c : Timed.Call I} (next : Timed.Answer I c → Task I α)
    (w : World σ) (log : List (Span I)) :
    ∃ a u log', Span.passing I (w.holding log) c a (u.holding log') ∧
      Task.run server (.ask c next) w = Task.run server (next a) u := by
  cases c with
  | act c => exact ⟨_, _, _, ⟨_, rfl⟩, rfl⟩
  | actWithin limit c =>
    rcases hserve : server.serve w.now c w.state with ⟨⟨elapsed, a⟩, state⟩
    have hrun : Task.run server (.ask (.actWithin limit c) next) w =
        if w.stopsWithin (min elapsed (w.alarmLength limit)) then
          Task.run server (next .stopped) (w.holding state).atStop
        else if elapsed ≤ w.alarmLength limit then
          Task.run server (next (.finished elapsed a)) ((w.holding state).after elapsed)
        else Task.run server (next .expired)
          ((w.holding state).after (w.alarmLength limit)) := by
      rw [Task.run, hserve]
      rfl
    rw [hrun]
    split_ifs with hstop hle
    -- given up for the stop, answered in time, or given up for the limit
    · have hby : w.StopsBy (w.now + w.alarmLength limit) :=
        (World.stopsBy_of_stopsBefore hstop).mono
          (Nat.add_le_add_left (Nat.min_le_right elapsed _) w.now)
      refine ⟨.stopped, _, log ++ [⟨c, w.now, w.atStop.now, none⟩], ⟨hby, ?_⟩, rfl⟩
      rw [World.atStop_holding, World.atStop_holding]
      rfl
    · rw [Nat.min_eq_left hle] at hstop
      exact ⟨.finished elapsed a, _, _, ⟨hle, eq_false_of_ne_true hstop, rfl⟩, rfl⟩
    · rw [Nat.min_eq_right (Nat.le_of_not_le hle)] at hstop
      exact ⟨.expired, _, _, ⟨eq_false_of_ne_true hstop, rfl⟩, rfl⟩
  | pause length => exact ⟨(), w.after (w.pauseLength length), log, rfl, rfl⟩
  | rest length =>
    cases hstop : w.stopsWithin (w.pauseLength length) with
    | false =>
      refine ⟨some (w.pauseLength length), w.after (w.pauseLength length), log,
        ⟨rfl, hstop, rfl⟩, ?_⟩
      simp only [Task.run, hstop]
      rfl
    | true =>
      refine ⟨none, w.atStop, log, ⟨World.stopsBy_of_stopsBefore hstop, ?_⟩, ?_⟩
      · exact World.atStop_holding.symm
      · simp only [Task.run, hstop, if_true]
  | stopRequested =>
    cases hstop : w.isStopped with
    | false => exact ⟨false, w, log, ⟨hstop, rfl⟩, by rw [Task.run, hstop]⟩
    | true =>
      exact ⟨true, w, log, ⟨World.stopsBy_of_stopsBefore hstop, rfl⟩, by rw [Task.run, hstop]⟩
  | jitter bound => exact ⟨_, w.holding (server.draw bound w.state).2, log, rfl, rfl⟩

/-- What a server does with a task may happen on the clock. -/
theorem reaches_run (server : Server I σ) (p : Task I α) (w : World σ) (log : List (Span I)) :
    ∃ log', Reaches (Span.passing I) p (w.holding log) (ended (Task.run server p w).1)
      ((Task.run server p w).2.holding log') := by
  induction p generalizing w log with
  | done a => exact ⟨log, .refl⟩
  | stalled => exact ⟨log, .refl⟩
  | ask c next ih =>
    obtain ⟨a, u, after, hpassing, hrun⟩ := exists_step server next w log
    obtain ⟨log', hr⟩ := ih a u after
    rw [hrun]
    exact ⟨log', .ask hpassing hr⟩

/-- A server brings a task that is total to a value, and what it does is one of the histories. -/
theorem exists_history (server : Server I σ) {p : Task I α} (hp : p.IsTotal) (w : World σ)
    (h : List (Event (Timed I))) :
    ∃ a u h', Task.run server p w = (some a, u) ∧
      Reaches (Event.recording (Timed I)) p h (.done a) h' := by
  induction p generalizing w h with
  | done a => exact ⟨a, w, h, rfl, .refl⟩
  | stalled => cases hp
  | ask c next ih =>
    obtain ⟨a, u, _, -, hrun⟩ := exists_step server next w []
    obtain ⟨b, v, h', hnext, hr⟩ := ih a (hp a) u (h ++ [⟨c, a⟩])
    exact ⟨b, v, h', hrun.trans hnext, .ask rfl hr⟩

end Task

end Decommission
