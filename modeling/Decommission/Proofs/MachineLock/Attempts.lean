import Decommission.MachineLock
import Decommission.Proofs.Program.Clock
import Decommission.Proofs.Program.Repetition

/-!
Trying for a lock to work under: how often that is done, and what comes of it. As long as the machine
is busy another attempt is made, up to the last that the policy allows; the answer to the last attempt
that is made decides.
-/
namespace Decommission

open Program MachineLock

variable {σ α : Type} {machine : String} {mode : Mode} {policy : RetryPolicy}

namespace Event

/-- An attempt at a lock that was answered like this. -/
def lockTried (machine : String) (mode : Mode) (answer : Except Refusal σ) :
    Event (Timed (Locker σ α)) :=
  ⟨.act (.lock machine mode), answer⟩

/-- Work on a session that left `after` of it. -/
def workDone (before after : σ) (ending : Ending α) : Event (Timed (Locker σ α)) :=
  ⟨.act (.apply before), (after, ending)⟩

def unlocked (session : σ) : Event (Timed (Locker σ α)) := ⟨.act (.unlock session), ()⟩

/-- The answer to an attempt at a lock. -/
def lockAnswer? : Event (Timed (Locker σ α)) → Option (Except Refusal σ)
  | ⟨.act (.lock ..), answer⟩ => some answer
  | _ => none

/-- The attempts at locks were answered by the first of these answers, one after the other. -/
def HadLockAnswers (answers : ℕ → Except Refusal σ) (h : List (Event (Timed (Locker σ α)))) : Prop :=
  ∃ n, h.filterMap lockAnswer? = (List.range n).map answers

end Event

namespace MachineLock

/-- The machine is held by another session. -/
def IsBusy (answer : Except Refusal σ) : Prop := ∃ id text, answer = .error (.busy id text)

/-- The first answer but that the machine is busy is number `j`, counted from one. -/
structure IsFirstOther (answers : ℕ → Except Refusal σ) (j : ℕ) : Prop where
  pos : 0 < j
  before : ∀ i, i + 1 < j → IsBusy (answers i)
  other : ¬IsBusy (answers (j - 1))

/-- What is still done after the last of so many attempts at the lock, and what comes of the whole. -/
inductive Concludes (machine : String) (mode : Mode) (attempts : ℕ) :
    Except Refusal σ → List (Event (Timed (Locker σ α))) → Except Error (Option (Ending α)) → Prop
    where
  | worked {before after : σ} {ending : Ending α} :
    Concludes machine mode attempts (.ok before)
      [.workDone before after ending, .unlocked after] (.ok (some ending))
  | missing {id : String} : Concludes machine mode attempts (.error (.notFound id)) [] (.ok none)
  | exhausted {id text : String} :
    Concludes machine mode attempts (.error (.busy id text)) []
      (.error (.exhausted machine mode attempts (.busy id text)))
  | failed {refusal : Refusal} (hfound : ∀ id, refusal ≠ .notFound id)
    (hbusy : ∀ id text, refusal ≠ .busy id text) :
    Concludes machine mode attempts (.error refusal) [] (.error refusal)

section

variable {answer : Except Refusal σ} {h work : List (Event (Timed (Locker σ α)))}
  {r : Except Error (Option (Ending α))} {attempts : ℕ}

theorem isRetried_iff_isBusy :
    RetryPolicy.isRetried Refusal.isRetryable answer = true ↔ IsBusy answer := by
  rw [RetryPolicy.isRetried_iff]
  constructor
  · rintro ⟨refusal, rfl, hretry⟩
    cases refusal with
    | busy id text => exact ⟨id, text, rfl⟩
    | notFound id | exhausted id mode attempts last | other id failure => cases hretry
  · rintro ⟨id, text, rfl⟩
    exact ⟨.busy id text, rfl, rfl⟩

theorem Concludes.no_lockAnswer (hwork : Concludes machine mode attempts answer work r) :
    work.filterMap Event.lockAnswer? = [] := by
  cases hwork <;> rfl

theorem along_applyAndRelease_iff {session : σ} {ending : Ending α} :
    (applyAndRelease session).Along h (.done ending) ↔
      ∃ after, h = [.workDone session after ending, .unlocked after] := by
  refine along_ask_done_iff.trans ⟨?_, ?_⟩
  · rintro ⟨⟨after, ending'⟩, rest, rfl, hrest⟩
    obtain ⟨⟨⟩, ended, rfl, hended⟩ := along_ask_done_iff.mp hrest
    obtain ⟨rfl, rfl⟩ := along_done_iff.mp hended
    exact ⟨after, rfl⟩
  · rintro ⟨after, rfl⟩
    exact ⟨(after, ending), _, rfl, along_ask_done_iff.mpr ⟨(), [], rfl, .here⟩⟩

/-- The answer to the last attempt decides what follows. -/
theorem along_conclude_iff :
    (conclude machine mode (answer, attempts)).Along work (.done r) ↔
      Concludes machine mode attempts answer work r := by
  match answer with
  | .ok session =>
    refine along_bind_done_iff.trans ⟨?_, ?_⟩
    · rintro ⟨done, rest, ending, rfl, hdone, hrest⟩
      obtain ⟨after, rfl⟩ := along_applyAndRelease_iff.mp hdone
      obtain ⟨rfl, rfl⟩ := along_done_iff.mp hrest
      exact .worked
    · rintro ⟨⟩
      exact ⟨_, [], _, rfl, along_applyAndRelease_iff.mpr ⟨_, rfl⟩, .here⟩
  | .error (.notFound id) =>
    refine along_done_iff.trans ⟨?_, ?_⟩
    · rintro ⟨rfl, rfl⟩
      exact .missing
    · rintro (_ | _ | _ | ⟨hfound, -⟩)
      · exact ⟨rfl, rfl⟩
      · exact absurd rfl (hfound id)
  | .error (.busy id text) =>
    refine along_done_iff.trans ⟨?_, ?_⟩
    · rintro ⟨rfl, rfl⟩
      exact .exhausted
    · rintro (_ | _ | _ | ⟨-, hbusy⟩)
      · exact ⟨rfl, rfl⟩
      · exact absurd rfl (hbusy id text)
  | .error (.exhausted id other count last) | .error (.other id failure) =>
    refine along_done_iff.trans ⟨?_, ?_⟩
    · rintro ⟨rfl, rfl⟩
      exact .failed nofun nofun
    · rintro ⟨⟩
      exact ⟨rfl, rfl⟩

/-- The number of attempts is told only where it is the number of all that are allowed. -/
theorem withLock_eq :
    withLock machine mode policy = (policy.run Refusal.isRetryable (acquire machine mode)).bind
      fun answer : Except Refusal σ =>
        (conclude machine mode (answer, policy.attempts) :
          Task (Locker σ α) (Except Error (Option (Ending α)))) := by
  refine RetryPolicy.runKeeping_counted ?_
  intro answer hfinal m n
  match answer, hfinal with
  | .ok _, _ => rfl
  | .error (.notFound _), _ => rfl
  | .error (.busy id text), hfinal => cases hfinal _ rfl
  | .error (.exhausted ..), _ => rfl
  | .error (.other ..), _ => rfl

/-- The attempts come first, and the last answer decides what follows. -/
theorem along_withLock_iff :
    (withLock machine mode policy).Along h (.done r) ↔ ∃ before work answer, h = before ++ work ∧
      (policy.run Refusal.isRetryable (acquire machine mode)).Along before (.done answer) ∧
        Concludes machine mode policy.attempts answer work r := by
  rw [withLock_eq, along_bind_done_iff]
  simp only [along_conclude_iff]

theorem isTotal_withLock :
    (withLock machine mode policy :
      Task (Locker σ α) (Except Error (Option (Ending α)))).IsTotal := by
  have hattempt : (acquire machine mode : Task (Locker σ α) (Except Refusal σ)).IsTotal :=
    fun _ => trivial
  rw [withLock_eq]
  refine (RetryPolicy.isTotal_run hattempt policy _).bind fun answer => ?_
  match answer with
  | .ok session => exact fun _ _ => trivial
  | .error (.notFound id) => trivial
  | .error (.busy id text) => trivial
  | .error (.exhausted id mode attempts last) => trivial
  | .error (.other id failure) => trivial

/-- Only after an answer that the machine is busy is the number of attempts told. -/
theorem concludes_congr {number : ℕ} (hnumber : IsBusy answer → attempts = number) :
    Concludes machine mode attempts answer work r ↔ Concludes machine mode number answer work r := by
  by_cases hbusy : IsBusy answer
  · rw [hnumber hbusy]
  have hother {m n : ℕ} (hwork : Concludes machine mode m answer work r) :
      Concludes machine mode n answer work r := by
    cases hwork with
    | worked => exact .worked
    | missing => exact .missing
    | exhausted => exact absurd ⟨_, _, rfl⟩ hbusy
    | failed hfound hnot => exact .failed hfound hnot
  exact ⟨hother, hother⟩

end

section

variable {answers : ℕ → Except Refusal σ} {n j : ℕ}

/-- Attempts end with the first answer of another kind, unless the policy ends them before. -/
theorem IsFirstOther.attempts_eq (hj : IsFirstOther answers j)
    (hn : policy.IsLast Refusal.isRetryable answers n) : n + 1 = min j policy.attempts := by
  have hallowed := hn.allowed
  have hpos := hj.pos
  -- number `j` is not busy, so that no attempt is made after it
  have hle : n + 1 ≤ j := by
    by_contra hlt
    have hbusy := hn.before (j - 1) (by omega)
    exact hj.other (isRetried_iff_isBusy.mp hbusy)
  rcases hn.last with hlast | hfinal
  · omega
  · have hge : ¬n + 1 < j := by
      intro hlt
      rw [isRetried_iff_isBusy.mpr (hj.before n hlt)] at hfinal
      cases hfinal
    omega

theorem along_attempts_iff {h : List (Event (Timed (Locker σ α)))} {answer : Except Refusal σ}
    (hn : policy.IsLast Refusal.isRetryable answers n) :
    Event.HadLockAnswers answers h ∧
        (policy.run Refusal.isRetryable (acquire machine mode)).Along h (.done answer) ↔
      h = (List.range n).flatMap (fun i =>
          [.lockTried machine mode (answers i), .paused (policy.delay i)]) ++
            [.lockTried machine mode (answers n)] ∧ answer = answers n := by
  have hattempt (h : List (Event (Timed (Locker σ α)))) (r : Except Refusal σ) :
      (acquire machine mode).Along h (.done r) ↔ ∃ x, h = [.lockTried machine mode x] ∧ r = x :=
    Task.along_act_iff
  have htold (x : Except Refusal σ) :
      [(.lockTried machine mode x : Event (Timed (Locker σ α)))].filterMap Event.lockAnswer? = [x] :=
    rfl
  have hsequence := RetryPolicy.along_run_sequence_iff (h := h) (r := answer) hattempt htold
    (fun _ => rfl) hn
  rw [RetryPolicy.historyFrom_range] at hsequence
  exact hsequence

/-- Whatever the answers are, the lock is tried for until one of them is not that the machine is
busy, or as often as the policy allows, and at least once. The work is done under a lock that is
given, and its ending is the result; there is none for a machine that does not exist; any other
refusal is the error itself, but if the last attempt met with a busy machine all that are allowed were
made, and the error tells their number and that refusal. Whatever the locker, it comes to such an
end. -/
theorem answers_decide (machine : String) (mode : Mode) (policy : RetryPolicy)
    (answers : ℕ → Except Refusal σ) :
    (∃ n, (∀ j, IsFirstOther answers j → n = min j (max 1 policy.maxAttempts)) ∧
      ((∀ i < max 1 policy.maxAttempts, IsBusy (answers i)) → n = max 1 policy.maxAttempts) ∧
      (IsBusy (answers (n - 1)) → n = max 1 policy.maxAttempts) ∧
      ∀ (h : List (Event (Timed (Locker σ α)))) r, Event.HadLockAnswers answers h ∧
          Reaches (Event.recording (Timed (Locker σ α))) (withLock machine mode policy) []
            (.done r) h ↔
        ∃ work, h = (List.range (n - 1)).flatMap (fun i =>
              [.lockTried machine mode (answers i), .paused (policy.delay i)]) ++
            .lockTried machine mode (answers (n - 1)) :: work ∧
          Concludes machine mode n (answers (n - 1)) work r) ∧
    ∀ (τ : Type) (server : Server (Locker σ α) τ) (w : World τ), ∃ r u h,
      Task.run server (withLock machine mode policy) w = (some r, u) ∧
        Reaches (Event.recording (Timed (Locker σ α))) (withLock machine mode policy) []
          (.done r) h := by
  have hattempts : max 1 policy.maxAttempts = policy.attempts := Nat.max_comm _ _
  rw [hattempts]
  obtain ⟨n, hn⟩ := policy.exists_isLast Refusal.isRetryable answers
  have hall (hbusy : IsBusy (answers n)) : n + 1 = policy.attempts := by
    refine hn.last.resolve_right fun hfinal => ?_
    rw [isRetried_iff_isBusy.mpr hbusy] at hfinal
    cases hfinal
  refine ⟨⟨n + 1, fun j hj => hj.attempts_eq hn, fun hbusy => hall (hbusy n hn.allowed), hall, ?_⟩,
    fun τ server w => Task.exists_history server isTotal_withLock w []⟩
  intro h r
  rw [reaches_iff_along, along_withLock_iff, Nat.add_sub_cancel]
  constructor
  · rintro ⟨⟨k, hk⟩, before, work, answer, rfl, hbefore, hwork⟩
    -- the work has no answers of its own
    rw [List.filterMap_append, hwork.no_lockAnswer, List.append_nil] at hk
    obtain ⟨rfl, rfl⟩ := (along_attempts_iff hn).mp ⟨⟨k, hk⟩, hbefore⟩
    exact ⟨work, (List.append_cons _ _ _).symm, (concludes_congr hall).mpr hwork⟩
  · rintro ⟨work, rfl, hwork⟩
    obtain ⟨⟨k, hk⟩, hbefore⟩ := (along_attempts_iff hn).mpr ⟨rfl, rfl⟩
    refine ⟨⟨k, ?_⟩, _, work, _, List.append_cons _ _ _, hbefore, (concludes_congr hall).mp hwork⟩
    rw [List.append_cons, List.filterMap_append, hk, hwork.no_lockAnswer, List.append_nil]

end

end MachineLock

end Decommission
