import Decommission.Proofs.ControlPlane.Requests
import Decommission.Proofs.Program.Clock
import Decommission.Proofs.Program.Retrying
import Decommission.Simulation.Wire
import Mathlib.Algebra.BigOperators.Group.Finset.Basic
import Mathlib.Data.Nat.Find

/-!
The requests that one call sends before a transport with written replies: how many they are, which
reply decides, and how much time they take.
-/
namespace Decommission

open Http (Transport Request Reply Method)

namespace Simulation

/-- The reply within a limit of time, and how long it takes. -/
def WireReply.within (timeout : Duration) (r : WireReply) :
    Duration × Except TransportFault Reply :=
  ((min r.delay timeout).onTimer,
    if timeout < r.delay then .error .timeout else r.outcome.map receive)

namespace Wire

/-- What answers the request before which there are `i` others, and how long it takes. -/
def answerAt (w : Wire) (timeout : Duration) (i : Nat) : Duration × Except TransportFault Reply :=
  w.replies[i]?.elim (0, .error .unscripted) (WireReply.within timeout)

/-- The transport after `n` requests that are all the same. -/
def after (w : Wire) (n : Nat) (request : Request) : Wire :=
  { w with replies := w.replies.drop n, requests := w.requests ++ List.replicate n request }

theorem after_zero (w : Wire) (request : Request) : w.after 0 request = w := by
  simp [after]

theorem send_after {request : Request} (timeout : Duration) (w : Wire) (n : Nat)
    (hrequest : (request.headers.all fun p => Http.isHeaderValue p.2) = true) :
    (w.after n request).send request timeout = (w.answerAt timeout n, w.after (n + 1) request) := by
  have hrequests : w.requests ++ List.replicate n request ++ [request] =
      w.requests ++ List.replicate (n + 1) request := by
    rw [List.append_assoc, ← List.replicate_succ']
  rw [send, if_pos hrequest]
  simp only [after, answerAt, hrequests]
  cases hr : w.replies[n]? with
  | none =>
    rw [List.getElem?_eq_none_iff] at hr
    rw [List.drop_eq_nil_of_le hr, List.drop_eq_nil_of_le (Nat.le_succ_of_le hr)]
    rfl
  | some r =>
    obtain ⟨hn, rfl⟩ := List.getElem?_eq_some_iff.mp hr
    rw [List.drop_eq_getElem_cons hn]
    simp only [Option.elim_some, WireReply.within]
    split_ifs with htimeout
    · rw [Nat.min_eq_right (Nat.le_of_lt htimeout)]
    · rw [Nat.min_eq_left (Nat.le_of_not_lt htimeout)]

end Wire

end Simulation

namespace ControlPlane.Connection

open Simulation

variable {c : Connection} {w : World Wire} {method : Method} {url : String}

theorem valid_request (htoken : Http.isHeaderValue c.accessToken = true) :
    ((c.request method url).headers.all fun p => Http.isHeaderValue p.2) = true := by
  have hbearer : Http.isHeaderValue ("Bearer " ++ c.accessToken) = true := by
    rw [Http.isHeaderValue, String.toList_append, List.all_append, Bool.and_eq_true]
    exact ⟨by decide, htoken⟩
  have hagent : Http.isHeaderValue Http.userAgent = true := by decide
  simp [request, hbearer, hagent]

/-- What answers the request before which there are `i` others, and how long it takes. -/
def answer (c : Connection) (w : World Wire) (i : Nat) : Duration × Except TransportFault Reply :=
  w.state.answerAt c.requestTimeout i

/-- The pause after the request before which there are `i` others, which was answered at `now`. -/
def pauseFrom (c : Connection) (w : World Wire) (i : Nat) (now : Duration) : Duration :=
  ({ w with now } : World Wire).pauseLength (c.retry.delay i)

/-- When the request is sent before which there are `i` others. -/
def sentAt (c : Connection) (w : World Wire) : Nat → Duration
  | 0 => w.now
  | i + 1 =>
    let answered := sentAt c w i + (c.answer w i).1
    answered + c.pauseFrom w i answered

/-- The pause after that request. -/
def pause (c : Connection) (w : World Wire) (i : Nat) : Duration :=
  c.pauseFrom w i (c.sentAt w i + (c.answer w i).1)

/-- The world when the request is sent before which there are `i` others. -/
def worldAt (c : Connection) (w : World Wire) (request : Request) (i : Nat) : World Wire :=
  ⟨c.sentAt w i, w.stop, w.tick, w.state.after i request⟩

theorem run_sendOnce (htoken : Http.isHeaderValue c.accessToken = true) (i : Nat) :
    Task.run Wire.server (c.sendOnce method url) (c.worldAt w (c.request method url) i) =
      (some (judge method url (c.answer w i).2),
        ⟨c.sentAt w i + (c.answer w i).1, w.stop, w.tick,
          w.state.after (i + 1) (c.request method url)⟩) := by
  have hvalid : ((c.request method url).headers.all fun p => Http.isHeaderValue p.2) = true :=
    valid_request htoken
  have hsend := Wire.send_after c.requestTimeout w.state i hvalid
  simp only [sendOnce, Task.act, Program.call, Program.bind_ask, Program.bind_done, Task.run,
    Wire.server, worldAt, hsend]
  rfl

/-- Each request finds the transport as the ones before have left it. -/
theorem worldBefore_eq (htoken : Http.isHeaderValue c.accessToken = true) (i : Nat) :
    c.retry.worldBefore Wire.server (c.sendOnce method url) w i =
      c.worldAt w (c.request method url) i := by
  induction i with
  | zero =>
    rw [RetryPolicy.worldBefore, worldAt, Wire.after_zero]
    rfl
  | succ i ih =>
    rw [RetryPolicy.worldBefore, ih, run_sendOnce htoken]
    rfl

/-- The script ends with a failure that is not tried again, if nothing else comes before. -/
theorem exists_final (c : Connection) (w : World Wire) : ∃ i, isFinal (c.answer w i).2 = true := by
  refine ⟨w.state.replies.length, ?_⟩
  rw [answer, Wire.answerAt, List.getElem?_eq_none (Nat.le_refl _)]
  rfl

/-- A request is sent up to the first answer that is final, or to the last attempt. -/
theorem run_send (htoken : Http.isHeaderValue c.accessToken = true) {n : Nat}
    (hn : n < c.retry.attempts) (hbefore : ∀ i < n, isFinal (c.answer w i).2 = false)
    (hlast : n + 1 = c.retry.attempts ∨ isFinal (c.answer w n).2 = true) :
    Task.run Wire.server (c.send method url) w =
      (some (judge method url (c.answer w n).2),
        ⟨c.sentAt w n + (c.answer w n).1, w.stop, w.tick,
          w.state.after (n + 1) (c.request method url)⟩) := by
  have houtcome (i : Nat) : c.retry.outcome Wire.server (c.sendOnce method url) w i =
      some (judge method url (c.answer w i).2) := by
    rw [RetryPolicy.outcome, worldBefore_eq htoken, run_sendOnce htoken]
  have hrun : Task.run Wire.server (c.send method url) w =
      Task.run Wire.server (c.sendOnce method url)
        (c.retry.worldBefore Wire.server (c.sendOnce method url) w n) := by
    apply RetryPolicy.run_run hn
    · intro i hi
      obtain ⟨f, hf, hretry⟩ : ∃ f, judge method url (c.answer w i).2 = .error f ∧
          isRetryable f = true := judge_of_not_final (hbefore i hi)
      exact ⟨f, by rw [houtcome, hf], hretry⟩
    · refine hlast.imp_right fun hfinal e he => ?_
      rw [houtcome] at he
      rw [isRetryable_of_judge (Option.some.inj he), hfinal]
      rfl
  rw [hrun, worldBefore_eq htoken, run_sendOnce htoken]

theorem sentAt_eq (i : Nat) :
    c.sentAt w i = w.now + ∑ j ∈ Finset.range i, (c.answer w j).1 +
      ∑ j ∈ Finset.range i, c.pause w j := by
  induction i with
  | zero => rfl
  | succ i ih =>
    have hnext : c.sentAt w (i + 1) = c.sentAt w i + (c.answer w i).1 + c.pause w i := rfl
    rw [hnext, ih, Finset.sum_range_succ, Finset.sum_range_succ]
    ac_rfl

theorem isTick_sentAt (i : Nat) : w.IsTick (c.sentAt w (i + 1)) :=
  World.isTick_pause (w := ({ w with now := c.sentAt w i + (c.answer w i).1 } : World Wire))

/-- Where all times are those of ticks, the pauses are the delays of the policy. -/
theorem pause_eq {k : Nat} (hnow : w.IsTick w.now)
    (hanswers : ∀ i, i + 1 < k → w.IsTick (c.answer w i).1)
    (hdelays : ∀ i, i + 1 < k → w.IsTick (c.retry.delay i) ∧
      c.retry.delay i ≤ Duration.longestTimer) {i : Nat} (hi : i + 1 < k) :
    c.pause w i = c.retry.delay i := by
  -- every request but the first is sent at the end of a pause, which is a tick
  have hsent : w.IsTick (c.sentAt w i) := by
    cases i with
    | zero => exact hnow
    | succ i => exact isTick_sentAt i
  obtain ⟨htick, htimer⟩ := hdelays i hi
  exact World.pauseLength_eq htimer ((hsent.add (hanswers i hi)).add htick)

/-- The last request is the first whose answer is final, unless the attempts are used up before. -/
theorem exists_last (c : Connection) (w : World Wire) :
    ∃ n < c.retry.attempts, (∀ i < n, isFinal (c.answer w i).2 = false) ∧
      (n + 1 = c.retry.attempts ∨ isFinal (c.answer w n).2 = true) := by
  classical
  have hattempts : 0 < c.retry.attempts :=
    Nat.lt_of_lt_of_le Nat.zero_lt_one (Nat.le_max_right _ _)
  have hfinal := c.exists_final w
  -- the attempts are used up, or the first final answer comes before that
  refine ⟨min (c.retry.attempts - 1) (Nat.find hfinal), ?_, ?_, ?_⟩
  · exact Nat.lt_of_le_of_lt (Nat.min_le_left _ _) (Nat.sub_lt hattempts Nat.zero_lt_one)
  · intro i hi
    have hfind := Nat.find_min hfinal (Nat.lt_of_lt_of_le hi (Nat.min_le_right _ _))
    simpa using hfind
  · rcases Nat.le_total (c.retry.attempts - 1) (Nat.find hfinal) with hle | hle
    · left
      rw [Nat.min_eq_left hle]
      exact Nat.sub_add_cancel hattempts
    · right
      rw [Nat.min_eq_right hle]
      exact Nat.find_spec hfinal

/-- A call of one request sends that request `k` times, where the `k`-th answer is the first that is
final, or that to the last attempt of the policy. The call concludes from that answer alone, after
the times of the `k` answers and of the pauses between, each of which is the delay of the policy as
a timer keeps it: as long as timers run, and up to the next tick of the clock. -/
theorem requests_up_to_final {call : Call} {r : OneRequest (Result call)}
    (hcall : c.oneRequest? call = some r) (htoken : Http.isHeaderValue c.accessToken = true)
    (w : World Wire) :
    ∃ k, 0 < k ∧ k ≤ c.retry.attempts ∧ (∀ i, i + 1 < k → isFinal (c.answer w i).2 = false) ∧
      (k = c.retry.attempts ∨ isFinal (c.answer w (k - 1)).2 = true) ∧
      ∃ ended : Duration,
        Task.run Wire.server (c.carryOut call) w =
          (some (r.conclude (judge r.method r.url (c.answer w (k - 1)).2)),
            ⟨ended, w.stop, w.tick, w.state.after k (c.request r.method r.url)⟩) ∧
        ended = w.now + ∑ i ∈ Finset.range k, (c.answer w i).1 +
          ∑ i ∈ Finset.range (k - 1), c.pause w i ∧
        (∀ i, (c.retry.delay i).onTimer ≤ c.pause w i ∧
          c.pause w i < (c.retry.delay i).onTimer + max w.tick 1 ∧
          w.IsTick (c.sentAt w (i + 1))) ∧
        (w.IsTick w.now → (∀ i, i + 1 < k → w.IsTick (c.answer w i).1) →
          (∀ i, i + 1 < k → w.IsTick (c.retry.delay i) ∧
            c.retry.delay i ≤ Duration.longestTimer) →
          ended = w.now + ∑ i ∈ Finset.range k, (c.answer w i).1 +
            ∑ i ∈ Finset.range (k - 1), c.retry.delay i) := by
  obtain ⟨n, hn, hbefore, hlast⟩ := c.exists_last w
  have hended : c.sentAt w n + (c.answer w n).1 =
      w.now + ∑ i ∈ Finset.range (n + 1), (c.answer w i).1 +
        ∑ i ∈ Finset.range n, c.pause w i := by
    rw [sentAt_eq, Finset.sum_range_succ]
    ac_rfl
  refine ⟨n + 1, Nat.succ_pos n, hn, fun i hi => hbefore i (Nat.lt_of_succ_lt_succ hi), hlast,
    c.sentAt w n + (c.answer w n).1, ?_, hended, ?_, ?_⟩
  · rw [carryOut_eq hcall, Task.run_bind, run_send htoken hn hbefore hlast]
    rfl
  · intro i
    exact ⟨World.onTimer_le_pauseLength, World.pauseLength_lt, isTick_sentAt i⟩
  · intro hnow hanswers hdelays
    have hpauses : ∑ i ∈ Finset.range n, c.pause w i = ∑ i ∈ Finset.range n, c.retry.delay i := by
      apply Finset.sum_congr rfl
      intro i hi
      exact pause_eq hnow hanswers hdelays (Nat.succ_lt_succ (Finset.mem_range.mp hi))
    rw [hended, hpauses]
    rfl

/-- Three attempts, with delays of 300 and, doubled, of a little more than 600 milliseconds. -/
def patient : Connection where
  root := ⟨"https://e", "s"⟩
  accessToken := "t"
  requestTimeout := Duration.seconds 60
  retry := .exponential 3 (Duration.millis 300) (Duration.seconds 10)

/-- A service that fails twice, on a clock of milliseconds. -/
def failsTwice : World Wire where
  now := 0
  stop := .never
  tick := Duration.millis 1
  state :=
    { replies := [⟨0, .ok ⟨503, [], .ok ""⟩⟩, ⟨0, .ok ⟨503, [], .ok ""⟩⟩, ⟨0, .ok ⟨204, [], .ok ""⟩⟩]
      requests := [] }

/-- The deletion of the card `n` in the group `g`. -/
def cardDeletion : OneRequest Deletion :=
  ⟨.delete, patient.root.resourceUrl .networkInterface "g" "n", deletionOf⟩

theorem failsTwice_not_final (i : Nat) (hi : i + 1 < 3) :
    isFinal (patient.answer failsTwice i).2 = false := by
  obtain rfl | rfl : i = 0 ∨ i = 1 := by omega
  · decide +kernel
  · decide +kernel

/-- The deletion of the card is asked for three times. -/
theorem requests_up_to_final_third :
    patient.oneRequest? (.delete .networkInterface "g" "n") = some cardDeletion ∧
    Http.isHeaderValue patient.accessToken = true ∧
    (Task.run Wire.server (patient.carryOut (.delete .networkInterface "g" "n")) failsTwice).1 =
      some (.ok .alreadyAbsent) ∧
    (Task.run Wire.server (patient.carryOut (.delete .networkInterface "g" "n"))
        failsTwice).2.state.requests =
      List.replicate 3 (patient.request .delete cardDeletion.url) := by
  have hcall : patient.oneRequest? (.delete .networkInterface "g" "n") = some cardDeletion := rfl
  have htoken : Http.isHeaderValue patient.accessToken = true := by decide
  obtain ⟨k, hpos, hle, -, hlast, ended, hrun, -⟩ := requests_up_to_final hcall htoken failsTwice
  obtain rfl : k = 3 := by
    rcases hlast with hlast | hlast
    · exact hlast
    by_contra hne
    have hle : k ≤ 3 := hle
    rw [failsTwice_not_final (k - 1) (by omega)] at hlast
    cases hlast
  refine ⟨hcall, htoken, ?_, ?_⟩
  · rw [hrun]
    rfl
  · rw [hrun]
    rfl

/-- The pauses between three requests end on whole milliseconds, and so take longer than the delays
of the policy. -/
theorem pauses_not_delays :
    ¬∀ (c : Connection) (call : Call) (r : OneRequest (Result call)) (w : World Wire) (k : Nat),
      c.oneRequest? call = some r → Http.isHeaderValue c.accessToken = true → 0 < k →
        k ≤ c.retry.attempts → (∀ i, i + 1 < k → isFinal (c.answer w i).2 = false) →
          (k = c.retry.attempts ∨ isFinal (c.answer w (k - 1)).2 = true) →
            (Task.run Wire.server (c.carryOut call) w).2.now =
              w.now + ∑ i ∈ Finset.range k, (c.answer w i).1 +
                ∑ i ∈ Finset.range (k - 1), c.retry.delay i := by
  intro hclaim
  have hnow := hclaim patient (.delete .networkInterface "g" "n") cardDeletion failsTwice 3 rfl
    (by decide) (by decide) (by decide) failsTwice_not_final (.inl rfl)
  revert hnow
  decide +kernel

end ControlPlane.Connection

end Decommission
