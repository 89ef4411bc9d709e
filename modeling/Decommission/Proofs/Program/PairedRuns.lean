import Decommission.Proofs.Program.Clock
import Decommission.Proofs.Program.Paired

/-!
Runs of two programs that go side by side, on servers that answer paired calls alike. They end at
the same time, and make their calls at the same times.
-/
namespace Decommission

open Program

variable {I : Interface} {σ τ α β : Type}

section

variable {server : Server I σ} {server' : Server I τ} {P : Pairing I} {final : σ → Prop}
  {inv : σ → τ → Prop}

/-- Paired calls are answered alike and after the same time where the states of both servers are
related. Of the first one only runs matter that come to a state of which `final` holds. -/
structure Server.AnswersAlike (P : Pairing I) (final : σ → Prop) (inv : σ → τ → Prop)
    (server : Server I σ) (server' : Server I τ) : Prop where
  final_serve (now : Duration) (c : I.Call) (s : σ) : final (server.serve now c s).2 → final s
  serve {c d : I.Call} {R : I.Answer c → I.Answer d → Prop} (hcall : P c d R) (now : Duration)
    {s : σ} {t : τ} (hinv : inv s t) (hfinal : final (server.serve now c s).2) :
    (server'.serve now d t).1.1 = (server.serve now c s).1.1 ∧
    R (server.serve now c s).1.2 (server'.serve now d t).1.2 ∧
    inv (server.serve now c s).2 (server'.serve now d t).2
  final_draw (bound : Duration) (s : σ) : final (server.draw bound s).2 → final s
  draw (bound : Duration) {s : σ} {t : τ} (hinv : inv s t) :
    (server'.draw bound t).1 = (server.draw bound s).1 ∧
    inv (server.draw bound s).2 (server'.draw bound t).2

/-- How a call under a limit ends that takes this time, and the world afterwards. -/
def World.cut (w : World σ) (limit elapsed : Duration) (a : α) : Cut α × World σ :=
  if w.stopsWithin (min elapsed (w.alarmLength limit)) then (.stopped, w.atStop)
  else if elapsed ≤ w.alarmLength limit then (.finished elapsed a, w.after elapsed)
  else (.expired, w.after (w.alarmLength limit))

theorem Task.run_actWithin {limit : Duration} {c : I.Call} {next : Cut (I.Answer c) → Task I α}
    {w : World σ} :
    Task.run server (.ask (.actWithin limit c) next) w =
      let served := server.serve w.now c w.state
      let cut := World.cut { w with state := served.2 } limit served.1.1 served.1.2
      Task.run server (next cut.1) cut.2 := by
  simp only [Task.run, World.cut]
  split_ifs
  · rfl
  · rfl
  · rfl

theorem World.cut_state {w : World σ} {limit elapsed : Duration} {a : α} :
    (w.cut limit elapsed a).2.state = w.state := by
  rw [cut]
  split_ifs
  · exact Task.atStop_state w
  · rfl
  · rfl

/-- Whether a call is given up does not depend on its answer. -/
theorem World.cut_holding {R : α → β → Prop} (w : World σ) (state : τ) (limit elapsed : Duration)
    {a : α} {b : β} (hab : R a b) :
    Cut.Alike R (w.cut limit elapsed a).1 ((w.holding state).cut limit elapsed b).1 ∧
      ((w.holding state).cut limit elapsed b).2 = (w.cut limit elapsed a).2.holding state := by
  have halarm : (w.holding state).alarmLength limit = w.alarmLength limit := rfl
  have hstops : (w.holding state).stopsWithin (min elapsed (w.alarmLength limit)) =
      w.stopsWithin (min elapsed (w.alarmLength limit)) := rfl
  rw [cut, cut, halarm, hstops]
  split_ifs
  · exact ⟨.stopped, World.atStop_holding⟩
  · exact ⟨.finished elapsed hab, rfl⟩
  · exact ⟨.expired, rfl⟩

/-- Where a run comes to such a state it has been in such states all along. -/
theorem Server.AnswersAlike.final_start (h : AnswersAlike P final inv server server')
    {p : Task I α} {w : World σ} (hfinal : final (Task.run server p w).2.state) :
    final w.state := by
  induction p generalizing w with
  | done a => exact hfinal
  | stalled => exact hfinal
  | ask c next ih =>
    cases c with
    | act c => exact h.final_serve w.now c w.state (ih _ hfinal)
    | actWithin limit c =>
      rw [Task.run_actWithin] at hfinal
      have hcut := ih _ hfinal
      rw [World.cut_state] at hcut
      exact h.final_serve w.now c w.state hcut
    | pause length => exact ih () (w := w.after (w.pauseLength length)) hfinal
    | rest length =>
      simp only [Task.run] at hfinal
      split_ifs at hfinal
      · have hstop := ih _ hfinal
        rwa [Task.atStop_state] at hstop
      · exact ih _ (w := w.after (w.pauseLength length)) hfinal
    | stopRequested => exact ih _ hfinal
    | jitter bound => exact h.final_draw bound w.state (ih _ hfinal)

/-- Tasks side by side run side by side, from the same time on to the same time. -/
theorem Program.Paired.run_alike {post : α → β → Prop} {p : Task I α} {q : Task I β}
    (h : Paired P.timed post p q) (hservers : server.AnswersAlike P final inv server')
    {w : World σ} {t : τ} (hinv : inv w.state t) (hfinal : final (Task.run server p w).2.state) :
    ∃ r t', Task.run server' q (w.holding t) = (r, (Task.run server p w).2.holding t') ∧
      Option.Rel post (Task.run server p w).1 r ∧ inv (Task.run server p w).2.state t' := by
  induction h generalizing w t with
  | done h => exact ⟨_, t, rfl, .some h, hinv⟩
  | stalled => exact ⟨_, t, rfl, .none, hinv⟩
  | @ask c d R next next' hcall _ ih =>
    cases hcall with
    | @act x y _ hxy =>
      let after : World σ := World.after { w with state := (server.serve w.now x w.state).2 }
        (server.serve w.now x w.state).1.1
      obtain ⟨htime, hR, hserved⟩ :=
        hservers.serve hxy w.now hinv (hservers.final_start (w := after) hfinal)
      have hrun : Task.run server' (.ask (.act y) next') (w.holding t) =
          Task.run server' (next' (server'.serve w.now y t).1.2)
            (after.holding (server'.serve w.now y t).2) := by
        simp only [after, World.holding, World.after, ← htime]
        rfl
      rw [hrun]
      exact ih _ _ hR (w := after) hserved hfinal
    | @actWithin limit x y _ hxy =>
      let served : World σ := { w with state := (server.serve w.now x w.state).2 }
      let cut := served.cut limit (server.serve w.now x w.state).1.1
        (server.serve w.now x w.state).1.2
      have hfirst : Task.run server (.ask (.actWithin limit x) next) w =
          Task.run server (next cut.1) cut.2 := Task.run_actWithin
      rw [hfirst] at hfinal ⊢
      have hcut : cut.2.state = served.state := World.cut_state
      have hserve : final served.state := by
        rw [← hcut]
        exact hservers.final_start hfinal
      obtain ⟨htime, hR, hserved⟩ := hservers.serve hxy w.now hinv hserve
      obtain ⟨halike, hworld⟩ := served.cut_holding (server'.serve w.now y t).2 limit
        (server.serve w.now x w.state).1.1 hR
      have hrun : Task.run server' (.ask (.actWithin limit y) next') (w.holding t) =
          Task.run server' (next' ((served.holding (server'.serve w.now y t).2).cut limit
              (server.serve w.now x w.state).1.1 (server'.serve w.now y t).1.2).1)
            (cut.2.holding (server'.serve w.now y t).2) := by
        rw [Task.run_actWithin, ← hworld, ← htime]
        rfl
      rw [hrun]
      refine ih _ _ halike (w := cut.2) ?_ hfinal
      rwa [hcut]
    | pause length => exact ih () () rfl (w := w.after (w.pauseLength length)) hinv hfinal
    | rest length =>
      have hlength : (w.holding t).pauseLength length = w.pauseLength length := rfl
      have hstops : (w.holding t).stopsWithin (w.pauseLength length) =
          w.stopsWithin (w.pauseLength length) := rfl
      simp only [Task.run, hlength, hstops] at hfinal ⊢
      split_ifs at hfinal ⊢
      · rw [World.atStop_holding]
        refine ih none none rfl ?_ hfinal
        rwa [Task.atStop_state]
      · exact ih _ _ rfl (w := w.after (w.pauseLength length)) hinv hfinal
    | stopRequested => exact ih w.isStopped w.isStopped rfl hinv hfinal
    | jitter bound =>
      obtain ⟨hextra, hdrawn⟩ := hservers.draw bound hinv
      exact ih _ _ hextra.symm (w := { w with state := (server.draw bound w.state).2 }) hdrawn
        hfinal

/-! ### When calls are made -/

/-- The server, which also notes the times at which calls come. -/
def Server.noting (server : Server I σ) : Server I (σ × List Duration) where
  serve now c s := ((server.serve now c s.1).1, (server.serve now c s.1).2, s.2 ++ [now])
  draw bound s := ((server.draw bound s.1).1, (server.draw bound s.1).2, s.2)

/-- The times at which the calls of a run come to the server. -/
def Task.callTimes (server : Server I σ) (p : Task I α) (w : World σ) : List Duration :=
  (Task.run server.noting p (w.holding (w.state, []))).2.state.2

/-- Calls go beside themselves. -/
inductive Pairing.same : (c d : I.Call) → (I.Answer c → I.Answer d → Prop) → Prop where
  | refl (c : I.Call) : same c c (· = ·)

theorem Task.makes_same (p : Task I α) : p.Makes fun c => Pairing.same c c (· = ·) := by
  induction p with
  | done a => trivial
  | stalled => trivial
  | ask c next ih => exact ⟨fun x _ => .refl x, ih⟩

/-- The notes change nothing about a run. -/
theorem Task.run_noting (server : Server I σ) (p : Task I α) (w : World σ)
    (times : List Duration) :
    ∃ times', Task.run server.noting p (w.holding (w.state, times)) =
      ((Task.run server p w).1,
        (Task.run server p w).2.holding ((Task.run server p w).2.state, times')) := by
  have hservers : server.AnswersAlike Pairing.same (fun _ => True) (fun s t => t.1 = s)
      server.noting := by
    refine ⟨fun _ _ _ _ => trivial, ?_, fun _ _ _ => trivial, ?_⟩
    · rintro c _ _ ⟨⟩ now _ ⟨s, times⟩ rfl -
      exact ⟨rfl, rfl, rfl⟩
    · rintro bound _ ⟨s, times⟩ rfl
      exact ⟨rfl, rfl⟩
  obtain ⟨r, ⟨state, times'⟩, hrun, hresult, hstate⟩ :=
    (paired_self p.makes_same).run_alike hservers (t := (w.state, times)) rfl trivial
  have hsame : r = (Task.run server p w).1 := by
    generalize (Task.run server p w).1 = first at hresult
    cases hresult with
    | none => rfl
    | some h => rw [h]
  subst hsame
  obtain rfl : state = (Task.run server p w).2.state := hstate
  exact ⟨times', hrun⟩

theorem Server.AnswersAlike.noting (h : AnswersAlike P final inv server server') :
    AnswersAlike P (fun s => final s.1) (fun s t => inv s.1 t.1 ∧ t.2 = s.2) server.noting
      server'.noting where
  final_serve now c s := h.final_serve now c s.1
  serve := by
    rintro c d R hcall now s t ⟨hinv, htimes⟩ hfinal
    obtain ⟨htime, hR, hserved⟩ := h.serve hcall now hinv hfinal
    exact ⟨htime, hR, hserved, congrArg (· ++ [now]) htimes⟩
  final_draw bound s := h.final_draw bound s.1
  draw := by
    rintro bound s t ⟨hinv, htimes⟩
    obtain ⟨hextra, hdrawn⟩ := h.draw bound hinv
    exact ⟨hextra, hdrawn, htimes⟩

/-- Tasks side by side make their calls at the same times. -/
theorem Program.Paired.callTimes_eq {post : α → β → Prop} {p : Task I α} {q : Task I β}
    (h : Paired P.timed post p q) (hservers : server.AnswersAlike P final inv server')
    {w : World σ} {t : τ} (hinv : inv w.state t) (hfinal : final (Task.run server p w).2.state) :
    Task.callTimes server' q (w.holding t) = Task.callTimes server p w := by
  obtain ⟨times, hfirst⟩ := Task.run_noting server p w []
  have hnoted : final (Task.run server.noting p (w.holding (w.state, []))).2.state.1 := by
    rw [hfirst]
    exact hfinal
  obtain ⟨_, t', hrun, -, -, htimes⟩ :=
    h.run_alike hservers.noting (w := w.holding (w.state, [])) (t := (t, [])) ⟨hinv, rfl⟩ hnoted
  have hsecond : Task.callTimes server' q (w.holding t) = t'.2 :=
    congrArg (fun run : Option β × World (τ × List Duration) => run.2.state.2) hrun
  exact hsecond.trans htimes

end

end Decommission
