import Decommission.Proofs.Teardown.Failing
import Decommission.Proofs.Teardown.Settling
import Decommission.Proofs.Wait.Deadline

/-!
How the rounds of a wait go on. What is done next is told by the last event, and by the time that is
left then. The rounds do not run out where rests last.
-/
namespace Decommission.Teardown

open Program

variable {σ α β : Type} {timeout : Duration} {h : History σ}

/-- The last events with which a wait has come to a phase. -/
inductive Phase.Begins : Phase → Event (Timed (Service σ)) → Prop where
  | called {c : Call σ} {answer : Answer σ c} : Begins .asking ⟨.act c, answer⟩
  | rested {length passed : Duration} : Begins .asking ⟨.rest length, some passed⟩
  | running : Begins .looking ⟨.stopRequested, false⟩
  | looked {operation : String} {left elapsed : Duration} :
    Begins .drawing ⟨lookWithin operation left, .finished elapsed (.ok .inProgress)⟩
  | undrawn {operation : String} {left elapsed : Duration} :
    Begins .resting ⟨lookWithin operation left, .finished elapsed (.ok .inProgress)⟩
  | drawn {bound : Duration} {extra : Fin (max bound 1)} : Begins .resting ⟨.jitter bound, extra⟩

/-- A wait with this history has come to the phase. -/
def Phase.After (phase : Phase) (h : History σ) : Prop :=
  ∃ before last, h = before ++ [last] ∧ phase.Begins last

/-- The calls that are made in a phase where so much time is left. -/
def Phase.Calls (operation : String) (left : Duration) : Phase → Timed.Call (Service σ) → Prop
  | .asking, c => c = .stopRequested
  | .looking, c => c = lookWithin operation left
  | .drawing, c => ∃ bound, c = .jitter bound
  | .resting, c => ∃ length, length ≤ left ∧ c = .rest length

/-- The next round of a wait goes on from where the last event has left it. -/
def GoesOn (timeout : Duration) (operation : String) (h : History σ)
    (c : Timed.Call (Service σ)) : Prop :=
  ∃ phase : Phase, phase.After h ∧ phase.Calls operation (timeout - (sceneAfter h).spent) c

/-- Time goes by only while the rounds of a wait go on. -/
def Proceeds (timeout : Duration) (h : History σ) : Timed.Call (Service σ) → Prop
  | .act _ => True
  | c => ∃ operation, GoesOn timeout operation h c

/-- Only the looks of a round tell the operation that is waited for. -/
theorem Phase.Calls.lookAt {phase : Phase} {operation operation' : String} {left : Duration}
    {c : Timed.Call (Service σ)} (hc : phase.Calls operation' left c)
    (hlook : ∀ limit x, c = .actWithin limit x → x = .plane (.operationStatus operation)) :
    phase.Calls operation left c := by
  cases phase with
  | asking | drawing | resting => exact hc
  | looking =>
    obtain rfl := hc
    cases hlook _ _ rfl
    rfl

theorem GoesOn.proceeds {operation : String} {c : Timed.Call (Service σ)}
    (hc : GoesOn timeout operation h c) : Proceeds timeout h c := by
  cases c with
  | act c => trivial
  | _ => exact ⟨operation, hc⟩

theorem Proceeds.goesOn {operation : String} {c : Timed.Call (Service σ)}
    (hc : Proceeds timeout h c)
    (hlook : ∀ limit x, c = .actWithin limit x → x = .plane (.operationStatus operation))
    (hact : ∀ x, c ≠ .act x) : GoesOn timeout operation h c := by
  cases c with
  | act x => exact absurd rfl (hact x)
  | actWithin limit x | pause length | rest length | stopRequested | jitter bound =>
    obtain ⟨operation', phase, hafter, hcalls⟩ := hc
    exact ⟨phase, hafter, hcalls.lookAt hlook⟩

theorem Phase.Begins.after {phase : Phase} {last : Event (Timed (Service σ))}
    (hlast : phase.Begins last) : phase.After (h ++ [last]) := ⟨h, last, rfl, hlast⟩

/-- A delay that has no random part is rested for right after the look. -/
theorem Phase.After.undrawn (hafter : Phase.drawing.After h) : Phase.resting.After h := by
  obtain ⟨before, last, rfl, hlast⟩ := hafter
  cases hlast with
  | looked => exact Phase.Begins.undrawn.after

/-- A rest that was not broken off lasted at least as long as its timer runs. -/
def RestsLast (h : History σ) : Prop :=
  ∀ length passed : Duration,
    (⟨.rest length, some passed⟩ : Event (Timed (Service σ))) ∈ h → length.onTimer ≤ passed

theorem RestsLast.of_append {later : History σ} (hlast : RestsLast (h ++ later)) : RestsLast h :=
  fun length passed hmem => hlast length passed (List.mem_append_left _ hmem)

/-- The program stalls only where a rest did not last. -/
def StallsByRest (r : Option α) (h : History σ) : Prop := r = none → ¬RestsLast h

theorem stallsByRest_some {a : α} : StallsByRest (some a) h := by
  intro hnone
  cases hnone

/-- Whatever it is answered, the action stalls only where a rest did not last. -/
def Finishes (x : Action σ α) : Prop :=
  ∀ h, Meets (Event.recording (Timed (Service σ))) (fun _ _ => True) StallsByRest x.run h

theorem finishes_done {a : Except Error α} : Finishes (σ := σ) (ExceptT.mk (.done a)) :=
  fun _ => stallsByRest_some

theorem Finishes.bind {x : Action σ β} {f : β → Action σ α} (hx : Finishes x)
    (hf : ∀ b, Finishes (f b)) : Finishes (x >>= f) := by
  intro h
  apply meets_run_bind
  apply (hx h).imp
  intro r t ht
  match r, ht with
  | some (.ok b), _ => exact hf b t
  | some (.error e), _ => exact stallsByRest_some
  | none, ht => exact fun _ => ht rfl

/-- One call, however its answer is taken. -/
theorem finishes_act {c : Call σ} {result : Answer σ c → Except Error α} :
    Finishes (ExceptT.mk ((Task.act (I := Service σ) c).bind fun answer =>
      .done (result answer))) := by
  intro h
  refine ⟨trivial, ?_⟩
  intro answer t ht
  exact stallsByRest_some

section

variable {wait : WaitSettings} {resource operation : String} {limit : Nat} {w : Waiting}

/-- A rest that lasts leaves enough rounds for the time after it. -/
theorem finishes_rest {wish elapsed : Duration}
    (hnext : ∀ (w : Waiting) (h : History σ), (RestsLast h → w.Lasts wait limit) →
      Meets (Event.recording (Timed (Service σ))) (fun _ _ => True) StallsByRest
        ((Waiting.poll wait resource (checkOperation operation) limit w).bind verdict) h)
    (hw : RestsLast h → w.Lasts wait (limit + 1)) (hremaining : w.remaining ≠ 0)
    (hwish : w.growth.left = 0 → wish = wait.maxDelay) :
    Meets (Event.recording (Timed (Service σ))) (fun _ _ => True) StallsByRest
      (((Task.rest (min wish (w.remaining - elapsed))).bind fun
        | none => .done (.error (.stopped resource))
        | some rested => Waiting.poll wait resource (checkOperation operation) limit
          ⟨w.rounds + 1, w.remaining - elapsed - rested, w.growth.next wait⟩).bind verdict) h := by
  refine ⟨trivial, ?_⟩
  intro answer t ht
  obtain rfl := ht
  match answer with
  | none => exact stallsByRest_some
  | some rested =>
    -- that this rest lasted is what the later history tells of it
    apply hnext
    intro hlast
    have hrested : Duration.onTimer (min wish (w.remaining - elapsed)) ≤ rested :=
      hlast _ _ (List.mem_append_right _ (List.mem_singleton_self _))
    exact (hw hlast.of_append).next hremaining hwish hrested

/-- The delay after a look, the rest for that long, and the rounds after it. -/
theorem finishes_pick {elapsed : Duration}
    (hnext : ∀ (w : Waiting) (h : History σ), (RestsLast h → w.Lasts wait limit) →
      Meets (Event.recording (Timed (Service σ))) (fun _ _ => True) StallsByRest
        ((Waiting.poll wait resource (checkOperation operation) limit w).bind verdict) h)
    (hw : RestsLast h → w.Lasts wait (limit + 1)) (hremaining : w.remaining ≠ 0) :
    Meets (Event.recording (Timed (Service σ))) (fun _ _ => True) StallsByRest
      (((w.growth.pick wait).bind fun wish =>
        (Task.rest (min wish (w.remaining - elapsed))).bind fun
          | none => .done (.error (.stopped resource))
          | some rested => Waiting.poll wait resource (checkOperation operation) limit
            ⟨w.rounds + 1, w.remaining - elapsed - rested, w.growth.next wait⟩).bind verdict) h := by
  rw [Growth.pick]
  -- only where no delay is left to grow is the wish the greatest one
  split_ifs with hleft
  · exact finishes_rest hnext hw hremaining fun _ => rfl
  · refine ⟨trivial, ?_⟩
    intro extra t ht
    obtain rfl := ht
    refine finishes_rest hnext ?_ hremaining fun hnone => absurd hnone hleft
    intro hlast
    exact hw hlast.of_append

/-- The rounds suffice for the time of a wait, unless a rest did not last. -/
theorem finishes_poll (hw : RestsLast h → w.Lasts wait limit) :
    Meets (Event.recording (Timed (Service σ))) (fun _ _ => True) StallsByRest
      ((Waiting.poll wait resource (checkOperation operation) limit w).bind verdict) h := by
  induction limit generalizing w h with
  | zero =>
    intro _ hlast
    exact Waiting.not_lasts_zero (hw hlast)
  | succ limit ih =>
    rw [Waiting.poll, bind_assoc]
    refine ⟨trivial, ?_⟩
    intro asked t ht
    obtain rfl := ht
    simp only [bind_done]
    split_ifs with hstop htime
    · exact stallsByRest_some
    · exact stallsByRest_some
    rw [within_checkOperation, bind_assoc]
    refine ⟨trivial, ?_⟩
    intro answer t ht
    obtain rfl := ht
    -- the wait is over, unless the operation was found in progress
    rcases answer with ⟨elapsed, f | status⟩ | _ | _
    · exact stallsByRest_some
    · cases status with
      | succeeded => exact stallsByRest_some
      | failed => exact stallsByRest_some
      | inProgress =>
        refine finishes_pick (fun _ _ hw => ih hw) ?_ htime
        intro hlast
        exact hw hlast.of_append.of_append
    · exact stallsByRest_some
    · exact stallsByRest_some

theorem finishes_settle {deletion : Deletion} (hmax : 0 < wait.maxDelay) :
    Finishes (settle (σ := σ) wait resource deletion) := by
  match deletion with
  | .alreadyAbsent => exact finishes_done
  | .deleted => exact finishes_done
  | .pending operation => exact fun h => finishes_poll fun _ => Waiting.lasts_start hmax

end

theorem finishes_isEmptyOf {group : String} {kinds : List ResourceKind} :
    Finishes (isEmptyOf (σ := σ) group kinds) := by
  induction kinds with
  | nil => exact finishes_done
  | cons kind kinds ih =>
    apply finishes_act.bind
    intro names
    split_ifs
    · exact ih
    · exact finishes_done

/-- The deletion of an empty group comes to an end where rests last. -/
theorem finishes_deleteGroupIfEmpty {wait : WaitSettings} {group : String}
    (hmax : 0 < wait.maxDelay) : Finishes (deleteGroupIfEmpty (σ := σ) wait group) := by
  apply finishes_isEmptyOf.bind
  intro empty
  split_ifs
  · apply finishes_act.bind
    intro answer
    apply (finishes_settle hmax).bind
    intro ok
    split_ifs <;> exact finishes_done
  · exact finishes_done

end Decommission.Teardown
