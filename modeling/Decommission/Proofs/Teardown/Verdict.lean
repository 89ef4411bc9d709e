import Decommission.Proofs.Teardown.EmptyGroup
import Decommission.Proofs.Teardown.FirstFailure

/-!
What was answered decides the result of the deletion of an empty group, as far as the wait for it is
not broken off; and that is told by the last event.
-/
namespace Decommission.Teardown

open Program

variable {σ : Type} {group : String} {wait : WaitSettings} {log : List (Exchange (Service σ))}

/-- What is left to do for the deletion of an empty group. -/
inductive GroupStage where
  /-- These kinds are still to be looked for; where there are none, the deletion is to be asked for.
  -/
  | looking (kinds : List ResourceKind)
  | waiting (operation : String)
  | givenUp
  | over (result : Except Error Bool)

/-- The call of a stage. -/
def GroupStage.call? (group : String) : GroupStage → Option (Call σ)
  | .looking [] => some (.plane (.deleteGroup group))
  | .looking (kind :: _) => some (.plane (.list kind group))
  | .waiting operation => some (.plane (.operationStatus operation))
  | .givenUp => none
  | .over _ => none

/-- The stage after a deletion of the group was answered. -/
def GroupStage.ofDeletion (group : String) : Except Failure Deletion → GroupStage
  | .ok (.pending operation) => .waiting operation
  | .ok .alreadyAbsent => .over (.ok true)
  | .ok .deleted => .over (.ok true)
  | .error f => .over (if f.isNotFound then .ok true else .error (.call (.deletingGroup group) f))

/-- The stage after a look at a pending deletion. -/
def GroupStage.ofLook (group operation : String) : Except Failure OperationStatus → GroupStage
  | .ok .inProgress => .waiting operation
  | .ok .succeeded => .over (.ok true)
  | .ok .failed => .over (.error (.deletionFailed (groupText group)))
  | .error f => .over (.error (.call (.polling (groupText group)) f))

/-- The stage after a call was answered. -/
def GroupStage.after (group : String) : GroupStage → (c : Call σ) → Option (Answer σ c) → GroupStage
  | .looking (_ :: later), .plane (.list ..), some (.ok []) => .looking later
  | .looking (_ :: _), .plane (.list ..), some (.ok (_ :: _)) => .over (.ok false)
  | .looking (kind :: _), .plane (.list ..), some (.error f) =>
    .over (.error (.call (.listing kind group) f))
  | .looking [], .plane (.deleteGroup _), some answer => .ofDeletion group answer
  | .waiting operation, .plane (.operationStatus _), some answer => .ofLook group operation answer
  | _, _, _ => .givenUp

/-- The stage after all these calls were answered. -/
def GroupStage.afterAll (group : String) (log : List (Exchange (Service σ))) : GroupStage :=
  log.foldl (fun stage e => stage.after group e.call e.answer) (.looking ResourceKind.tracked)

theorem GroupStage.afterAll_append {rest : List (Exchange (Service σ))} :
    afterAll group (log ++ rest) =
      rest.foldl (fun stage e => stage.after group e.call e.answer) (afterAll group log) :=
  List.foldl_append

theorem GroupStage.afterAll_emptyLists {earlier later : List ResourceKind}
    (h : ResourceKind.tracked = earlier ++ later) :
    afterAll group (emptyLists (σ := σ) group earlier) = .looking later := by
  rw [afterAll, h, emptyLists]
  clear h
  induction earlier with
  | nil => rfl
  | cons kind earlier ih => exact ih

theorem GroupStage.afterAll_groupAsked {answer : Except Failure Deletion} :
    afterAll group (groupAsked (σ := σ) group answer) = .ofDeletion group answer := by
  rw [groupAsked, afterAll_append, afterAll_emptyLists (List.append_nil _).symm]
  rfl

theorem GroupStage.afterAll_groupPending (group operation : String) (n : Nat) :
    afterAll group (groupPending (σ := σ) group operation n) = .waiting operation := by
  induction n with
  | zero =>
    rw [groupPending, List.replicate_zero, List.append_nil, afterAll_groupAsked, ofDeletion]
  | succ n ih =>
    rw [← groupPending_append, afterAll_append, ih]
    rfl

theorem GroupWaits.stage (h : GroupWaits (σ := σ) group log) :
    (∃ operation, GroupStage.afterAll group log = .waiting operation) ∨
      GroupStage.afterAll group log = .givenUp := by
  obtain ⟨operation, n, rfl | rfl⟩ := h
  · exact .inl ⟨operation, GroupStage.afterAll_groupPending group operation n⟩
  · refine .inr ?_
    rw [GroupStage.afterAll_append, GroupStage.afterAll_groupPending]
    rfl

theorem GroupSettled.stage {status : OperationStatus} (h : GroupSettled (σ := σ) group log status) :
    GroupStage.afterAll group log =
      .over (if status = .succeeded then .ok true
        else .error (.deletionFailed (groupText group))) := by
  obtain ⟨answer, looks, hsettled, rfl⟩ := h
  rw [GroupStage.afterAll_append, GroupStage.afterAll_groupAsked]
  cases hsettled with
  | notFound hf => simp [GroupStage.ofDeletion, hf]
  | alreadyAbsent => rfl
  | deleted => rfl
  | @pending operation status n hterminal =>
    -- the looks before the last one leave the deletion pending
    have hpending := GroupStage.afterAll_groupPending (σ := σ) group operation n
    rw [groupPending, GroupStage.afterAll_append, GroupStage.afterAll_groupAsked] at hpending
    rw [List.foldl_append, hpending]
    cases status with
    | inProgress => cases hterminal
    | succeeded => rfl
    | failed => rfl

theorem CallFailed.stage {step : Step} {f : Failure} (h : CallFailed (σ := σ) group log step f) :
    GroupStage.afterAll group log = .over (.error (.call step f)) := by
  cases h with
  | listing h =>
    rw [GroupStage.afterAll_append, GroupStage.afterAll_emptyLists h]
    rfl
  | deleting hf => simp [GroupStage.afterAll_groupAsked, GroupStage.ofDeletion, hf]
  | polling =>
    rw [GroupStage.afterAll_append, GroupStage.afterAll_groupPending]
    rfl

theorem SeenInUse.stage (h : SeenInUse (σ := σ) group log) :
    GroupStage.afterAll group log = .over (.ok false) := by
  obtain ⟨earlier, kind, later, name, names, h, rfl⟩ := h
  rw [GroupStage.afterAll_append, GroupStage.afterAll_emptyLists h]
  rfl

theorem Ending.stage {timeout : Duration} {result : Except Error Bool}
    (h : Ending (σ := σ) group timeout log result) :
    GroupStage.afterAll group log = .over result ∨ GroupWaits group log := by
  cases h with
  | inUse h => exact .inl h.stage
  | deleted h => exact .inl h.stage
  | failed h => exact .inl h.stage
  | call h => exact .inl h.stage
  | timedOut h => exact .inr h
  | stopped h => exact .inr h

theorem GroupWaits.not_over (h : GroupWaits (σ := σ) group log) (result : Except Error Bool) :
    GroupStage.afterAll group log ≠ .over result := by
  rcases h.stage with ⟨operation, h⟩ | h <;> simp [h]

theorem GroupWaits.not_looking (h : GroupWaits (σ := σ) group log) (kinds : List ResourceKind) :
    GroupStage.afterAll group log ≠ .looking kinds := by
  rcases h.stage with ⟨operation, h⟩ | h <;> simp [h]

/-- A call that fits is that of the stage, or a deletion is waited for. -/
theorem Fits.stage {c : Timed.Call (Service σ)} (h : Fits group log c) :
    (∃ kinds call, GroupStage.afterAll group log = .looking kinds ∧ c = .act call ∧
      (GroupStage.looking kinds).call? group = some call) ∨ GroupWaits group log := by
  cases c with
  | act c =>
    obtain ⟨earlier, kind, later, h, rfl, rfl⟩ | ⟨rfl, rfl⟩ := h
    · exact .inl ⟨kind :: later, _, GroupStage.afterAll_emptyLists h, rfl, rfl⟩
    · exact .inl ⟨[], _, GroupStage.afterAll_emptyLists (List.append_nil _).symm, rfl, rfl⟩
  | actWithin limit c =>
    obtain ⟨operation, n, h, -⟩ := h
    exact .inr ⟨operation, n, .inl h⟩
  | pause length => exact .inr h
  | rest length => exact .inr h
  | stopRequested => exact .inr h
  | jitter bound => exact .inr h

variable {q : Task (Service σ) (Except Error Bool)} {timeout : Duration}

/-- A task that is over by its log has ended. -/
theorem done_of_over {result : Except Error Bool}
    (hq : q.Meets (Exchange.recording (Service σ)) (Fits group) (EndsWell group timeout) log)
    (h : GroupStage.afterAll group log = .over result) : q = .done result := by
  cases q with
  | done result' =>
    rcases Ending.stage hq with h' | h'
    · obtain rfl := GroupStage.over.inj (h'.symm.trans h)
      rfl
    · exact absurd h (h'.not_over result)
  | stalled => exact absurd h (GroupWaits.not_over hq result)
  | ask c next =>
    rcases Fits.stage hq.1 with ⟨kinds, call, h', -⟩ | h'
    · simp [h'] at h
    · exact absurd h (h'.not_over result)

/-- A task that is looking by its log makes the call of its stage. -/
theorem nextCall_of_looking {kinds : List ResourceKind}
    (hq : q.Meets (Exchange.recording (Service σ)) (Fits group) (EndsWell group timeout) log)
    (h : GroupStage.afterAll group log = .looking kinds) :
    Task.nextCall? q = (GroupStage.looking kinds).call? group := by
  cases q with
  | done result =>
    rcases Ending.stage hq with h' | h'
    · simp [h'] at h
    · exact absurd h (h'.not_looking kinds)
  | stalled => exact absurd h (GroupWaits.not_looking hq kinds)
  | ask c next =>
    rcases Fits.stage hq.1 with ⟨kinds', call, h', rfl, hcall⟩ | h'
    · obtain rfl := GroupStage.looking.inj (h'.symm.trans h)
      exact hcall.symm
    · exact absurd h (h'.not_looking kinds)

/-- The next call is fit, or else it is a look at the pending deletion of the group. -/
theorem fits_nextCall {c : Call σ}
    (hq : q.Meets (Exchange.recording (Service σ)) (Fits group) (EndsWell group timeout) log)
    (h : Task.nextCall? q = some c) :
    Fits group log (.act c) ∨ ∃ operation, c = .plane (.operationStatus operation) := by
  cases q with
  | done result => cases h
  | stalled => cases h
  | ask d next =>
    cases d with
    | act d =>
      obtain rfl := Option.some.inj h
      exact .inl hq.1
    | actWithin limit d =>
      obtain rfl := Option.some.inj h
      obtain ⟨operation, n, -, rfl⟩ := hq.1
      exact .inr ⟨operation, rfl⟩
    | pause length => cases h
    | rest length => cases h
    | stopRequested => cases h
    | jitter bound => cases h

theorem nextCall_list_iff {kind : ResourceKind}
    (hq : q.Meets (Exchange.recording (Service σ)) (Fits group) (EndsWell group timeout) log) :
    Task.nextCall? q = some (.plane (.list kind group)) ↔
      ∃ earlier later, ResourceKind.tracked = earlier ++ kind :: later ∧
        log = emptyLists group earlier := by
  constructor
  · intro h
    rcases fits_nextCall hq h with (⟨earlier, _, later, h, hlog, heq⟩ | ⟨-, heq⟩) | ⟨_, heq⟩
    · cases heq
      exact ⟨earlier, later, h, hlog⟩
    · cases heq
    · cases heq
  · rintro ⟨earlier, later, h, rfl⟩
    exact nextCall_of_looking hq (GroupStage.afterAll_emptyLists h)

theorem nextCall_deleteGroup_iff
    (hq : q.Meets (Exchange.recording (Service σ)) (Fits group) (EndsWell group timeout) log) :
    Task.nextCall? q = some (.plane (.deleteGroup group)) ↔
      log = emptyLists group ResourceKind.tracked := by
  constructor
  · intro h
    rcases fits_nextCall hq h with (⟨_, _, _, _, _, heq⟩ | ⟨hlog, -⟩) | ⟨_, heq⟩
    · cases heq
    · exact hlog
    · cases heq
  · rintro rfl
    exact nextCall_of_looking hq (GroupStage.afterAll_emptyLists (List.append_nil _).symm)

theorem Ending.inUse_of_false (h : Ending group timeout log (.ok false)) : SeenInUse group log := by
  cases h with
  | inUse h => exact h

theorem Ending.settled_of_true (h : Ending group timeout log (.ok true)) :
    GroupSettled group log .succeeded := by
  cases h with
  | deleted h => exact h

theorem Ending.settled_of_failed {resource : String}
    (h : Ending group timeout log (.error (.deletionFailed resource))) :
    resource = groupText group ∧ GroupSettled group log .failed := by
  cases h with
  | failed h => exact ⟨rfl, h⟩

theorem Ending.call_of_error {step : Step} {f : Failure}
    (h : Ending group timeout log (.error (.call step f))) : CallFailed group log step f := by
  cases h with
  | call h => exact h

theorem Ending.error_cases {e : Error} (h : Ending group timeout log (.error e)) :
    (∃ resource, e = .deletionFailed resource) ∨ (∃ step f, e = .call step f) ∨
      GroupWaits group log ∧
        (e = .timedOut (groupText group) timeout ∨ e = .stopped (groupText group)) := by
  cases h with
  | failed _ => exact .inl ⟨_, rfl⟩
  | call _ => exact .inr (.inl ⟨_, _, rfl⟩)
  | timedOut hwaits => exact .inr (.inr ⟨hwaits, .inl rfl⟩)
  | stopped hwaits => exact .inr (.inr ⟨hwaits, .inr rfl⟩)

theorem Ending.of_pending {result : Except Error Bool} {operation : String}
    (h : Ending (σ := σ) group timeout log result)
    (hstage : GroupStage.afterAll group log = .waiting operation) :
    result = .error (.timedOut (groupText group) timeout) ∨
      result = .error (.stopped (groupText group)) := by
  cases h with
  | inUse h => cases h.stage.symm.trans hstage
  | deleted h => cases h.stage.symm.trans hstage
  | failed h => cases h.stage.symm.trans hstage
  | call h => cases h.stage.symm.trans hstage
  | timedOut _ => exact .inl rfl
  | stopped _ => exact .inr rfl

/-- While the deletion of the group is pending, only the rounds of the wait for it go on. -/
theorem Fits.goesOn {operation : String} {c : Timed.Call (Service σ)} {h : History σ}
    (hc : Fits group log c) (hstage : GroupStage.afterAll group log = .waiting operation)
    (hproceeds : Proceeds timeout h c) : GoesOn timeout operation h c := by
  apply hproceeds.goesOn
  · rintro limit x rfl
    obtain ⟨operation', n, rfl, rfl⟩ := hc
    rw [GroupStage.afterAll_groupPending] at hstage
    rw [GroupStage.waiting.inj hstage]
  -- the lists are looked at, and the deletion is asked for, only before that is pending
  · rintro x rfl
    rcases hc with ⟨earlier, kind, later, htracked, rfl, -⟩ | ⟨rfl, -⟩
    · rw [GroupStage.afterAll_emptyLists htracked] at hstage
      cases hstage
    · rw [GroupStage.afterAll_emptyLists (List.append_nil _).symm] at hstage
      cases hstage

/-- What the deletion of an empty group has come to, and what it does next, by its history. -/
structure GroupVerdict (wait : WaitSettings) (group : String) (h : History σ)
    (q : Task (Service σ) (Except Error Bool)) : Prop where
  /-- The kinds are looked for in their order, up to the first that is found or not told. -/
  looks : ∀ kind, Task.nextCall? q = some (.plane (.list kind group)) ↔
    ∃ earlier later, ResourceKind.tracked = earlier ++ kind :: later ∧
      Event.exchanges h = emptyLists group earlier
  /-- The deletion is asked for exactly where all lists were empty. -/
  asks : Task.nextCall? q = some (.plane (.deleteGroup group)) ↔
    Event.exchanges h = emptyLists group ResourceKind.tracked
  inUse : q = .done (.ok false) ↔ SeenInUse group (Event.exchanges h)
  onlyLooked : q = .done (.ok false) →
    ∀ e ∈ Event.exchanges h, ∃ kind, e.call = .plane (.list kind group)
  deleted : q = .done (.ok true) ↔ GroupSettled group (Event.exchanges h) .succeeded
  failed : ∀ resource, q = .done (.error (.deletionFailed resource)) ↔
    resource = groupText group ∧ GroupSettled group (Event.exchanges h) .failed
  callFailed : ∀ step f, q = .done (.error (.call step f)) ↔
    CallFailed group (Event.exchanges h) step f
  /-- There is no other error than these, but for a wait that is broken off. -/
  errors : ∀ e, q = .done (.error e) → (∃ resource, e = .deletionFailed resource) ∨
    (∃ step f, e = .call step f) ∨ GroupWaits group (Event.exchanges h) ∧
      (e = .timedOut (groupText group) wait.timeout ∨ e = .stopped (groupText group))
  /-- The error is that of the last event, before which nothing has failed. So the time is up only
  where it was looked at after the timeout or a look took too long, and the wait is stopped only
  where a stop was asked for. -/
  broken : ∀ e, q = .done (.error e) ↔ Broken wait.timeout e h
  /-- While the deletion is pending, the wait is broken off, or the next round of looking at its
  operation goes on. -/
  waits : ∀ operation n, Event.exchanges h = groupPending group operation n →
    (∃ e, q = .done (.error e) ∧
      (e = .timedOut (groupText group) wait.timeout ∨ e = .stopped (groupText group))) ∨
    q = .stalled ∨ ∃ c next, q = .ask c next ∧ GoesOn wait.timeout operation h c
  /-- Rounds do not run out where rests last. -/
  notStalled : 0 < wait.maxDelay → RestsLast h → q ≠ .stalled

/-- For every group and all that is answered, up to any moment: the calls are made in their order,
the deletion of the group is asked for exactly where all lists were empty, it is looked at while it
is pending, and the result is decided by the answers, or by the event that breaks the wait off. -/
theorem deleteGroupIfEmpty_verdict {h : History σ}
    (hr : Reaches (Event.recording (Timed (Service σ))) (deleteGroupIfEmpty wait group).run []
      q h) : GroupVerdict wait group h q := by
  have hlog : Reaches (Exchange.recording (Service σ)) (deleteGroupIfEmpty wait group).run [] q
      (Event.exchanges h) := Event.reaches_exchanges hr
  have hq := (meets_deleteGroupIfEmpty (σ := σ) group wait).reaches hlog
  have hmeets : StopsAtFailure wait.timeout (fun _ => Clean wait.timeout)
      (deleteGroupIfEmpty (σ := σ) wait group) [] := stops_deleteGroupIfEmpty eachAfter_nil
  have hstops := hmeets.reaches hr
  have hending {result : Except Error Bool} (hdone : q = .done result) :
      Ending group wait.timeout (Event.exchanges h) result := by
    subst hdone
    exact hq
  constructor
  case looks => exact fun kind => nextCall_list_iff hq
  case asks => exact nextCall_deleteGroup_iff hq
  case inUse =>
    exact ⟨fun hdone => (hending hdone).inUse_of_false, fun h => done_of_over hq h.stage⟩
  case onlyLooked => exact fun hdone e he => (hending hdone).inUse_of_false.lists he
  case deleted =>
    exact ⟨fun hdone => (hending hdone).settled_of_true, fun h => done_of_over hq h.stage⟩
  case failed =>
    intro resource
    refine ⟨fun hdone => (hending hdone).settled_of_failed, ?_⟩
    rintro ⟨rfl, h⟩
    exact done_of_over hq h.stage
  case callFailed =>
    exact fun step f =>
      ⟨fun hdone => (hending hdone).call_of_error, fun h => done_of_over hq h.stage⟩
  case errors => exact fun e hdone => (hending hdone).error_cases
  case broken => exact fun e => error_iff_broken hstops
  case waits =>
    intro operation n hpending
    have hstage : GroupStage.afterAll group (Event.exchanges h) = .waiting operation := by
      rw [hpending, GroupStage.afterAll_groupPending]
    match q, hq, hstops with
    | .done result, hq, _ =>
      left
      rcases Ending.of_pending hq hstage with rfl | rfl
      · exact ⟨_, rfl, .inl rfl⟩
      · exact ⟨_, rfl, .inr rfl⟩
    | .stalled, _, _ => exact .inr (.inl rfl)
    | .ask c next, hq, hstops =>
      exact .inr (.inr ⟨c, next, rfl, hq.1.goesOn hstage hstops.1.proceeds⟩)
  case notStalled =>
    intro hmax hlast hstalled
    rw [hstalled] at hr
    exact (finishes_deleteGroupIfEmpty hmax []).reaches hr rfl hlast

/-- A group is seen empty, and its deletion is pending at first. It has succeeded at the second
look, with seven nanoseconds left of ten. -/
def polledGroup : History Unit :=
  [⟨.act (.plane (.list .virtualMachine "g")), .ok []⟩,
    ⟨.act (.plane (.list .storageAccount "g")), .ok []⟩,
    ⟨.act (.plane (.list .networkInterface "g")), .ok []⟩,
    ⟨.act (.plane (.list .publicAddress "g")), .ok []⟩,
    ⟨.act (.plane (.deleteGroup "g")), .ok (.pending "o")⟩,
    ⟨.stopRequested, false⟩,
    ⟨lookWithin "o" 10, .finished 1 (.ok .inProgress)⟩,
    ⟨.jitter 2, (0 : Fin 2)⟩,
    ⟨.rest 2, some (2 : Duration)⟩,
    ⟨.stopRequested, false⟩,
    ⟨lookWithin "o" 7, .finished 1 (.ok .succeeded)⟩]

theorem deleteGroupIfEmpty_verdict_polled :
    Reaches (Event.recording (Timed (Service Unit))) (deleteGroupIfEmpty brisk "g").run []
      (.done (.ok true)) polledGroup ∧
    GroupSettled (σ := Unit) "g" (Event.exchanges polledGroup) .succeeded := by
  have hfirst : Event.recording (Timed (Service Unit)) (polledGroup.take 6) (lookWithin "o" 10)
      (.finished 1 (.ok .inProgress)) (polledGroup.take 7) := rfl
  have hsecond : Event.recording (Timed (Service Unit)) (polledGroup.take 10) (lookWithin "o" 7)
      (.finished 1 (.ok .succeeded)) polledGroup := rfl
  have hr : Reaches (Event.recording (Timed (Service Unit))) (deleteGroupIfEmpty brisk "g").run []
      (.done (.ok true)) polledGroup := by
    refine Reaches.ask (a := .ok []) rfl ?_
    refine Reaches.ask (a := .ok []) rfl ?_
    refine Reaches.ask (a := .ok []) rfl ?_
    refine Reaches.ask (a := .ok []) rfl ?_
    refine Reaches.ask (a := .ok (.pending "o")) rfl ?_
    refine Reaches.ask (a := false) rfl ?_
    simp only [bind_done, within_checkOperation, bind_ask]
    refine Reaches.ask hfirst ?_
    refine Reaches.ask (a := (0 : Fin 2)) rfl ?_
    refine Reaches.ask (a := some (2 : Duration)) rfl ?_
    refine Reaches.ask (a := false) rfl ?_
    simp only [bind_done, within_checkOperation, bind_ask]
    refine Reaches.ask hsecond ?_
    exact .refl
  exact ⟨hr, (deleteGroupIfEmpty_verdict hr).deleted.mp rfl⟩

end Decommission.Teardown
