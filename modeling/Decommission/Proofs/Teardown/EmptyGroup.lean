import Decommission.Proofs.Teardown.Settling

/-!
A group is deleted only after all its lists were seen empty: the calls that are made for it, and
with what they may end.
-/
namespace Decommission.Teardown

open Program

variable {σ : Type} {group : String} {wait : WaitSettings} {log : List (Exchange (Service σ))}

/-- The looks for these kinds, if none of them was found. -/
def emptyLists (group : String) (kinds : List ResourceKind) : List (Exchange (Service σ)) :=
  kinds.map fun kind => ⟨.plane (.list kind group), some (.ok [])⟩

/-- The call for the deletion of a group that was seen empty, and all before it. -/
def groupAsked (group : String) (answer : Except Failure Deletion) : List (Exchange (Service σ)) :=
  emptyLists group ResourceKind.tracked ++ [⟨.plane (.deleteGroup group), some answer⟩]

/-- A deletion of the group that is pending after so many looks. -/
def groupPending (group operation : String) (n : Nat) : List (Exchange (Service σ)) :=
  groupAsked group (.ok (.pending operation)) ++ List.replicate n (looked operation .inProgress)

/-- What was answered before the deletion of an empty group failed in a call, and the error. -/
inductive CallFailed (group : String) : List (Exchange (Service σ)) → Step → Failure → Prop where
  | listing {earlier later : List ResourceKind} {kind : ResourceKind} {f : Failure}
    (h : ResourceKind.tracked = earlier ++ kind :: later) :
    CallFailed group (emptyLists group earlier ++ [⟨.plane (.list kind group), some (.error f)⟩])
      (.listing kind group) f
  | deleting {f : Failure} (h : f.isNotFound = false) :
    CallFailed group (groupAsked group (.error f)) (.deletingGroup group) f
  | polling {operation : String} {n : Nat} {f : Failure} :
    CallFailed group
      (groupPending group operation n ++ [⟨.plane (.operationStatus operation), some (.error f)⟩])
      (.polling (groupText group)) f

/-- Some resources were left in the group: the first list with names in it was the last. -/
def SeenInUse (group : String) (log : List (Exchange (Service σ))) : Prop :=
  ∃ earlier kind later name names, ResourceKind.tracked = earlier ++ kind :: later ∧
    log = emptyLists group earlier ++ [⟨.plane (.list kind group), some (.ok (name :: names))⟩]

theorem SeenInUse.lists (h : SeenInUse group log) {e : Exchange (Service σ)} (he : e ∈ log) :
    ∃ kind, e.call = .plane (.list kind group) := by
  obtain ⟨earlier, kind, later, name, names, -, rfl⟩ := h
  rcases List.mem_append.mp he with he | he
  · obtain ⟨kind, -, rfl⟩ := List.mem_map.mp he
    exact ⟨kind, rfl⟩
  · obtain rfl := List.mem_singleton.mp he
    exact ⟨kind, rfl⟩

/-- The deletion of the group was asked for, and has settled with this status. -/
def GroupSettled (group : String) (log : List (Exchange (Service σ))) (status : OperationStatus) :
    Prop :=
  ∃ answer looks, SettledBy answer looks status ∧ log = groupAsked group answer ++ looks

/-- The deletion of the group is waited for; a look at it may have been given up. -/
def GroupWaits (group : String) (log : List (Exchange (Service σ))) : Prop :=
  ∃ operation n, log = groupPending group operation n ∨
    log = groupPending group operation n ++ [⟨.plane (.operationStatus operation), none⟩]

/-- What the deletion of an empty group may end with after these answers. -/
inductive Ending (group : String) (timeout : Duration) :
    List (Exchange (Service σ)) → Except Error Bool → Prop where
  | inUse {log : List (Exchange (Service σ))} (h : SeenInUse group log) :
    Ending group timeout log (.ok false)
  | deleted {log : List (Exchange (Service σ))} (h : GroupSettled group log .succeeded) :
    Ending group timeout log (.ok true)
  | failed {log : List (Exchange (Service σ))} (h : GroupSettled group log .failed) :
    Ending group timeout log (.error (.deletionFailed (groupText group)))
  | call {log : List (Exchange (Service σ))} {step : Step} {f : Failure}
    (h : CallFailed group log step f) : Ending group timeout log (.error (.call step f))
  | timedOut {log : List (Exchange (Service σ))} (h : GroupWaits group log) :
    Ending group timeout log (.error (.timedOut (groupText group) timeout))
  | stopped {log : List (Exchange (Service σ))} (h : GroupWaits group log) :
    Ending group timeout log (.error (.stopped (groupText group)))

theorem emptyLists_append {earlier : List ResourceKind} {kind : ResourceKind} :
    emptyLists (σ := σ) group earlier ++ [⟨.plane (.list kind group), some (.ok [])⟩] =
      emptyLists group (earlier ++ [kind]) := by
  simp [emptyLists]

theorem groupPending_append {operation : String} {n : Nat} :
    groupPending (σ := σ) group operation n ++ [looked operation .inProgress] =
      groupPending group operation (n + 1) := by
  rw [groupPending, groupPending, List.replicate_succ', List.append_assoc]

/-- The calls that fit a log. Time is left to pass only while a deletion is waited for. -/
def Fits (group : String) (log : List (Exchange (Service σ))) : Timed.Call (Service σ) → Prop
  | .act c =>
    (∃ earlier kind later, ResourceKind.tracked = earlier ++ kind :: later ∧
      log = emptyLists group earlier ∧ c = .plane (.list kind group)) ∨
    (log = emptyLists group ResourceKind.tracked ∧ c = .plane (.deleteGroup group))
  | .actWithin _ c => ∃ operation n, log = groupPending group operation n ∧
      c = .plane (.operationStatus operation)
  | _ => GroupWaits group log

/-- What holds where the deletion of an empty group ends, also if it stalls. -/
def EndsWell (group : String) (timeout : Duration) :
    Option (Except Error Bool) → List (Exchange (Service σ)) → Prop
  | some result, log => Ending group timeout log result
  | none, log => GroupWaits group log

/-- What is known once the group was looked through. -/
def Inspected (group : String) (timeout : Duration) :
    Option (Except Error Bool) → List (Exchange (Service σ)) → Prop
  | some (.ok true), log => log = emptyLists group ResourceKind.tracked
  | some (.ok false), log => SeenInUse group log
  | some (.error e), log => Ending group timeout log (.error e)
  | none, _ => False

theorem meets_isEmptyOf (group : String) (timeout : Duration) {earlier kinds : List ResourceKind}
    (h : ResourceKind.tracked = earlier ++ kinds) :
    Meets (Exchange.recording (Service σ)) (Fits group) (Inspected group timeout)
      (isEmptyOf group kinds).run (emptyLists group earlier) := by
  induction kinds generalizing earlier with
  | nil =>
    rw [List.append_nil] at h
    rw [← h]
    exact (rfl : Inspected (σ := σ) group timeout (some (.ok true)) _)
  | cons kind later ih =>
    refine meets_run_bind (meets_plane (.inl ⟨earlier, kind, later, h, rfl, rfl⟩) ?_)
    rintro answer _ rfl
    match answer with
    | .error f => exact Ending.call (.listing h)
    | .ok [] =>
      rw [emptyLists_append]
      exact ih (by rw [h, List.append_assoc, List.singleton_append])
    | .ok (name :: names) => exact ⟨earlier, kind, later, name, names, h, rfl⟩

/-- What is known once the deletion of the group was asked for and waited for. -/
def Settled (group : String) (timeout : Duration) :
    Option (Except Error Bool) → List (Exchange (Service σ)) → Prop
  | some (.ok true), log => GroupSettled group log .succeeded
  | some (.ok false), log => GroupSettled group log .failed
  | some (.error e), log => Ending group timeout log (.error e)
  | none, log => GroupWaits group log

theorem polling_group (group : String) (wait : WaitSettings) (operation : String) :
    Polling (fun log c answer log' => log' = log ++ [⟨c, answer⟩]) (Fits (σ := σ) group) operation
      (groupText group) wait.timeout (fun log => ∃ n, log = groupPending group operation n)
      (Settled group wait.timeout) := by
  constructor
  case look =>
    rintro _ limit ⟨n, rfl⟩
    exact ⟨operation, n, rfl, rfl⟩
  case stopRequested =>
    rintro _ ⟨n, rfl⟩
    exact ⟨operation, n, .inl rfl⟩
  case rest =>
    rintro _ length ⟨n, rfl⟩
    exact ⟨operation, n, .inl rfl⟩
  case jitter =>
    rintro _ bound ⟨n, rfl⟩
    exact ⟨operation, n, .inl rfl⟩
  case inProgress =>
    rintro _ _ ⟨n, rfl⟩ rfl
    exact ⟨n + 1, groupPending_append⟩
  case terminal =>
    rintro _ _ status ⟨n, rfl⟩ hterminal rfl
    have hsettled : GroupSettled (σ := σ) group
        (groupPending group operation n ++ [looked operation status]) status :=
      ⟨.ok (.pending operation), _, .pending n hterminal, by rw [groupPending, List.append_assoc]⟩
    cases status with
    | inProgress => cases hterminal
    | succeeded => exact hsettled
    | failed => exact hsettled
  case failed =>
    rintro _ _ f ⟨n, rfl⟩ rfl
    exact Ending.call .polling
  -- a wait is broken off between two looks, or by giving a look up
  case timedOut =>
    rintro _ _ ⟨n, rfl⟩ (rfl | rfl)
    · exact Ending.timedOut ⟨operation, n, .inl rfl⟩
    · exact Ending.timedOut ⟨operation, n, .inr rfl⟩
  case stopped =>
    rintro _ _ ⟨n, rfl⟩ (rfl | rfl)
    · exact Ending.stopped ⟨operation, n, .inl rfl⟩
    · exact Ending.stopped ⟨operation, n, .inr rfl⟩
  case stalled =>
    rintro _ ⟨n, rfl⟩
    exact ⟨operation, n, .inl rfl⟩

theorem GroupSettled.now {answer : Except Failure Deletion} {status : OperationStatus}
    (h : SettledBy (σ := σ) answer [] status) :
    GroupSettled (σ := σ) group (groupAsked group answer) status :=
  ⟨answer, [], h, (List.append_nil _).symm⟩

theorem meets_deleteGroup :
    Meets (Exchange.recording (Service σ)) (Fits group) (EndsWell group wait.timeout)
      (do let answer ← Action.planeIfFound (.call (.deletingGroup group)) (.deleteGroup group)
          if ← settle wait (groupText group) (answer.getD .alreadyAbsent) then return true
          else throw (.deletionFailed (groupText group)) : Action σ Bool).run
      (emptyLists group ResourceKind.tracked) := by
  refine meets_run_bind (meets_planeIfFound (.inr ⟨rfl, rfl⟩) ?_)
  rintro answer _ rfl
  -- only a pending deletion is waited for
  match answer with
  | .ok .alreadyAbsent => exact Ending.deleted (.now .alreadyAbsent)
  | .ok .deleted => exact Ending.deleted (.now .deleted)
  | .error f =>
    cases hf : f.isNotFound with
    | true =>
      rw [ignoreNotFound_absent hf]
      exact Ending.deleted (.now (.notFound hf))
    | false =>
      rw [ignoreNotFound_failed hf]
      exact Ending.call (.deleting hf)
  | .ok (.pending operation) =>
    have hsettled := (polling_group (σ := σ) group wait operation).meets_settle
      ⟨0, (List.append_nil _).symm⟩
    refine meets_run_bind (Meets.imp hsettled fun r t ht => ?_)
    match r, ht with
    | some (.ok true), ht => exact Ending.deleted ht
    | some (.ok false), ht => exact Ending.failed ht
    | some (.error e), ht => exact ht
    | none, ht => exact ht

/-- Whatever is answered, the calls fit the answers before them, and so does the end. -/
theorem meets_deleteGroupIfEmpty (group : String) (wait : WaitSettings) :
    Meets (Exchange.recording (Service σ)) (Fits group) (EndsWell group wait.timeout)
      (deleteGroupIfEmpty wait group).run [] := by
  have hlook := meets_isEmptyOf (σ := σ) group wait.timeout (List.nil_append _).symm
  refine meets_run_bind (Meets.imp hlook fun r t ht => ?_)
  match r, ht with
  | some (.ok true), ht =>
    obtain rfl := ht
    exact meets_deleteGroup
  | some (.ok false), ht => exact Ending.inUse ht
  | some (.error e), ht => exact ht

end Decommission.Teardown
