import Decommission.Proofs.Program.Surroundings
import Decommission.Teardown.Sequence

/-!
A deletion that is waited for is looked at through its own operation only, until the first terminal
state. What holds before each look is an invariant, from which follows what holds at the end.
-/
namespace Decommission.Teardown

open Program

variable {σ τ : Type}

theorem ignoreNotFound_absent {α : Type} {f : Failure} (h : f.isNotFound = true) :
    ignoreNotFound (.error f : Except Failure α) = .ok none := by
  rw [ignoreNotFound, if_pos h]

theorem ignoreNotFound_failed {α : Type} {f : Failure} (h : f.isNotFound = false) :
    ignoreNotFound (.error f : Except Failure α) = .error f := by
  rw [ignoreNotFound, if_neg (by simp [h])]

section

variable {R : Replies (Service σ) τ} {allowed : τ → Timed.Call (Service σ) → Prop}
  {explain : Failure → Error} {call : ControlPlane.Call} {t : τ}

theorem meets_plane
    {post : Option (Except Error (ControlPlane.Result call)) → τ → Prop}
    (hcall : allowed t (.act (.plane call)))
    (h : ∀ answer u, R t (.plane call) (some answer) u → post (some (answer.mapError explain)) u) :
    (Action.plane explain call).run.Meets R.timed allowed post t :=
  ⟨hcall, h⟩

theorem meets_planeIfFound
    {post : Option (Except Error (Option (ControlPlane.Result call))) → τ → Prop}
    (hcall : allowed t (.act (.plane call)))
    (h : ∀ answer u, R t (.plane call) (some answer) u →
      post (some ((ignoreNotFound answer).mapError explain)) u) :
    (Action.planeIfFound explain call).run.Meets R.timed allowed post t :=
  ⟨hcall, h⟩

end

/-- A look at an operation. -/
def looked (operation : String) (status : OperationStatus) : Exchange (Service σ) :=
  ⟨.plane (.operationStatus operation), some (.ok status)⟩

/-- The looks after which a deletion that was answered so has settled, and the status that it has
settled with. What is not found counts as deleted. -/
inductive SettledBy : Except Failure Deletion → List (Exchange (Service σ)) → OperationStatus → Prop
    where
  | notFound {f : Failure} (h : f.isNotFound = true) : SettledBy (.error f) [] .succeeded
  | alreadyAbsent : SettledBy (.ok .alreadyAbsent) [] .succeeded
  | deleted : SettledBy (.ok .deleted) [] .succeeded
  | pending {operation : String} {status : OperationStatus} (n : Nat)
    (h : status.isTerminal = true) :
    SettledBy (.ok (.pending operation))
      (List.replicate n (looked operation .inProgress) ++ [looked operation status]) status

/-- What one look tells: a terminal state, or that there is none yet. -/
def lookedAt (answer : Except Failure OperationStatus) : Except Failure (Option OperationStatus) :=
  answer.map fun status => if status.isTerminal then some status else none

theorem checkOperation_eq (operation : String) :
    checkOperation (σ := σ) operation =
      .ask (.act (.plane (.operationStatus operation))) fun answer => .done (lookedAt answer) := by
  refine congrArg (Program.ask (I := Timed (Service σ)) _) (funext fun answer => ?_)
  match answer with
  | .error f => rfl
  | .ok status => rfl

theorem within_checkOperation (limit : Duration) (operation : String) :
    Task.within limit (checkOperation (σ := σ) operation) =
      .ask (.actWithin limit (.plane (.operationStatus operation))) fun
        | .finished elapsed answer => .done (.finished elapsed (lookedAt answer))
        | .expired => .done .expired
        | .stopped => .done .stopped := by
  rw [checkOperation_eq, Task.within, Task.withinFrom]
  refine congrArg (Program.ask (I := Timed (Service σ)) _) (funext fun answer => ?_)
  match answer with
  | .finished elapsed answer => simp only [Task.withinFrom, Nat.zero_add]
  | .expired => rfl
  | .stopped => rfl

/-- What a removal makes of the end of a wait. -/
def verdict : Except WaitError OperationStatus → Task (Service σ) (Except Error Bool)
  | .error e => .done (.error (.ofWait e))
  | .ok status => .done (.ok (status == .succeeded))

/-- One look at an operation, for as long as there is time left. -/
abbrev lookWithin (operation : String) (left : Duration) : Timed.Call (Service σ) :=
  .actWithin left (.plane (.operationStatus operation))

/-- How far a round of a wait has come: a stop is asked for, the operation is looked at, the delay
may get a random part, and time is left to pass. -/
inductive Phase where
  | asking
  | looking
  | drawing
  | resting
  deriving DecidableEq, Repr

/-- What is known in each phase of a wait for the deletion of `resource`, of the time that is left
and of the state, and what follows from it where the wait ends. -/
structure Watch (E : Surroundings (Timed (Service σ)) τ)
    (allowed : τ → Timed.Call (Service σ) → Prop) (operation resource : String)
    (timeout : Duration) (inv : Phase → Duration → τ → Prop)
    (post : Option (Except Error Bool) → τ → Prop) : Prop where
  ask : ∀ left t, inv .asking left t → allowed t .stopRequested
  asked : ∀ left t u, inv .asking left t → E t .stopRequested false u → left ≠ 0 →
    inv .looking left u
  askedToStop : ∀ left t u, inv .asking left t → E t .stopRequested true u →
    post (some (.error (.stopped resource))) u
  timeUp : ∀ t u, inv .asking 0 t → E t .stopRequested false u →
    post (some (.error (.timedOut resource timeout))) u
  look : ∀ left t, inv .looking left t → allowed t (lookWithin operation left)
  inProgress : ∀ left t u elapsed, inv .looking left t →
    E t (lookWithin operation left) (Cut.finished elapsed (.ok .inProgress)) u →
      inv .drawing (left - elapsed) u
  terminal : ∀ left t u elapsed status, inv .looking left t → status.isTerminal = true →
    E t (lookWithin operation left) (Cut.finished elapsed (.ok status)) u →
      post (some (.ok (status == .succeeded))) u
  failed : ∀ left t u elapsed f, inv .looking left t →
    E t (lookWithin operation left) (Cut.finished elapsed (.error f)) u →
      post (some (.error (.call (.polling resource) f))) u
  expired : ∀ left t u, inv .looking left t → E t (lookWithin operation left) Cut.expired u →
    post (some (.error (.timedOut resource timeout))) u
  stopped : ∀ left t u, inv .looking left t → E t (lookWithin operation left) Cut.stopped u →
    post (some (.error (.stopped resource))) u
  jitter : ∀ left t bound, inv .drawing left t → allowed t (.jitter bound)
  jittered : ∀ left t u bound extra, inv .drawing left t → E t (.jitter bound) extra u →
    inv .resting left u
  undrawn : ∀ left t, inv .drawing left t → inv .resting left t
  rest : ∀ left t length, inv .resting left t → length ≤ left → allowed t (.rest length)
  rested : ∀ left t u length passed, inv .resting left t → E t (.rest length) (some passed) u →
    inv .asking (left - passed) u
  restStopped : ∀ left t u length, inv .resting left t → E t (.rest length) none u →
    post (some (.error (.stopped resource))) u
  stalled : ∀ left t, inv .asking left t → post none t

section

variable {E : Surroundings (Timed (Service σ)) τ} {allowed : τ → Timed.Call (Service σ) → Prop}
  {operation resource : String} {s : WaitSettings} {inv : Phase → Duration → τ → Prop}
  {post : Option (Except Error Bool) → τ → Prop}

/-- However long a rest is within the time that is left, the rounds after it keep what is known. -/
theorem Watch.meets_rest (h : Watch E allowed operation resource s.timeout inv post)
    {next : Duration → Task (Service σ) (Except WaitError OperationStatus)}
    {left length : Duration} {t : τ} (ht : inv .resting left t) (hlength : length ≤ left)
    (hnext : ∀ passed u, inv .asking (left - passed) u →
      Meets E allowed post ((next passed).bind verdict) u) :
    Meets E allowed post (((Task.rest length).bind fun
      | none => .done (.error (.stopped resource))
      | some passed => next passed).bind verdict) t := by
  refine ⟨h.rest left t length ht hlength, ?_⟩
  intro passed u hu
  match passed, hu with
  | none, hu => exact h.restStopped left t u length ht hu
  | some passed, hu => exact hnext passed u (h.rested left t u length passed ht hu)

theorem Watch.meets_poll (h : Watch E allowed operation resource s.timeout inv post)
    (limit : Nat) (w : Waiting) {t : τ} (ht : inv .asking w.remaining t) :
    Meets E allowed post
      ((Waiting.poll s resource (checkOperation operation) limit w).bind verdict) t := by
  induction limit generalizing w t with
  | zero => exact h.stalled _ t ht
  | succ limit ih =>
    rw [Waiting.poll, bind_assoc]
    refine ⟨h.ask _ t ht, ?_⟩
    intro asked u hasked
    simp only [bind_done]
    split_ifs with hstop htime
    · subst hstop
      exact h.askedToStop _ t u ht hasked
    · rw [Bool.not_eq_true] at hstop
      subst hstop
      rw [htime] at ht
      exact h.timeUp t u ht hasked
    rw [Bool.not_eq_true] at hstop
    subst hstop
    have hu := h.asked _ t u ht hasked htime
    rw [within_checkOperation, bind_assoc]
    refine ⟨h.look _ u hu, ?_⟩
    intro answer v hv
    match answer, hv with
    | .expired, hv => exact h.expired _ u v hu hv
    | .stopped, hv => exact h.stopped _ u v hu hv
    | .finished elapsed (.error f), hv => exact h.failed _ u v elapsed f hu hv
    | .finished elapsed (.ok .succeeded), hv => exact h.terminal _ u v elapsed _ hu rfl hv
    | .finished elapsed (.ok .failed), hv => exact h.terminal _ u v elapsed _ hu rfl hv
    | .finished elapsed (.ok .inProgress), hv =>
      have hleft := h.inProgress _ u v elapsed hu hv
      change Meets E allowed post (((w.growth.pick s).bind _).bind verdict) v
      rw [Growth.pick]
      split_ifs
      · exact h.meets_rest (h.undrawn _ v hleft) (Nat.min_le_right _ _) fun passed x hx => ih _ hx
      · refine ⟨h.jitter _ v _ hleft, ?_⟩
        intro extra x hx
        have hleft' := h.jittered _ v x _ extra hleft hx
        exact h.meets_rest hleft' (Nat.min_le_right _ _) fun passed y hy => ih _ hy

/-- Waiting for a pending deletion keeps what is known before each round. -/
theorem Watch.meets_settle (h : Watch E allowed operation resource s.timeout inv post) {t : τ}
    (ht : inv .asking s.timeout t) :
    Meets E allowed post (settle s resource (.pending operation)).run t :=
  h.meets_poll s.roundLimit (.start s) ht

end

/-- What is known while the deletion of `resource` is waited for, and what follows from it where the
wait ends. -/
structure Polling (R : Replies (Service σ) τ) (allowed : τ → Timed.Call (Service σ) → Prop)
    (operation resource : String) (timeout : Duration) (inv : τ → Prop)
    (post : Option (Except Error Bool) → τ → Prop) : Prop where
  look : ∀ t limit, inv t → allowed t (.actWithin limit (.plane (.operationStatus operation)))
  stopRequested : ∀ t, inv t → allowed t .stopRequested
  rest : ∀ t length, inv t → allowed t (.rest length)
  jitter : ∀ t bound, inv t → allowed t (.jitter bound)
  inProgress : ∀ t u, inv t → R t (.plane (.operationStatus operation)) (some (.ok .inProgress)) u →
    inv u
  terminal : ∀ t u status, inv t → status.isTerminal = true →
    R t (.plane (.operationStatus operation)) (some (.ok status)) u →
      post (some (.ok (status == .succeeded))) u
  failed : ∀ t u f, inv t → R t (.plane (.operationStatus operation)) (some (.error f)) u →
    post (some (.error (.call (.polling resource) f))) u
  timedOut : ∀ t u, inv t → (u = t ∨ R t (.plane (.operationStatus operation)) none u) →
    post (some (.error (.timedOut resource timeout))) u
  stopped : ∀ t u, inv t → (u = t ∨ R t (.plane (.operationStatus operation)) none u) →
    post (some (.error (.stopped resource))) u
  stalled : ∀ t, inv t → post none t

variable {R : Replies (Service σ) τ} {allowed : τ → Timed.Call (Service σ) → Prop}
  {operation resource : String} {s : WaitSettings} {inv : τ → Prop}
  {post : Option (Except Error Bool) → τ → Prop}

/-- Where time goes by as it likes, nothing is known of the time that is left. -/
theorem Polling.watch {timeout : Duration}
    (h : Polling R allowed operation resource timeout inv post) :
    Watch R.timed allowed operation resource timeout (fun _ _ t => inv t) post where
  ask _ t ht := h.stopRequested t ht
  asked _ t u ht hu _ := by
    obtain rfl := hu
    exact ht
  askedToStop _ t u ht hu := h.stopped t u ht (.inl hu)
  timeUp t u ht hu := h.timedOut t u ht (.inl hu)
  look left t ht := h.look t left ht
  inProgress _ t u _ ht hu := h.inProgress t u ht hu
  terminal _ t u _ status ht hstatus hu := h.terminal t u status ht hstatus hu
  failed _ t u _ f ht hu := h.failed t u f ht hu
  expired _ t u ht hu := h.timedOut t u ht (.inr hu)
  stopped _ t u ht hu := h.stopped t u ht (.inr hu)
  jitter _ t bound ht := h.jitter t bound ht
  jittered _ t u _ _ ht hu := by
    obtain rfl := hu
    exact ht
  undrawn _ _ ht := ht
  rest _ t length ht _ := h.rest t length ht
  rested _ t u _ _ ht hu := by
    obtain rfl := hu
    exact ht
  restStopped _ t u _ ht hu := h.stopped t u ht (.inl hu)
  stalled _ t ht := h.stalled t ht

/-- Waiting for a pending deletion keeps the invariant of its looks. -/
theorem Polling.meets_settle (h : Polling R allowed operation resource s.timeout inv post) {t : τ}
    (ht : inv t) :
    Meets R.timed allowed post (settle s resource (.pending operation)).run t :=
  h.watch.meets_settle ht

end Decommission.Teardown
