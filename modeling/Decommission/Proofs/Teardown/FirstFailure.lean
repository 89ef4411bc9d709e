import Decommission.Proofs.Teardown.Course
import Decommission.Proofs.Teardown.Rounds

/-!
A removal ends with its first failure. After that nothing is called, but for closing the store that
is open.
-/
namespace Decommission.Teardown

open Program

variable {σ α β : Type} {timeout : Duration} {h : History σ}

/-- What an action leaves behind: `value` where it gives a value, `broken` where it ends with an
error. Nothing has failed where it stalls. -/
def LeavesBehind (timeout : Duration) (broken : Error → History σ → Prop)
    (value : α → History σ → Prop) : Option (Except Error α) → History σ → Prop
  | some (.ok a), h => value a h
  | some (.error e), h => broken e h
  | none, h => Clean timeout h

/-- Whatever the action is answered after the history `h`, it makes only allowed calls. -/
def Leaving (timeout : Duration) (allowed : History σ → Timed.Call (Service σ) → Prop)
    (broken : Error → History σ → Prop) (value : α → History σ → Prop) (x : Action σ α)
    (h : History σ) : Prop :=
  Meets (Event.recording (Timed (Service σ))) allowed (LeavesBehind timeout broken value) x.run h

/-- The call closes no store. -/
def ClosesNone (c : Timed.Call (Service σ)) : Prop := ∀ store, c ≠ .act (.blob (.close store))

/-- The call is one of an action that goes on because nothing has failed. -/
structure MayFollow (timeout : Duration) (h : History σ) (c : Timed.Call (Service σ)) : Prop where
  closesNone : ClosesNone c
  clean : Clean timeout h
  proceeds : Proceeds timeout h c

/-- The action ends with its first failure, makes each call while nothing has failed, and closes no
store. -/
abbrev StopsAtFailure (timeout : Duration) (value : α → History σ → Prop) (x : Action σ α)
    (h : History σ) : Prop :=
  Leaving timeout (MayFollow timeout) (Broken timeout) value x h

/-- The history ends with the first failure, but for the closing of the store that is open. -/
def BrokenAndClosed (timeout : Duration) (e : Error) (h : History σ) : Prop :=
  ∃ failing closing, h = failing ++ closing ∧ Broken timeout e failing ∧
    (closing = [] ∨
      ∃ store, IsOpen store failing ∧ closing = [⟨.act (.blob (.close store)), ()⟩])

/-- The action ends with its first failure, after which it only closes the store that is open; it
makes no other call but while nothing has failed. -/
abbrev StopsAndCloses (timeout : Duration) (value : α → History σ → Prop) (x : Action σ α)
    (h : History σ) : Prop :=
  Leaving timeout (fun t c => ClosesNone c → MayFollow timeout t c) (BrokenAndClosed timeout) value
    x h

section

variable {allowed : History σ → Timed.Call (Service σ) → Prop}
  {broken : Error → History σ → Prop} {value : α → History σ → Prop}

theorem Leaving.bind {x : Action σ β} {f : β → Action σ α}
    (hx : Leaving timeout allowed broken
      (fun a => Leaving timeout allowed broken value (f a)) x h) :
    Leaving timeout allowed broken value (x >>= f) h := by
  apply meets_run_bind
  apply hx.imp
  intro r t ht
  match r, ht with
  | some (.ok a), ht => exact ht
  | some (.error e), ht => exact ht
  | none, ht => exact ht

theorem Leaving.imp {value' : α → History σ → Prop} {x : Action σ α}
    (hx : Leaving timeout allowed broken value x h) (himp : ∀ a t, value a t → value' a t) :
    Leaving timeout allowed broken value' x h := by
  apply Meets.imp hx
  intro r t ht
  match r, ht with
  | some (.ok a), ht => exact himp a t ht
  | some (.error e), ht => exact ht
  | none, ht => exact ht

/-- What is known where one action ends is what the next one starts from. -/
theorem Leaving.andThen {between : β → History σ → Prop} {x : Action σ β} {f : β → Action σ α}
    (hx : Leaving timeout allowed broken between x h)
    (hf : ∀ a t, between a t → Leaving timeout allowed broken value (f a) t) :
    Leaving timeout allowed broken value (x >>= f) h := (hx.imp hf).bind

theorem leaving_pure {a : α} (ha : value a h) :
    Leaving timeout allowed broken value (pure a) h := ha

theorem leaving_throw {e : Error} (he : broken e h) :
    Leaving timeout allowed broken value (throw e : Action σ α) h := he

theorem StopsAtFailure.closing {x : Action σ α} (hx : StopsAtFailure timeout value x h) :
    StopsAndCloses timeout value x h := by
  refine hx.mono (fun _ _ hc _ => hc) ?_
  intro r t ht
  match r, ht with
  | some (.ok a), ht => exact ht
  | some (.error e), ht => exact ⟨t, [], (List.append_nil t).symm, ht, .inl rfl⟩
  | none, ht => exact ht

/-- One call, where each answer gives a value, or is the failure that the action ends with. -/
theorem stops_act {c : Call σ} {result : Answer σ c → Except Error α} (hclean : Clean timeout h)
    (hcloses : ClosesNone (.act c))
    (hresult : ∀ answer,
      (∃ a, result answer = .ok a ∧ (sceneAfter h).ofAnswer c answer = none ∧
        (Clean timeout (h ++ [⟨.act c, answer⟩]) → value a (h ++ [⟨.act c, answer⟩]))) ∨
      ∃ e, result answer = .error e ∧ (sceneAfter h).ofAnswer c answer = some e) :
    StopsAtFailure timeout value
      (ExceptT.mk ((Task.act (I := Service σ) c).bind fun answer => .done (result answer))) h := by
  refine ⟨⟨hcloses, hclean, trivial⟩, ?_⟩
  intro answer t ht
  have hrecorded : t = h ++ [⟨.act c, answer⟩] := ht
  change LeavesBehind timeout (Broken timeout) value (some (result answer)) t
  rw [hrecorded]
  rcases hresult answer with ⟨a, hok, hnone, hvalue⟩ | ⟨e, herror, hsome⟩
  · rw [hok]
    exact hvalue (hclean.append hnone)
  · rw [herror]
    exact hclean.broken hsome

end

theorem stops_planeIfFound {call : ControlPlane.Call} {explain : Failure → Error}
    {value : Option (ControlPlane.Result call) → History σ → Prop} (hclean : Clean timeout h)
    (hfine : ∀ r, (sceneAfter h).ofAnswer (σ := σ) (.plane call) (.ok r) = none)
    (hfails : ∀ f, (sceneAfter h).ofAnswer (σ := σ) (.plane call) (.error f) =
      Scene.unlessAbsent f (explain f))
    (hvalue : ∀ r answer, Clean timeout (h ++ [⟨.act (.plane call), answer⟩]) →
      value r (h ++ [⟨.act (.plane call), answer⟩])) :
    StopsAtFailure timeout value (Action.planeIfFound explain call) h := by
  apply stops_act hclean (by simp [ClosesNone])
  intro answer
  match answer with
  | .ok r => exact .inl ⟨some r, rfl, hfine r, hvalue _ _⟩
  | .error f =>
    have hf := hfails f
    unfold Scene.unlessAbsent at hf
    -- what is not found is no failure
    cases habsent : f.isNotFound with
    | true =>
      rw [if_pos habsent] at hf
      refine .inl ⟨none, ?_, hf, hvalue _ _⟩
      rw [ignoreNotFound_absent habsent]
      rfl
    | false =>
      rw [if_neg (by simp [habsent])] at hf
      refine .inr ⟨explain f, ?_, hf⟩
      rw [ignoreNotFound_failed habsent]
      rfl

/-- The deletion of `resource` was asked for, and nothing has failed. The wait for it has come to a
phase where so much time is left. -/
structure Awaits (timeout : Duration) (resource : String) (required : Bool) (phase : Phase)
    (left : Duration) (h : History σ) : Prop where
  clean : Clean timeout h
  resource_eq : (sceneAfter h).resource = resource
  required_eq : (sceneAfter h).required = required
  left_eq : left = timeout - (sceneAfter h).spent
  after : phase.After h

/-- A deletion that was asked for just now has all its time left. -/
theorem awaits_asked {resource : String} {required : Bool} {c : Call σ} {answer : Answer σ c}
    (hclean : Clean timeout (h ++ [⟨.act c, answer⟩]))
    (hafter : (sceneAfter h).after ⟨.act c, answer⟩ =
      { sceneAfter h with resource, required, spent := 0 }) :
    Awaits timeout resource required .asking timeout (h ++ [⟨.act c, answer⟩]) := by
  have hscene : sceneAfter (h ++ [⟨.act c, answer⟩]) =
      { sceneAfter h with resource, required, spent := 0 } :=
    (sceneAfter_append h _).trans hafter
  refine ⟨hclean, ?_, ?_, ?_, Phase.Begins.called.after⟩ <;> rw [hscene]
  exact (Nat.sub_zero timeout).symm

section

variable {resource : String} {required : Bool} {phase next : Phase} {left : Duration}
  {event : Event (Timed (Service σ))}

theorem Awaits.append (hw : Awaits timeout resource required phase left h)
    (hnext : next.Begins event) (passed : Duration)
    (hevent : (sceneAfter h).error? timeout event = none)
    (hafter : (sceneAfter h).after event =
      { sceneAfter h with spent := (sceneAfter h).spent + passed }) :
    Awaits timeout resource required next (left - passed) (h ++ [event]) := by
  have hscene : sceneAfter (h ++ [event]) =
      { sceneAfter h with spent := (sceneAfter h).spent + passed } :=
    (sceneAfter_append h event).trans hafter
  refine ⟨hw.clean.append hevent, ?_, ?_, ?_, hnext.after⟩
  · rw [hscene]
    exact hw.resource_eq
  · rw [hscene]
    exact hw.required_eq
  · rw [hscene, hw.left_eq]
    exact Nat.sub_sub _ _ _

/-- The calls of its phase go on with a wait. -/
theorem Awaits.mayFollow {c : Timed.Call (Service σ)}
    (hw : Awaits timeout resource required phase left h) (operation : String)
    (hcalls : phase.Calls operation left c) (hcloses : ClosesNone c) : MayFollow timeout h c := by
  rw [hw.left_eq] at hcalls
  have hgoesOn : GoesOn timeout operation h c := ⟨phase, hw.after, hcalls⟩
  exact ⟨hcloses, hw.clean, hgoesOn.proceeds⟩

/-- An event that fails while a deletion is waited for fails with an error about that. -/
theorem Awaits.broken (hw : Awaits timeout resource required phase left h)
    (error : String → Error)
    (hevent : (sceneAfter h).error? timeout event = some (error (sceneAfter h).resource)) :
    Broken timeout (error resource) (h ++ [event]) := by
  rw [hw.resource_eq] at hevent
  exact hw.clean.broken hevent

end

/-- The wait for the deletion of `resource` is over; its failure is that of the removal, if it is
`required`. -/
def WaitedFor (timeout : Duration) (resource : String) (required ok : Bool) (h : History σ) :
    Prop :=
  if required = true ∧ ok = false then Broken timeout (.deletionFailed resource) h
  else Clean timeout h

theorem WaitedFor.clean {resource : String} {required ok : Bool}
    (hw : WaitedFor timeout resource required ok h) (hfine : required = false ∨ ok = true) :
    Clean timeout h := by
  rcases hfine with rfl | rfl <;> simpa [WaitedFor] using hw

theorem WaitedFor.broken {resource : String} (hw : WaitedFor timeout resource true false h) :
    Broken timeout (.deletionFailed resource) h := by
  simpa [WaitedFor] using hw

theorem Awaits.terminal {resource operation : String} {required : Bool} {left elapsed : Duration}
    {status : OperationStatus} (hw : Awaits timeout resource required .looking left h)
    (hterminal : status.isTerminal = true) :
    WaitedFor timeout resource required (status == .succeeded)
      (h ++ [⟨lookWithin operation left, .finished elapsed (.ok status)⟩]) := by
  unfold WaitedFor
  cases status with
  | inProgress => cases hterminal
  | succeeded =>
    rw [if_neg (by simp)]
    exact hw.clean.append rfl
  | failed =>
    split_ifs with hcare
    · apply hw.broken .deletionFailed
      exact if_pos (hw.required_eq.trans hcare.1)
    · apply hw.clean.append
      apply if_neg
      rw [hw.required_eq]
      intro hrequired
      exact hcare ⟨hrequired, rfl⟩

/-- Each way in which a wait can end is told by its last event. -/
theorem watch_failures (timeout : Duration) (operation resource : String) (required : Bool) :
    Watch (Event.recording (Timed (Service σ))) (MayFollow timeout) operation resource timeout
      (Awaits timeout resource required)
      (LeavesBehind timeout (Broken timeout) (WaitedFor timeout resource required)) := by
  constructor
  case ask =>
    intro left h hw
    exact hw.mayFollow operation rfl (by simp [ClosesNone])
  case look =>
    intro left h hw
    exact hw.mayFollow operation rfl (by simp [ClosesNone])
  case jitter =>
    intro left h bound hw
    exact hw.mayFollow operation ⟨bound, rfl⟩ (by simp [ClosesNone])
  case rest =>
    intro left h length hw hlength
    exact hw.mayFollow operation ⟨length, hlength, rfl⟩ (by simp [ClosesNone])
  case undrawn =>
    intro left h hw
    exact { hw with after := hw.after.undrawn }
  case asked =>
    intro left h u hw hu hsome
    obtain rfl := hu
    apply hw.append .running 0 ?_ rfl
    apply if_neg
    intro hspent
    exact hsome (hw.left_eq.trans (Nat.sub_eq_zero_of_le hspent))
  case timeUp =>
    intro h u hw hu
    obtain rfl := hu
    apply hw.broken fun r => .timedOut r timeout
    exact if_pos (Nat.sub_eq_zero_iff_le.mp hw.left_eq.symm)
  case inProgress =>
    intro left h u elapsed hw hu
    obtain rfl := hu
    exact hw.append .looked elapsed rfl rfl
  case jittered =>
    intro left h u bound extra hw hu
    obtain rfl := hu
    exact hw.append .drawn 0 rfl rfl
  case rested =>
    intro left h u length passed hw hu
    obtain rfl := hu
    exact hw.append .rested passed rfl rfl
  case terminal =>
    intro left h u elapsed status hw hterminal hu
    obtain rfl := hu
    exact hw.terminal hterminal
  case failed =>
    intro left h u elapsed f hw hu
    obtain rfl := hu
    exact hw.broken (fun r => .call (.polling r) f) rfl
  case expired =>
    intro left h u hw hu
    obtain rfl := hu
    exact hw.broken (fun r => .timedOut r timeout) rfl
  case stopped =>
    intro left h u hw hu
    obtain rfl := hu
    exact hw.broken .stopped rfl
  case askedToStop =>
    intro left h u hw hu
    obtain rfl := hu
    exact hw.broken .stopped rfl
  case restStopped =>
    intro left h u length hw hu
    obtain rfl := hu
    exact hw.broken .stopped rfl
  case stalled =>
    intro left h hw
    exact hw.clean

theorem stops_requestDelete {kind : ResourceKind} {group name : String} (hclean : Clean timeout h) :
    StopsAtFailure timeout
      (fun _ => Awaits timeout (resourceText kind name) (kind = .networkInterface) .asking timeout)
      (requestDelete kind group name) h := by
  apply Leaving.bind
  apply stops_planeIfFound hclean (fun _ => rfl) (fun _ => rfl)
  intro r answer hclean'
  apply leaving_pure
  exact awaits_asked hclean' rfl

theorem stops_settle {wait : WaitSettings} {resource : String} {required : Bool} {d : Deletion}
    (hw : Awaits wait.timeout resource required .asking wait.timeout h) :
    StopsAtFailure wait.timeout (WaitedFor wait.timeout resource required) (settle wait resource d)
      h := by
  have hdone : WaitedFor wait.timeout resource required true h := by
    unfold WaitedFor
    rw [if_neg (by simp)]
    exact hw.clean
  match d with
  | .alreadyAbsent => exact hdone
  | .deleted => exact hdone
  | .pending operation =>
    exact (watch_failures wait.timeout operation resource required).meets_settle hw

theorem stops_deleteAndSettle {wait : WaitSettings} {kind : ResourceKind} {group name : String}
    (hclean : Clean wait.timeout h) :
    StopsAtFailure wait.timeout
      (WaitedFor wait.timeout (resourceText kind name) (kind = .networkInterface))
      (deleteAndSettle wait kind group name) h := by
  apply (stops_requestDelete hclean).andThen
  intro d t hw
  exact stops_settle hw

theorem stops_deleteAddresses {group : String} {names : List String} (hclean : Clean timeout h) :
    StopsAtFailure timeout (fun _ => Clean timeout) (deleteAddresses group names) h := by
  induction names generalizing h with
  | nil => exact leaving_pure hclean
  | cons name names ih =>
    apply (stops_requestDelete hclean).andThen
    intro d t hw
    exact ih hw.clean

theorem stops_deleteNetworkCards {wait : WaitSettings} {group : String} {cards : List Reference}
    (hclean : Clean wait.timeout h) :
    StopsAtFailure wait.timeout (fun _ => Clean wait.timeout) (deleteNetworkCards wait group cards)
      h := by
  induction cards generalizing h with
  | nil => exact leaving_pure hclean
  | cons r cards ih =>
    apply Leaving.bind
    apply stops_act hclean (by simp [ClosesNone])
    intro answer
    match answer with
    | .error f => exact .inr ⟨_, rfl, rfl⟩
    | .ok none => exact .inl ⟨none, rfl, rfl, ih⟩
    | .ok (some card) =>
      refine .inl ⟨some card, rfl, rfl, ?_⟩
      intro hclean'
      apply (stops_deleteAndSettle hclean').andThen
      intro ok t hwaited
      match ok with
      -- the look that told of the failed deletion is the event that failed
      | false => exact leaving_throw hwaited.broken
      | true =>
        apply (stops_deleteAddresses (hwaited.clean (.inr rfl))).andThen
        intro _ t ht
        exact ih ht

theorem stops_cleanAccount {container group account : String} {store : σ} (hclean : Clean timeout h)
    (haccount : (sceneAfter h).account = account) :
    StopsAtFailure timeout (fun _ => Clean timeout) (cleanAccount container group account store)
      h := by
  apply Leaving.bind
  apply stops_act hclean (by simp [ClosesNone])
  intro answer
  match answer with
  | .error f =>
    exact .inr ⟨_, rfl, congrArg (fun a => some (Error.storage a .deletingContainer f)) haccount⟩
  | .ok existed =>
    refine .inl ⟨existed, rfl, rfl, ?_⟩
    intro hclean'
    -- the store that was opened last is still that of this account
    have haccount' := (congrArg Scene.account (sceneAfter_append h
      ⟨.act (.blob (.deleteContainer store container)), .ok existed⟩)).trans haccount
    apply Leaving.bind
    apply stops_act hclean' (by simp [ClosesNone])
    intro answer
    match answer with
    | .error f =>
      exact .inr ⟨_, rfl, congrArg (fun a => some (Error.storage a .checkingImages f)) haccount'⟩
    | .ok true =>
      refine .inl ⟨true, rfl, rfl, ?_⟩
      intro hclean''
      exact leaving_pure hclean''
    | .ok false =>
      refine .inl ⟨false, rfl, rfl, ?_⟩
      intro hclean''
      apply (stops_requestDelete hclean'').andThen
      intro d t hw
      exact leaving_pure hw.clean

theorem stops_isEmptyOf {group : String} {kinds : List ResourceKind} (hclean : Clean timeout h) :
    StopsAtFailure timeout (fun _ => Clean timeout) (isEmptyOf group kinds) h := by
  induction kinds generalizing h with
  | nil => exact leaving_pure hclean
  | cons kind kinds ih =>
    apply Leaving.bind
    apply stops_act hclean (by simp [ClosesNone])
    intro answer
    match answer with
    | .error f => exact .inr ⟨_, rfl, rfl⟩
    | .ok [] => exact .inl ⟨[], rfl, rfl, ih⟩
    | .ok (name :: names) =>
      refine .inl ⟨name :: names, rfl, rfl, ?_⟩
      intro hclean'
      exact leaving_pure hclean'

theorem stops_deleteGroupIfEmpty {wait : WaitSettings} {group : String}
    (hclean : Clean wait.timeout h) :
    StopsAtFailure wait.timeout (fun _ => Clean wait.timeout) (deleteGroupIfEmpty wait group)
      h := by
  apply (stops_isEmptyOf hclean).andThen
  intro empty t ht
  match empty with
  | false => exact leaving_pure ht
  | true =>
    apply Leaving.bind
    apply stops_planeIfFound ht (fun _ => rfl) (fun _ => rfl)
    intro r answer hclean'
    have hw : Awaits wait.timeout (groupText group) true .asking wait.timeout
        (t ++ [⟨.act (.plane (.deleteGroup group)), answer⟩]) := awaits_asked hclean' rfl
    apply (stops_settle hw).andThen
    intro ok u hwaited
    match ok with
    | false => exact leaving_throw hwaited.broken
    | true => exact leaving_pure (hwaited.clean (.inr rfl))

/-- What stops at its first failure has ended with an error exactly where the last event is that
failure, and the error is that of the event. -/
theorem error_iff_broken {q : Task (Service σ) (Except Error α)}
    (hq : q.Meets (Event.recording (Timed (Service σ))) (MayFollow timeout)
      (LeavesBehind timeout (Broken timeout) fun _ => Clean timeout) h) {e : Error} :
    q = .done (.error e) ↔ Broken timeout e h := by
  constructor
  · rintro rfl
    exact hq
  · intro hbroken
    -- a value, a stall and a further call all tell that nothing has failed
    match q, hq with
    | .done (.ok _), hclean => exact absurd hclean hbroken.not_clean
    | .done (.error _), hbroken' => rw [hbroken.unique hbroken']
    | .stalled, hclean => exact absurd hclean hbroken.not_clean
    | .ask _ _, ⟨hmay, _⟩ => exact absurd hmay.clean hbroken.not_clean

/-- The store is closed on both ways, after a failure as the last call. -/
theorem stops_closingAfter {store : σ} {x : Action σ Unit} (hopen : IsOpen store h)
    (hx : StopsAtFailure timeout (fun _ => Clean timeout) x h) :
    StopsAndCloses timeout (fun _ => Clean timeout) (Action.closingAfter store x) h := by
  have hkept : x.run.Meets (Event.recording (Timed (Service σ))) (MayFollow timeout)
      (fun r t => LeavesBehind timeout (Broken timeout) (fun _ => Clean timeout) r t ∧
        IsOpen store t) h := by
    apply Meets.keep ?_ hx hopen
    intro t c a u hc ht hu
    obtain rfl := hu
    exact ht.append (hc.closesNone store)
  apply meets_bind.mpr
  refine hkept.mono (fun _ _ hc _ => hc) ?_
  intro r t ht
  match r, ht with
  | some (.ok _), ⟨hclean, _⟩ =>
    refine ⟨fun hc => ⟨hc, hclean, trivial⟩, ?_⟩
    intro answer u hu
    obtain rfl := hu
    exact hclean.append rfl
  | some (.error e), ⟨hbroken, ht⟩ =>
    refine ⟨fun hc => absurd rfl (hc store), ?_⟩
    intro answer u hu
    obtain rfl := hu
    exact ⟨t, _, rfl, hbroken, .inr ⟨store, ht, rfl⟩⟩
  | none, ⟨hclean, _⟩ => exact hclean

theorem stops_deleteStorage {container group : String} {m : Machine} (hclean : Clean timeout h) :
    StopsAndCloses timeout (fun _ => Clean timeout) (deleteStorage container group m) h := by
  unfold deleteStorage
  split
  · exact leaving_pure hclean
  · next account _ =>
    apply Leaving.bind
    apply StopsAtFailure.closing
    apply stops_planeIfFound hclean (fun _ => rfl) (fun _ => rfl)
    intro r answer hclean'
    split
    · exact leaving_pure hclean'
    · next keys _ =>
      apply Leaving.bind
      apply StopsAtFailure.closing
      apply stops_act hclean' (by simp [ClosesNone])
      intro answer
      match answer with
      | .error f => exact .inr ⟨_, rfl, rfl⟩
      | .ok store =>
        refine .inl ⟨store, rfl, rfl, ?_⟩
        intro hclean''
        apply stops_closingAfter ⟨_, account, keys.key1, [], rfl, by simp⟩
        apply stops_cleanAccount hclean''
        exact congrArg Scene.account (sceneAfter_append _ _)

theorem stops_removeMachine (s : TeardownSettings) (id : MachineId) :
    StopsAndCloses (σ := σ) s.wait.timeout (fun _ => Clean s.wait.timeout) (removeMachine s id)
      [] := by
  apply Leaving.bind
  apply StopsAtFailure.closing
  apply stops_act eachAfter_nil (by simp [ClosesNone])
  intro answer
  match answer with
  | .error f => exact .inr ⟨_, rfl, rfl⟩
  | .ok none =>
    refine .inl ⟨none, rfl, rfl, ?_⟩
    intro hclean
    exact leaving_pure hclean
  | .ok (some m) =>
    refine .inl ⟨some m, rfl, rfl, ?_⟩
    intro hclean
    apply (stops_deleteAndSettle hclean).closing.andThen
    intro ok t hwaited
    have ht : Clean s.wait.timeout t := hwaited.clean (.inl rfl)
    apply (stops_deleteNetworkCards ht).closing.andThen
    intro _ t ht
    apply (stops_deleteStorage ht).andThen
    intro _ t ht
    apply (stops_deleteGroupIfEmpty ht).closing.andThen
    intro _ t ht
    exact leaving_pure ht

/-- A removal that ends with an error has made no call where the text is no id, and has ended with
its first failure where it is. After that event it made no call but the closing of the store that
was open, and the error is that of the event, with the failure of the call that the event is, if it
is one. -/
theorem first_failure_ends {s : TeardownSettings} {text : String} {e : Error}
    (hr : Reaches (Event.recording (Timed (Service σ))) (remove s text).run []
      (.done (.error e)) h) :
    (∃ cause, MachineId.decode text = .error cause ∧ e = .invalidId cause ∧ e.service? = none ∧
      h = []) ∨
    (∃ id, MachineId.decode text = .ok id) ∧ ∃ before last closing,
      h = before ++ last :: closing ∧ Clean s.wait.timeout before ∧
      (sceneAfter before).error? s.wait.timeout last = some e ∧
      e.service? = (failureOf last).bind Failure.service? ∧
      (closing = [] ∨ ∃ store, IsOpen store (before ++ [last]) ∧
        closing = [⟨.act (.blob (.close store)), ()⟩]) := by
  rcases reaches_remove hr with ⟨cause, hid, hq, hh⟩ | ⟨id, hid, hr⟩
  · obtain rfl := Except.error.inj (Program.done.inj hq)
    exact .inl ⟨cause, hid, rfl, rfl, hh⟩
  right
  refine ⟨⟨id, hid⟩, ?_⟩
  obtain ⟨failing, closing, hh, ⟨before, last, hfailing, hclean, he⟩, hclosing⟩ :
      BrokenAndClosed s.wait.timeout e h := (stops_removeMachine s id).reaches hr
  subst hfailing
  have hservice : e.service? = (failureOf last).bind Failure.service? :=
    congrArg (fun f => Option.bind f Failure.service?) (failure_error he)
  exact ⟨before, last, closing, by simp [hh], hclean, he, hservice, hclosing⟩

/-- The disks could not be deleted: the store is closed, and the group is not looked at. -/
theorem first_failure_ends_container :
    let f : Failure := .of (.service .throttled)
    let h : History Unit :=
      [⟨.act (.plane (.getMachine "armsweep-r" "m")), .ok (some diskMachine)⟩,
        ⟨.act (.plane (.delete .virtualMachine "armsweep-r" "m")), .ok .deleted⟩,
        ⟨.act (.plane (.getStorageKeys "armsweep-r" "a")), .ok (some ⟨"k", "l"⟩)⟩,
        ⟨.act (.blob (.openStore "a" "k")), .ok ()⟩,
        ⟨.act (.blob (.deleteContainer () "vhds")), .error f⟩,
        ⟨.act (.blob (.close ())), ()⟩]
    let e : Error := .storage "a" .deletingContainer f
    Reaches (Event.recording (Timed (Service Unit))) (remove {} "r/m").run [] (.done (.error e)) h ∧
      e.service? = some .throttled ∧
      ∃ before last closing, h = before ++ last :: closing ∧
        (sceneAfter before).error? ({} : WaitSettings).timeout last = some e ∧
        (closing = [] ∨ ∃ store, IsOpen store (before ++ [last]) ∧
          closing = [⟨.act (.blob (.close store)), ()⟩]) := by
  intro f h e
  have hr : Reaches (Event.recording (Timed (Service Unit))) (remove {} "r/m").run []
      (.done (.error e)) h := by
    rw [remove, decode_sampleId]
    refine Reaches.ask (a := .ok (some diskMachine)) rfl ?_
    refine Reaches.ask (a := .ok .deleted) rfl ?_
    refine Reaches.ask (a := .ok (some ⟨"k", "l"⟩)) rfl ?_
    refine Reaches.ask (a := .ok ()) rfl ?_
    refine Reaches.ask (a := .error f) rfl ?_
    refine Reaches.ask (a := ()) rfl ?_
    exact .refl
  rcases first_failure_ends hr with ⟨cause, -, he, -⟩ |
    ⟨-, before, last, closing, hh, -, he, -, hclosing⟩
  · exact absurd he (by simp [e])
  · exact ⟨hr, rfl, before, last, closing, hh, he, hclosing⟩

end Decommission.Teardown
