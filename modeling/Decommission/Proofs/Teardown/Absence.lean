import Decommission.Proofs.Program.Indifference
import Decommission.Proofs.Teardown.Course

/-!
What is not found counts as absent. Where the keys of an account are asked for, or a deletion, it is
the same to a removal whether it is told that the resource is absent or that the call failed because
it was not found. Where a machine or a card is fetched it is not: the failure ends the removal.
-/
namespace Decommission.Teardown

open Program

variable {σ α β : Type}

/-- The plain answer that what the call is about does not exist. -/
def absent? : (call : ControlPlane.Call) → Option (ControlPlane.Result call)
  | .getMachine .. => some none
  | .getNetworkCard .. => some none
  | .getStorageKeys .. => some none
  | .list .. => none
  | .delete .. => some .alreadyAbsent
  | .deleteGroup .. => some .alreadyAbsent
  | .operationStatus .. => none

/-- A failure because the resource was not found, and the plain answer that it is absent. -/
inductive SaysAbsent (calls : ControlPlane.Call → Prop) : Likeness (Timed (Service σ)) where
  | plane {call : ControlPlane.Call} {f : Failure} {r : ControlPlane.Result call}
    (hcall : calls call) (hf : f.isNotFound = true) (hr : absent? call = some r) :
    SaysAbsent calls (.act (.plane call)) (.error f) (.ok r)

/-- The calls whose failure is looked at for whether the resource was not found. -/
def LooksForAbsence : ControlPlane.Call → Prop
  | .getStorageKeys .. => True
  | .delete .. => True
  | .deleteGroup .. => True
  | _ => False

/-- The error that a failed fetch of a machine or card is. -/
def fetchError? : (c : Timed.Call (Service σ)) → Timed.Answer (Service σ) c → Option Error
  | .act (.plane (.getMachine _ name)), .error f => some (.call (.fetchingMachine name) f)
  | .act (.plane (.getNetworkCard _ name)), .error f => some (.call (.fetchingNetworkCard name) f)
  | _, _ => none

/-- How an action goes on after a call: alike where the call looks for absence and is told of it in
either way, and not at all after a fetch that failed. There are fetches only if `fetching` holds. -/
def TakesAbsence (fetching : Prop) (c : Timed.Call (Service σ))
    (next : Timed.Answer (Service σ) c → Task (Service σ) (Except Error α)) : Prop :=
  Indifferent (SaysAbsent LooksForAbsence) c next ∧
    ∀ a e, fetchError? c a = some e → fetching ∧ next a = .done (.error e)

/-- The action takes absence in this way at each of its calls. -/
abbrev HeedsAbsence (fetching : Prop) (x : Action σ α) : Prop :=
  Throughout (TakesAbsence fetching) x.run

variable {fetching : Prop}

theorem HeedsAbsence.bind {x : Action σ β} {f : β → Action σ α} (hx : HeedsAbsence fetching x)
    (hf : ∀ a, HeedsAbsence fetching (f a)) : HeedsAbsence fetching (x >>= f) := by
  refine Throughout.bind hx ?_ ?_
  · rintro c next ⟨halike, hfails⟩
    refine ⟨?_, ?_⟩
    · intro a b hab
      exact congrArg (Program.bind · (ExceptT.bindCont f)) (halike a b hab)
    -- what ended the first action ends both
    · intro a e he
      obtain ⟨hfetching, hnext⟩ := hfails a e he
      exact ⟨hfetching, congrArg (Program.bind · (ExceptT.bindCont f)) hnext⟩
  · intro r
    match r with
    | .ok a => exact hf a
    | .error e => trivial

theorem heeds_pure {a : α} : HeedsAbsence fetching (pure a : Action σ α) := trivial

/-- A call that does not look for absence. -/
theorem heeds_act {c : Call σ} {result : Answer σ c → Except Error α}
    (hcall : ∀ a b, ¬SaysAbsent LooksForAbsence (.act c) a b)
    (hresult : ∀ a e, fetchError? (.act c) a = some e → fetching ∧ result a = .error e) :
    HeedsAbsence fetching
      (ExceptT.mk ((Task.act (I := Service σ) c).bind fun answer => .done (result answer))) := by
  refine ⟨⟨fun a b hab => absurd hab (hcall a b), ?_⟩, fun a => trivial⟩
  intro a e he
  obtain ⟨hfetching, hfailed⟩ := hresult a e he
  exact ⟨hfetching, congrArg Program.done hfailed⟩

/-- How an action goes on once a call was answered. -/
def goOn (explain : Failure → Error) (f : β → Action σ α) :
    Except Failure β → Task (Service σ) (Except Error α)
  | .ok b => (f b).run
  | .error failure => .done (.error (explain failure))

theorem run_planeIfFound_bind {call : ControlPlane.Call} {explain : Failure → Error}
    {f : Option (ControlPlane.Result call) → Action σ α} :
    (Action.planeIfFound explain call >>= f).run =
      .ask (.act (.plane call)) fun answer => goOn explain f (ignoreNotFound answer) := by
  refine congrArg (Program.ask _) (funext fun answer => ?_)
  simp only [bind_done]
  cases ignoreNotFound answer <;> rfl

/-- A call that looks for absence, if what comes after it is the same for both ways of telling it. -/
theorem heeds_planeIfFound {call : ControlPlane.Call} {explain : Failure → Error}
    {f : Option (ControlPlane.Result call) → Action σ α}
    (hcall : ∀ a, fetchError? (σ := σ) (.act (.plane call)) a = none)
    (hsame : ∀ r, absent? call = some r → f none = f (some r)) (hf : ∀ r, HeedsAbsence fetching (f r)) :
    HeedsAbsence fetching (Action.planeIfFound explain call >>= f) := by
  rw [HeedsAbsence, run_planeIfFound_bind]
  refine ⟨⟨?_, ?_⟩, ?_⟩
  · rintro _ _ ⟨-, hfound, hr⟩
    change goOn explain f _ = goOn explain f _
    rw [ignoreNotFound_absent hfound]
    exact congrArg ExceptT.run (hsame _ hr)
  · intro a e he
    rw [hcall a] at he
    cases he
  · intro answer
    change Throughout (TakesAbsence fetching) (goOn explain f _)
    cases ignoreNotFound answer with
    | ok r => exact hf r
    | error failure => trivial

/-- A call that is given up in time, or is not to the surroundings at all, tells of no absence. -/
theorem takesAbsence_of_wait {c : Timed.Call (Service σ)} (hc : ∀ call, c ≠ .act (.plane call))
    (next : Timed.Answer (Service σ) c → Task (Service σ) (Except Error α)) :
    TakesAbsence fetching c next := by
  refine ⟨?_, ?_⟩
  · rintro _ _ ⟨-, -, -⟩
    exact absurd rfl (hc _)
  · intro a e he
    unfold fetchError? at he
    split at he
    · exact absurd rfl (hc _)
    · exact absurd rfl (hc _)
    · cases he

/-- While a deletion is waited for, nothing is asked for that could be absent. -/
theorem watch_absence {timeout : Duration} {operation resource : String} :
    Watch (σ := σ) (fun (s : Unit) _ _ t => t = s) (fun _ c => ∀ call, c ≠ .act (.plane call))
      operation resource timeout (fun _ _ _ => True) (fun _ _ => True) where
  ask _ _ _ _ := nofun
  asked _ _ _ _ _ _ := trivial
  askedToStop _ _ _ _ _ := trivial
  timeUp _ _ _ _ := trivial
  look _ _ _ _ := nofun
  inProgress _ _ _ _ _ _ := trivial
  terminal _ _ _ _ _ _ _ _ := trivial
  failed _ _ _ _ _ _ _ := trivial
  expired _ _ _ _ _ := trivial
  stopped _ _ _ _ _ := trivial
  jitter _ _ _ _ _ := nofun
  jittered _ _ _ _ _ _ _ := trivial
  undrawn _ _ _ := trivial
  rest _ _ _ _ _ _ := nofun
  rested _ _ _ _ _ _ _ := trivial
  restStopped _ _ _ _ _ _ := trivial
  stalled _ _ _ := trivial

theorem heeds_settle {wait : WaitSettings} {resource : String} {deletion : Deletion} :
    HeedsAbsence fetching (settle (σ := σ) wait resource deletion) := by
  match deletion with
  | .alreadyAbsent => trivial
  | .deleted => trivial
  | .pending operation =>
    exact Throughout.of_meets (fun _ _ next hc => takesAbsence_of_wait hc next)
      (watch_absence.meets_settle (t := ()) trivial)

theorem heeds_requestDelete {kind : ResourceKind} {group name : String} :
    HeedsAbsence fetching (requestDelete (σ := σ) kind group name) := by
  apply heeds_planeIfFound
  · intro a
    rfl
  · intro r hr
    obtain rfl : Deletion.alreadyAbsent = r := Option.some.inj hr
    rfl
  · intro r
    exact heeds_pure

theorem heeds_deleteAndSettle {wait : WaitSettings} {kind : ResourceKind} {group name : String} :
    HeedsAbsence fetching (deleteAndSettle (σ := σ) wait kind group name) :=
  heeds_requestDelete.bind fun _ => heeds_settle

theorem heeds_deleteAddresses {group : String} {names : List String} :
    HeedsAbsence fetching (deleteAddresses (σ := σ) group names) := by
  induction names with
  | nil => exact heeds_pure
  | cons name names ih => exact heeds_requestDelete.bind fun _ => ih

theorem heeds_deleteNetworkCards {wait : WaitSettings} {group : String} {cards : List Reference} :
    HeedsAbsence True (deleteNetworkCards (σ := σ) wait group cards) := by
  induction cards with
  | nil => exact heeds_pure
  | cons r cards ih =>
    apply HeedsAbsence.bind
    · apply heeds_act
      · rintro _ _ ⟨⟨⟩, -, -⟩
      · intro answer e he
        match answer, he with
        | .error f, he =>
          obtain rfl := Option.some.inj he
          exact ⟨trivial, rfl⟩
    intro found
    match found with
    | none => exact ih
    | some card =>
      apply heeds_deleteAndSettle.bind
      intro ok
      match ok with
      | true => exact heeds_deleteAddresses.bind fun _ => ih
      | false => trivial

theorem heeds_cleanAccount {container group account : String} {store : σ} :
    HeedsAbsence fetching (cleanAccount container group account store) := by
  apply HeedsAbsence.bind
  · apply heeds_act
    · rintro _ _ ⟨⟩
    · intro answer e he
      cases he
  intro existed
  apply HeedsAbsence.bind
  · apply heeds_act
    · rintro _ _ ⟨⟩
    · intro answer e he
      cases he
  intro images
  match images with
  | true => exact heeds_pure
  | false => exact heeds_requestDelete.bind fun _ => heeds_pure

/-- A store is closed after an action that fetches nothing. -/
theorem heeds_closingAfter {store : σ} {x : Action σ α} (hx : HeedsAbsence False x) :
    HeedsAbsence fetching (Action.closingAfter store x) := by
  refine Throughout.bind hx ?_ ?_
  · rintro c next ⟨halike, hfails⟩
    refine ⟨?_, ?_⟩
    · intro a b hab
      exact congrArg (Program.bind · _) (halike a b hab)
    · intro a e he
      exact (hfails a e he).1.elim
  · intro r
    refine ⟨⟨?_, ?_⟩, fun _ => trivial⟩
    · rintro _ _ ⟨⟩
    · intro a e he
      cases he

theorem heeds_deleteStorage {container group : String} {m : Machine} :
    HeedsAbsence fetching (deleteStorage (σ := σ) container group m) := by
  unfold deleteStorage
  split
  · exact heeds_pure
  apply heeds_planeIfFound
  · intro a
    rfl
  · intro r hr
    obtain rfl : none = r := Option.some.inj hr
    rfl
  intro r
  split
  · exact heeds_pure
  apply HeedsAbsence.bind
  · apply heeds_act
    · rintro _ _ ⟨⟩
    · intro answer e he
      cases he
  intro store
  exact heeds_closingAfter heeds_cleanAccount

theorem heeds_isEmptyOf {group : String} {kinds : List ResourceKind} :
    HeedsAbsence fetching (isEmptyOf (σ := σ) group kinds) := by
  induction kinds with
  | nil => exact heeds_pure
  | cons kind kinds ih =>
    apply HeedsAbsence.bind
    · apply heeds_act
      · rintro _ _ ⟨⟨⟩, -, -⟩
      · intro answer e he
        cases he
    intro names
    split
    · exact ih
    · exact heeds_pure

theorem heeds_deleteGroupIfEmpty {wait : WaitSettings} {group : String} :
    HeedsAbsence fetching (deleteGroupIfEmpty (σ := σ) wait group) := by
  apply heeds_isEmptyOf.bind
  intro isEmpty
  match isEmpty with
  | false => exact heeds_pure
  | true =>
    apply heeds_planeIfFound
    · intro a
      rfl
    · intro r hr
      obtain rfl : Deletion.alreadyAbsent = r := Option.some.inj hr
      rfl
    intro r
    apply heeds_settle.bind
    intro ok
    match ok with
    | true => exact heeds_pure
    | false => trivial

theorem heeds_removeMachine {s : TeardownSettings} {id : MachineId} :
    HeedsAbsence True (removeMachine (σ := σ) s id) := by
  apply HeedsAbsence.bind
  · apply heeds_act
    · rintro _ _ ⟨⟨⟩, -, -⟩
    · intro answer e he
      match answer, he with
      | .error f, he =>
        obtain rfl := Option.some.inj he
        exact ⟨trivial, rfl⟩
  intro found
  match found with
  | none => exact heeds_pure
  | some m =>
    apply heeds_deleteAndSettle.bind
    intro deleted
    apply heeds_deleteNetworkCards.bind
    intro _
    apply heeds_deleteStorage.bind
    intro _
    exact heeds_deleteGroupIfEmpty.bind fun _ => heeds_pure

theorem heeds_remove {s : TeardownSettings} {text : String} :
    HeedsAbsence True (remove (σ := σ) s text) := by
  unfold remove
  split
  · trivial
  · exact heeds_removeMachine

/-- The events are the same, but for some failures of calls because the resource was not found, in
whose place it is told that it is absent. -/
abbrev AbsentInstead (calls : ControlPlane.Call → Prop)
    (h h' : List (Event (Timed (Service σ)))) : Prop :=
  List.Forall₂ (Event.Alike (SaysAbsent calls)) h h'

/-- Whatever is answered, a removal comes to the same result by the same calls if some failures to
find the keys of an account, or what is to be deleted, are replaced by the answer that it is absent.
A fetch of a machine or card that fails ends the removal, also where they were not found. -/
theorem not_found_as_absent {s : TeardownSettings} {text : String}
    {q : Task (Service σ) (Except Error Bool)} {h h' : List (Event (Timed (Service σ)))}
    (hh : AbsentInstead LooksForAbsence h h') :
    h.map Event.call = h'.map Event.call ∧
    (Reaches (Event.recording (Timed (Service σ))) (remove s text).run [] q h ↔
      Reaches (Event.recording (Timed (Service σ))) (remove s text).run [] q h') ∧
    ∀ before c a e, h = before ++ [⟨c, a⟩] → fetchError? c a = some e →
      Reaches (Event.recording (Timed (Service σ))) (remove s text).run [] q h →
        q = .done (.error e) := by
  have hheeds : HeedsAbsence True (remove (σ := σ) s text) := heeds_remove
  refine ⟨Event.calls_eq_of_alike hh, ?_, ?_⟩
  · exact reaches_iff_of_alike (hheeds.imp fun c next hnext => hnext.1) hh
  · rintro before c a e rfl he hr
    obtain ⟨next, hnext, rfl⟩ := hheeds.last (along_of_reaches hr)
    exact (hnext.2 a e he).2

/-- The service does not find `name`. -/
def missing (name : String) : Failure := .of (.service (.notFound "resource" name))

/-- A removal of `diskMachine` whose account is gone, as it is told by `keys`. -/
def accountGone (keys : Except Failure (Option StorageKeys)) : List (Event (Timed (Service Unit))) :=
  [⟨.act (.plane (.getMachine "armsweep-r" "m")), .ok (some diskMachine)⟩,
    ⟨.act (.plane (.delete .virtualMachine "armsweep-r" "m")), .ok .deleted⟩,
    ⟨.act (.plane (.getStorageKeys "armsweep-r" "a")), keys⟩,
    ⟨.act (.plane (.list .virtualMachine "armsweep-r")), .ok ["other"]⟩]

/-- The keys of the account were not found, which is as if it had none. -/
theorem not_found_as_absent_keys :
    AbsentInstead LooksForAbsence (accountGone (.error (missing "a"))) (accountGone (.ok none)) ∧
    Reaches (Event.recording (Timed (Service Unit))) (remove {} "r/m").run [] (.done (.ok true))
      (accountGone (.error (missing "a"))) ∧
    Reaches (Event.recording (Timed (Service Unit))) (remove {} "r/m").run [] (.done (.ok true))
      (accountGone (.ok none)) := by
  have hh : AbsentInstead LooksForAbsence (accountGone (.error (missing "a")))
      (accountGone (.ok none)) :=
    .cons (.same _) (.cons (.same _) (.cons (.answers (.plane trivial rfl rfl))
      (.cons (.same _) .nil)))
  have hr : Reaches (Event.recording (Timed (Service Unit))) (remove {} "r/m").run []
      (.done (.ok true)) (accountGone (.error (missing "a"))) := by
    rw [remove, decode_sampleId]
    refine Reaches.ask (a := .ok (some diskMachine)) rfl ?_
    refine Reaches.ask (a := .ok .deleted) rfl ?_
    refine Reaches.ask (a := .error (missing "a")) rfl ?_
    refine Reaches.ask (a := .ok ["other"]) rfl ?_
    exact .refl
  exact ⟨hh, hr, (not_found_as_absent hh).2.1.mp hr⟩

/-- A machine that is not found ends the removal with an error, and one that is absent ends it well.
-/
theorem fetch_not_found_is_failure :
    ¬∀ (s : TeardownSettings) (text : String) (q : Task (Service Unit) (Except Error Bool))
      (h h' : List (Event (Timed (Service Unit)))), AbsentInstead (fun _ => True) h h' →
        Reaches (Event.recording (Timed (Service Unit))) (remove s text).run [] q h →
          Reaches (Event.recording (Timed (Service Unit))) (remove s text).run [] q h' := by
  intro hclaim
  have hh : AbsentInstead (fun _ => True)
      [(⟨.act (.plane (.getMachine "armsweep-r" "m")), .error (missing "m")⟩ :
        Event (Timed (Service Unit)))]
      [⟨.act (.plane (.getMachine "armsweep-r" "m")), .ok none⟩] :=
    .cons (.answers (.plane trivial rfl rfl)) .nil
  have hfailed : Reaches (Event.recording (Timed (Service Unit))) (remove {} "r/m").run []
      (.done (.error (.call (.fetchingMachine "m") (missing "m"))))
      [⟨.act (.plane (.getMachine "armsweep-r" "m")), .error (missing "m")⟩] := by
    rw [remove, decode_sampleId]
    exact .ask (a := .error (missing "m")) rfl .refl
  have habsent := along_of_reaches (hclaim {} "r/m" _ _ _ hh hfailed)
  rw [remove, decode_sampleId] at habsent
  rcases habsent with _ | hend
  cases hend.of_nil

end Decommission.Teardown
