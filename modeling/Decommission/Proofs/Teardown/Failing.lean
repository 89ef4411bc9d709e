import Decommission.Proofs.Program.History
import Decommission.Teardown.Sequence

/-!
Which events of a removal are failures, and the error that each of them is. That is told by the
event and by what was begun before it: the deletion that is waited for, and the account that is
cleaned.
-/
namespace Decommission.Teardown

open Program

/-- All that a removal was told. -/
abbrev History (σ : Type) : Type := List (Event (Timed (Service σ)))

variable {σ : Type} {timeout : Duration}

/-- What a removal is about. -/
structure Scene where
  /-- What was to be deleted last, in words. -/
  resource : String := ""
  /-- A failure of that deletion ends the removal. -/
  required : Bool := false
  /-- How long that deletion has been waited for. -/
  spent : Duration := 0
  /-- The account of the last store. -/
  account : String := ""

namespace Scene

def after (s : Scene) : Event (Timed (Service σ)) → Scene
  | ⟨.act (.plane (.delete kind _ name)), _⟩ =>
    { s with resource := resourceText kind name, required := kind = .networkInterface, spent := 0 }
  | ⟨.act (.plane (.deleteGroup group)), _⟩ =>
    { s with resource := groupText group, required := true, spent := 0 }
  | ⟨.act (.blob (.openStore account _)), _⟩ => { s with account }
  | ⟨.actWithin _ _, .finished elapsed _⟩ => { s with spent := s.spent + elapsed }
  | ⟨.rest _, some passed⟩ => { s with spent := s.spent + passed }
  | _ => s

/-- The error of a failed call, unless that tells that the resource is not there. -/
def unlessAbsent (f : Failure) (e : Error) : Option Error := if f.isNotFound then none else some e

/-- The error that the answer to a call is to the removal, if it is one. -/
def ofAnswer (s : Scene) : (c : Call σ) → Answer σ c → Option Error
  | .plane (.getMachine _ name), .error f => some (.call (.fetchingMachine name) f)
  | .plane (.getNetworkCard _ name), .error f => some (.call (.fetchingNetworkCard name) f)
  | .plane (.getStorageKeys _ account), .error f =>
    unlessAbsent f (.storage account .listingKeys f)
  | .plane (.list kind group), .error f => some (.call (.listing kind group) f)
  | .plane (.delete kind _ name), .error f => unlessAbsent f (.call (.deleting kind name) f)
  | .plane (.deleteGroup group), .error f => unlessAbsent f (.call (.deletingGroup group) f)
  | .plane (.operationStatus _), .error f => some (.call (.polling s.resource) f)
  | .plane (.operationStatus _), .ok .failed =>
    if s.required then some (.deletionFailed s.resource) else none
  | .blob (.openStore account _), .error f => some (.storage account .openingStore f)
  | .blob (.deleteContainer ..), .error f => some (.storage s.account .deletingContainer f)
  | .blob (.customImageExists _), .error f => some (.storage s.account .checkingImages f)
  | _, _ => none

/-- The error that an event is to the removal, if it is one. The time is up where it is looked at
after at least `timeout`, or where a call is given up for it. -/
def error? (timeout : Duration) (s : Scene) : Event (Timed (Service σ)) → Option Error
  | ⟨.act c, answer⟩ => s.ofAnswer c answer
  | ⟨.actWithin _ c, .finished _ answer⟩ => s.ofAnswer c answer
  | ⟨.actWithin .., .expired⟩ => some (.timedOut s.resource timeout)
  | ⟨.actWithin .., .stopped⟩ => some (.stopped s.resource)
  | ⟨.rest _, none⟩ => some (.stopped s.resource)
  | ⟨.stopRequested, true⟩ => some (.stopped s.resource)
  | ⟨.stopRequested, false⟩ =>
    if timeout ≤ s.spent then some (.timedOut s.resource timeout) else none
  | _ => none

end Scene

/-- The failure in the answer to a call. -/
def failureIn : (c : Call σ) → Answer σ c → Option Failure
  | .plane _, .error f => some f
  | .blob (.openStore ..), .error f => some f
  | .blob (.deleteContainer ..), .error f => some f
  | .blob (.customImageExists _), .error f => some f
  | _, _ => none

/-- The failure of the call that an event is. -/
def failureOf : Event (Timed (Service σ)) → Option Failure
  | ⟨.act c, answer⟩ => failureIn c answer
  | ⟨.actWithin _ c, .finished _ answer⟩ => failureIn c answer
  | _ => none

theorem unlessAbsent_eq_some {f : Failure} {e e' : Error}
    (h : Scene.unlessAbsent f e = some e') : e = e' := by
  unfold Scene.unlessAbsent at h
  split at h
  · cases h
  · exact Option.some.inj h

theorem failure_ofAnswer {s : Scene} {c : Call σ} {answer : Answer σ c} {e : Error}
    (h : s.ofAnswer c answer = some e) : e.failure? = failureIn c answer := by
  cases c with
  | plane call =>
    cases call with
    | getMachine | getNetworkCard | list =>
      match answer, h with
      | .error f, h =>
        obtain rfl := Option.some.inj h
        rfl
    -- what is not found is no error, and any other failure is kept
    | getStorageKeys | delete | deleteGroup =>
      match answer, h with
      | .error f, h =>
        obtain rfl := unlessAbsent_eq_some h
        rfl
    | operationStatus operation =>
      match answer, h with
      | .error f, h =>
        obtain rfl := Option.some.inj h
        rfl
      | .ok .failed, h =>
        simp only [Scene.ofAnswer] at h
        split at h
        · obtain rfl := Option.some.inj h
          rfl
        · cases h
  | blob call =>
    cases call with
    | openStore | deleteContainer | customImageExists =>
      match answer, h with
      | .error f, h =>
        obtain rfl := Option.some.inj h
        rfl
    | close store => cases h

/-- The error keeps the failure of the call whose answer it is, and no other. -/
theorem failure_error {s : Scene} {event : Event (Timed (Service σ))} {e : Error}
    (h : s.error? timeout event = some e) : e.failure? = failureOf event := by
  obtain ⟨c, answer⟩ := event
  cases c with
  | act c => exact failure_ofAnswer h
  | actWithin limit c =>
    match answer, h with
    | .finished _ answer, h => exact failure_ofAnswer (c := c) h
    | .expired, h | .stopped, h =>
      obtain rfl := Option.some.inj h
      rfl
  | rest length =>
    match answer, h with
    | none, h =>
      obtain rfl := Option.some.inj h
      rfl
  | stopRequested =>
    match answer, h with
    | true, h =>
      obtain rfl := Option.some.inj h
      rfl
    | false, h =>
      simp only [Scene.error?] at h
      split at h
      · obtain rfl := Option.some.inj h
        rfl
      · cases h
  | pause length => cases h
  | jitter bound => cases h

/-- What a removal with this history is about. -/
def sceneAfter (h : History σ) : Scene := h.foldl Scene.after {}

theorem sceneAfter_append (h : History σ) (event : Event (Timed (Service σ))) :
    sceneAfter (h ++ [event]) = (sceneAfter h).after event := List.foldl_append

/-- No event of the history is a failure. -/
def Clean (timeout : Duration) (h : History σ) : Prop :=
  EachAfter (fun before event => (sceneAfter before).error? timeout event = none) h

/-- The last event is the first failure of the history, and `e` is its error. -/
def Broken (timeout : Duration) (e : Error) (h : History σ) : Prop :=
  ∃ before last, h = before ++ [last] ∧ Clean timeout before ∧
    (sceneAfter before).error? timeout last = some e

/-- The store was opened, and is not closed yet. -/
def IsOpen (store : σ) (h : History σ) : Prop :=
  ∃ before account key later,
    h = before ++ ⟨.act (.blob (.openStore account key)), .ok store⟩ :: later ∧
    ∀ event ∈ later, event.call ≠ .act (.blob (.close store))

section

variable {h : History σ} {event : Event (Timed (Service σ))} {e : Error} {store : σ}

theorem Clean.append (hclean : Clean timeout h)
    (hevent : (sceneAfter h).error? timeout event = none) : Clean timeout (h ++ [event]) :=
  EachAfter.append hclean hevent

theorem Clean.broken (hclean : Clean timeout h)
    (hevent : (sceneAfter h).error? timeout event = some e) : Broken timeout e (h ++ [event]) :=
  ⟨h, event, rfl, hclean, hevent⟩

theorem Broken.not_clean (hbroken : Broken timeout e h) : ¬Clean timeout h := by
  obtain ⟨before, last, rfl, -, he⟩ := hbroken
  intro hclean
  rw [hclean before last [] rfl] at he
  cases he

theorem Broken.unique {e' : Error} (hbroken : Broken timeout e h) (hbroken' : Broken timeout e' h) :
    e = e' := by
  obtain ⟨before, last, rfl, -, he⟩ := hbroken
  obtain ⟨before', last', hsplit, -, he'⟩ := hbroken'
  obtain ⟨rfl, hlast⟩ := List.append_inj' hsplit rfl
  obtain rfl := (List.cons.inj hlast).1
  exact Option.some.inj (he.symm.trans he')

theorem IsOpen.append (hopen : IsOpen store h) (hevent : event.call ≠ .act (.blob (.close store))) :
    IsOpen store (h ++ [event]) := by
  obtain ⟨before, account, key, later, rfl, hlater⟩ := hopen
  refine ⟨before, account, key, later ++ [event], by simp, ?_⟩
  intro x hx
  rcases List.mem_append.mp hx with hx | hx
  · exact hlater x hx
  · obtain rfl := List.mem_singleton.mp hx
    exact hevent

end

end Decommission.Teardown
