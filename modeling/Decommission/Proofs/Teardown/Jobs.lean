import Decommission.Proofs.Teardown.Beside
import Decommission.Proofs.Teardown.Scope

/-!
What is done with both services: removals, group checks, and calls in a row. None of it tells the
keys of accounts apart.
-/
namespace Decommission.Teardown

open Program

variable {same : Prop} {α β γ δ : Type}

/-- The tasks make calls that may be made side by side. -/
abbrev SideBySide (same : Prop) (post : α → β → Prop) (p : Task (Service Blob.Client) α)
    (q : Task (Service Blob.Client) β) : Prop :=
  Paired (Pairing.timed (I := Service Blob.Client) (Shared same)) post p q

/-- The actions make such calls, and fail alike or give values that are related. -/
abbrev Action.SideBySide (same : Prop) (R : α → β → Prop) (x : Action Blob.Client α)
    (y : Action Blob.Client β) : Prop :=
  Teardown.SideBySide same (Except.Alike R) x.run y.run

section

variable {R : α → β → Prop}

theorem sideBySide_bind {R' : γ → δ → Prop} {x : Action Blob.Client α} {y : Action Blob.Client β}
    {f : α → Action Blob.Client γ} {g : β → Action Blob.Client δ} (h : Action.SideBySide same R x y)
    (hnext : ∀ a b, R a b → Action.SideBySide same R' (f a) (g b)) :
    Action.SideBySide same R' (x >>= f) (y >>= g) := by
  refine Paired.bind h ?_
  intro a b hab
  cases hab with
  | ok h => exact hnext _ _ h
  | error e => exact .done (.error e)

/-- One call of each, and what is made of the answers. -/
theorem sideBySide_act {c d : Call Blob.Client}
    {Q : Answer Blob.Client c → Answer Blob.Client d → Prop} (hcall : Shared same c d Q)
    {result : Answer Blob.Client c → Except Error α}
    {result' : Answer Blob.Client d → Except Error β}
    (hresult : ∀ a b, Q a b → Except.Alike R (result a) (result' b)) :
    Action.SideBySide same R
      (ExceptT.mk ((Task.act (I := Service Blob.Client) c).bind fun a => .done (result a)))
      (ExceptT.mk ((Task.act (I := Service Blob.Client) d).bind fun b => .done (result' b))) :=
  .ask (.act hcall) fun a b hab => .done (hresult a b hab)

/-- An action that asks for no keys and uses no stores goes beside itself. -/
theorem sideBySide_self {x : Action Blob.Client α} (h : x.Makes fun c => Shared same c c (· = ·)) :
    Action.SideBySide same (· = ·) x x := by
  refine (paired_self h).imp ?_
  rintro a _ rfl
  exact Except.alike_refl (fun _ => rfl) a

end

/-- All calls about cards, deletions and the content of a group are such. -/
theorem permits_shared (group : String) :
    Permits (fun c => Shared same c c (· = ·)) group where
  card _ := .plane _ nofun
  delete _ _ := .plane _ nofun
  look _ := .plane _ nofun
  list _ := .plane _ nofun
  deleteGroup := .plane _ nofun

theorem mapError_alike {ε : Type} {R : α → β → Prop} {x : Except ε α} {y : Except ε β}
    (explain : ε → Error) (h : Except.Alike R x y) :
    Except.Alike R (x.mapError explain) (y.mapError explain) := by
  cases h with
  | ok h => exact .ok h
  | error e => exact .error _

theorem ignoreNotFound_alike {R : α → β → Prop} {x : Except Failure α} {y : Except Failure β}
    (h : Except.Alike R x y) :
    Except.Alike (Option.Rel R) (ignoreNotFound x) (ignoreNotFound y) := by
  cases h with
  | ok h => exact .ok (.some h)
  | error f =>
    rw [ignoreNotFound, ignoreNotFound]
    split
    · exact .ok .none
    · exact .error f

section

variable {group container account : String} {store store' : Blob.Client}

theorem sideBySide_cleanAccount (h : store.Alike same store') :
    Action.SideBySide same (· = ·) (cleanAccount container group account store)
      (cleanAccount container group account store') := by
  refine sideBySide_bind (R := (· = ·)) (sideBySide_act (.deleteContainer h container) ?_) ?_
  · rintro answer _ rfl
    exact Except.alike_refl (fun _ => rfl) _
  rintro _ _ -
  refine sideBySide_bind (R := (· = ·)) (sideBySide_act (.customImageExists h) ?_) ?_
  · rintro answer _ rfl
    exact Except.alike_refl (fun _ => rfl) _
  rintro captured _ rfl
  refine sideBySide_self ?_
  match captured with
  | true => trivial
  | false => exact makes_bind (makes_requestDelete (.plane _ nofun)) fun _ => trivial

/-- The store is opened with the first of the keys, and closed. -/
theorem sideBySide_deleteStorage {machine : Machine} :
    Action.SideBySide same (· = ·) (deleteStorage container group machine)
      (deleteStorage container group machine) := by
  rw [deleteStorage]
  cases machine.storage.account? with
  | none => exact .done (.ok rfl)
  | some account =>
    refine sideBySide_bind (R := Option.Rel (Option.Rel (StorageKeys.Alike same)))
      (sideBySide_act (.keys group account) ?_) ?_
    · exact fun answer answer' h => mapError_alike _ (ignoreNotFound_alike h)
    intro found found' hfound
    have hjoin : Option.Rel (StorageKeys.Alike same) found.join found'.join := by
      cases hfound with
      | none => exact .none
      | some h => exact h
    revert hjoin
    generalize found.join = listed
    generalize found'.join = listed'
    intro hlisted
    cases hlisted with
    | none => exact .done (.ok rfl)
    | some h =>
      refine sideBySide_bind (R := Blob.Client.Alike same)
        (sideBySide_act (.openStore account h) ?_) ?_
      · exact fun answer answer' h => mapError_alike _ h
      intro store store' hstore
      refine Paired.bind (sideBySide_cleanAccount hstore) ?_
      intro result result' hresult
      exact .ask (.act (.close hstore)) fun _ _ _ => .done hresult

end

section

variable {wait : WaitSettings} {group : String}

theorem sideBySide_deleteGroupIfEmpty :
    Action.SideBySide same (· = ·) (deleteGroupIfEmpty wait group)
      (deleteGroupIfEmpty wait group) :=
  sideBySide_self (makes_deleteGroupIfEmpty (permits_shared group))

theorem sideBySide_removeMachine {s : TeardownSettings} {id : MachineId} :
    Action.SideBySide same (· = ·) (removeMachine s id) (removeMachine s id) := by
  have hpermits : Permits (fun c => Shared same c c (· = ·)) (groupName s.groupPrefix id.region) :=
    permits_shared _
  refine sideBySide_bind (sideBySide_self (makes_act (.plane _ nofun))) ?_
  rintro found _ rfl
  match found with
  | none => exact .done (.ok rfl)
  | some machine =>
    refine sideBySide_bind (sideBySide_self (makes_deleteAndSettle hpermits)) ?_
    rintro deleted _ rfl
    refine sideBySide_bind (sideBySide_self (makes_deleteNetworkCards hpermits)) ?_
    rintro _ _ -
    refine sideBySide_bind sideBySide_deleteStorage ?_
    rintro _ _ -
    refine sideBySide_bind sideBySide_deleteGroupIfEmpty ?_
    rintro _ _ -
    exact .done (.ok rfl)

theorem sideBySide_remove {s : TeardownSettings} {text : String} :
    Action.SideBySide same (· = ·) (remove s text) (remove s text) := by
  rw [remove]
  cases MachineId.decode text with
  | error e => exact .done (.error _)
  | ok id => exact sideBySide_removeMachine

end

/-! ### Calls in a row -/

/-- What calls in a row have got so far: the keys that were listed, and the stores that were
opened. -/
structure Desk where
  keys : List StorageKeys
  stores : List Blob.Client

/-- A call to one of the services. A store is opened with a key that is given, or with the first of
the keys that were listed as the `n`-th; others are used by the number under which they were
opened. -/
inductive ClientCall where
  | plane (call : ControlPlane.Call)
  | openWith (account key : String)
  | openListed (account : String) (n : Nat)
  | deleteContainer (n : Nat) (container : String)
  | customImageExists (n : Nat)
  | close (n : Nat)

/-- What is told of a call. -/
inductive Report where
  | plane (call : ControlPlane.Call) (result : Except Failure (ControlPlane.Result call))
  | opened (result : Except Failure Unit)
  | deleted (result : Except Failure Bool)
  | imagesFound (result : Except Failure Bool)
  | closed
  /-- There are no such keys, or no such store. -/
  | skipped

namespace Desk

/-- Keys that were listed are kept. -/
def listed (d : Desk) :
    (call : ControlPlane.Call) → Except Failure (ControlPlane.Result call) → Desk
  | .getStorageKeys .., .ok (some keys) => { d with keys := d.keys ++ [keys] }
  | _, _ => d

/-- A store that was opened is kept. -/
def opened (d : Desk) : Except Failure Blob.Client → Desk
  | .ok store => { d with stores := d.stores ++ [store] }
  | .error _ => d

/-- What is done with what has a number, if there is such a thing. -/
def withThing (d : Desk) (thing? : Option α)
    (use : α → Task (Service Blob.Client) (Report × Desk)) :
    Task (Service Blob.Client) (Report × Desk) :=
  match thing? with
  | none => .done (.skipped, d)
  | some thing => use thing

end Desk

/-- A call of a row, with what the calls before it have got. -/
def ClientCall.task (d : Desk) : ClientCall → Task (Service Blob.Client) (Report × Desk)
  | .plane call =>
    (Task.act (I := Service Blob.Client) (.plane call)).bind fun answer =>
      .done (.plane call answer, d.listed call answer)
  | .openWith account key => openStore account key
  | .openListed account n => d.withThing d.keys[n]? fun keys => openStore account keys.key1
  | .deleteContainer n container => d.withThing d.stores[n]? fun store =>
    (Task.act (I := Service Blob.Client) (.blob (.deleteContainer store container))).bind
      fun answer => .done (.deleted answer, d)
  | .customImageExists n => d.withThing d.stores[n]? fun store =>
    (Task.act (I := Service Blob.Client) (.blob (.customImageExists store))).bind fun answer =>
      .done (.imagesFound answer, d)
  | .close n => d.withThing d.stores[n]? fun store =>
    (Task.act (I := Service Blob.Client) (.blob (.close store))).bind fun _ =>
      .done (.closed, { d with stores := d.stores.set n store.close })
where
  openStore (account key : String) : Task (Service Blob.Client) (Report × Desk) :=
    (Task.act (I := Service Blob.Client) (.blob (.openStore account key))).bind fun answer =>
      .done (.opened (answer.map fun _ => ()), d.opened answer)

/-- The calls of a row, and what is told of each. -/
def ClientCall.all : List ClientCall → Desk → Task (Service Blob.Client) (List Report)
  | [], _ => .done []
  | call :: later, d => (call.task d).bind fun next =>
    (all later next.2).bind fun reports => .done (next.1 :: reports)

/-- Reports that are the same, but for the keys in the answer to a call for keys. -/
inductive Report.Alike (same : Prop) : Report → Report → Prop where
  | refl (r : Report) : Alike same r r
  | keys (group account : String) {answer answer' : Except Failure (Option StorageKeys)}
    (h : Except.Alike (Option.Rel (StorageKeys.Alike same)) answer answer') :
    Alike same (.plane (.getStorageKeys group account) answer)
      (.plane (.getStorageKeys group account) answer')

structure Desk.Alike (same : Prop) (d d' : Desk) : Prop where
  keys : List.Forall₂ (StorageKeys.Alike same) d.keys d'.keys
  stores : List.Forall₂ (Blob.Client.Alike same) d.stores d'.stores

/-- The same report, and desks that are alike after it. -/
structure NextAlike (same : Prop) (x y : Report × Desk) : Prop where
  report : x.1.Alike same y.1
  desk : x.2.Alike same y.2

section

variable {d d' : Desk}

/-- At a place in lists that are alike there is nothing in both, or there are things that are
alike. -/
theorem getElem?_rel {R : α → β → Prop} {xs : List α} {ys : List β} (h : List.Forall₂ R xs ys)
    (n : Nat) : Option.Rel R xs[n]? ys[n]? := by
  induction h generalizing n with
  | nil => exact .none
  | cons hab _ ih =>
    cases n with
    | zero => exact .some hab
    | succ n => exact ih n

theorem forall₂_set {R : α → β → Prop} {xs : List α} {ys : List β} (h : List.Forall₂ R xs ys)
    (n : Nat) {a : α} {b : β} (hab : R a b) : List.Forall₂ R (xs.set n a) (ys.set n b) := by
  induction h generalizing n with
  | nil => exact .nil
  | cons hxy hrest ih =>
    cases n with
    | zero => exact .cons hab hrest
    | succ n => exact .cons hxy (ih n)

theorem close_alike {store store' : Blob.Client} (h : store.Alike same store') :
    store.close.Alike same store'.close := by
  obtain ⟨key, rfl, hkey⟩ := h
  exact ⟨key, rfl, hkey⟩

theorem sideBySide_openStore (h : d.Alike same d') {account key key' : String}
    (hkey : KeyAlike same key key') :
    SideBySide same (NextAlike same)
      (ClientCall.task.openStore d account key) (ClientCall.task.openStore d' account key') := by
  refine .ask (.act (.openStore account hkey)) ?_
  intro answer answer' halike
  refine .done ?_
  cases halike with
  | ok hstore => exact ⟨.refl _, h.keys, List.rel_append h.stores (.cons hstore .nil)⟩
  | error f => exact ⟨.refl _, h⟩

theorem sideBySide_plane (h : d.Alike same d') (call : ControlPlane.Call) :
    SideBySide same (NextAlike same)
      (ClientCall.task d (.plane call)) (ClientCall.task d' (.plane call)) := by
  cases call with
  | getStorageKeys group account =>
    refine .ask (.act (.keys group account)) ?_
    intro answer answer' halike
    refine .done ⟨.keys group account halike, ?_⟩
    cases halike with
    | error f => exact h
    | ok hfound =>
      cases hfound with
      | none => exact h
      | some hkeys => exact ⟨List.rel_append h.keys (.cons hkeys .nil), h.stores⟩
  | getMachine | getNetworkCard | list | delete | deleteGroup | operationStatus =>
    refine .ask (.act (.plane _ nofun)) ?_
    rintro answer _ rfl
    exact .done ⟨.refl _, h⟩

theorem sideBySide_withThing (h : d.Alike same d') {R : α → β → Prop} {thing? : Option α}
    {other? : Option β} (hthing : Option.Rel R thing? other?)
    {use : α → Task (Service Blob.Client) (Report × Desk)}
    {use' : β → Task (Service Blob.Client) (Report × Desk)}
    (huse : ∀ a b, R a b → SideBySide same (NextAlike same)
      (use a) (use' b)) :
    SideBySide same (NextAlike same) (d.withThing thing? use)
      (d'.withThing other? use') := by
  cases hthing with
  | none => exact .done ⟨.refl _, h⟩
  | some hthing => exact huse _ _ hthing

/-- A call of a row is made side by side. -/
theorem sideBySide_clientCall (h : d.Alike same d') (call : ClientCall) :
    SideBySide same (NextAlike same) (call.task d)
      (call.task d') := by
  cases call with
  | plane call => exact sideBySide_plane h call
  | openWith account key => exact sideBySide_openStore h (keyAlike_refl key)
  | openListed account n =>
    refine sideBySide_withThing h (getElem?_rel h.keys n) ?_
    exact fun keys keys' hkeys => sideBySide_openStore h hkeys
  | deleteContainer n container =>
    refine sideBySide_withThing h (getElem?_rel h.stores n) ?_
    intro store store' hstore
    refine .ask (.act (.deleteContainer hstore container)) ?_
    rintro answer _ rfl
    exact .done ⟨.refl _, h⟩
  | customImageExists n =>
    refine sideBySide_withThing h (getElem?_rel h.stores n) ?_
    intro store store' hstore
    refine .ask (.act (.customImageExists hstore)) ?_
    rintro answer _ rfl
    exact .done ⟨.refl _, h⟩
  | close n =>
    refine sideBySide_withThing h (getElem?_rel h.stores n) ?_
    intro store store' hstore
    refine .ask (.act (.close hstore)) ?_
    rintro _ _ -
    exact .done ⟨.refl _, h.keys, forall₂_set h.stores n (close_alike hstore)⟩

theorem sideBySide_all (h : d.Alike same d') (calls : List ClientCall) :
    SideBySide same (List.Forall₂ (Report.Alike same)) (ClientCall.all calls d)
      (ClientCall.all calls d') := by
  induction calls generalizing d d' with
  | nil => exact .done .nil
  | cons call later ih =>
    refine (sideBySide_clientCall h call).bind ?_
    rintro x y ⟨hreport, hdesk⟩
    refine (ih hdesk).bind ?_
    intro reports reports' hreports
    exact .done (.cons hreport hreports)

end

/-- What is done with both services. -/
inductive Job where
  | remove (settings : TeardownSettings) (id : String)
  | deleteGroupIfEmpty (wait : WaitSettings) (group : String)
  /-- Calls in a row. -/
  | row (calls : List ClientCall)

namespace Job

abbrev Result : Job → Type
  | remove .. => Except Error Bool
  | deleteGroupIfEmpty .. => Except Error Bool
  | row _ => List Report

def task : (job : Job) → Task (Service Blob.Client) job.Result
  | remove settings id => (Teardown.remove settings id).run
  | deleteGroupIfEmpty wait group => (Teardown.deleteGroupIfEmpty wait group).run
  | row calls => ClientCall.all calls ⟨[], []⟩

/-- The same results, but for the keys in answers to calls for keys. -/
def Alike (same : Prop) : (job : Job) → job.Result → job.Result → Prop
  | remove .. => (· = ·)
  | deleteGroupIfEmpty .. => (· = ·)
  | row _ => List.Forall₂ (Report.Alike same)

/-- Each job goes beside itself. -/
theorem sideBySide (job : Job) : SideBySide same (job.Alike same) job.task job.task := by
  cases job with
  | remove settings id =>
    change SideBySide same (· = ·) (Teardown.remove settings id).run _
    exact Paired.imp sideBySide_remove fun _ _ => Except.eq_of_alike
  | deleteGroupIfEmpty wait group =>
    change SideBySide same (· = ·) (Teardown.deleteGroupIfEmpty wait group).run _
    exact Paired.imp sideBySide_deleteGroupIfEmpty fun _ _ => Except.eq_of_alike
  | row calls => exact sideBySide_all ⟨.nil, .nil⟩ calls

end Job

end Decommission.Teardown
