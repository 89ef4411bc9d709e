import Decommission.Proofs.Teardown.Plan
import Decommission.Proofs.Teardown.Settling

/-!
A removal makes the calls of its plan, in their order and no others.
-/
namespace Decommission.Teardown

open Program

variable {σ α β : Type}

/-- How an action leaves a plan: as `value` tells where it gives a value; with the duties `opened`
alone where it failed, or while a deletion is waited for. -/
def Leaves (opened : List (Duty σ)) (value : α → Plan σ → Prop) :
    Option (Except Error α) → Plan σ → Prop
  | some (.ok a), p => value a p
  | some (.error _), p => p.failed ∧ p.duties = opened ∨ opened = [] ∧ p.Waits
  | none, p => opened = [] ∧ p.Waits

/-- Whatever it is answered, the action makes the calls of the plan. -/
def Follows (site : Site) (opened : List (Duty σ)) (value : α → Plan σ → Prop) (x : Action σ α)
    (p : Plan σ) : Prop :=
  Meets (Plan.surroundings σ) (Plan.Allows site) (Leaves opened value) x.run p

variable {site : Site} {opened rest : List (Duty σ)} {value : α → Plan σ → Prop} {b : Bool}

theorem Follows.bind {x : Action σ β} {f : β → Action σ α} {p : Plan σ}
    (h : Follows site opened (fun a => Follows site opened value (f a)) x p) :
    Follows site opened value (x >>= f) p := by
  refine meets_run_bind (Meets.imp h fun r t ht => ?_)
  match r, ht with
  | some (.ok a), ht => exact ht
  | some (.error e), ht => exact ht
  | none, ht => exact ht

theorem follows_pure {a : α} {p : Plan σ} (h : value a p) :
    Follows site opened value (pure a) p := h

theorem not_waits {duty : Duty σ} (h : ∀ operation care, duty ≠ .poll operation care) :
    ¬(⟨duty :: rest, b, false⟩ : Plan σ).Waits := by
  rintro ⟨operation, care, rest, h'⟩
  exact h operation care (List.cons.inj h').1

theorem follows_act {duty : Duty σ} {c : Call σ} {result : Answer σ c → Except Error α}
    {value : α → Plan σ → Prop} (hcall : duty.call site = c)
    (hduty : ∀ operation care, duty ≠ .poll operation care)
    (h : ∀ answer, Leaves opened value (some (result answer))
      (Plan.after ⟨duty :: rest, b, false⟩ c (some answer))) :
    Follows site opened value
      (ExceptT.mk ((Task.act (I := Service σ) c).bind fun answer => .done (result answer)))
      ⟨duty :: rest, b, false⟩ := by
  refine ⟨⟨congrArg some hcall, not_waits hduty⟩, ?_⟩
  rintro answer q rfl
  exact h answer

theorem follows_requestDelete {kind : ResourceKind} {name : String} {care : Care}
    {value : Deletion → Plan σ → Prop} (hopened : rest.filter Duty.isClose = opened)
    (h : ∀ d, value d ⟨Duty.afterDeletion care d ++ rest, b, false⟩) :
    Follows site opened value (requestDelete kind site.group name)
      ⟨.delete kind name care :: rest, b, false⟩ := by
  refine Follows.bind (follows_act rfl (by simp) fun answer => ?_)
  simp only [Plan.after, Duty.following]
  cases ignoreNotFound answer with
  | ok d =>
    simp only [Except.mapError, Leaves]
    refine follows_pure ?_
    simpa [Duty.reportsFailure] using h (d.getD .alreadyAbsent)
  | error f => exact .inl ⟨rfl, hopened⟩

/-- The plan after a deletion that was waited for has settled. -/
def settled (care : Care) (rest : List (Duty σ)) (b : Bool) : Bool → Plan σ
  | true => ⟨rest, b, false⟩
  | false => if care = .required then ⟨rest.filter Duty.isClose, b, true⟩ else ⟨rest, false, false⟩

theorem after_poll_terminal {operation : String} {care : Care} {status : OperationStatus}
    (hcare : care ≠ .unwatched) (hstatus : status.isTerminal = true) :
    Plan.after (⟨.poll operation care :: rest, b, false⟩ : Plan σ)
      (.plane (.operationStatus operation)) (some (.ok status)) =
        settled care rest b (status == .succeeded) := by
  cases status with
  | inProgress => cases hstatus
  | succeeded => simp [Plan.after, Duty.following, Duty.reportsFailure, settled]
  | failed =>
    have hfailed : (OperationStatus.failed == OperationStatus.succeeded) = false := rfl
    cases care with
    | unwatched => exact absurd rfl hcare
    | reported => simp [Plan.after, Duty.following, Duty.reportsFailure, settled, hfailed]
    | required => simp [Plan.after, Duty.following, Plan.fail, settled, hfailed]

/-- While a deletion is waited for, the plan is not changed but by a terminal state or a failure. -/
theorem polling_duty (site : Site) (timeout : Duration) {operation resource : String} {care : Care}
    {value : Bool → Plan σ → Prop} (hcare : care ≠ .unwatched)
    (hopened : rest.filter Duty.isClose = []) (h : ∀ ok, value ok (settled care rest b ok)) :
    Polling (σ := σ) (fun p c answer q => q = Plan.after p c answer) (Plan.Allows site) operation
      resource timeout (fun p => p = ⟨.poll operation care :: rest, b, false⟩)
      (Leaves [] value) := by
  have hwaits : (⟨.poll operation care :: rest, b, false⟩ : Plan σ).Waits := ⟨_, _, _, rfl⟩
  constructor
  case look =>
    rintro _ limit rfl
    exact ⟨rfl, hwaits⟩
  case stopRequested =>
    rintro _ rfl
    exact hwaits
  case rest =>
    rintro _ length rfl
    exact hwaits
  case jitter =>
    rintro _ bound rfl
    exact hwaits
  case inProgress =>
    rintro _ _ rfl rfl
    simp [Plan.after, Duty.following, Duty.reportsFailure]
  case terminal =>
    rintro _ _ status rfl hterminal rfl
    rw [after_poll_terminal hcare hterminal]
    exact h _
  case failed =>
    rintro _ _ f rfl rfl
    exact .inl ⟨rfl, hopened⟩
  -- a wait is broken off between two looks, or by giving a look up
  case timedOut =>
    rintro _ _ rfl (rfl | rfl)
    · exact .inr ⟨rfl, hwaits⟩
    · exact .inl ⟨rfl, hopened⟩
  case stopped =>
    rintro _ _ rfl (rfl | rfl)
    · exact .inr ⟨rfl, hwaits⟩
    · exact .inl ⟨rfl, hopened⟩
  case stalled =>
    rintro _ rfl
    exact ⟨rfl, hwaits⟩

theorem follows_settle {wait : WaitSettings} {resource : String} {care : Care} {d : Deletion}
    {value : Bool → Plan σ → Prop} (hcare : care ≠ .unwatched)
    (hopened : rest.filter Duty.isClose = []) (h : ∀ ok, value ok (settled care rest b ok)) :
    Follows site [] value (settle wait resource d)
      ⟨Duty.afterDeletion care d ++ rest, b, false⟩ := by
  match d with
  | .alreadyAbsent => exact h true
  | .deleted => exact h true
  | .pending operation =>
    have hpoll : Duty.afterDeletion care (.pending operation) ++ rest =
        (.poll operation care : Duty σ) :: rest := by simp [Duty.afterDeletion, hcare]
    rw [hpoll]
    exact (polling_duty site wait.timeout hcare hopened h).meets_settle rfl

theorem follows_deleteAndSettle {wait : WaitSettings} {kind : ResourceKind} {name : String}
    {care : Care} {value : Bool → Plan σ → Prop} (hcare : care ≠ .unwatched)
    (hopened : rest.filter Duty.isClose = []) (h : ∀ ok, value ok (settled care rest b ok)) :
    Follows site [] value (deleteAndSettle wait kind site.group name)
      ⟨.delete kind name care :: rest, b, false⟩ :=
  Follows.bind (follows_requestDelete hopened fun _ => follows_settle hcare hopened h)

theorem filter_isClose_map_append {l : List α} {f : α → Duty σ} (hf : ∀ a, (f a).isClose = false)
    (hopened : rest.filter Duty.isClose = opened) :
    (l.map f ++ rest).filter Duty.isClose = opened := by
  simp [List.filter_append, List.filter_map, Function.comp_def, hf, hopened]

theorem follows_deleteAddresses {names : List String} {value : Unit → Plan σ → Prop}
    (hopened : rest.filter Duty.isClose = []) (h : value () ⟨rest, b, false⟩) :
    Follows site [] value (deleteAddresses site.group names)
      ⟨Duty.ofAddresses names ++ rest, b, false⟩ := by
  induction names with
  | nil => exact follows_pure h
  | cons name names ih =>
    have hrest := filter_isClose_map_append (l := names) (f := fun name =>
      Duty.delete .publicAddress name .unwatched) (fun _ => rfl) hopened
    refine Follows.bind (follows_requestDelete hrest fun d => ?_)
    cases d <;> exact ih

theorem follows_deleteNetworkCards {wait : WaitSettings} {cards : List Reference}
    {value : Unit → Plan σ → Prop} (hopened : rest.filter Duty.isClose = [])
    (h : value () ⟨rest, b, false⟩) :
    Follows site [] value (deleteNetworkCards wait site.group cards)
      ⟨Duty.ofCards cards ++ rest, b, false⟩ := by
  induction cards with
  | nil => exact follows_pure h
  | cons r cards ih =>
    have hcards : (Duty.ofCards cards ++ rest).filter Duty.isClose = [] :=
      filter_isClose_map_append (fun _ => rfl) hopened
    refine Follows.bind (follows_act rfl (by simp) fun answer => ?_)
    match answer with
    | .error f => exact .inl ⟨rfl, hcards⟩
    | .ok none => exact ih
    | .ok (some card) =>
      have haddresses : (Duty.ofAddresses card.publicAddressNames ++
          (Duty.ofCards cards ++ rest)).filter Duty.isClose = [] :=
        filter_isClose_map_append (fun _ => rfl) hcards
      refine Follows.bind (follows_deleteAndSettle (by simp) haddresses fun ok => ?_)
      match ok with
      | false => exact .inl ⟨rfl, haddresses⟩
      | true => exact Follows.bind (follows_deleteAddresses hcards ih)

theorem follows_cleanAccount {account : String} {store : σ} {value : Unit → Plan σ → Prop}
    (hopened : rest.filter Duty.isClose = []) (h : value () ⟨.close store :: rest, b, false⟩) :
    Follows site [.close store] value (cleanAccount site.diskContainer site.group account store)
      ⟨.emptyStore store :: .askImages store account :: .close store :: rest, b, false⟩ := by
  have hclose : (Duty.close store :: rest).filter Duty.isClose = [.close store] := by
    rw [List.filter_cons_of_pos rfl, hopened]
  refine Follows.bind (follows_act rfl (by simp) fun answer => ?_)
  match answer with
  | .error f => exact .inl ⟨rfl, hclose⟩
  | .ok existed =>
    refine Follows.bind (follows_act rfl (by simp) fun answer => ?_)
    match answer with
    | .error f => exact .inl ⟨rfl, hclose⟩
    | .ok true => exact follows_pure h
    | .ok false =>
      refine Follows.bind (follows_requestDelete hclose fun d => ?_)
      cases d <;> exact follows_pure h

theorem follows_closingAfter {store : σ} {x : Action σ α} {value : α → Plan σ → Prop} {p : Plan σ}
    (h : Follows site [.close store]
      (fun a q => ∃ rest b, q = ⟨.close store :: rest, b, false⟩ ∧ value a ⟨rest, b, false⟩) x p) :
    Follows site [] value (Action.closingAfter store x) p := by
  refine meets_bind.mpr (Meets.imp h fun r q hq => ?_)
  -- the store is closed on both ways, after a failure as all that is left to do
  match r, hq with
  | some (.ok a), ⟨rest, b, hq, hvalue⟩ =>
    subst hq
    refine ⟨⟨rfl, not_waits (by simp)⟩, ?_⟩
    rintro answer _ rfl
    exact hvalue
  | some (.error e), .inl ⟨hfailed, hq⟩ =>
    obtain ⟨duties, b, failed⟩ := q
    obtain rfl : duties = [.close store] := hq
    refine ⟨⟨rfl, ?_⟩, ?_⟩
    · rintro ⟨operation, care, rest, hpoll⟩
      cases hpoll
    · rintro answer _ rfl
      exact .inl ⟨hfailed, rfl⟩

theorem follows_deleteStorage {m : Machine} {value : Unit → Plan σ → Prop}
    (hopened : rest.filter Duty.isClose = []) (h : value () ⟨rest, b, false⟩) :
    Follows site [] value (deleteStorage site.diskContainer site.group m)
      ⟨Duty.ofAccount m.storage.account? ++ rest, b, false⟩ := by
  unfold deleteStorage
  split
  · next haccount =>
    rw [haccount]
    exact follows_pure h
  · next account haccount =>
    rw [haccount]
    refine Follows.bind (follows_act rfl (by simp) fun answer => ?_)
    simp only [Plan.after, Duty.following]
    match ignoreNotFound answer with
    | .error f => exact .inl ⟨rfl, hopened⟩
    | .ok none => exact follows_pure h
    | .ok (some none) => exact follows_pure h
    | .ok (some (some keys)) =>
      have hopen : ∀ operation care,
          (Duty.openStore account keys.key1 : Duty σ) ≠ .poll operation care := by simp
      refine Follows.bind (follows_act rfl hopen fun answer => ?_)
      match answer with
      | .error f => exact .inl ⟨rfl, hopened⟩
      | .ok store => exact follows_closingAfter (follows_cleanAccount hopened ⟨rest, b, rfl, h⟩)

theorem follows_isEmptyOf {kinds : List ResourceKind} {value : Bool → Plan σ → Prop}
    (hempty : value true ⟨[.deleteGroup], b, false⟩) (hsome : value false ⟨[], b, false⟩) :
    Follows site [] value (isEmptyOf site.group kinds) ⟨[Duty.lookFor kinds], b, false⟩ := by
  induction kinds with
  | nil => exact follows_pure hempty
  | cons kind kinds ih =>
    refine Follows.bind (follows_act rfl (by simp [Duty.lookFor]) fun answer => ?_)
    match answer with
    | .error f => exact .inl ⟨rfl, rfl⟩
    | .ok [] => exact ih
    | .ok (name :: names) => exact follows_pure hsome

theorem follows_deleteGroupIfEmpty {wait : WaitSettings} {value : Bool → Plan σ → Prop}
    (h : ∀ deleted, value deleted ⟨[], b, false⟩) :
    Follows site [] value (deleteGroupIfEmpty wait site.group)
      ⟨[Duty.lookFor ResourceKind.tracked], b, false⟩ := by
  refine Follows.bind (follows_isEmptyOf ?_ (follows_pure (h false)))
  refine Follows.bind (follows_act rfl (by simp) fun answer => ?_)
  simp only [Plan.after, Duty.following]
  match ignoreNotFound answer with
  | .error f => exact .inl ⟨rfl, rfl⟩
  | .ok d =>
    refine Follows.bind (follows_settle (by simp) rfl fun ok => ?_)
    match ok with
    | false => exact .inl ⟨rfl, rfl⟩
    | true => exact follows_pure (h true)

theorem filter_isClose_afterStorage (account : Option String) :
    (Duty.ofAccount account ++ [Duty.lookFor ResourceKind.tracked]).filter
      (Duty.isClose (σ := σ)) = [] := by
  cases account <;> rfl

theorem filter_isClose_afterMachine (m : Machine) :
    (Duty.afterMachine m).filter (Duty.isClose (σ := σ)) = [] :=
  filter_isClose_map_append (fun _ => rfl) (filter_isClose_afterStorage m.storage.account?)

/-- What follows the deletion of the machine is the same whether that has failed or not. -/
theorem follows_afterMachine (s : TeardownSettings) (id : MachineId) (m : Machine) (b : Bool) :
    Follows (σ := σ) (siteOf s id) [] (fun deleted p => p = ⟨[], deleted, false⟩)
      (do deleteNetworkCards s.wait (siteOf s id).group m.networkInterfaces
          deleteStorage s.diskContainer (siteOf s id).group m
          let _ ← deleteGroupIfEmpty s.wait (siteOf s id).group
          return b)
      ⟨Duty.afterMachine m, b, false⟩ := by
  have hstorage := filter_isClose_afterStorage (σ := σ) m.storage.account?
  refine Follows.bind (follows_deleteNetworkCards hstorage ?_)
  refine Follows.bind (follows_deleteStorage rfl ?_)
  refine Follows.bind (follows_deleteGroupIfEmpty fun _ => ?_)
  exact follows_pure rfl

/-- A removal makes the calls of its plan. It reports whether the machine counts as deleted, once
nothing is left to do. -/
theorem follows_removeMachine (s : TeardownSettings) (id : MachineId) :
    Follows (siteOf s id) [] (fun deleted p => p = ⟨[], deleted, false⟩)
      (removeMachine (σ := σ) s id) (.start id.name) := by
  refine Follows.bind (follows_act rfl (by simp) fun answer => ?_)
  match answer with
  | .error f => exact .inl ⟨rfl, rfl⟩
  | .ok none => exact follows_pure rfl
  | .ok (some m) =>
    rw [Plan.after_fetchMachine]
    have hcards := filter_isClose_afterMachine (σ := σ) m
    refine Follows.bind (follows_deleteAndSettle (by simp) hcards fun deleted => ?_)
    match deleted with
    | false => exact follows_afterMachine s id m false
    | true => exact follows_afterMachine s id m true

end Decommission.Teardown
