import Decommission.Proofs.Program.Surroundings
import Decommission.Teardown.Sequence

/-!
The plan of a removal: the calls that are to be made, one after the other, where each answer decides
what is added to them.
-/
namespace Decommission.Teardown

/-- What the outcome of a deletion is to the removal. -/
inductive Care where
  /-- The deletion is asked for and not looked at again. -/
  | unwatched
  /-- The removal goes on after a failure, and reports it at its end. -/
  | reported
  /-- A failure ends the removal. -/
  | required
  deriving DecidableEq

/-- One thing to be done. -/
inductive Duty (σ : Type) where
  | fetchMachine (name : String)
  | delete (kind : ResourceKind) (name : String) (care : Care)
  /-- A look at the operation that carries a deletion out. -/
  | poll (operation : String) (care : Care)
  | fetchCard (name : String)
  | fetchKeys (account : String)
  | openStore (account key : String)
  | emptyStore (store : σ)
  | askImages (store : σ) (account : String)
  | close (store : σ)
  /-- A look for resources of a kind, and then of the later kinds. -/
  | look (kind : ResourceKind) (later : List ResourceKind)
  | deleteGroup

/-- The group of a removal, and the name of the containers that hold disks. -/
structure Site where
  group : String
  diskContainer : String

/-- Where the machines of a region are. -/
def siteOf (s : TeardownSettings) (id : MachineId) : Site :=
  ⟨groupName s.groupPrefix id.region, s.diskContainer⟩

namespace Duty

variable {σ : Type}

def call (site : Site) : Duty σ → Call σ
  | fetchMachine name => .plane (.getMachine site.group name)
  | delete kind name _ => .plane (.delete kind site.group name)
  | poll operation _ => .plane (.operationStatus operation)
  | fetchCard name => .plane (.getNetworkCard site.group name)
  | fetchKeys account => .plane (.getStorageKeys site.group account)
  | openStore account key => .blob (.openStore account key)
  | emptyStore store => .blob (.deleteContainer store site.diskContainer)
  | askImages store _ => .blob (.customImageExists store)
  | close store => .blob (.close store)
  | look kind _ => .plane (.list kind site.group)
  | deleteGroup => .plane (.deleteGroup site.group)

def isClose : Duty σ → Bool
  | close _ => true
  | _ => false

def isPoll : Duty σ → Bool
  | poll .. => true
  | _ => false

/-- What is left to do for a deletion that was answered. -/
def afterDeletion (care : Care) : Deletion → List (Duty σ)
  | .pending operation => if care = .unwatched then [] else [.poll operation care]
  | .alreadyAbsent => []
  | .deleted => []

/-- A look for the first of the kinds; where no kind is left the group is deleted. -/
def lookFor : List ResourceKind → Duty σ
  | [] => .deleteGroup
  | kind :: later => .look kind later

def ofCards (cards : List Reference) : List (Duty σ) := cards.map fun r => .fetchCard r.name

def ofAddresses (names : List String) : List (Duty σ) :=
  names.map fun name => .delete .publicAddress name .unwatched

def ofAccount : Option String → List (Duty σ)
  | none => []
  | some account => [.fetchKeys account]

/-- The network cards in order, the storage, and the group. -/
def afterMachine (m : Machine) : List (Duty σ) :=
  ofCards m.networkInterfaces ++ (ofAccount m.storage.account? ++ [lookFor ResourceKind.tracked])

/-- The machine first, and then all else. -/
def ofMachine (m : Machine) : List (Duty σ) :=
  .delete .virtualMachine m.name .reported :: afterMachine m

/-- The card first, and after it the public address of each configuration that has one. -/
def ofCard (name : String) (card : NetworkCard) : List (Duty σ) :=
  .delete .networkInterface name .required :: ofAddresses card.publicAddressNames

theorem mem_afterMachine {d : Duty σ} {m : Machine} (h : d ∈ afterMachine m) :
    (∃ r ∈ m.networkInterfaces, d = .fetchCard r.name) ∨
    (∃ account, m.storage.account? = some account ∧ d = .fetchKeys account) ∨
    d = lookFor ResourceKind.tracked := by
  simp only [afterMachine, ofCards, List.mem_append, List.mem_map, List.mem_singleton] at h
  rcases h with ⟨r, hr, rfl⟩ | h | h
  · exact .inl ⟨r, hr, rfl⟩
  · cases haccount : m.storage.account? with
    | none => simp [haccount, ofAccount] at h
    | some account =>
      rw [haccount, ofAccount, List.mem_singleton] at h
      exact .inr (.inl ⟨account, rfl, h⟩)
  · exact .inr (.inr h)

theorem fetchCard_mem_afterMachine {m : Machine} {r : Reference} (hr : r ∈ m.networkInterfaces) :
    (.fetchCard r.name : Duty σ) ∈ afterMachine m :=
  List.mem_append_left _ (List.mem_map_of_mem hr)

theorem fetchKeys_mem_afterMachine {m : Machine} {account : String}
    (h : m.storage.account? = some account) :
    (.fetchKeys account : Duty σ) ∈ afterMachine m := by
  refine List.mem_append_right _ (List.mem_append_left _ ?_)
  rw [h]
  exact List.mem_singleton_self _

theorem mem_ofAddresses {d : Duty σ} {names : List String} (h : d ∈ ofAddresses names) :
    ∃ a ∈ names, d = .delete .publicAddress a .unwatched := by
  obtain ⟨a, ha, rfl⟩ := List.mem_map.mp h
  exact ⟨a, ha, rfl⟩

theorem delete_mem_ofAddresses {a : String} {names : List String} (ha : a ∈ names) :
    (.delete .publicAddress a .unwatched : Duty σ) ∈ ofAddresses names :=
  List.mem_map_of_mem ha

theorem mem_afterDeletion {d : Duty σ} {care : Care} {deletion : Deletion}
    (h : d ∈ afterDeletion care deletion) :
    ∃ operation, deletion = .pending operation ∧ care ≠ .unwatched ∧ d = .poll operation care := by
  cases deletion with
  | pending operation =>
    rw [afterDeletion] at h
    split at h
    · cases h
    · next hcare => exact ⟨operation, rfl, hcare, List.mem_singleton.mp h⟩
  | alreadyAbsent => cases h
  | deleted => cases h

/-- The duties that come of a duty once it is answered; `none` where the answer ends the removal. -/
def following : Duty σ → (c : Call σ) → Answer σ c → Option (List (Duty σ))
  | fetchMachine _, .plane (.getMachine ..), .ok machine => some (machine.elim [] ofMachine)
  | delete _ _ care, .plane (.delete ..), answer =>
    match ignoreNotFound answer with
    | .ok deletion => some (afterDeletion care (deletion.getD .alreadyAbsent))
    | .error _ => none
  | poll operation care, .plane (.operationStatus _), .ok status =>
    match status with
    | .inProgress => some [.poll operation care]
    | .succeeded => some []
    | .failed => if care = .required then none else some []
  | fetchCard name, .plane (.getNetworkCard ..), .ok card => some (card.elim [] (ofCard name))
  | fetchKeys account, .plane (.getStorageKeys ..), answer =>
    match ignoreNotFound answer with
    | .ok keys => some (keys.join.elim [] fun keys => [.openStore account keys.key1])
    | .error _ => none
  | openStore account _, .blob (.openStore ..), .ok store =>
    some [.emptyStore store, .askImages store account, .close store]
  | emptyStore _, .blob (.deleteContainer ..), .ok _ => some []
  | askImages _ account, .blob (.customImageExists _), .ok images =>
    some (if images then [] else [.delete .storageAccount account .unwatched])
  | close _, .blob (.close _), _ => some []
  | look _ later, .plane (.list ..), .ok names =>
    some (if names.isEmpty then [lookFor later] else [])
  | deleteGroup, .plane (.deleteGroup _), answer =>
    match ignoreNotFound answer with
    | .ok deletion => some (afterDeletion .required (deletion.getD .alreadyAbsent))
    | .error _ => none
  | _, _, _ => none

/-- Whether an answer is the failure of a deletion that is to be reported. -/
def reportsFailure : Duty σ → (c : Call σ) → Answer σ c → Bool
  | poll _ .reported, .plane (.operationStatus _), .ok .failed => true
  | _, _, _ => false

end Duty

/-- The duties that are left, whether the machine counts as deleted, and whether the removal has
failed. After a failure nothing is left to do but to close what is open. -/
structure Plan (σ : Type) where
  duties : List (Duty σ)
  deleted : Bool := true
  failed : Bool := false

namespace Plan

variable {σ : Type}

/-- The plan at the start of a removal. -/
def start (name : String) : Plan σ := ⟨[.fetchMachine name], true, false⟩

def fail (p : Plan σ) : Plan σ :=
  { p with duties := p.duties.tail.filter Duty.isClose, failed := true }

/-- The plan after an answer to the call of its first duty. -/
def after (p : Plan σ) (c : Call σ) (answer : Option (Answer σ c)) : Plan σ :=
  match p.duties, answer with
  | [], _ => p
  | _ :: _, none => p.fail
  | duty :: rest, some a =>
    match duty.following c a with
    | none => p.fail
    | some more =>
      { p with duties := more ++ rest, deleted := !duty.reportsFailure c a && p.deleted }

theorem after_fetchMachine {name group : String} {m : Machine} {b : Bool} :
    (⟨[.fetchMachine name], b, false⟩ : Plan σ).after (.plane (.getMachine group name))
      (some (.ok (some m))) = ⟨Duty.ofMachine m, b, false⟩ :=
  congrArg (fun duties => (⟨duties, b, false⟩ : Plan σ)) (List.append_nil _)

/-- The plan after all these calls were answered. -/
def afterAll (p : Plan σ) (log : List (Exchange (Service σ))) : Plan σ :=
  log.foldl (fun p e => p.after e.call e.answer) p

theorem afterAll_append {p : Plan σ} {log : List (Exchange (Service σ))}
    {e : Exchange (Service σ)} :
    p.afterAll (log ++ [e]) = (p.afterAll log).after e.call e.answer :=
  List.foldl_append

/-- The next call of the plan. -/
def nextCall? (site : Site) (p : Plan σ) : Option (Call σ) := p.duties.head?.map (Duty.call site)

/-- A deletion is waited for. -/
def Waits (p : Plan σ) : Prop := ∃ operation care rest, p.duties = .poll operation care :: rest

/-- The next call of the plan is made; time is left to pass only while a deletion is waited for. -/
def Allows (site : Site) (p : Plan σ) : Timed.Call (Service σ) → Prop
  | .act c => p.nextCall? site = some c ∧ ¬p.Waits
  | .actWithin _ c => p.nextCall? site = some c ∧ p.Waits
  | _ => p.Waits

/-- Any answers, after which the plan goes on as they decide. -/
def surroundings (σ : Type) : Surroundings (Timed (Service σ)) (Plan σ) :=
  Replies.timed (I := Service σ) fun p c answer q => q = p.after c answer

end Plan

end Decommission.Teardown
