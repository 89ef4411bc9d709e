import Decommission.Proofs.Simulation.Ledger
import Mathlib.Data.List.Nodup

/-!
A cloud that was set up, called and set up again in any order. Its tables agree, its counts are
those of the stores that were opened and closed, and its log tells the calls that were made.
-/
namespace Decommission.Simulation

variable {κ ν : Type} [DecidableEq κ]

/-- Each entry satisfies `P`. -/
def Table.All (P : κ → ν → Prop) (t : Table κ ν) : Prop :=
  ∀ key value, t.get? key = some value → P key value

theorem Table.All.insert {P : κ → ν → Prop} {t : Table κ ν} {key : κ} {value : ν} (h : t.All P)
    (hvalue : P key value) : (t.insert key value).All P := by
  intro k v hkv
  rw [Table.get?_insert] at hkv
  split at hkv
  · next hkey =>
    cases hkv
    exact hkey ▸ hvalue
  · exact h k v hkv

theorem Table.All.erase {P : κ → ν → Prop} {t : Table κ ν} (h : t.All P) (key : κ) :
    (t.erase key).All P := by
  intro k v hkv
  rw [Table.get?_erase] at hkv
  split at hkv
  · cases hkv
  · exact h k v hkv

theorem nodup_addOnce {α : Type} [DecidableEq α] {a : α} {l : List α} (h : l.Nodup) :
    (addOnce a l).Nodup := by
  unfold addOnce
  split
  · exact h
  · next ha => exact List.nodup_cons.mpr ⟨ha, h⟩

namespace Cloud

variable {c d : Cloud}

/-- The records carry the names under which they are filed. -/
structure Labelled (c : Cloud) : Prop where
  machines : c.machines.All fun key machine => machine.name = key.2
  cards : c.cards.All fun key card => card.name = key.2
  keys : c.keys.All fun key keys => keys = ⟨key.2 ++ "-key1", key.2 ++ "-key2"⟩

theorem Labelled.of_same (h : c.Labelled) (hsame : SameStock c d) : d.Labelled := by
  constructor
  · rw [hsame.machines]
    exact h.machines
  · rw [hsame.cards]
    exact h.cards
  · rw [hsame.keys]
    exact h.keys

theorem Labelled.remove (h : c.Labelled) (target : Target) : (c.remove target).Labelled := by
  cases target with
  | group group => exact ⟨h.machines, h.cards, h.keys⟩
  | resource kind group name =>
    cases kind with
    | virtualMachine => exact ⟨h.machines.erase _, h.cards, h.keys⟩
    | networkInterface => exact ⟨h.machines, h.cards.erase _, h.keys⟩
    | storageAccount => exact ⟨h.machines, h.cards, h.keys.erase _⟩
    | publicAddress => exact ⟨h.machines, h.cards, h.keys⟩

theorem Labelled.setUpStep (h : c.Labelled) (hstep : SetUpStep c d) : d.Labelled := by
  cases hstep with
  | card group name addresses => exact ⟨h.machines, h.cards.insert rfl, h.keys⟩
  | account group name => exact ⟨h.machines, h.cards, h.keys.insert rfl⟩
  | machine group name cards account => exact ⟨h.machines.insert rfl, h.cards, h.keys⟩
  | _ => exact ⟨h.machines, h.cards, h.keys⟩

theorem Labelled.setUp (h : c.Labelled) (s : SetUp) : (c.setUp s).Labelled :=
  holds_after_steps Labelled.setUpStep h (steps_setUp c s)

theorem Labelled.answer (h : c.Labelled) (call : Teardown.Call StoreHandle) :
    (c.answer call).2.Labelled := by
  rcases answer_stock c call with hsame | ⟨target, -, hsame⟩
  · exact h.of_same hsame
  · exact (h.remove target).of_same hsame

theorem Reachable.labelled (h : c.Reachable) : c.Labelled := by
  induction h using Reachable.rec_steps with
  | empty => constructor <;> simp [Table.All, Table.get?]
  | setUp _ _ s ih => exact ih.setUp s
  | answer _ _ call ih => exact ih.answer call

/-! ### The stores -/

/-- The store that a call is made on. -/
def usedStore? : Teardown.Call StoreHandle → Option StoreHandle
  | .blob (.deleteContainer store _) => some store
  | .blob (.customImageExists store) => some store
  | .blob (.close store) => some store
  | _ => none

/-- The store that was opened with an answer of the cloud. -/
def openedStore? : Event (Teardown.Service StoreHandle) → Option StoreHandle
  | ⟨.blob (.openStore ..), .ok store⟩ => some store
  | _ => none

/-- The stores that were opened, in order. -/
def opened (h : List (Event (Teardown.Service StoreHandle))) : List StoreHandle :=
  h.filterMap openedStore?

/-- The handles of the operations that were started, in order. -/
def started (h : List (Event (Teardown.Service StoreHandle))) : List String :=
  h.filterMap startedOf?

/-- A close of the store is among the calls. -/
def IsClosed (h : List (Event (Teardown.Service StoreHandle))) (store : StoreHandle) : Prop :=
  .blob (.close store) ∈ h.map Event.call

instance (h : List (Event (Teardown.Service StoreHandle))) (store : StoreHandle) :
    Decidable (IsClosed h store) :=
  inferInstanceAs (Decidable (_ ∈ _))

/-- A cloud with all calls that were made and their answers. Calls are made only on stores that were
opened before. -/
inductive Lived : Cloud → List (Event (Teardown.Service StoreHandle)) → Prop where
  | new : Lived {} []
  | setUp {c : Cloud} {h : List (Event (Teardown.Service StoreHandle))} (hc : Lived c h)
    (s : SetUp) : Lived (c.setUp s) h
  | answer {c : Cloud} {h : List (Event (Teardown.Service StoreHandle))} (hc : Lived c h)
    (call : Teardown.Call StoreHandle)
    (hused : ∀ store, usedStore? call = some store → store ∈ opened h) :
    Lived (c.answer call).2 (h ++ [⟨call, (c.answer call).1⟩])

variable {h : List (Event (Teardown.Service StoreHandle))}

theorem Lived.reachable (hc : Lived c h) : c.Reachable := by
  induction hc with
  | new => exact .empty
  | setUp _ s ih => exact ih.setUp s
  | answer _ call _ ih => exact ih.answer call

/-- The handles are those of the numbers up to the count, each given out once. -/
theorem Lived.started_eq (hc : Lived c h) :
    started h = (List.range c.operationCount).map fun n => operationUri (n + 1) := by
  induction hc with
  | new => rfl
  | @setUp c h _ s ih => rw [ih, (course_setUp c s).operationCount]
  | @answer c h _ call _ ih =>
    obtain ⟨given, hgiven⟩ : ∃ given, startedOf? ⟨call, (c.answer call).1⟩ = given := ⟨_, rfl⟩
    have hstep := operationStep_answer c call
    rw [started, List.filterMap_append, ← started, ih]
    rw [hgiven] at hstep
    cases hstep with
    | same _ hcount | looked _ _ _ hcount =>
      rw [List.filterMap_cons_none hgiven, List.filterMap_nil, List.append_nil, hcount]
    | started hcount _ =>
      rw [List.filterMap_cons_some hgiven, List.filterMap_nil, hcount, List.range_succ,
        List.map_append, List.map_singleton]

/-- The counts of stores are those of the stores that were opened, and of those that were closed. -/
structure Accounted (c : Cloud) (h : List (Event (Teardown.Service StoreHandle))) : Prop where
  serials : (opened h).map StoreHandle.serial = List.range c.openedStores
  held : ∀ store, IsClosed h store → store ∈ opened h
  closed : ∀ n, n ∈ c.closedStores ↔ ∃ store, IsClosed h store ∧ store.serial = n
  once : c.closedStores.Nodup

theorem isClosed_append {event : Event (Teardown.Service StoreHandle)} {store : StoreHandle} :
    IsClosed (h ++ [event]) store ↔ IsClosed h store ∨ event.call = .blob (.close store) := by
  simp [IsClosed, eq_comm]

theorem opened_append (event : Event (Teardown.Service StoreHandle)) :
    opened (h ++ [event]) = opened h ++ (openedStore? event).toList := by
  cases hopened : openedStore? event <;> simp [opened, hopened]

/-- A call that neither opens a store nor closes one. -/
theorem Accounted.keep {event : Event (Teardown.Service StoreHandle)} (hc : Accounted c h)
    (hopen : openedStore? event = none) (hclose : ∀ store, event.call ≠ .blob (.close store))
    (hopened : d.openedStores = c.openedStores) (hclosed : d.closedStores = c.closedStores) :
    Accounted d (h ++ [event]) := by
  have hsame (store : StoreHandle) : IsClosed (h ++ [event]) store ↔ IsClosed h store := by
    rw [isClosed_append, or_iff_left (hclose store)]
  have hstores : opened (h ++ [event]) = opened h := by
    rw [opened_append, hopen, Option.toList_none, List.append_nil]
  constructor
  · rw [hstores, hopened, hc.serials]
  · simpa only [hsame, hstores] using hc.held
  · simpa only [hsame, hclosed] using hc.closed
  · rw [hclosed]
    exact hc.once

theorem Accounted.openStore (hc : Accounted c h) (account key : String) :
    Accounted (c.answer (.blob (.openStore account key))).2
      (h ++ [⟨.blob (.openStore account key), (c.answer (.blob (.openStore account key))).1⟩]) := by
  have hsame (store : StoreHandle) : IsClosed (h ++
      [⟨.blob (.openStore account key), (c.answer (.blob (.openStore account key))).1⟩]) store ↔
        IsClosed h store := by
    rw [isClosed_append, or_iff_left (by simp)]
  constructor
  · rw [opened_append, List.map_append, hc.serials]
    exact List.range_succ.symm
  · intro store hstore
    rw [opened_append]
    exact List.mem_append_left _ (hc.held store ((hsame store).mp hstore))
  · intro n
    simp only [hsame]
    exact hc.closed n
  · exact hc.once

theorem Accounted.close {store : StoreHandle} (hc : Accounted c h) (hstore : store ∈ opened h) :
    Accounted (c.answer (.blob (.close store))).2
      (h ++ [⟨.blob (.close store), (c.answer (.blob (.close store))).1⟩]) := by
  have hstores : opened (h ++ [⟨.blob (.close store), (c.answer (.blob (.close store))).1⟩]) =
      opened h := by
    rw [opened_append]
    exact List.append_nil _
  have hclosed (s : StoreHandle) :
      IsClosed (h ++ [⟨.blob (.close store), (c.answer (.blob (.close store))).1⟩]) s ↔
        IsClosed h s ∨ s = store := by
    rw [isClosed_append]
    simp [eq_comm]
  constructor
  · rw [hstores]
    exact hc.serials
  · intro s hs
    rw [hstores]
    rcases (hclosed s).mp hs with hs | rfl
    · exact hc.held s hs
    · exact hstore
  · intro n
    refine mem_addOnce.trans ⟨?_, ?_⟩
    · rintro (rfl | hn)
      · exact ⟨store, (hclosed store).mpr (.inr rfl), rfl⟩
      · obtain ⟨s, hs, rfl⟩ := (hc.closed n).mp hn
        exact ⟨s, (hclosed s).mpr (.inl hs), rfl⟩
    · rintro ⟨s, hs, rfl⟩
      rcases (hclosed s).mp hs with hs | rfl
      · exact .inr ((hc.closed _).mpr ⟨s, hs, rfl⟩)
      · exact .inl rfl
  · exact nodup_addOnce hc.once

theorem Lived.accounted (hc : Lived c h) : Accounted c h := by
  induction hc with
  | new => exact ⟨rfl, by simp [IsClosed], by simp [IsClosed], List.nodup_nil⟩
  | @setUp c h _ s ih =>
    have hcourse := course_setUp c s
    constructor
    · rw [hcourse.openedStores]
      exact ih.serials
    · exact ih.held
    · rw [hcourse.closedStores]
      exact ih.closed
    · rw [hcourse.closedStores]
      exact ih.once
  | @answer c h _ call hused ih =>
    match call with
    | .plane call =>
      have hledger := ledger_answerPlane (c.record (.plane call)) call
      exact ih.keep rfl (by simp) hledger.openedStores hledger.closedStores
    | .blob (.openStore account key) => exact ih.openStore account key
    | .blob (.deleteContainer store container) =>
      refine ih.keep rfl (by simp) ?_ ?_ <;>
      · simp only [Cloud.answer, answerBlob]
        split <;> rfl
    | .blob (.customImageExists store) =>
      refine ih.keep rfl (by simp) ?_ ?_ <;>
      · simp only [Cloud.answer, answerBlob]
        split <;> rfl
    | .blob (.close store) => exact ih.close (hused store rfl)

/-- The closes that count are those of the stores that were closed, however often. -/
theorem Accounted.closedCount_eq (hc : Accounted c h) :
    c.closedCount = ((opened h).filter fun store => IsClosed h store).length := by
  -- serial numbers tell stores apart, so that each closed store is counted once
  have hserials : ((opened h).map StoreHandle.serial).Nodup := hc.serials ▸ List.nodup_range
  have hperm : c.closedStores.Perm
      (((opened h).filter fun store => IsClosed h store).map StoreHandle.serial) := by
    refine (List.perm_ext_iff_of_nodup hc.once (hserials.sublist ?_)).mpr fun n => ?_
    · exact List.filter_sublist.map _
    · rw [hc.closed, List.mem_map]
      refine exists_congr fun store => and_congr_left fun _ => ?_
      rw [List.mem_filter, decide_eq_true_iff]
      exact ⟨fun hstore => ⟨hc.held store hstore, hstore⟩, And.right⟩
  rw [closedCount, hperm.length_eq, List.length_map]

theorem Accounted.openedStores_eq (hc : Accounted c h) : c.openedStores = (opened h).length := by
  rw [← List.length_range (n := c.openedStores), ← hc.serials, List.length_map]

theorem Accounted.openCount_eq (hc : Accounted c h) :
    c.closedCount ≤ c.openedStores ∧
      c.openCount = ((opened h).filter fun store => ¬IsClosed h store).length := by
  have hsplit := List.length_eq_length_filter_add (l := opened h) fun store => IsClosed h store
  rw [← hc.closedCount_eq, ← hc.openedStores_eq] at hsplit
  refine ⟨by omega, ?_⟩
  simp only [openCount, decide_not]
  omega

theorem Lived.log_eq (hc : Lived c h) :
    c.log = h.map fun event => event.call.mapStore StoreHandle.account := by
  induction hc with
  | new => rfl
  | @setUp c h _ s ih => rw [(course_setUp c s).log, ih]
  | @answer c h _ call _ ih => rw [log_answer, ih, List.map_append, List.map_singleton]

/-- Whatever was set up and called, in any order, the records are those of the resources that there
are, under their names; an operation that is started has the next number, which no other has or had;
the stores that were opened and not closed, however often the others were, make up the difference of
the counts; and the log is that of the calls, to which each call adds one entry at the end. -/
theorem Lived.books_balance (hc : Lived c h) :
    (c.Consistent ∧ c.Labelled) ∧
    ((∀ uri op, c.operations.get? uri = some op →
        ∃ n, 0 < n ∧ n ≤ c.operationCount ∧ uri = operationUri n) ∧
      (∀ call uri, startedOf? ⟨call, (c.answer call).1⟩ = some uri →
        c.operations.get? uri = none) ∧
      (started h).Nodup) ∧
    ((opened h).Nodup ∧ c.openedStores = (opened h).length ∧ c.closedCount ≤ c.openedStores ∧
      c.openCount = ((opened h).filter fun store => ¬IsClosed h store).length) ∧
    (c.log = h.map fun event => event.call.mapStore StoreHandle.account) ∧
    ∀ call, (c.answer call).2.log = c.log ++ [call.mapStore StoreHandle.account] := by
  have hnumbered := hc.reachable.numbered
  have hstores := hc.accounted
  refine ⟨⟨hc.reachable.consistent, hc.reachable.labelled⟩, ⟨hnumbered, ?_, ?_⟩,
    ⟨?_, hstores.openedStores_eq, hstores.openCount_eq⟩, hc.log_eq, log_answer c⟩
  · intro call uri huri
    have hstep := operationStep_answer c call
    rw [huri] at hstep
    cases hstep
    exact hnumbered.get?_next (Nat.lt_succ_self _)
  · rw [hc.started_eq]
    exact List.nodup_range.map fun _ _ h => Nat.succ.inj (operationUri_inj.mp h)
  · exact List.Nodup.of_map StoreHandle.serial (hstores.serials ▸ List.nodup_range)

theorem Lived.books_balance_closed_twice : ∃ c h, Lived c h ∧ (opened h).length = 2 ∧
    c.log.length = 5 ∧ started h = [operationUri 1] ∧ c.closedCount = 1 ∧
    ((opened h).filter fun store => ¬IsClosed h store).length = 1 := by
  have hc := Lived.new.setUp (.addStorageAccount "g" "a") |>.setUp (.setPace .never)
    |>.answer (.blob (.openStore "a" "k")) (by simp [usedStore?])
    |>.answer (.blob (.openStore "a" "k")) (by simp [usedStore?])
    |>.answer (.blob (.close ⟨0, "a"⟩)) (by decide)
    |>.answer (.blob (.close ⟨0, "a"⟩)) (by decide)
    |>.answer (.plane (.delete .storageAccount "g" "a")) (by simp [usedStore?])
  obtain ⟨-, -, ⟨-, -, -, hopen⟩, -⟩ := hc.books_balance
  exact ⟨_, _, hc, rfl, rfl, rfl, rfl, hopen.symm⟩

end Cloud

end Decommission.Simulation
