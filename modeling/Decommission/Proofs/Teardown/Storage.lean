import Decommission.Proofs.Teardown.Course

/-!
The stages of a removal's storage: no store is called before the keys of the account are fetched,
then one is opened, used and closed, and after that none is called.
-/
namespace Decommission.Teardown

open Program

variable {σ : Type} {site : Site} {group account : String} {keys : StorageKeys} {store : σ}
  {log later : List (Exchange (Service σ))} {e : Exchange (Service σ)}

namespace Call

/-- The call is for the blob service. -/
def isBlob : Call σ → Bool
  | .blob _ => true
  | .plane _ => false

def opens : Call σ → Bool
  | .blob (.openStore ..) => true
  | _ => false

def closes : Call σ → Bool
  | .blob (.close _) => true
  | _ => false

def lists : Call σ → Bool
  | .plane (.list ..) => true
  | _ => false

theorem opens_eq_false {c : Call σ} (h : c.isBlob = false) : c.opens = false := by
  cases c with
  | plane call => rfl
  | blob call => cases h

theorem closes_eq_false {c : Call σ} (h : c.isBlob = false) : c.closes = false := by
  cases c with
  | plane call => rfl
  | blob call => cases h

end Call

/-- The call that fetched the keys of an account. -/
def keysFetched (group account : String) (keys : StorageKeys) : Exchange (Service σ) :=
  ⟨.plane (.getStorageKeys group account), some (.ok (some keys))⟩

/-- The call that opened a store. -/
def opened (account : String) (keys : StorageKeys) (store : σ) : Exchange (Service σ) :=
  ⟨.blob (.openStore account keys.key1), some (.ok store)⟩

/-- The keys of an account were fetched, a store was opened with the first of them, and then came
`later`. -/
def openedAfter (before : List (Exchange (Service σ))) (group account : String) (keys : StorageKeys)
    (store : σ) (later : List (Exchange (Service σ))) : List (Exchange (Service σ)) :=
  before ++ keysFetched group account keys :: opened account keys store :: later

theorem openedAfter_append {before : List (Exchange (Service σ))} :
    openedAfter before group account keys store later ++ [e] =
      openedAfter before group account keys store (later ++ [e]) := by
  simp [openedAfter]

/-- Neither is a store called nor anything looked for. -/
def IsEarly (log : List (Exchange (Service σ))) : Prop :=
  ∀ e ∈ log, e.call.isBlob = false ∧ e.call.lists = false

/-- No store is called. -/
def IsLate (log : List (Exchange (Service σ))) : Prop := ∀ e ∈ log, e.call.isBlob = false

/-- The store may be used, but none is opened or closed, and nothing is looked for. -/
def IsUse (log : List (Exchange (Service σ))) : Prop :=
  ∀ e ∈ log, e.call.opens = false ∧ e.call.closes = false ∧ e.call.lists = false

theorem IsEarly.late (h : IsEarly log) : IsLate log := fun e he => (h e he).1

theorem IsEarly.append (h : IsEarly log) (he : e.call.isBlob = false ∧ e.call.lists = false) :
    IsEarly (log ++ [e]) :=
  List.forall_mem_append.mpr ⟨h, List.forall_mem_singleton.mpr he⟩

theorem IsLate.append (h : IsLate log) (he : e.call.isBlob = false) : IsLate (log ++ [e]) :=
  List.forall_mem_append.mpr ⟨h, List.forall_mem_singleton.mpr he⟩

theorem IsUse.append (h : IsUse log)
    (he : e.call.opens = false ∧ e.call.closes = false ∧ e.call.lists = false) :
    IsUse (log ++ [e]) :=
  List.forall_mem_append.mpr ⟨h, List.forall_mem_singleton.mpr he⟩

/-- The use that a removal makes of stores: none, or one that could not be opened, or one that was
opened and closed. -/
inductive StoreUse (group : String) : List (Exchange (Service σ)) → Prop where
  | none {log : List (Exchange (Service σ))} (h : IsLate log) : StoreUse group log
  | refused {before later : List (Exchange (Service σ))} {account : String} {keys : StorageKeys}
    {answer : Option (Except Failure σ)} (hbefore : IsEarly before)
    (hanswer : ∀ store, answer ≠ some (.ok store)) (hlater : IsLate later) :
    StoreUse group (before ++ keysFetched group account keys ::
      ⟨.blob (.openStore account keys.key1), answer⟩ :: later)
  | closed {before uses later : List (Exchange (Service σ))} {account : String}
    {keys : StorageKeys} {store : σ} {answer : Option Unit} (hbefore : IsEarly before)
    (huses : IsUse uses) (hlater : IsLate later) :
    StoreUse group (openedAfter before group account keys store
      (uses ++ ⟨.blob (.close store), answer⟩ :: later))

theorem StoreUse.append (h : StoreUse group log) (he : e.call.isBlob = false) :
    StoreUse group (log ++ [e]) := by
  cases h with
  | none h => exact .none (h.append he)
  | @refused before later account keys answer hbefore hanswer hlater =>
    have hmore : StoreUse group (before ++ keysFetched group account keys ::
        ⟨.blob (.openStore account keys.key1), answer⟩ :: (later ++ [e])) :=
      .refused hbefore hanswer (hlater.append he)
    simpa using hmore
  | @closed before uses later account keys store answer hbefore huses hlater =>
    have hmore : StoreUse group (openedAfter before group account keys store
        (uses ++ ⟨.blob (.close store), answer⟩ :: (later ++ [e]))) :=
      .closed hbefore huses (hlater.append he)
    rw [openedAfter_append]
    simpa using hmore

namespace Duty

/-- The duty comes before those of the storage. -/
def isFront : Duty σ → Bool
  | delete .. => true
  | poll .. => true
  | fetchCard _ => true
  | _ => false

/-- The duty is one that an open store is there for. -/
def isUse : Duty σ → Bool
  | emptyStore _ => true
  | askImages .. => true
  | delete _ _ care => care = .unwatched
  | _ => false

/-- The duty comes after those of the storage. -/
def isLast : Duty σ → Bool
  | look .. => true
  | deleteGroup => true
  | poll .. => true
  | _ => false

variable {d d' : Duty σ} {a : Answer σ (d.call site)} {more : List (Duty σ)}

theorem early_of_front (h : d.isFront = true) :
    (d.call site).isBlob = false ∧ (d.call site).lists = false := by
  cases d with
  | delete | poll | fetchCard => exact ⟨rfl, rfl⟩
  | _ => cases h

theorem late_of_last (h : d.isLast = true) : (d.call site).isBlob = false := by
  cases d with
  | look | deleteGroup | poll => rfl
  | _ => cases h

theorem use_of_use (h : d.isUse = true) : (d.call site).opens = false ∧
    (d.call site).closes = false ∧ (d.call site).lists = false := by
  cases d with
  | emptyStore | askImages | delete => exact ⟨rfl, rfl, rfl⟩
  | _ => cases h

theorem Leads.front (hleads : d.Leads site a more) (h : d.isFront = true) (hd' : d' ∈ more) :
    d'.isFront = true := by
  cases hleads with
  | deletion =>
    obtain ⟨operation, -, -, rfl⟩ := mem_afterDeletion hd'
    rfl
  | inProgress =>
    obtain rfl := List.mem_singleton.mp hd'
    rfl
  | card =>
    rcases List.mem_cons.mp hd' with rfl | hd'
    · rfl
    · obtain ⟨n, -, rfl⟩ := mem_ofAddresses hd'
      rfl
  | terminal | noCard => cases hd'
  | _ => cases h

theorem Leads.use (hleads : d.Leads site a more) (h : d.isUse = true) (hd' : d' ∈ more) :
    d'.isUse = true := by
  cases hleads with
  | deletion =>
    obtain ⟨operation, -, hcare, -⟩ := mem_afterDeletion hd'
    exact absurd (of_decide_eq_true h) hcare
  | noImages =>
    obtain rfl := List.mem_singleton.mp hd'
    rfl
  | emptied | images => cases hd'
  | _ => cases h

theorem last_lookFor (kinds : List ResourceKind) : (lookFor kinds : Duty σ).isLast = true := by
  cases kinds <;> rfl

theorem Leads.last (hleads : d.Leads site a more) (h : d.isLast = true) (hd' : d' ∈ more) :
    d'.isLast = true := by
  cases hleads with
  | @notFound kind later =>
    obtain rfl := List.mem_singleton.mp hd'
    exact last_lookFor later
  | groupDeletion =>
    obtain ⟨operation, -, -, rfl⟩ := mem_afterDeletion hd'
    rfl
  | inProgress =>
    obtain rfl := List.mem_singleton.mp hd'
    rfl
  | terminal | found => cases hd'
  | _ => cases h

theorem not_close (h : d.isFront = true ∨ d.isUse = true ∨ d.isLast = true) :
    d.isClose = false := by
  cases d with
  | close => simp [isFront, isUse, isLast] at h
  | _ => rfl

theorem filter_isClose_eq_nil {l : List (Duty σ)} (h : ∀ d ∈ l, d.isClose = false) :
    l.filter isClose = [] := by
  apply List.filter_eq_nil_iff.mpr
  intro d hd hclose
  rw [h d hd] at hclose
  cases hclose

end Duty

/-- How far a removal has come with the storage. -/
inductive StoreStage (site : Site) : List (Exchange (Service σ)) → Plan σ → Prop where
  | start {name : String} : StoreStage site [] (.start name)
  | early {log : List (Exchange (Service σ))} {p : Plan σ} {front : List (Duty σ)}
    {account : Option String} (hlog : IsEarly log)
    (hp : p.duties = front ++ (Duty.ofAccount account ++ [Duty.lookFor ResourceKind.tracked]))
    (hfront : ∀ d ∈ front, d.isFront = true) : StoreStage site log p
  | keys {before : List (Exchange (Service σ))} {p : Plan σ} {account : String} {keys : StorageKeys}
    (hbefore : IsEarly before)
    (hp : p.duties = [.openStore account keys.key1, Duty.lookFor ResourceKind.tracked]) :
    StoreStage site (before ++ [keysFetched site.group account keys]) p
  | inUse {before uses : List (Exchange (Service σ))} {p : Plan σ} {account : String}
    {keys : StorageKeys} {store : σ} {todo rest : List (Duty σ)} (hbefore : IsEarly before)
    (huses : IsUse uses) (hp : p.duties = todo ++ .close store :: rest)
    (htodo : ∀ d ∈ todo, d.isUse = true) (hrest : ∀ d ∈ rest, d.isLast = true) :
    StoreStage site (openedAfter before site.group account keys store uses) p
  | past {log : List (Exchange (Service σ))} {p : Plan σ} (h : StoreUse site.group log)
    (hp : ∀ d ∈ p.duties, d.isLast = true) : StoreStage site log p

section

variable {p : Plan σ} {d : Duty σ} {rest front todo : List (Duty σ)}

theorem duties_fail (hp : p.duties = d :: rest) : p.fail.duties = rest.filter Duty.isClose := by
  rw [Plan.fail, hp, List.tail_cons]

/-- An answer to the call of the first duty leaves what is to be closed, or what comes of it and the
other duties. -/
theorem StoreStage.step (hp : p.duties = d :: rest) {answer : Option (Answer σ (d.call site))}
    (hfail : ∀ q : Plan σ, q.duties = rest.filter Duty.isClose →
      StoreStage site (log ++ [⟨d.call site, answer⟩]) q)
    (hgo : ∀ a more, answer = some a → d.Leads site a more → ∀ q : Plan σ, q.duties = more ++ rest →
      StoreStage site (log ++ [⟨d.call site, answer⟩]) q) :
    StoreStage site (log ++ [⟨d.call site, answer⟩]) (p.after (d.call site) answer) := by
  rcases p.after_cases hp (d.call site) answer with h | ⟨a, more, ha, hmore, h⟩
  · rw [h]
    exact hfail _ (duties_fail hp)
  · rw [h]
    exact hgo a more ha (Duty.leads hmore) _ rfl

theorem StoreStage.past_of_duties {later : List (Duty σ)} (h : StoreUse site.group log)
    (hp : p.duties = later) (hlater : ∀ d ∈ later, d.isLast = true) : StoreStage site log p := by
  apply StoreStage.past h
  rw [hp]
  exact hlater

theorem StoreStage.past_append (h : StoreUse site.group log)
    (hlast : ∀ d' ∈ p.duties, d'.isLast = true) (hp : p.duties = d :: rest)
    {answer : Option (Answer σ (d.call site))} :
    StoreStage site (log ++ [⟨d.call site, answer⟩]) (p.after (d.call site) answer) := by
  rw [hp] at hlast
  have hd : d.isLast = true := hlast d List.mem_cons_self
  have hrest : ∀ d' ∈ rest, d'.isLast = true := fun d' hd' => hlast d' (List.mem_cons_of_mem d hd')
  have huse := h.append (e := ⟨d.call site, answer⟩) (Duty.late_of_last hd)
  apply StoreStage.step hp
  · intro q hq
    exact .past_of_duties huse hq fun d' hd' => hrest d' (List.mem_filter.mp hd').1
  · intro a more _ hleads q hq
    apply StoreStage.past_of_duties huse hq
    exact List.forall_mem_append.mpr ⟨fun d' hd' => hleads.last hd hd', hrest⟩

theorem StoreStage.front_append {account : Option String} (hlog : IsEarly log)
    (hp : p.duties = d :: front ++ (Duty.ofAccount account ++ [Duty.lookFor ResourceKind.tracked]))
    (hfront : ∀ d' ∈ d :: front, d'.isFront = true) {answer : Option (Answer σ (d.call site))} :
    StoreStage site (log ++ [⟨d.call site, answer⟩]) (p.after (d.call site) answer) := by
  have hd : d.isFront = true := hfront d List.mem_cons_self
  have hrest : ∀ d' ∈ front, d'.isFront = true :=
    fun d' hd' => hfront d' (List.mem_cons_of_mem d hd')
  have hlog' := hlog.append (e := ⟨d.call site, answer⟩) (Duty.early_of_front hd)
  apply StoreStage.step hp
  · intro q hq
    have hnone : q.duties = [] := by
      rw [hq]
      change List.filter _ (front ++ _) = []
      rw [List.filter_append, filter_isClose_afterStorage, List.append_nil]
      exact Duty.filter_isClose_eq_nil fun d' hd' => Duty.not_close (.inl (hrest d' hd'))
    exact .past_of_duties (.none hlog'.late) hnone (List.forall_mem_nil _)
  · intro a more _ hleads q hq
    have hduties : q.duties =
        (more ++ front) ++ (Duty.ofAccount account ++ [Duty.lookFor ResourceKind.tracked]) := by
      rw [hq]
      exact (List.append_assoc _ _ _).symm
    apply StoreStage.early hlog' hduties
    exact List.forall_mem_append.mpr ⟨fun d' hd' => hleads.front hd hd', hrest⟩

theorem StoreStage.keys_append {account : String}
    {answer : Option (Except Failure (Option StorageKeys))} (hlog : IsEarly log)
    (hp : p.duties = [.fetchKeys account, Duty.lookFor ResourceKind.tracked]) :
    StoreStage site (log ++ [⟨.plane (.getStorageKeys site.group account), answer⟩])
      (p.after (.plane (.getStorageKeys site.group account)) answer) := by
  have huse : StoreUse site.group
      (log ++ [⟨.plane (.getStorageKeys site.group account), answer⟩]) :=
    .none (hlog.late.append rfl)
  apply StoreStage.step (d := .fetchKeys account) hp
  · intro q hq
    exact .past_of_duties huse hq (List.forall_mem_nil _)
  · intro a more ha hleads q hq
    subst ha
    cases hleads with
    | noKeys =>
      exact .past_of_duties huse hq (List.forall_mem_singleton.mpr (Duty.last_lookFor _))
    | keys => exact .keys hlog hq

theorem StoreStage.open_append {before : List (Exchange (Service σ))} {account : String}
    {keys : StorageKeys} {answer : Option (Except Failure σ)} (hbefore : IsEarly before)
    (hp : p.duties = [.openStore account keys.key1, Duty.lookFor ResourceKind.tracked]) :
    StoreStage site
      (before ++ keysFetched site.group account keys ::
        [⟨.blob (.openStore account keys.key1), answer⟩])
      (p.after (.blob (.openStore account keys.key1)) answer) := by
  obtain ⟨duties, deleted, failed⟩ := p
  subst hp
  match answer with
  | some (.ok store) =>
    have hduties : (Plan.after ⟨[.openStore account keys.key1, .lookFor ResourceKind.tracked],
        deleted, failed⟩ (.blob (.openStore account keys.key1)) (some (.ok store))).duties =
          [.emptyStore store, .askImages store account] ++
            .close store :: [Duty.lookFor ResourceKind.tracked] := rfl
    apply StoreStage.inUse hbefore (List.forall_mem_nil _) hduties
    · simp [Duty.isUse]
    · exact List.forall_mem_singleton.mpr (Duty.last_lookFor _)
  | none | some (.error f) =>
    refine .past (.refused hbefore ?_ (List.forall_mem_nil _)) (List.forall_mem_nil _)
    simp

theorem StoreStage.use_append {before uses : List (Exchange (Service σ))} {account : String}
    {keys : StorageKeys} {store : σ} (hbefore : IsEarly before) (huses : IsUse uses)
    (hp : p.duties = d :: todo ++ .close store :: rest) (htodo : ∀ d' ∈ d :: todo, d'.isUse = true)
    (hrest : ∀ d' ∈ rest, d'.isLast = true) {answer : Option (Answer σ (d.call site))} :
    StoreStage site
      (openedAfter before site.group account keys store uses ++ [⟨d.call site, answer⟩])
      (p.after (d.call site) answer) := by
  have hd : d.isUse = true := htodo d List.mem_cons_self
  have htodo' : ∀ d' ∈ todo, d'.isUse = true := fun d' hd' => htodo d' (List.mem_cons_of_mem d hd')
  have huses' := huses.append (e := ⟨d.call site, answer⟩) (Duty.use_of_use hd)
  apply StoreStage.step hp
  · intro q hq
    -- only the closing is left
    have hclose : q.duties = [] ++ .close store :: [] := by
      rw [hq]
      change List.filter _ (todo ++ .close store :: rest) = _
      rw [List.filter_append, List.filter_cons_of_pos rfl,
        Duty.filter_isClose_eq_nil fun d' hd' => Duty.not_close (.inr (.inl (htodo' d' hd'))),
        Duty.filter_isClose_eq_nil fun d' hd' => Duty.not_close (.inr (.inr (hrest d' hd')))]
    rw [openedAfter_append]
    exact .inUse hbefore huses' hclose (List.forall_mem_nil _) (List.forall_mem_nil _)
  · intro a more _ hleads q hq
    have hduties : q.duties = (more ++ todo) ++ .close store :: rest := by
      rw [hq]
      exact (List.append_assoc _ _ _).symm
    rw [openedAfter_append]
    apply StoreStage.inUse hbefore huses' hduties ?_ hrest
    exact List.forall_mem_append.mpr ⟨fun d' hd' => hleads.use hd hd', htodo'⟩

theorem StoreStage.close_append {before uses : List (Exchange (Service σ))} {account : String}
    {keys : StorageKeys} {store : σ} {answer : Option Unit} (hbefore : IsEarly before)
    (huses : IsUse uses) (hp : p.duties = .close store :: rest)
    (hrest : ∀ d' ∈ rest, d'.isLast = true) :
    StoreStage site
      (openedAfter before site.group account keys store uses ++ [⟨.blob (.close store), answer⟩])
      (p.after (.blob (.close store)) answer) := by
  have huse : StoreUse site.group
      (openedAfter before site.group account keys store uses ++
        [⟨.blob (.close store), answer⟩]) := by
    rw [openedAfter_append]
    exact .closed hbefore huses (List.forall_mem_nil _)
  apply StoreStage.step (d := .close store) hp
  · intro q hq
    exact .past_of_duties huse hq fun d' hd' => hrest d' (List.mem_filter.mp hd').1
  · intro a more _ hleads q hq
    cases hleads with
    | closed => exact .past_of_duties huse hq hrest

/-- Each call of a plan takes the storage to the next stage. -/
theorem StoreStage.append (h : StoreStage site log p) (he : p.nextCall? site = some e.call) :
    StoreStage site (log ++ [e]) (p.after e.call e.answer) := by
  obtain ⟨c, answer⟩ := e
  obtain ⟨d, rest, hd, rfl⟩ := Plan.duties_of_nextCall he
  cases h with
  | @start name =>
    obtain ⟨rfl, rfl⟩ := List.cons.inj hd
    have hearly : IsEarly ([] ++ [⟨Duty.call site (.fetchMachine name), answer⟩] :
        List (Exchange (Service σ))) := List.forall_mem_singleton.mpr ⟨rfl, rfl⟩
    apply StoreStage.step hd
    · intro q hq
      exact .past_of_duties (.none hearly.late) hq (List.forall_mem_nil _)
    · intro a more _ hleads q hq
      rw [List.append_nil] at hq
      cases hleads with
      | noMachine => exact .past_of_duties (.none hearly.late) hq (List.forall_mem_nil _)
      | @machine _ m =>
        have hduties : q.duties = (.delete .virtualMachine m.name .reported ::
            Duty.ofCards m.networkInterfaces) ++
              (Duty.ofAccount m.storage.account? ++ [Duty.lookFor ResourceKind.tracked]) := hq
        apply StoreStage.early hearly hduties
        intro d' hd'
        rcases List.mem_cons.mp hd' with rfl | hd'
        · rfl
        · obtain ⟨r, -, rfl⟩ := List.mem_map.mp hd'
          rfl
  -- once nothing is left before the storage, there may be none to see to
  | @early _ _ front account hlog hp hfront =>
    match front, account, hp, hfront with
    | _ :: front, account, hp, hfront =>
      obtain ⟨rfl, -⟩ := List.cons.inj (hd.symm.trans hp)
      exact .front_append hlog hp hfront
    | [], none, hp, _ =>
      apply StoreStage.past_append (.none hlog.late) ?_ hd
      rw [hp]
      exact List.forall_mem_singleton.mpr (Duty.last_lookFor _)
    | [], some account, hp, _ =>
      obtain ⟨rfl, -⟩ := List.cons.inj (hd.symm.trans hp)
      exact .keys_append hlog hp
  | keys hbefore hp =>
    obtain ⟨rfl, -⟩ := List.cons.inj (hd.symm.trans hp)
    rw [List.append_assoc]
    exact .open_append hbefore hp
  | @inUse before uses _ account keys store todo rest hbefore huses hp htodo hrest =>
    match todo, hp, htodo with
    | [], hp, _ =>
      obtain ⟨rfl, -⟩ := List.cons.inj (hd.symm.trans hp)
      exact .close_append hbefore huses hp hrest
    | _ :: todo, hp, htodo =>
      obtain ⟨rfl, -⟩ := List.cons.inj (hd.symm.trans hp)
      exact .use_append hbefore huses hp htodo hrest
  | past h hlast => exact .past_append h hlast hd

end

end Decommission.Teardown
