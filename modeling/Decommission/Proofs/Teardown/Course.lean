import Decommission.Proofs.Teardown.Calls

/-!
The course of a removal: how its plan goes on with each answer, and what therefore holds of every
log and the plan after it.
-/
namespace Decommission.Teardown

open Program

variable {σ : Type}

/-- A task that has ended makes no calls. -/
theorem reaches_done {I : Interface} {τ α : Type} {E : Surroundings I τ} {a : α} {q : Program I α}
    {t u : τ} (hr : Reaches E (.done a) t q u) : q = .done a ∧ u = t := by
  rcases Relation.ReflTransGen.cases_head hr with h | ⟨x, hturn, -⟩
  · obtain ⟨rfl, rfl⟩ := Prod.mk.inj h
    exact ⟨rfl, rfl⟩
  · cases hturn

/-- A text that is no id ends the removal at once, and from any other it is that of the machine. -/
theorem reaches_remove {τ : Type} {E : Surroundings (Timed (Service σ)) τ} {s : TeardownSettings}
    {text : String} {q : Task (Service σ) (Except Error Bool)} {t u : τ}
    (hr : Reaches E (remove s text).run t q u) :
    (∃ e, MachineId.decode text = .error e ∧ q = .done (.error (.invalidId e)) ∧ u = t) ∨
      ∃ id, MachineId.decode text = .ok id ∧ Reaches E (removeMachine s id).run t q u := by
  unfold remove at hr
  cases hid : MachineId.decode text with
  | error e =>
    rw [hid] at hr
    exact .inl ⟨e, rfl, reaches_done hr⟩
  | ok id =>
    rw [hid] at hr
    exact .inr ⟨id, rfl, hr⟩

/-- The id of the machine `m` in the region `r`. -/
def sampleId : MachineId := ⟨"r", "m", by decide, by decide⟩

theorem decode_sampleId : MachineId.decode "r/m" = .ok sampleId := by decide +kernel

/-- A machine whose disk is in the account `a`. -/
def diskMachine : Machine := ⟨"", "m", "", ⟨some ⟨none, some "a"⟩⟩, [], none⟩

/-- What comes of a duty by an answer that does not end the removal. -/
inductive Duty.Leads (site : Site) :
    (d : Duty σ) → Answer σ (d.call site) → List (Duty σ) → Prop where
  | noMachine {n : String} : Leads site (.fetchMachine n) (.ok none) []
  | machine {n : String} {m : Machine} :
    Leads site (.fetchMachine n) (.ok (some m)) (Duty.ofMachine m)
  | deletion {kind : ResourceKind} {n : String} {care : Care} {answer : Except Failure Deletion}
    {deletion : Option Deletion} (h : ignoreNotFound answer = .ok deletion) :
    Leads site (.delete kind n care) answer
      (Duty.afterDeletion care (deletion.getD .alreadyAbsent))
  | inProgress {operation : String} {care : Care} :
    Leads site (.poll operation care) (.ok .inProgress) [.poll operation care]
  | terminal {operation : String} {care : Care} {status : OperationStatus}
    (h : status.isTerminal = true) (hcare : care = .required → status = .succeeded) :
    Leads site (.poll operation care) (.ok status) []
  | noCard {n : String} : Leads site (.fetchCard n) (.ok none) []
  | card {n : String} {card : NetworkCard} :
    Leads site (.fetchCard n) (.ok (some card)) (Duty.ofCard n card)
  | noKeys {account : String} {answer : Except Failure (Option StorageKeys)}
    {keys : Option (Option StorageKeys)} (h : ignoreNotFound answer = .ok keys)
    (hnone : keys.join = none) : Leads site (.fetchKeys account) answer []
  | keys {account : String} {keys : StorageKeys} :
    Leads site (.fetchKeys account) (.ok (some keys)) [.openStore account keys.key1]
  | opened {account key : String} {store : σ} :
    Leads site (.openStore account key) (.ok store)
      [.emptyStore store, .askImages store account, .close store]
  | emptied {store : σ} {existed : Bool} : Leads site (.emptyStore store) (.ok existed) []
  | images {store : σ} {account : String} : Leads site (.askImages store account) (.ok true) []
  | noImages {store : σ} {account : String} :
    Leads site (.askImages store account) (.ok false)
      [.delete .storageAccount account .unwatched]
  | closed {store : σ} : Leads site (.close store) () []
  | found {kind : ResourceKind} {later : List ResourceKind} {n : String} {names : List String} :
    Leads site (.look kind later) (.ok (n :: names)) []
  | notFound {kind : ResourceKind} {later : List ResourceKind} :
    Leads site (.look kind later) (.ok []) [Duty.lookFor later]
  | groupDeletion {answer : Except Failure Deletion} {deletion : Option Deletion}
    (h : ignoreNotFound answer = .ok deletion) :
    Leads site .deleteGroup answer
      (Duty.afterDeletion .required (deletion.getD .alreadyAbsent))

theorem ignoreNotFound_eq_some {α : Type} {answer : Except Failure α} {a : α}
    (h : ignoreNotFound answer = .ok (some a)) : answer = .ok a := by
  cases answer with
  | ok b =>
    obtain rfl : b = a := by simpa [ignoreNotFound] using h
    rfl
  | error f =>
    rw [ignoreNotFound] at h
    split at h <;> cases h

/-- All that can come of a duty and an answer to its call. -/
theorem Duty.leads {site : Site} {d : Duty σ} {a : Answer σ (d.call site)} {more : List (Duty σ)}
    (h : d.following (d.call site) a = some more) : d.Leads site a more := by
  cases d with
  | fetchMachine n =>
    rcases a with f | _ | m
    · cases h
    · cases h
      exact .noMachine
    · cases h
      exact .machine
  | delete kind n care =>
    simp only [Duty.call, Duty.following] at h
    split at h
    · next hdeletion =>
      cases h
      exact .deletion hdeletion
    · cases h
  | poll operation care =>
    rcases a with f | _ | _ | _
    · cases h
    · cases h
      exact .inProgress
    · cases h
      exact .terminal rfl fun _ => rfl
    · simp only [Duty.call, Duty.following] at h
      split at h
      · cases h
      · next hcare =>
        cases h
        exact .terminal rfl fun hrequired => absurd hrequired hcare
  | fetchCard n =>
    rcases a with f | _ | card
    · cases h
    · cases h
      exact .noCard
    · cases h
      exact .card
  | fetchKeys account =>
    simp only [Duty.call, Duty.following] at h
    split at h
    · next keys hkeys =>
      rcases keys with _ | _ | keys
      · cases h
        exact .noKeys hkeys rfl
      · cases h
        exact .noKeys hkeys rfl
      · cases h
        obtain rfl := ignoreNotFound_eq_some hkeys
        exact .keys
    · cases h
  | openStore account key =>
    rcases a with f | store
    · cases h
    · cases h
      exact .opened
  | emptyStore store =>
    rcases a with f | existed
    · cases h
    · cases h
      exact .emptied
  | askImages store account =>
    rcases a with f | _ | _
    · cases h
    · cases h
      exact .noImages
    · cases h
      exact .images
  | close store =>
    cases h
    exact .closed
  | look kind later =>
    rcases a with f | _ | _
    · cases h
    · cases h
      exact .notFound
    · cases h
      exact .found
  | deleteGroup =>
    simp only [Duty.call, Duty.following] at h
    split at h
    · next hdeletion =>
      cases h
      exact .groupDeletion hdeletion
    · cases h

namespace Plan

variable {site : Site} {p : Plan σ} {d : Duty σ} {rest : List (Duty σ)}
  {log later : List (Exchange (Service σ))}

theorem afterAll_append_later : p.afterAll (log ++ later) = (p.afterAll log).afterAll later :=
  List.foldl_append

/-- An answer either ends the removal, or what comes of the first duty takes its place. -/
theorem after_cases (hp : p.duties = d :: rest) (c : Call σ) (answer : Option (Answer σ c)) :
    p.after c answer = p.fail ∨ ∃ a more, answer = some a ∧ d.following c a = some more ∧
      p.after c answer = ⟨more ++ rest, !d.reportsFailure c a && p.deleted, p.failed⟩ := by
  obtain ⟨duties, deleted, failed⟩ := p
  obtain rfl : duties = d :: rest := hp
  match answer with
  | none => exact .inl rfl
  | some a =>
    cases hmore : d.following c a with
    | none =>
      left
      simp only [after, hmore]
    | some more =>
      right
      refine ⟨a, more, rfl, hmore, ?_⟩
      simp only [after, hmore]

/-- The calls of the log are those of the plan, each made when its turn had come. -/
def Runs (site : Site) (p : Plan σ) (log : List (Exchange (Service σ))) : Prop :=
  Exchange.AllRight (fun before c => (p.afterAll before).nextCall? site = some c) log

theorem Runs.of_append (h : p.Runs site (log ++ later)) :
    p.Runs site log ∧ (p.afterAll log).Runs site later := by
  refine ⟨Exchange.AllRight.of_append h, ?_⟩
  intro before e after hlater
  have hnext : (p.afterAll (log ++ before)).nextCall? site = some e.call :=
    h (log ++ before) e after (by rw [hlater, List.append_assoc])
  rwa [afterAll_append_later] at hnext

theorem Runs.of_cons {e : Exchange (Service σ)} (h : p.Runs site (e :: log)) :
    p.nextCall? site = some e.call ∧ (p.after e.call e.answer).Runs site log := by
  have hsplit : p.Runs site ([e] ++ log) := h
  exact ⟨h [] e log rfl, hsplit.of_append.2⟩

/-- What each call of a plan keeps holds of the whole log and the plan after it. -/
theorem Runs.induct (h : p.Runs site log) (inv : List (Exchange (Service σ)) → Plan σ → Prop)
    (hstart : inv [] p)
    (hstep : ∀ log q e, inv log q → q.nextCall? site = some e.call →
      inv (log ++ [e]) (q.after e.call e.answer)) :
    inv log (p.afterAll log) := by
  refine Exchange.AllRight.induct h (fun log => inv log (p.afterAll log)) hstart ?_
  intro log e hnext hinv
  rw [afterAll_append]
  exact hstep log _ e hinv hnext

theorem duties_of_nextCall {c : Call σ} (h : p.nextCall? site = some c) :
    ∃ d rest, p.duties = d :: rest ∧ d.call site = c := by
  obtain ⟨d, hd, hcall⟩ := Option.map_eq_some_iff.mp h
  obtain ⟨rest, hrest⟩ := List.head?_eq_some_iff.mp hd
  exact ⟨d, rest, hrest, hcall⟩

/-- What holds of the duties at the start, and of all that follows from a duty of which it holds,
holds of the duties that are left. -/
theorem Runs.forall_duties (h : p.Runs site log) {P : List (Exchange (Service σ)) → Duty σ → Prop}
    (hmono : ∀ log e d, P log d → P (log ++ [e]) d) (hstart : ∀ d ∈ p.duties, P [] d)
    (hfollow : ∀ log d a more, P log d → d.following (d.call site) a = some more →
      ∀ d' ∈ more, P (log ++ [⟨d.call site, some a⟩]) d') :
    ∀ d ∈ (p.afterAll log).duties, P log d := by
  refine h.induct (fun log q => ∀ d ∈ q.duties, P log d) hstart ?_
  intro log q e hq hnext
  obtain ⟨c, answer⟩ := e
  obtain ⟨d, rest, hd, rfl⟩ := duties_of_nextCall hnext
  have hrest : ∀ d' ∈ rest, P log d' := fun d' hd' => hq d' (hd ▸ List.mem_cons_of_mem d hd')
  rcases q.after_cases hd (d.call site) answer with hfail | ⟨a, more, rfl, hmore, hafter⟩
  · intro d' hd'
    rw [hfail, fail, hd, List.tail_cons] at hd'
    exact hmono _ _ _ (hrest d' (List.mem_filter.mp hd').1)
  · intro d' hd'
    rw [hafter] at hd'
    rcases List.mem_append.mp hd' with hd' | hd'
    · exact hfollow log d a more (hq d (hd ▸ List.mem_cons_self)) hmore d' hd'
    · exact hmono _ _ _ (hrest d' hd')

/-- After a failure the plan stays failed. -/
theorem Runs.failed (h : p.Runs site log) (hp : p.failed = true) :
    (p.afterAll log).failed = true := by
  refine h.induct (fun _ q => q.failed = true) hp ?_
  intro log q e hq hnext
  obtain ⟨d, rest, hd, -⟩ := duties_of_nextCall hnext
  rcases q.after_cases hd e.call e.answer with hfail | ⟨a, more, -, -, hmore⟩
  · rw [hfail]
    rfl
  · rw [hmore]
    exact hq

/-- Once nothing is left to do and nothing has failed, each duty of the plan was done. -/
theorem Runs.done (h : p.Runs site log) (hd : d ∈ p.duties)
    (hover : (p.afterAll log).duties = []) (hfailed : (p.afterAll log).failed = false) :
    ∃ e ∈ log, e.call = d.call site := by
  induction log generalizing p with
  | nil =>
    have hnil : p.duties = [] := hover
    rw [hnil] at hd
    cases hd
  | cons e log ih =>
    obtain ⟨hnext, hlater⟩ := h.of_cons
    obtain ⟨first, rest, hfirst, hcall⟩ := duties_of_nextCall hnext
    rw [hfirst] at hd
    -- the first call does the first duty, and leaves the others to be done unless it has failed
    rcases List.mem_cons.mp hd with rfl | hd
    · exact ⟨e, List.mem_cons_self, hcall.symm⟩
    rcases p.after_cases hfirst e.call e.answer with hfail | ⟨a, more, -, -, hmore⟩
    · have hstuck : (p.afterAll (e :: log)).failed = true := hlater.failed (by rw [hfail]; rfl)
      rw [hfailed] at hstuck
      cases hstuck
    · have hd' : d ∈ (p.after e.call e.answer).duties := by
        rw [hmore]
        exact List.mem_append_right more hd
      obtain ⟨x, hx, hxcall⟩ := ih hlater hd' hover hfailed
      exact ⟨x, List.mem_cons_of_mem e hx, hxcall⟩

end Plan

/-- Each log of a removal's plan is at the stage of the plan after it. -/
theorem stage_of_runs {site : Site} {name : String} {log : List (Exchange (Service σ))}
    (h : (Plan.start name).Runs site log) :
    Stage site.group name log ((Plan.start name).afterAll log) := by
  apply h.induct (Stage site.group name) .start
  intro log p e hstage hnext
  exact hstage.append hnext

section

variable {s : TeardownSettings} {id : MachineId} {q : Task (Service σ) (Except Error Bool)}
  {log : List (Exchange (Service σ))}

/-- The calls that a removal has made are those of its plan. -/
theorem runs_of_reaches
    (hr : Reaches (Exchange.recording (Service σ)) (removeMachine s id).run [] q log) :
    (Plan.start id.name).Runs (siteOf s id) log :=
  Exchange.allRight_of_meets (fun _ _ h => h.1) (fun _ _ _ h => h.1)
    (meets_removeMachine (σ := σ) s id) hr

/-- The plan at the end of a removal. -/
theorem leaves_of_reaches {result : Except Error Bool}
    (hr : Reaches (Exchange.recording (Service σ)) (removeMachine s id).run [] (.done result) log) :
    Leaves [] (fun deleted p => p = ⟨[], deleted, false⟩) (some result)
      ((Plan.start id.name).afterAll log) :=
  (meets_removeMachine (σ := σ) s id).reaches hr

end

end Decommission.Teardown
