import Decommission.Proofs.Teardown.FirstFailure

/-!
The result of a removal is that of the machine alone. All that comes after the machine is done in
both cases, or else the removal ends with an error.
-/
namespace Decommission.Teardown

open Program

variable {σ : Type} {site : Site} {group name : String}

/-- The machine was found, its deletion has settled with this status, and then came `rest`. -/
def SettledWith (group name : String) (m : Machine) (status : OperationStatus)
    (rest log : List (Exchange (Service σ))) : Prop :=
  ∃ answer looks, SettledBy answer looks status ∧
    log = fetched group name m :: askedToDelete group m answer :: (looks ++ rest)

/-- The plan once the deletion of the machine has settled. -/
def afterSettling (m : Machine) (status : OperationStatus) : Plan σ :=
  ⟨Duty.afterMachine m, status == .succeeded, false⟩

/-- The network cards, the storage and the group were all seen to, and nothing has failed. -/
structure LaterStepsRan (site : Site) (m : Machine) (p : Plan σ)
    (rest : List (Exchange (Service σ))) : Prop where
  runs : p.Runs site rest
  ended : (p.afterAll rest).duties = [] ∧ (p.afterAll rest).failed = false
  cards : ∀ r ∈ m.networkInterfaces, ∃ e ∈ rest, e.call = .plane (.getNetworkCard site.group r.name)
  storage : ∀ account, m.storage.account? = some account →
    ∃ e ∈ rest, e.call = .plane (.getStorageKeys site.group account)
  group : ∃ e ∈ rest, e.call = .plane (.list .virtualMachine site.group)

namespace Duty

/-- The outcome of the duty, or of one that follows from it, is reported at the end. -/
def reports : Duty σ → Bool
  | fetchMachine _ => true
  | delete _ _ care => care = .reported
  | poll _ care => care = .reported
  | _ => false

theorem reportsFailure_eq_false {d : Duty σ} (h : d.reports = false) (c : Call σ)
    (a : Answer σ c) : d.reportsFailure c a = false := by
  unfold reportsFailure
  split
  · cases h
  · rfl

theorem reports_lookFor (kinds : List ResourceKind) :
    (lookFor kinds : Duty σ).reports = false := by
  cases kinds <;> rfl

theorem reports_afterMachine {d : Duty σ} {m : Machine} (hd : d ∈ afterMachine m) :
    d.reports = false := by
  rcases mem_afterMachine hd with ⟨r, -, rfl⟩ | ⟨account, -, rfl⟩ | rfl <;> rfl

/-- What follows from a duty that is not to be reported is not either. -/
theorem Leads.reports {d : Duty σ} {a : Answer σ (d.call site)} {more : List (Duty σ)}
    (hleads : d.Leads site a more) (h : d.reports = false) : ∀ d' ∈ more, d'.reports = false := by
  intro d' hd'
  cases hleads with
  | machine => cases h
  | deletion =>
    obtain ⟨operation, -, -, rfl⟩ := mem_afterDeletion hd'
    exact h
  | groupDeletion =>
    obtain ⟨operation, -, -, rfl⟩ := mem_afterDeletion hd'
    rfl
  | inProgress =>
    obtain rfl := List.mem_singleton.mp hd'
    exact h
  | card =>
    rcases List.mem_cons.mp hd' with rfl | hd'
    · rfl
    · obtain ⟨n, -, rfl⟩ := mem_ofAddresses hd'
      rfl
  | keys | noImages =>
    obtain rfl := List.mem_singleton.mp hd'
    rfl
  | opened =>
    simp only [List.mem_cons, List.not_mem_nil, or_false] at hd'
    rcases hd' with rfl | rfl | rfl <;> rfl
  | @notFound kind later =>
    obtain rfl := List.mem_singleton.mp hd'
    exact reports_lookFor later
  | noMachine | terminal | noCard | noKeys | emptied | images | closed | found => cases hd'

end Duty

/-- Where no outcome is left to be reported, it stays whether the machine counts as deleted. -/
theorem deleted_of_runs {p : Plan σ} {log : List (Exchange (Service σ))} (h : p.Runs site log)
    (hreports : ∀ d ∈ p.duties, d.reports = false) : (p.afterAll log).deleted = p.deleted := by
  -- no answer is reported, because none of the duties that follow is to be reported either
  have hinv : (p.afterAll log).deleted = p.deleted ∧
      ∀ d ∈ (p.afterAll log).duties, d.reports = false := by
    apply h.induct (fun _ q => q.deleted = p.deleted ∧ ∀ d ∈ q.duties, d.reports = false)
      ⟨rfl, hreports⟩
    intro log q e hq hnext
    obtain ⟨hdeleted, hduties⟩ := hq
    obtain ⟨c, answer⟩ := e
    obtain ⟨d, rest, hd, rfl⟩ := Plan.duties_of_nextCall hnext
    have hfirst : d.reports = false := hduties d (hd ▸ List.mem_cons_self)
    rcases q.after_cases hd (d.call site) answer with hfail | ⟨a, more, rfl, hmore, hafter⟩
    · rw [hfail]
      refine ⟨hdeleted, ?_⟩
      intro d' hd'
      exact hduties d' (List.mem_of_mem_tail (List.mem_filter.mp hd').1)
    · rw [hafter]
      refine ⟨?_, ?_⟩
      · rw [Duty.reportsFailure_eq_false hfirst]
        exact hdeleted
      · intro d' hd'
        rcases List.mem_append.mp hd' with hd' | hd'
        · exact (Duty.leads hmore).reports hfirst d' hd'
        · exact hduties d' (hd ▸ List.mem_cons_of_mem d hd')
  exact hinv.1

theorem afterAll_settled {m : Machine} {answer : Except Failure Deletion}
    {looks : List (Exchange (Service σ))} {status : OperationStatus}
    (h : SettledBy answer looks status) :
    (Plan.start name).afterAll (fetched group name m :: askedToDelete group m answer :: looks) =
      afterSettling m status := by
  have hpresent : (Plan.start name : Plan σ).after (.plane (.getMachine group name))
      (some (.ok (some m))) = ⟨Duty.ofMachine m, true, false⟩ := Plan.after_fetchMachine
  change Plan.afterAll (Plan.after (Plan.after (.start name) _ _) _ _) looks = _
  rw [fetched, hpresent]
  cases h with
  | notFound hf => simp [Plan.after, Plan.afterAll, Duty.ofMachine, Duty.following, askedToDelete,
      ignoreNotFound, hf, Duty.afterDeletion, Duty.reportsFailure, afterSettling]
  | alreadyAbsent => rfl
  | deleted => rfl
  | @pending operation status n hterminal =>
    have hwaits (k : Nat) : Plan.afterAll
        (⟨.poll operation .reported :: Duty.afterMachine m, true, false⟩ : Plan σ)
        (List.replicate k (looked operation .inProgress)) =
          ⟨.poll operation .reported :: Duty.afterMachine m, true, false⟩ := by
      induction k with
      | zero => rfl
      | succ k ih => exact ih
    change Plan.afterAll
      (⟨.poll operation .reported :: Duty.afterMachine m, true, false⟩ : Plan σ) _ = _
    rw [Plan.afterAll_append, hwaits]
    cases status with
    | inProgress => cases hterminal
    | succeeded => rfl
    | failed => rfl

theorem SettledBy.terminal {answer : Except Failure Deletion} {looks : List (Exchange (Service σ))}
    {status : OperationStatus} (h : SettledBy answer looks status) : status.isTerminal = true := by
  cases h with
  | pending n hterminal => exact hterminal
  | _ => rfl

theorem laterStepsRan {m : Machine} {p : Plan σ} {rest : List (Exchange (Service σ))} {b : Bool}
    (hp : p.duties = Duty.afterMachine m) (hruns : p.Runs site rest)
    (hover : p.afterAll rest = ⟨[], b, false⟩) : LaterStepsRan site m p rest := by
  have hdone : ∀ d ∈ (Duty.afterMachine m : List (Duty σ)), ∃ e ∈ rest, e.call = d.call site := by
    intro d hd
    exact hruns.done (hp ▸ hd) (congrArg Plan.duties hover) (congrArg Plan.failed hover)
  refine ⟨hruns, ⟨congrArg Plan.duties hover, congrArg Plan.failed hover⟩, ?_, ?_, ?_⟩
  · intro r hr
    exact hdone _ (Duty.fetchCard_mem_afterMachine hr)
  · intro account haccount
    exact hdone _ (Duty.fetchKeys_mem_afterMachine haccount)
  · have hlook : (Duty.lookFor ResourceKind.tracked : Duty σ) ∈ Duty.afterMachine m :=
      List.mem_append_right _ (List.mem_append_right _ (List.mem_singleton_self _))
    exact hdone _ hlook

section

variable {s : TeardownSettings} {id : MachineId} {b : Bool} {log : List (Exchange (Service σ))}

/-- Once the deletion of the machine has settled its status is the result. -/
theorem SettledWith.result {m : Machine} {status : OperationStatus}
    {rest : List (Exchange (Service σ))}
    (h : SettledWith (siteOf s id).group id.name m status rest log)
    (hr : Reaches (Exchange.recording (Service σ)) (removeMachine s id).run [] (.done (.ok b))
      log) :
    b = (status == .succeeded) ∧ LaterStepsRan (siteOf s id) m (afterSettling m status) rest := by
  obtain ⟨answer, looks, hsettled, rfl⟩ := h
  have hruns := runs_of_reaches hr
  have hleft : (Plan.start id.name).afterAll _ = ⟨[], b, false⟩ := leaves_of_reaches hr
  rw [← List.cons_append, ← List.cons_append] at hruns hleft
  rw [Plan.afterAll_append_later, afterAll_settled hsettled] at hleft
  have hrest := hruns.of_append.2
  rw [afterAll_settled hsettled] at hrest
  refine ⟨?_, laterStepsRan rfl hrest hleft⟩
  have hdeleted := deleted_of_runs hrest fun d hd => Duty.reports_afterMachine hd
  rw [hleft] at hdeleted
  exact hdeleted

/-- A removal that gives a result has found no machine, or seen the end of its deletion. -/
theorem absent_or_settled
    (hr : Reaches (Exchange.recording (Service σ)) (removeMachine s id).run [] (.done (.ok b))
      log) :
    log = [notFetched (siteOf s id).group id.name] ∨
      ∃ m status rest, SettledWith (siteOf s id).group id.name m status rest log := by
  have hstage := stage_of_runs (runs_of_reaches hr)
  have hleft : (Plan.start id.name).afterAll log = ⟨[], b, false⟩ := leaves_of_reaches hr
  rw [hleft] at hstage
  generalize hp : (⟨[], b, false⟩ : Plan σ) = p at hstage
  -- at all other stages there is something left to do, or the removal has failed
  cases hstage with
  | start => cases congrArg Plan.duties hp
  | absent => exact .inl rfl
  | present m => cases congrArg Plan.duties hp
  | waiting m operation n => cases congrArg Plan.duties hp
  | settled h =>
    obtain ⟨m, answer, looks, status, rest, hsettled, hlog⟩ := h
    exact .inr ⟨m, status, rest, answer, looks, hsettled, hlog⟩
  | failed _ hfailed =>
    rw [← hp] at hfailed
    cases hfailed

theorem result_absent
    (hr : Reaches (Exchange.recording (Service σ)) (removeMachine s id).run [] (.done (.ok b))
      [notFetched (siteOf s id).group id.name]) : b = true := by
  have hleft : (Plan.start id.name).afterAll [notFetched (siteOf s id).group id.name] =
      (⟨[], b, false⟩ : Plan σ) := leaves_of_reaches hr
  exact (congrArg Plan.deleted hleft).symm

end

/-- A removal that gives a result gives that of the machine: `true` exactly if there was none, or if
its deletion has succeeded, and `false` exactly if that has failed. In both cases all that comes
after the machine was done, and nothing that was answered or waited for was a failure. -/
theorem result_of_machine {s : TeardownSettings} {text : String} {b : Bool} {h : History σ}
    (hr : Reaches (Event.recording (Timed (Service σ))) (remove s text).run [] (.done (.ok b)) h) :
    ∃ id, MachineId.decode text = .ok id ∧
      (b = true ↔ Event.exchanges h = [notFetched (siteOf s id).group id.name] ∨
        ∃ m rest, SettledWith (siteOf s id).group id.name m .succeeded rest (Event.exchanges h)) ∧
      (b = false ↔
        ∃ m rest, SettledWith (siteOf s id).group id.name m .failed rest (Event.exchanges h)) ∧
      (∀ m status rest, SettledWith (siteOf s id).group id.name m status rest (Event.exchanges h) →
        LaterStepsRan (siteOf s id) m (afterSettling m status) rest) ∧
      Clean s.wait.timeout h := by
  rcases reaches_remove hr with ⟨cause, -, hq, -⟩ | ⟨id, hid, hr⟩
  · cases hq
  have hclean : Clean s.wait.timeout h := (stops_removeMachine s id).reaches hr
  have hlog : Reaches (Exchange.recording (Service σ)) (removeMachine s id).run []
      (.done (.ok b)) (Event.exchanges h) := Event.reaches_exchanges hr
  have hstatus {m : Machine} {status : OperationStatus} {rest : List (Exchange (Service σ))}
      (hm : SettledWith (siteOf s id).group id.name m status rest (Event.exchanges h)) :
      b = (status == .succeeded) := (hm.result hlog).1
  refine ⟨id, hid, ⟨?_, ?_⟩, ⟨?_, ?_⟩, ?_, hclean⟩
  · intro hb
    rcases absent_or_settled hlog with habsent | ⟨m, status, rest, hm⟩
    · exact .inl habsent
    · have hsucceeded : status = .succeeded := by simpa [hb] using hstatus hm
      exact .inr ⟨m, rest, hsucceeded ▸ hm⟩
  · intro hwhy
    rcases hwhy with habsent | ⟨m, rest, hm⟩
    · rw [habsent] at hlog
      exact result_absent hlog
    · exact hstatus hm
  · intro hb
    rcases absent_or_settled hlog with habsent | ⟨m, status, rest, hm⟩
    · rw [habsent] at hlog
      cases hb.symm.trans (result_absent hlog)
    · have hterminal : status.isTerminal = true := by
        obtain ⟨answer, looks, hsettled, -⟩ := hm
        exact hsettled.terminal
      have hresult := hstatus hm
      rw [hb] at hresult
      cases status with
      | inProgress => cases hterminal
      | succeeded => cases hresult
      | failed => exact ⟨m, rest, hm⟩
  · intro ⟨m, rest, hm⟩
    exact hstatus hm
  · intro m status rest hm
    exact (hm.result hlog).2

/-- A machine that could not be deleted, in a group where another one is. -/
theorem result_of_machine_kept :
    let m : Machine := ⟨"", "m", "", .empty, [], none⟩
    let h : History Unit :=
      [⟨.act (.plane (.getMachine "armsweep-r" "m")), .ok (some m)⟩,
        ⟨.act (.plane (.delete .virtualMachine "armsweep-r" "m")), .ok (.pending "o")⟩,
        ⟨.stopRequested, false⟩,
        ⟨lookWithin "o" ({} : WaitSettings).timeout, .finished 0 (.ok .failed)⟩,
        ⟨.act (.plane (.list .virtualMachine "armsweep-r")), .ok ["other"]⟩]
    Reaches (Event.recording (Timed (Service Unit))) (remove {} "r/m").run []
        (.done (.ok false)) h ∧
      ∃ m rest, SettledWith "armsweep-r" "m" m .failed rest (Event.exchanges h) := by
  intro m h
  have hr : Reaches (Event.recording (Timed (Service Unit))) (remove {} "r/m").run []
      (.done (.ok false)) h := by
    rw [remove, decode_sampleId]
    refine Reaches.ask (a := .ok (some m)) rfl ?_
    refine Reaches.ask (a := .ok (.pending "o")) rfl ?_
    refine Reaches.ask (a := false) rfl ?_
    simp only
    rw [if_neg (by decide), within_checkOperation]
    refine Reaches.ask (a := Cut.finished 0 (Except.ok OperationStatus.failed)) rfl ?_
    refine Reaches.ask (a := .ok ["other"]) rfl ?_
    exact .refl
  obtain ⟨id, hid, -, hfalse, -⟩ := result_of_machine hr
  rw [decode_sampleId] at hid
  obtain rfl := Except.ok.inj hid
  exact ⟨hr, hfalse.mp rfl⟩

end Decommission.Teardown
