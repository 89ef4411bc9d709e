import Decommission.Proofs.Teardown.Order

/-!
The calls of a removal, in the order in which they are made: what fixes them, and what comes before
any deletion.
-/
namespace Decommission.Teardown

open Program

variable {σ : Type} {site : Site} {group name : String} {log : List (Exchange (Service σ))}

/-- Something is deleted by the call, at once or later. -/
def Call.deletes : Call σ → Bool
  | .plane (.delete ..) => true
  | .plane (.deleteGroup _) => true
  | .blob (.deleteContainer ..) => true
  | _ => false

/-- The call that found no machine. -/
def notFetched (group name : String) : Exchange (Service σ) :=
  ⟨.plane (.getMachine group name), some (.ok none)⟩

/-- The call that fetched a machine. -/
def fetched (group name : String) (m : Machine) : Exchange (Service σ) :=
  ⟨.plane (.getMachine group name), some (.ok (some m))⟩

/-- The call that asked for the deletion of a machine. -/
def askedToDelete (group : String) (m : Machine) (answer : Except Failure Deletion) :
    Exchange (Service σ) :=
  ⟨.plane (.delete .virtualMachine group m.name), some answer⟩

/-- The deletion of the machine has settled in the log. -/
def MachineSettled (group name : String) (log : List (Exchange (Service σ))) : Prop :=
  ∃ m answer looks status rest, SettledBy answer looks status ∧
    log = fetched group name m :: askedToDelete group m answer :: (looks ++ rest)

theorem MachineSettled.append (h : MachineSettled group name log) (e : Exchange (Service σ)) :
    MachineSettled group name (log ++ [e]) := by
  obtain ⟨m, answer, looks, status, rest, hsettled, rfl⟩ := h
  exact ⟨m, answer, looks, status, rest ++ [e], hsettled, by simp⟩

/-- How far a removal has come, up to the end of the machine's deletion. -/
inductive Stage (group name : String) : List (Exchange (Service σ)) → Plan σ → Prop where
  | start : Stage group name [] (.start name)
  | absent : Stage group name [notFetched group name] ⟨[], true, false⟩
  | present (m : Machine) :
    Stage group name [fetched group name m] ⟨Duty.ofMachine m, true, false⟩
  | waiting (m : Machine) (operation : String) (n : Nat) :
    Stage group name
      (fetched group name m :: askedToDelete group m (.ok (.pending operation)) ::
        List.replicate n (looked operation .inProgress))
      ⟨.poll operation .reported :: Duty.afterMachine m, true, false⟩
  | settled {log : List (Exchange (Service σ))} {p : Plan σ} (h : MachineSettled group name log) :
    Stage group name log p
  | failed {log : List (Exchange (Service σ))} {p : Plan σ} (h : p.duties = [])
    (hfailed : p.failed = true) : Stage group name log p

theorem MachineSettled.now {m : Machine} {answer : Except Failure Deletion}
    {status : OperationStatus} (h : SettledBy (σ := σ) answer [] status) :
    MachineSettled (σ := σ) group name [fetched group name m, askedToDelete group m answer] :=
  ⟨m, answer, [], status, [], h, rfl⟩

/-- The stage after the deletion of the machine was asked for. -/
theorem Stage.requested (m : Machine) (answer : Option (Except Failure Deletion)) :
    Stage (σ := σ) site.group name
      [fetched site.group name m, ⟨.plane (.delete .virtualMachine site.group m.name), answer⟩]
      (Plan.after ⟨Duty.ofMachine m, true, false⟩
        (.plane (.delete .virtualMachine site.group m.name)) answer) := by
  have hended := filter_isClose_afterMachine (σ := σ) m
  match answer with
  | none => exact .failed hended rfl
  | some (.ok .alreadyAbsent) => exact .settled (.now .alreadyAbsent)
  | some (.ok .deleted) => exact .settled (.now .deleted)
  | some (.ok (.pending operation)) => exact .waiting m operation 0
  | some (.error f) =>
    cases hf : f.isNotFound with
    | true => exact .settled (.now (.notFound hf))
    | false =>
      have hfail : Plan.after ⟨Duty.ofMachine m, true, false⟩
          (.plane (.delete .virtualMachine site.group m.name)) (some (.error f)) =
            (⟨Duty.ofMachine m, true, false⟩ : Plan σ).fail := by
        simp [Plan.after, Duty.ofMachine, Duty.following, ignoreNotFound, hf]
      rw [hfail]
      exact .failed hended rfl

/-- The stage after one more look at the pending deletion of the machine. -/
theorem Stage.waited (m : Machine) (operation : String) (n : Nat)
    (answer : Option (Except Failure OperationStatus)) :
    Stage (σ := σ) site.group name
      (fetched site.group name m :: askedToDelete site.group m (.ok (.pending operation)) ::
        List.replicate n (looked operation .inProgress) ++
          [⟨.plane (.operationStatus operation), answer⟩])
      (Plan.after ⟨.poll operation .reported :: Duty.afterMachine m, true, false⟩
        (.plane (.operationStatus operation)) answer) := by
  have hended := filter_isClose_afterMachine (σ := σ) m
  have hsettled (status : OperationStatus) (hstatus : status.isTerminal = true) :
      MachineSettled (σ := σ) site.group name
        (fetched site.group name m :: askedToDelete site.group m (.ok (.pending operation)) ::
          List.replicate n (looked operation .inProgress) ++ [looked operation status]) :=
    ⟨m, .ok (.pending operation), _, status, [], .pending n hstatus, by simp⟩
  match answer with
  | none => exact .failed hended rfl
  | some (.error f) => exact .failed hended rfl
  | some (.ok .succeeded) => exact .settled (hsettled .succeeded rfl)
  | some (.ok .failed) => exact .settled (hsettled .failed rfl)
  | some (.ok .inProgress) =>
    have hn : Stage site.group name _ _ := .waiting (σ := σ) m operation (n + 1)
    rw [List.replicate_succ'] at hn
    exact hn

theorem Stage.append {p : Plan σ} {e : Exchange (Service σ)} (h : Stage site.group name log p)
    (he : p.nextCall? site = some e.call) :
    Stage site.group name (log ++ [e]) (p.after e.call e.answer) := by
  obtain ⟨c, answer⟩ := e
  cases h with
  | start =>
    obtain rfl : c = .plane (.getMachine site.group name) := (Option.some.inj he).symm
    match answer with
    | none => exact .failed rfl rfl
    | some (.error f) => exact .failed rfl rfl
    | some (.ok none) => exact .absent
    | some (.ok (some m)) =>
      rw [Plan.start, Plan.after_fetchMachine]
      exact .present m
  | present m =>
    obtain rfl : c = .plane (.delete .virtualMachine site.group m.name) :=
      (Option.some.inj he).symm
    exact .requested m answer
  | waiting m operation n =>
    obtain rfl : c = .plane (.operationStatus operation) := (Option.some.inj he).symm
    exact .waited m operation n answer
  | absent => cases he
  | settled h => exact .settled (h.append _)
  | failed h => simp [Plan.nextCall?, h] at he

/-- A deletion is asked for only at these stages. -/
theorem Stage.deletes {p : Plan σ} {c : Call σ} (h : Stage site.group name log p)
    (hc : p.nextCall? site = some c) (hdeletes : c.deletes = true) :
    (∃ m, log = [fetched site.group name m] ∧
      c = .plane (.delete .virtualMachine site.group m.name)) ∨
    MachineSettled site.group name log := by
  cases h with
  | start =>
    obtain rfl := Option.some.inj hc
    cases hdeletes
  | present m => exact .inl ⟨m, rfl, (Option.some.inj hc).symm⟩
  | waiting m operation n =>
    obtain rfl := Option.some.inj hc
    cases hdeletes
  | absent => cases hc
  | settled h => exact .inr h
  | failed h => simp [Plan.nextCall?, h] at hc

theorem meets_removeMachine (s : TeardownSettings) (id : MachineId) :
    (removeMachine (σ := σ) s id).run.Meets (Exchange.recording (Service σ))
      (fun log => ((Plan.start id.name).afterAll log).Allows (siteOf s id))
      (fun result log => Leaves [] (fun deleted p => p = ⟨[], deleted, false⟩) result
        ((Plan.start id.name).afterAll log)) [] := by
  have hsim := Meets.simulate (F := Exchange.recording (Service σ))
    (t := []) (fun p log => p = (Plan.start id.name).afterAll log) ?_
    (follows_removeMachine (σ := σ) s id) rfl
  · refine hsim.mono ?_ ?_
    · rintro log c ⟨_, rfl, h⟩
      exact h
    · rintro result log ⟨_, rfl, h⟩
      exact h
  rintro _ log c answer log' - rfl h
  refine ⟨_, ?_, rfl⟩
  cases c with
  | act c =>
    obtain rfl := h
    exact Plan.afterAll_append
  | actWithin limit c =>
    obtain rfl := h
    exact Plan.afterAll_append
  | pause length => exact congrArg _ h
  | rest length => exact congrArg _ h
  | stopRequested => exact congrArg _ h
  | jitter bound => exact congrArg _ h

/-- Whatever is answered, the calls of a removal are those of its plan, all of them if the removal
succeeds, and nothing else is deleted before the deletion of the machine has settled. -/
theorem calls_follow_plan (s : TeardownSettings) (id : MachineId)
    {q : Task (Service σ) (Except Error Bool)}
    (hr : Reaches (Exchange.recording (Service σ)) (removeMachine s id).run [] q log) :
    Exchange.AllRight (fun before c =>
      ((Plan.start id.name).afterAll before).nextCall? (siteOf s id) = some c) log ∧
    (∀ deleted, q = .done (.ok deleted) →
      (Plan.start id.name).afterAll log = ⟨[], deleted, false⟩) ∧
    Exchange.AllRight (fun before (c : Call σ) => c.deletes = true →
      (∃ m, before = [fetched (siteOf s id).group id.name m] ∧
        c = .plane (.delete .virtualMachine (siteOf s id).group m.name)) ∨
      MachineSettled (siteOf s id).group id.name before) log := by
  have hm := meets_removeMachine (σ := σ) s id
  have hright : Exchange.AllRight (fun before c =>
      ((Plan.start id.name).afterAll before).nextCall? (siteOf s id) = some c) log :=
    Exchange.allRight_of_meets (fun _ _ h => h.1) (fun _ _ _ h => h.1) hm hr
  refine ⟨hright, ?_, ?_⟩
  · rintro deleted rfl
    exact hm.reaches hr
  · -- each log that comes before a call is at the stage of its plan
    intro before e after hlog hdeletes
    refine Stage.deletes ?_ (hright before e after hlog) hdeletes
    have hbefore := Exchange.AllRight.of_append (hlog ▸ hright)
    refine hbefore.induct (fun log => Stage _ _ log ((Plan.start id.name).afterAll log))
      .start fun log e he hstage => ?_
    have hnext := hstage.append he
    rwa [← Plan.afterAll_append] at hnext

/-- A machine with one network card and one public address, in a group where another machine is. -/
theorem calls_follow_plan_one_card :
    let id : MachineId := ⟨"r", "m", by decide, by decide⟩
    let m : Machine := ⟨"", "m", "", .empty, [⟨"n"⟩], none⟩
    let card : NetworkCard := ⟨"", "n", [⟨"c", none⟩, ⟨"d", some ⟨"a"⟩⟩]⟩
    let group := (siteOf {} id).group
    let log : List (Exchange (Service Unit)) :=
      [fetched group "m" m, askedToDelete group m (.ok .deleted),
        ⟨.plane (.getNetworkCard group (Reference.name ⟨"n"⟩)), some (.ok (some card))⟩,
        ⟨.plane (.delete .networkInterface group (Reference.name ⟨"n"⟩)), some (.ok .deleted)⟩,
        ⟨.plane (.delete .publicAddress group (Reference.name ⟨"a"⟩)), some (.ok (.pending "o"))⟩,
        ⟨.plane (.list .virtualMachine group), some (.ok ["other"])⟩]
    Reaches (Exchange.recording (Service Unit)) (removeMachine {} id).run []
        (.done (.ok true)) log ∧
      (Plan.start id.name).afterAll log = ⟨[], true, false⟩ := by
  intro id m card group log
  have hr : Reaches (Exchange.recording (Service Unit)) (removeMachine {} id).run []
      (.done (.ok true)) log := by
    refine Reaches.ask (a := .ok (some m)) rfl ?_
    refine Reaches.ask (a := .ok .deleted) rfl ?_
    refine Reaches.ask (a := .ok (some card)) rfl ?_
    refine Reaches.ask (a := .ok .deleted) rfl ?_
    refine Reaches.ask (a := .ok (.pending "o")) rfl ?_
    refine Reaches.ask (a := .ok ["other"]) rfl ?_
    exact .refl
  exact ⟨hr, (calls_follow_plan {} id hr).2.1 true rfl⟩

end Decommission.Teardown
