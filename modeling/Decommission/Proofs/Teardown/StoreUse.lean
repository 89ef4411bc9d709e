import Decommission.Proofs.Teardown.Storage
import Mathlib.Data.List.Basic

/-!
A removal opens at most one store, with the first key of its account, and closes it exactly once:
after its last use, and before anything is looked for in the group.
-/
namespace Decommission.Teardown

open Program

variable {σ : Type} {group account : String} {keys : StorageKeys} {store : σ}
  {log : List (Exchange (Service σ))} {e : Exchange (Service σ)}

/-- At its end a removal has made such a use of stores. -/
theorem storeUse_of_reaches {s : TeardownSettings} {text : String} {result : Except Error Bool}
    (hr : Reaches (Exchange.recording (Service σ)) (remove s text).run [] (.done result) log) :
    ∃ group, StoreUse group log := by
  rcases reaches_remove hr with ⟨_, -, -, rfl⟩ | ⟨id, -, hr⟩
  · exact ⟨"", .none (List.forall_mem_nil _)⟩
  refine ⟨(siteOf s id).group, ?_⟩
  have hstage : StoreStage (siteOf s id) log ((Plan.start id.name).afterAll log) := by
    apply (runs_of_reaches hr).induct (StoreStage (siteOf s id)) .start
    intro log p e hstage hnext
    exact hstage.append hnext
  -- at the end nothing is left to do, or a deletion is waited for
  have hend : ∀ d rest, ((Plan.start id.name).afterAll log).duties = d :: rest →
      ∃ operation care, d = .poll operation care := by
    intro d rest hd
    have hleft := leaves_of_reaches hr
    match result, hleft with
    | .ok b, hleft =>
      rw [hleft] at hd
      cases hd
    | .error e, .inl ⟨_, hnone⟩ =>
      rw [hnone] at hd
      cases hd
    | .error e, .inr ⟨_, operation, care, rest', hwaits⟩ =>
      rw [hwaits] at hd
      exact ⟨operation, care, (List.cons.inj hd).1.symm⟩
  generalize (Plan.start id.name).afterAll log = p at hstage hend
  -- so no store is still to be opened or closed
  cases hstage with
  | start => exact .none (List.forall_mem_nil _)
  | early hlog => exact .none hlog.late
  | keys _ hp =>
    obtain ⟨operation, care, hpoll⟩ := hend _ _ hp
    cases hpoll
  | @inUse _ _ _ _ _ _ todo _ _ _ hp htodo =>
    match todo, hp, htodo with
    | [], hp, _ =>
      obtain ⟨operation, care, hpoll⟩ := hend _ _ hp
      cases hpoll
    | d :: todo, hp, htodo =>
      obtain ⟨operation, care, rfl⟩ := hend _ _ hp
      cases htodo _ List.mem_cons_self
  | past h => exact h

theorem opens_of_late (h : IsLate log) : ∀ e ∈ log, e.call.opens = false :=
  fun e he => Call.opens_eq_false (h e he)

/-- All that may open a store is the one call after the keys of its account. -/
inductive OpensOnce : List (Exchange (Service σ)) → Prop where
  | none {log : List (Exchange (Service σ))} (h : ∀ e ∈ log, e.call.opens = false) : OpensOnce log
  | one {before after : List (Exchange (Service σ))} {group account : String} {keys : StorageKeys}
    {answer : Option (Except Failure σ)} (hbefore : ∀ e ∈ before, e.call.opens = false)
    (hafter : ∀ e ∈ after, e.call.opens = false) :
    OpensOnce (before ++ keysFetched group account keys ::
      ⟨.blob (.openStore account keys.key1), answer⟩ :: after)

theorem opens_of_closed {uses later : List (Exchange (Service σ))} {store : σ}
    {answer : Option Unit} (huses : IsUse uses) (hlater : IsLate later) :
    ∀ e ∈ uses ++ ⟨.blob (.close store), answer⟩ :: later, e.call.opens = false := by
  intro e he
  rcases List.mem_append.mp he with he | he
  · exact (huses e he).1
  rcases List.mem_cons.mp he with rfl | he
  · rfl
  · exact opens_of_late hlater e he

theorem StoreUse.opensOnce (h : StoreUse group log) : OpensOnce log := by
  cases h with
  | none h => exact .none (opens_of_late h)
  | refused hbefore _ hlater => exact .one (opens_of_late hbefore.late) (opens_of_late hlater)
  | closed hbefore huses hlater =>
    exact .one (opens_of_late hbefore.late) (opens_of_closed huses hlater)

theorem opens_keysFetched {before : List (Exchange (Service σ))}
    (h : ∀ e ∈ before, e.call.opens = false) :
    ∀ e ∈ before ++ [keysFetched group account keys], e.call.opens = false :=
  List.forall_mem_append.mpr ⟨h, List.forall_mem_singleton.mpr rfl⟩

theorem OpensOnce.countP_le (h : OpensOnce log) : (log.countP fun e => e.call.opens) ≤ 1 := by
  have hzero {l : List (Exchange (Service σ))} (hl : ∀ e ∈ l, e.call.opens = false) :
      (l.countP fun e => e.call.opens) = 0 := by
    apply List.countP_eq_zero.mpr
    intro e he
    rw [hl e he]
    exact Bool.false_ne_true
  cases h with
  | none h =>
    rw [hzero h]
    exact Nat.zero_le 1
  | one hbefore hafter =>
    apply Nat.le_of_eq
    rw [List.append_cons, List.countP_append, hzero (opens_keysFetched hbefore),
      List.countP_cons_of_pos rfl, hzero hafter]

/-- A log in which one call may open a store is split there in one way only. -/
theorem split_opens {before after earlier later : List (Exchange (Service σ))}
    {x : Exchange (Service σ)} (hearlier : ∀ y ∈ earlier, y.call.opens = false)
    (hlater : ∀ y ∈ later, y.call.opens = false) (hopens : e.call.opens = true)
    (hlog : earlier ++ x :: later = before ++ e :: after) :
    earlier = before ∧ x = e ∧ later = after := by
  have hnot {l : List (Exchange (Service σ))} (hl : ∀ y ∈ l, y.call.opens = false) : e ∉ l := by
    intro he
    rw [hl e he] at hopens
    cases hopens
  exact (List.append_cons_inj_of_notMem (hnot hearlier) (hnot hlater)).mp hlog

theorem OpensOnce.key {before after : List (Exchange (Service σ))} {account key : String}
    (h : OpensOnce log) (hlog : log = before ++ e :: after)
    (he : e.call = .blob (.openStore account key)) :
    ∃ earlier group keys, before = earlier ++ [keysFetched group account keys] ∧
      key = keys.key1 := by
  have hopens : e.call.opens = true := by
    rw [he]
    rfl
  cases h with
  | none h =>
    have hmem : e ∈ log := by simp [hlog]
    rw [h e hmem] at hopens
    cases hopens
  | @one earlier later group account' keys answer hearlier hlater =>
    rw [List.append_cons] at hlog
    obtain ⟨rfl, rfl, -⟩ := split_opens (opens_keysFetched hearlier) hlater hopens hlog
    obtain ⟨rfl, rfl⟩ : account' = account ∧ keys.key1 = key := by simpa using he
    exact ⟨earlier, group, keys, rfl, rfl⟩

/-- A store that was opened is closed later, once, before anything is looked for, and not called
again. -/
theorem StoreUse.closed_after {before after : List (Exchange (Service σ))} {account key : String}
    {store : σ} (h : StoreUse group log)
    (hlog : log = before ++ ⟨.blob (.openStore account key), some (.ok store)⟩ :: after) :
    ∃ uses e later, after = uses ++ e :: later ∧ e.call = .blob (.close store) ∧
      (∀ x ∈ before ++ uses, x.call.closes = false ∧ x.call.lists = false) ∧
      ∀ x ∈ later, x.call.isBlob = false := by
  cases h with
  | none h =>
    have hblob := h ⟨.blob (.openStore account key), some (.ok store)⟩ (by simp [hlog])
    cases hblob
  | @refused earlier later account' keys answer hearlier hanswer hlater =>
    rw [List.append_cons] at hlog
    obtain ⟨-, he, -⟩ := split_opens (opens_keysFetched (opens_of_late hearlier.late))
      (opens_of_late hlater) rfl hlog
    cases he
    exact absurd rfl (hanswer store)
  | @closed earlier uses later account' keys store' answer hearlier huses hlater =>
    rw [openedAfter, List.append_cons] at hlog
    obtain ⟨rfl, he, rfl⟩ := split_opens (opens_keysFetched (opens_of_late hearlier.late))
      (opens_of_closed huses hlater) rfl hlog
    cases he
    refine ⟨uses, _, later, rfl, rfl, ?_, hlater⟩
    intro x hx
    rcases List.mem_append.mp hx with hx | hx
    · rcases List.mem_append.mp hx with hx | hx
      · exact ⟨Call.closes_eq_false (hearlier x hx).1, (hearlier x hx).2⟩
      · obtain rfl := List.mem_singleton.mp hx
        exact ⟨rfl, rfl⟩
    · exact (huses x hx).2

/-- What is closed was opened. -/
theorem StoreUse.opened_before (h : StoreUse group log) (he : e ∈ log)
    (hcall : e.call = .blob (.close store)) :
    ∃ account key, ⟨.blob (.openStore account key), some (.ok store)⟩ ∈ log := by
  have hcloses : e.call.closes = true := by
    rw [hcall]
    rfl
  have hlate {l : List (Exchange (Service σ))} (hl : IsLate l) : e ∉ l := by
    intro hmem
    rw [Call.closes_eq_false (hl e hmem)] at hcloses
    cases hcloses
  cases h with
  | none h => exact absurd he (hlate h)
  | @refused before later account keys answer hbefore hanswer hlater =>
    rcases List.mem_append.mp he with he | he
    · exact absurd he (hlate hbefore.late)
    simp only [List.mem_cons] at he
    rcases he with rfl | rfl | he
    · cases hcall
    · cases hcall
    · exact absurd he (hlate hlater)
  | @closed before uses later account keys store' answer hbefore huses hlater =>
    rcases List.mem_append.mp he with he' | he'
    · exact absurd he' (hlate hbefore.late)
    simp only [List.mem_cons, List.mem_append] at he'
    rcases he' with rfl | rfl | he' | rfl | he'
    · cases hcall
    · cases hcall
    · rw [(huses e he').2.1] at hcloses
      cases hcloses
    · cases hcall
      exact ⟨account, keys.key1, by simp [openedAfter, opened]⟩
    · exact absurd he' (hlate hlater)

/-- However a removal ends, it asks at most once for a store, with the first key of the account,
whose keys it has just fetched. A store that it was given it closes exactly once, after all its uses
and before anything is looked for in the group, and it closes no other. -/
theorem store_closed_once {s : TeardownSettings} {text : String} {result : Except Error Bool}
    (hr : Reaches (Exchange.recording (Service σ)) (remove s text).run [] (.done result) log) :
    (log.countP fun e => e.call.opens) ≤ 1 ∧
    Exchange.AllRight (fun before (c : Call σ) => ∀ account key,
      c = .blob (.openStore account key) → ∃ earlier group keys,
        before = earlier ++ [keysFetched group account keys] ∧ key = keys.key1) log ∧
    (∀ before account key store after,
      log = before ++ ⟨.blob (.openStore account key), some (.ok store)⟩ :: after →
        ∃ uses e later, after = uses ++ e :: later ∧ e.call = .blob (.close store) ∧
          (∀ x ∈ before ++ uses, x.call.closes = false ∧ x.call.lists = false) ∧
          ∀ x ∈ later, x.call.isBlob = false) ∧
    (∀ e ∈ log, ∀ store, e.call = .blob (.close store) →
      ∃ account key, ⟨.blob (.openStore account key), some (.ok store)⟩ ∈ log) := by
  obtain ⟨group, huse⟩ := storeUse_of_reaches hr
  have honce := huse.opensOnce
  refine ⟨honce.countP_le, ?_, ?_, ?_⟩
  · intro before e after hlog account key hcall
    exact honce.key hlog hcall
  · intro before account key store after hlog
    exact huse.closed_after hlog
  · intro e he store hcall
    exact huse.opened_before he hcall

/-- The disks could not be deleted, and the store was closed all the same. -/
theorem store_closed_once_container :
    let f : Failure := .of (.plain "down")
    let before : List (Exchange (Service Unit)) :=
      [fetched "armsweep-r" "m" diskMachine, askedToDelete "armsweep-r" diskMachine (.ok .deleted),
        keysFetched "armsweep-r" "a" ⟨"k", "l"⟩]
    let after : List (Exchange (Service Unit)) :=
      [⟨.blob (.deleteContainer () "vhds"), some (.error f)⟩, ⟨.blob (.close ()), some ()⟩]
    Reaches (Exchange.recording (Service Unit)) (remove {} "r/m").run []
        (.done (.error (.storage "a" .deletingContainer f)))
        (before ++ ⟨.blob (.openStore "a" "k"), some (.ok ())⟩ :: after) ∧
      ∃ uses e later, after = uses ++ e :: later ∧ e.call = .blob (.close ()) ∧
        ∀ x ∈ before ++ uses, x.call.closes = false ∧ x.call.lists = false := by
  intro f before after
  have hr : Reaches (Exchange.recording (Service Unit)) (remove {} "r/m").run []
      (.done (.error (.storage "a" .deletingContainer f)))
      (before ++ ⟨.blob (.openStore "a" "k"), some (.ok ())⟩ :: after) := by
    rw [remove, decode_sampleId]
    refine Reaches.ask (a := .ok (some diskMachine)) rfl ?_
    refine Reaches.ask (a := .ok .deleted) rfl ?_
    refine Reaches.ask (a := .ok (some ⟨"k", "l"⟩)) rfl ?_
    refine Reaches.ask (a := .ok ()) rfl ?_
    refine Reaches.ask (a := .error f) rfl ?_
    refine Reaches.ask (a := ()) rfl ?_
    exact .refl
  obtain ⟨uses, e, later, hafter, he, huses, -⟩ :=
    (store_closed_once hr).2.2.1 before "a" "k" () after rfl
  exact ⟨hr, uses, e, later, hafter, he, huses⟩

end Decommission.Teardown
