import Decommission.Proofs.Program.Transcript
import Decommission.Proofs.Teardown.FirstFailure

/-!
Which deletion a removal waits for: the one that was asked for last, while all looks at it since
have found it in progress.
-/
namespace Decommission.Teardown

open Program

variable {σ : Type} {site : Site} {operation : String} {log : List (Exchange (Service σ))}

/-- A deletion of a machine, of a network card or of a group that can be followed at `operation`. -/
inductive AskedFor (operation : String) : Exchange (Service σ) → Prop where
  | machine {group name : String} : AskedFor operation
    ⟨.plane (.delete .virtualMachine group name), some (.ok (.pending operation))⟩
  | card {group name : String} : AskedFor operation
    ⟨.plane (.delete .networkInterface group name), some (.ok (.pending operation))⟩
  | group {group : String} : AskedFor operation
    ⟨.plane (.deleteGroup group), some (.ok (.pending operation))⟩

/-- The last deletion was such a one, and nothing but looks in progress came after it. -/
def Pending (operation : String) (log : List (Exchange (Service σ))) : Prop :=
  ∃ earlier deletion looks, log = earlier ++ deletion :: looks ∧ AskedFor operation deletion ∧
    ∀ e ∈ looks, e = looked operation .inProgress

theorem AskedFor.pending {deletion : Exchange (Service σ)} (h : AskedFor operation deletion) :
    Pending operation (log ++ [deletion]) := by
  refine ⟨log, deletion, [], rfl, h, ?_⟩
  intro e he
  cases he

theorem Pending.append (h : Pending operation log) :
    Pending operation (log ++ [looked operation .inProgress]) := by
  obtain ⟨earlier, deletion, looks, rfl, hdeletion, hlooks⟩ := h
  refine ⟨earlier, deletion, looks ++ [looked operation .inProgress], by simp, hdeletion, ?_⟩
  intro e he
  rcases List.mem_append.mp he with he | he
  · exact hlooks e he
  · exact List.mem_singleton.mp he

theorem Pending.last (h : Pending operation log) : ∃ before e, log = before ++ [e] ∧
    (AskedFor operation e ∨ e = looked operation .inProgress) := by
  obtain ⟨earlier, deletion, looks, rfl, hdeletion, hlooks⟩ := h
  rcases List.eq_nil_or_concat looks with rfl | ⟨looks, e, rfl⟩
  · exact ⟨earlier, deletion, rfl, .inl hdeletion⟩
  · refine ⟨earlier ++ deletion :: looks, e, by simp, .inr (hlooks e ?_)⟩
    simp

namespace Duty

/-- Deletions of machines and cards are watched, those of addresses and accounts are not, and only
watched deletions are looked at. -/
def IsCared : Duty σ → Prop
  | delete kind _ care =>
    (kind = .virtualMachine ∨ kind = .networkInterface) ↔ care ≠ .unwatched
  | poll _ care => care ≠ .unwatched
  | _ => True

/-- No look, and a deletion only if it is watched as it should be. -/
def IsPlain (d : Duty σ) : Prop := d.IsCared ∧ d.isPoll = false

theorem isPlain_lookFor (kinds : List ResourceKind) : (lookFor kinds : Duty σ).IsPlain := by
  cases kinds <;> exact ⟨trivial, rfl⟩

theorem isPlain_afterMachine {d : Duty σ} {m : Machine} (hd : d ∈ afterMachine m) : d.IsPlain := by
  rcases mem_afterMachine hd with ⟨r, -, rfl⟩ | ⟨account, -, rfl⟩ | rfl
  · exact ⟨trivial, rfl⟩
  · exact ⟨trivial, rfl⟩
  · exact isPlain_lookFor _

theorem isPlain_ofMachine {d : Duty σ} {m : Machine} (hd : d ∈ ofMachine m) : d.IsPlain := by
  rcases List.mem_cons.mp hd with rfl | hd
  · exact ⟨by simp [IsCared], rfl⟩
  · exact isPlain_afterMachine hd

theorem isPlain_ofCard {d : Duty σ} {name : String} {card : NetworkCard}
    (hd : d ∈ ofCard name card) : d.IsPlain := by
  rcases List.mem_cons.mp hd with rfl | hd
  · exact ⟨by simp [IsCared], rfl⟩
  · obtain ⟨address, -, rfl⟩ := mem_ofAddresses hd
    exact ⟨by simp [IsCared], rfl⟩

/-- What is left to do for a deletion is one look or nothing. -/
theorem afterDeletion_cases (care : Care) (deletion : Option Deletion) :
    (afterDeletion care (deletion.getD .alreadyAbsent) : List (Duty σ)) = [] ∨
      ∃ operation, deletion = some (.pending operation) ∧ care ≠ .unwatched ∧
        (afterDeletion care (deletion.getD .alreadyAbsent) : List (Duty σ)) =
          [.poll operation care] := by
  match deletion with
  | none => exact .inl rfl
  | some .alreadyAbsent => exact .inl rfl
  | some .deleted => exact .inl rfl
  | some (.pending operation) =>
    by_cases hcare : care = .unwatched
    · exact .inl (if_pos hcare)
    · exact .inr ⟨operation, rfl, hcare, if_neg hcare⟩

/-- Of a duty that is watched as it should be come plain duties, or one look at the operation that
the answer named or found in progress. -/
theorem Leads.cared {d : Duty σ} {a : Answer σ (d.call site)} {more : List (Duty σ)}
    (h : d.Leads site a more) (hd : d.IsCared) :
    (∀ d' ∈ more, d'.IsPlain) ∨ ∃ operation care, more = [.poll operation care] ∧
      care ≠ .unwatched ∧ (AskedFor operation ⟨d.call site, some a⟩ ∨
        d = .poll operation care ∧
          (⟨d.call site, some a⟩ : Exchange (Service σ)) = looked operation .inProgress) := by
  cases h with
  | noMachine | terminal | noCard | noKeys | emptied | images | closed | found => exact .inl nofun
  | machine => exact .inl fun d' hd' => isPlain_ofMachine hd'
  | card => exact .inl fun d' hd' => isPlain_ofCard hd'
  | keys | opened | noImages => exact .inl (by simp [IsPlain, IsCared, isPoll])
  | notFound =>
    left
    intro d' hd'
    rw [List.mem_singleton.mp hd']
    exact isPlain_lookFor _
  | inProgress => exact .inr ⟨_, _, rfl, hd, .inr ⟨rfl, rfl⟩⟩
  | @deletion kind n care answer deletion hanswer =>
    rcases afterDeletion_cases (σ := σ) care deletion with hnone | ⟨operation, rfl, hcare, hpoll⟩
    · rw [hnone]
      exact .inl nofun
    · obtain rfl := ignoreNotFound_eq_some hanswer
      refine .inr ⟨operation, care, hpoll, hcare, .inl ?_⟩
      rcases hd.mpr hcare with rfl | rfl
      · exact .machine
      · exact .card
  | @groupDeletion answer deletion hanswer =>
    rcases afterDeletion_cases (σ := σ) .required deletion with
      hnone | ⟨operation, rfl, hcare, hpoll⟩
    · rw [hnone]
      exact .inl nofun
    · obtain rfl := ignoreNotFound_eq_some hanswer
      exact .inr ⟨operation, .required, hpoll, hcare, .inl .group⟩

end Duty

namespace Plan

variable {p : Plan σ}

/-- A look comes first among the duties or not at all, and then a deletion is pending at its
operation. -/
structure Watches (log : List (Exchange (Service σ))) (p : Plan σ) : Prop where
  first : ∀ d ∈ p.duties.head?, d.IsCared ∧
    ∀ operation care, d = .poll operation care → Pending operation log
  others : ∀ d ∈ p.duties.tail, d.IsPlain

theorem Watches.start (name : String) : Watches (σ := σ) [] (.start name) where
  first := by
    rintro d hd
    obtain rfl := Option.some.inj hd
    exact ⟨trivial, nofun⟩
  others := nofun

/-- Duties that are all plain. -/
theorem watches_of_plain (h : ∀ d ∈ p.duties, d.IsPlain) : p.Watches log where
  first d hd := by
    obtain ⟨hcared, hpoll⟩ := h d (List.mem_of_mem_head? hd)
    refine ⟨hcared, ?_⟩
    rintro operation care rfl
    cases hpoll
  others d hd := h d (List.mem_of_mem_tail hd)

theorem Watches.append (h : p.Watches log) {e : Exchange (Service σ)}
    (hnext : p.nextCall? site = some e.call) :
    (p.after e.call e.answer).Watches (log ++ [e]) := by
  obtain ⟨c, answer⟩ := e
  obtain ⟨d, rest, hd, rfl⟩ := duties_of_nextCall hnext
  have hrest : ∀ d' ∈ rest, d'.IsPlain := by
    intro d' hd'
    exact h.others d' (by rw [hd]; exact hd')
  obtain ⟨hcared, hpending⟩ := h.first d (by rw [hd]; rfl)
  rcases p.after_cases hd (d.call site) answer with hfail | ⟨a, more, rfl, hmore, hafter⟩
  · rw [hfail]
    apply watches_of_plain
    intro d' hd'
    rw [fail, hd] at hd'
    exact hrest d' (List.mem_filter.mp hd').1
  rw [hafter]
  rcases (Duty.leads hmore).cared hcared with hplain | ⟨operation, care, rfl, hcare, hlook⟩
  · apply watches_of_plain
    intro d' hd'
    rcases List.mem_append.mp hd' with hd' | hd'
    · exact hplain d' hd'
    · exact hrest d' hd'
  -- the operation was named by the answer, or is the one that was looked at
  have hnow : Pending operation (log ++ [⟨d.call site, some a⟩]) := by
    rcases hlook with hasked | ⟨hpoll, hlooked⟩
    · exact hasked.pending
    · rw [hlooked]
      exact (hpending operation care hpoll).append
  refine ⟨?_, hrest⟩
  intro d' hd'
  obtain rfl := Option.some.inj hd'
  refine ⟨hcare, ?_⟩
  rintro _ _ ⟨⟩
  exact hnow

/-- The first thing to do is to look at this operation. -/
def LooksAt (operation : String) (p : Plan σ) : Prop :=
  ∃ care rest, p.duties = .poll operation care :: rest

theorem LooksAt.after (h : p.LooksAt operation) :
    (p.after (.plane (.operationStatus operation)) (some (.ok .inProgress))).LooksAt operation := by
  obtain ⟨care, rest, hduties⟩ := h
  refine ⟨care, rest, ?_⟩
  obtain ⟨duties, deleted, failed⟩ := p
  obtain rfl : duties = .poll operation care :: rest := hduties
  rfl

theorem LooksAt.afterAll {looks : List (Exchange (Service σ))} (h : p.LooksAt operation)
    (hlooks : ∀ e ∈ looks, e = looked operation .inProgress) :
    (p.afterAll looks).LooksAt operation := by
  induction looks generalizing p with
  | nil => exact h
  | cons e looks ih =>
    obtain rfl := hlooks e List.mem_cons_self
    exact ih h.after fun e he => hlooks e (List.mem_cons_of_mem _ he)

theorem LooksAt.nextCall (h : p.LooksAt operation) :
    p.nextCall? site = some (.plane (.operationStatus operation)) := by
  obtain ⟨care, rest, hduties⟩ := h
  rw [nextCall?, hduties]
  rfl

/-- A call that the plan allows is its next one, if it is a call to the services. -/
theorem Allows.nextCall {c : Timed.Call (Service σ)} {x : Call σ} (h : p.Allows site c)
    (hx : c.act? = some x) : p.nextCall? site = some x := by
  cases c with
  | act x' | actWithin limit x' =>
    rw [← hx]
    exact h.1
  | pause length | rest length | stopRequested | jitter bound => cases hx

end Plan

section

variable {settings : TeardownSettings} {id : MachineId} {h : History σ}

end

end Decommission.Teardown
