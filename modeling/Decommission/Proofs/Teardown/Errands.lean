import Decommission.Proofs.ControlPlane.Operations
import Decommission.Proofs.Teardown.Awaited
import Decommission.Teardown.OverHttp

/-!
The calls of a removal over HTTP, each with the requests by which it is carried out: which deletion
is looked at, at which address, and until when.
-/
namespace Decommission.Teardown

open Program
open Http (Transport Reply)
open ControlPlane (Connection)

/-- A call of a removal, and what was done over HTTP to carry it out. -/
abbrev Errand : Type := Part Transport (Service Blob.Client)

section

variable {σ : Type} {operation : String}

/-- The control plane is asked to delete something. -/
def Call.asksToDelete : Call σ → Bool
  | .plane (.delete ..) => true
  | .plane (.deleteGroup _) => true
  | _ => false

/-- The deletion of a machine, of a network card or of a group. Only these are waited for. -/
def Call.isAwaited : Call σ → Bool
  | .plane (.delete .virtualMachine ..) => true
  | .plane (.delete .networkInterface ..) => true
  | .plane (.deleteGroup _) => true
  | _ => false

theorem Call.asksToDelete_of_isAwaited {c : Call σ} (h : c.isAwaited = true) :
    c.asksToDelete = true := by
  cases c with
  | plane call =>
    cases call with
    | delete | deleteGroup => rfl
    | _ => cases h
  | blob call => cases h

theorem AskedFor.isAwaited {x : Exchange (Service σ)} (h : AskedFor operation x) :
    x.call.isAwaited = true := by
  cases h <;> rfl

end

/-- The errand asks the control plane to delete something. -/
def AsksToDelete (e : Errand) : Prop := ∃ c, e.call.act? = some c ∧ c.asksToDelete = true

/-- No deletion was asked for after this one, and `later` is what came after it. -/
def LastDeletion (errands : List Errand) (deletion : Errand) (later : List Errand) : Prop :=
  ∃ earlier, errands = earlier ++ deletion :: later ∧ AsksToDelete deletion ∧
    ∀ e ∈ later, ¬AsksToDelete e

/-- A machine, a network card or a group was to be deleted, and the last reply to that accepted it
and pointed to the operation. -/
def AcceptedAt (operation : String) (deletion : Errand) : Prop :=
  ∃ c r, deletion.call.act? = some c ∧ c.isAwaited = true ∧
    ControlPlane.lastReply? deletion.history = some r ∧ r.status = 202 ∧ r.PointsTo operation

/-- Only time goes by, or the operation is looked at and found in progress. -/
def KeepsWaiting (operation : String) (e : Errand) : Prop :=
  e.call.act? = none ∨ e.exchange? = some (looked operation .inProgress)

/-- The last deletion was accepted at the operation, and is waited for since then. -/
def Followed (operation : String) (errands : List Errand) : Prop :=
  ∃ deletion later, LastDeletion errands deletion later ∧ AcceptedAt operation deletion ∧
    ∀ e ∈ later, KeepsWaiting operation e

section

variable {s : Services} {operation : String} {e : Errand} {errands : List Errand}

theorem LastDeletion.unique {deletion deletion' : Errand} {later later' : List Errand}
    (h : LastDeletion errands deletion later) (h' : LastDeletion errands deletion' later') :
    deletion = deletion' := by
  obtain ⟨earlier, rfl, hasks, hlater⟩ := h
  obtain ⟨earlier', hsplit, hasks', hlater'⟩ := h'
  -- if the one came before the other, it would not be the last
  rcases List.append_eq_append_iff.mp hsplit with ⟨_ | ⟨x, between⟩, -, hrest⟩ |
    ⟨_ | ⟨x, between⟩, -, hrest⟩
  · exact (List.cons.inj hrest).1
  · obtain ⟨-, rfl⟩ := List.cons.inj hrest
    exact absurd hasks' (hlater deletion' (by simp))
  · exact (List.cons.inj hrest).1.symm
  · obtain ⟨-, rfl⟩ := List.cons.inj hrest
    exact absurd hasks (hlater' deletion (by simp))

/-- The errand was carried out to its end, and if it had a limit it was no deletion. -/
structure Completed (s : Services) (e : Errand) : Prop where
  carried : ∃ a, e.answer = some a ∧ (Task.carry s.carryOut e.call).Along e.history (.done a)
  unlimited : ∀ limit c, e.call = .actWithin limit c → c.asksToDelete = false

theorem Completed.acceptedAt_iff (h : Completed s e) :
    AcceptedAt operation e ↔ ∃ x, e.exchange? = some x ∧ AskedFor operation x := by
  by_cases hawaited : ∃ c, e.call.act? = some c ∧ c.isAwaited = true
  · obtain ⟨c, hc, hawaited⟩ := hawaited
    obtain ⟨call, history, answer⟩ := e
    -- a deletion is asked for without a limit, so that its last reply is the last event
    cases call with
    | pause length | rest length | stopRequested | jitter bound => cases hc
    | actWithin limit c' =>
      obtain rfl := Option.some.inj hc
      have hasks : c'.asksToDelete = false := h.unlimited limit c' rfl
      rw [Call.asksToDelete_of_isAwaited hawaited] at hasks
      cases hasks
    | act c' =>
      obtain rfl := Option.some.inj hc
      obtain ⟨(a : Answer Blob.Client c'), ha, halong⟩ := h.carried
      obtain rfl : answer = some a := ha
      match c', hawaited, a, halong with
      | .plane (.delete .virtualMachine ..), _, a, halong
      | .plane (.delete .networkInterface ..), _, a, halong
      | .plane (.deleteGroup _), _, a, halong =>
        have hpending : a = .ok (.pending operation) ↔ ∃ r,
            ControlPlane.lastReply? history = some r ∧ r.status = 202 ∧ r.PointsTo operation :=
          Connection.pending_iff_of_deleteAt halong
        constructor
        · rintro ⟨c, r, -, -, hr⟩
          obtain rfl := hpending.mpr ⟨r, hr⟩
          exact ⟨_, rfl, by constructor⟩
        · rintro ⟨x, hx, hasked⟩
          obtain rfl := Option.some.inj hx
          cases hasked
          obtain ⟨r, hr⟩ := hpending.mp rfl
          exact ⟨_, r, rfl, rfl, hr⟩
  · apply iff_of_false
    · rintro ⟨c, r, hc, hc', -⟩
      exact hawaited ⟨c, hc, hc'⟩
    · rintro ⟨x, hx, hasked⟩
      exact hawaited ⟨x.call, Part.act?_of_exchange? hx, hasked.isAwaited⟩

theorem Followed.pending (h : ∀ e ∈ errands, Completed s e)
    (hfollowed : Followed operation errands) :
    Pending operation (errands.filterMap Part.exchange?) := by
  obtain ⟨deletion, later, ⟨earlier, rfl, -, -⟩, haccepted, hlater⟩ := hfollowed
  have hcompleted : Completed s deletion := h deletion (by simp)
  obtain ⟨x, hx, hasked⟩ := hcompleted.acceptedAt_iff.mp haccepted
  refine ⟨earlier.filterMap Part.exchange?, x, later.filterMap Part.exchange?, ?_, hasked, ?_⟩
  · rw [List.filterMap_append, List.filterMap_cons_some hx]
  · intro y hy
    obtain ⟨e, he, hey⟩ := List.mem_filterMap.mp hy
    rcases hlater e he with hnone | hlooked
    · rw [Part.act?_of_exchange? hey] at hnone
      cases hnone
    · exact Option.some.inj (hey.symm.trans hlooked)

variable {settings : TeardownSettings} {id : MachineId} {q : Task Transport (Except Error Bool)}

end

/-- Services that send each request once. -/
def Services.hasty : Services := .ofConnection .hasty "core.windows.net"

end Decommission.Teardown
