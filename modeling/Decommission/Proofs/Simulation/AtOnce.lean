import Decommission.Proofs.Simulation.Stock

/-!
No call changes how fast deletions are carried out, or what fails. A cloud that carries them out at
once goes on so.
-/
namespace Decommission.Simulation.Cloud

variable {c d : Cloud}

/-- The clouds go on alike with deletions, and fail alike. -/
structure SameSettings (c d : Cloud) : Prop where
  pace : d.pace = c.pace
  paces : d.paces = c.paces
  groupPace : d.groupPace = c.groupPace
  keysDenied : d.keysDenied = c.keysDenied
  blobsDown : d.blobsDown = c.blobsDown

theorem settings_remove (c : Cloud) (target : Target) : SameSettings c (c.remove target) := by
  cases target with
  | resource kind group name => cases kind <;> exact ⟨rfl, rfl, rfl, rfl, rfl⟩
  | group group => exact ⟨rfl, rfl, rfl, rfl, rfl⟩

theorem settings_answer (c : Cloud) (call : Teardown.Call StoreHandle) :
    SameSettings c (c.answer call).2 := by
  cases call with
  | plane call =>
    have hkeeps {α : Type} (part : Cloud → α)
        (hremove : ∀ c target, part (remove c target) = part c)
        (hoperations : ∀ (c : Cloud) operations operationCount,
          part { c with operations, operationCount } = part c) :=
      answerPlane_keeps part hremove hoperations (c.record (.plane call)) call
    exact ⟨hkeeps pace (fun c target => (settings_remove c target).pace) fun _ _ _ => rfl,
      hkeeps paces (fun c target => (settings_remove c target).paces) fun _ _ _ => rfl,
      hkeeps groupPace (fun c target => (settings_remove c target).groupPace) fun _ _ _ => rfl,
      hkeeps keysDenied (fun c target => (settings_remove c target).keysDenied) fun _ _ _ => rfl,
      hkeeps blobsDown (fun c target => (settings_remove c target).blobsDown) fun _ _ _ => rfl⟩
  | blob call =>
    have hkeeps {α : Type} (part : Cloud → α)
        (hblobs : ∀ (c : Cloud) openedStores closedStores containers,
          part { c with openedStores, closedStores, containers } = part c) :=
      answerBlob_keeps part hblobs (c.record (.blob call)) call
    exact ⟨hkeeps pace fun _ _ _ _ => rfl, hkeeps paces fun _ _ _ _ => rfl,
      hkeeps groupPace fun _ _ _ _ => rfl, hkeeps keysDenied fun _ _ _ _ => rfl,
      hkeeps blobsDown fun _ _ _ _ => rfl⟩

/-- Deletions are carried out at once, and nothing fails. -/
structure AtOnce (c : Cloud) : Prop where
  pace : c.pace = .immediate
  paces : ∀ key pace, c.paces.get? key = some pace → pace = .immediate
  groupPace : c.groupPace = .immediate
  keysDenied : c.keysDenied = false
  blobsDown : c.blobsDown = false

theorem AtOnce.paceOf (h : c.AtOnce) (key : ResourceKind × String) :
    (c.paces.get? key).getD c.pace = .immediate := by
  cases hpace : c.paces.get? key with
  | none => exact h.pace
  | some pace => exact h.paces key pace hpace

theorem AtOnce.of_same (h : c.AtOnce) (hsame : SameSettings c d) : d.AtOnce where
  pace := hsame.pace.trans h.pace
  paces key pace hpace := h.paces key pace (hsame.paces ▸ hpace)
  groupPace := hsame.groupPace.trans h.groupPace
  keysDenied := hsame.keysDenied.trans h.keysDenied
  blobsDown := hsame.blobsDown.trans h.blobsDown

end Decommission.Simulation.Cloud
