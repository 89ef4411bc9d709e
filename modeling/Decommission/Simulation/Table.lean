/-! Finite maps as lists of pairs, with one pair for each key. -/
namespace Decommission.Simulation

abbrev Table (κ ν : Type) : Type := List (κ × ν)

namespace Table

variable {κ ν : Type} [DecidableEq κ]

def get? (t : Table κ ν) (key : κ) : Option ν := (t.find? fun p => p.1 = key).map Prod.snd

def erase (t : Table κ ν) (key : κ) : Table κ ν := t.filter fun p => p.1 ≠ key

def insert (t : Table κ ν) (key : κ) (value : ν) : Table κ ν := (key, value) :: t.erase key

theorem get?_erase (t : Table κ ν) (key k : κ) :
    (t.erase key).get? k = if k = key then none else t.get? k := by
  induction t with
  | nil => simp [erase, get?]
  | cons p t ih =>
    simp only [erase, get?, List.filter_cons, List.find?_cons] at ih ⊢
    grind

theorem get?_insert (t : Table κ ν) (key k : κ) (value : ν) :
    (t.insert key value).get? k = if k = key then some value else t.get? k := by
  have h := get?_erase t key k
  simp only [insert, get?, List.find?_cons] at h ⊢
  grind

end Table

/-- The list with `a` in it, once more only if it was not there. -/
def addOnce {α : Type} [DecidableEq α] (a : α) (l : List α) : List α := if a ∈ l then l else a :: l

theorem mem_addOnce {α : Type} [DecidableEq α] {a b : α} {l : List α} :
    b ∈ addOnce a l ↔ b = a ∨ b ∈ l := by
  unfold addOnce
  split <;> grind

/-- The list without `a`. -/
def without {α : Type} [DecidableEq α] (a : α) (l : List α) : List α := l.filter fun x => x ≠ a

theorem mem_without {α : Type} [DecidableEq α] {a b : α} {l : List α} :
    b ∈ without a l ↔ b ∈ l ∧ b ≠ a := by
  simp [without]

end Decommission.Simulation
