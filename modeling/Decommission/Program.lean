/-!
Programs as data: what a program asks of its surroundings, and how it goes on with each answer.
Every run of such a program ends; a loop without a bound of its own gets a generous one and is
`stalled` past it.
-/
namespace Decommission

/-- The calls that a program may make, and the type of each call's answer. -/
structure Interface where
  Call : Type
  Answer : Call → Type

inductive Program (I : Interface) (α : Type) : Type where
  | done (value : α)
  | ask (call : I.Call) (next : I.Answer call → Program I α)
  | stalled

namespace Program

variable {I : Interface} {α β : Type}

def bind : Program I α → (α → Program I β) → Program I β
  | done a, f => f a
  | ask call next, f => ask call fun answer => bind (next answer) f
  | stalled, _ => stalled

instance : Monad (Program I) where
  pure := done
  bind := bind

/-- The program that makes one call and ends with its answer. -/
def call (c : I.Call) : Program I (I.Answer c) := ask c done

@[simp] theorem bind_done (a : α) (f : α → Program I β) : bind (done a) f = f a := rfl

@[simp] theorem bind_ask (c : I.Call) (k : I.Answer c → Program I α) (f : α → Program I β) :
    bind (ask c k) f = ask c fun a => bind (k a) f := rfl

@[simp] theorem bind_stalled (f : α → Program I β) : bind (stalled : Program I α) f = stalled := rfl

@[simp] theorem bind_pure_right (p : Program I α) : bind p done = p := by
  induction p with
  | done a => rfl
  | ask c k ih => simp only [bind_ask, ih]
  | stalled => rfl

theorem bind_assoc {γ : Type} (p : Program I α) (f : α → Program I β) (g : β → Program I γ) :
    bind (bind p f) g = bind p fun a => bind (f a) g := by
  induction p with
  | done a => rfl
  | ask c k ih => simp only [bind_ask, ih]
  | stalled => rfl

instance : LawfulMonad (Program I) :=
  LawfulMonad.mk' _ (fun p => bind_pure_right p) (fun _ _ => rfl) (fun p f g => bind_assoc p f g)

end Program

end Decommission
