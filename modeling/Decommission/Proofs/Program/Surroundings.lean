import Decommission.Program.Server
import Mathlib.Data.List.Induction
import Mathlib.Logic.Relation
import Mathlib.Tactic.SplitIfs

/-!
Programs before surroundings of which only some behaviour is known: what a program can come to, and
what holds at its end whatever it is answered.
-/
namespace Decommission

/-- What may answer the calls of an interface: `E s c a t` tells that in the state `s` the call `c`
may be answered by `a`, and that `t` is the state afterwards. -/
abbrev Surroundings (I : Interface) (σ : Type) : Type := σ → (c : I.Call) → I.Answer c → σ → Prop

/-- What is asked of each entry of a log and the entries before it. -/
def EachAfter {α : Type} (P : List α → α → Prop) (log : List α) : Prop :=
  ∀ before a after, log = before ++ a :: after → P before a

section EachAfter

variable {α : Type} {P : List α → α → Prop} {log : List α} {a : α}

theorem eachAfter_nil : EachAfter P [] := by
  intro before a after h
  simp at h

theorem eachAfter_cons_iff :
    EachAfter P (a :: log) ↔ P [] a ∧ EachAfter (fun before => P (a :: before)) log := by
  constructor
  · intro hlog
    refine ⟨hlog [] a log rfl, ?_⟩
    rintro before b after rfl
    exact hlog (a :: before) b after rfl
  · rintro ⟨ha, hlog⟩ before b after hsplit
    cases before with
    | nil =>
      obtain ⟨rfl, -⟩ := List.cons.inj hsplit
      exact ha
    | cons x before =>
      obtain ⟨rfl, hrest⟩ := List.cons.inj hsplit
      exact hlog before b after hrest

theorem EachAfter.append (h : EachAfter P log) (ha : P log a) : EachAfter P (log ++ [a]) := by
  intro before b after hsplit
  -- the entry is the new one, or one of the log before it
  rcases List.eq_nil_or_concat after with rfl | ⟨after, c, rfl⟩
  · obtain ⟨rfl, h'⟩ := List.append_inj' hsplit rfl
    rwa [← (List.cons.inj h').1]
  · rw [List.concat_eq_append, ← List.cons_append, ← List.append_assoc] at hsplit
    exact h before b after (List.append_inj' hsplit rfl).1

end EachAfter

namespace Program

variable {I : Interface} {σ τ α β : Type} {E : Surroundings I σ} {allowed : σ → I.Call → Prop}

/-- One call of a program, and its answer. -/
inductive Turn (E : Surroundings I σ) : Program I α × σ → Program I α × σ → Prop where
  | ask {c : I.Call} {next : I.Answer c → Program I α} {s t : σ} {a : I.Answer c} (h : E s c a t) :
    Turn E (.ask c next, s) (next a, t)

/-- The program `p` in the state `s` comes to `q` in the state `t` after any number of calls. -/
abbrev Reaches (E : Surroundings I σ) (p : Program I α) (s : σ) (q : Program I α) (t : σ) : Prop :=
  Relation.ReflTransGen (Turn E) (p, s) (q, t)

theorem Reaches.ask {c : I.Call} {next : I.Answer c → Program I α} {q : Program I α} {s t u : σ}
    {a : I.Answer c} (h : E s c a t) (hr : Reaches E (next a) t q u) :
    Reaches E (.ask c next) s q u := .head (.ask h) hr

/-- Whatever it is answered, the program makes only allowed calls, and `post` holds where it ends.
A program that stalls ends without a value. -/
def Meets (E : Surroundings I σ) (allowed : σ → I.Call → Prop) (post : Option α → σ → Prop) :
    Program I α → σ → Prop
  | .done a, s => post (some a) s
  | .stalled, s => post none s
  | .ask c next, s => allowed s c ∧ ∀ a t, E s c a t → Meets E allowed post (next a) t

/-- What is asked of the end of `p` where `f` goes on after it. -/
def afterwards (E : Surroundings I σ) (allowed : σ → I.Call → Prop) (post : Option β → σ → Prop)
    (f : α → Program I β) : Option α → σ → Prop
  | some a, t => (f a).Meets E allowed post t
  | none, t => post none t

theorem meets_bind {post : Option β → σ → Prop} {p : Program I α} {f : α → Program I β} {s : σ} :
    (p.bind f).Meets E allowed post s ↔ p.Meets E allowed (afterwards E allowed post f) s := by
  induction p generalizing s with
  | done a => rfl
  | stalled => rfl
  | ask c next ih => simp only [bind_ask, Meets, ih]

theorem Meets.mono {allowed' : σ → I.Call → Prop} {post post' : Option α → σ → Prop}
    {p : Program I α} {s : σ} (h : p.Meets E allowed post s)
    (hallowed : ∀ s c, allowed s c → allowed' s c) (hpost : ∀ r t, post r t → post' r t) :
    p.Meets E allowed' post' s := by
  induction p generalizing s with
  | done a => exact hpost _ _ h
  | stalled => exact hpost _ _ h
  | ask c next ih => exact ⟨hallowed _ _ h.1, fun a t ht => ih a (h.2 a t ht)⟩

theorem Meets.imp {post post' : Option α → σ → Prop} {p : Program I α} {s : σ}
    (h : p.Meets E allowed post s) (himp : ∀ r t, post r t → post' r t) :
    p.Meets E allowed post' s :=
  h.mono (fun _ _ hc => hc) himp

/-- What every allowed call keeps holds at the end. -/
theorem Meets.keep {post : Option α → σ → Prop} {inv : σ → Prop}
    (hkeep : ∀ s c a t, allowed s c → inv s → E s c a t → inv t) {p : Program I α} {s : σ}
    (h : p.Meets E allowed post s) (hs : inv s) :
    p.Meets E allowed (fun r t => post r t ∧ inv t) s := by
  induction p generalizing s with
  | done a => exact ⟨h, hs⟩
  | stalled => exact ⟨h, hs⟩
  | ask c next ih => exact ⟨h.1, fun a t ht => ih a (h.2 a t ht) (hkeep s c a t h.1 hs ht)⟩

/-- What is asked of the end of an action that may fail where `f` goes on after it. -/
def onward {ε : Type} (E : Surroundings I σ) (allowed : σ → I.Call → Prop)
    (post : Option (Except ε β) → σ → Prop) (f : α → ExceptT ε (Program I) β) :
    Option (Except ε α) → σ → Prop
  | some (.ok a), t => (f a).run.Meets E allowed post t
  | some (.error e), t => post (some (.error e)) t
  | none, t => post none t

theorem meets_run_bind {ε : Type} {post : Option (Except ε β) → σ → Prop}
    {x : ExceptT ε (Program I) α} {f : α → ExceptT ε (Program I) β} {s : σ}
    (h : x.run.Meets E allowed (onward E allowed post f) s) :
    (x >>= f).run.Meets E allowed post s := by
  refine meets_bind.mpr (Meets.imp h fun r t ht => ?_)
  match r, ht with
  | some (.ok a), ht => exact ht
  | some (.error e), ht => exact ht
  | none, ht => exact ht

/-- Surroundings that are followed step by step by others allow what the others allow. -/
theorem Meets.simulate {F : Surroundings I τ} {post : Option α → σ → Prop} (inv : σ → τ → Prop)
    (hstep : ∀ s t c a t', allowed s c → inv s t → F t c a t' → ∃ s', E s c a s' ∧ inv s' t')
    {p : Program I α} {s : σ} {t : τ} (h : p.Meets E allowed post s) (hinv : inv s t) :
    p.Meets F (fun t c => ∃ s, inv s t ∧ allowed s c) (fun r t => ∃ s, inv s t ∧ post r s) t := by
  induction p generalizing s t with
  | done a => exact ⟨s, hinv, h⟩
  | stalled => exact ⟨s, hinv, h⟩
  | ask c next ih =>
    refine ⟨⟨s, hinv, h.1⟩, fun a t' ht => ?_⟩
    obtain ⟨s', hs, hinv'⟩ := hstep s t c a t' h.1 hinv ht
    exact ih a (h.2 a s' hs) hinv'

theorem Meets.turn {post : Option α → σ → Prop} {x y : Program I α × σ}
    (h : x.1.Meets E allowed post x.2) (hxy : Turn E x y) : y.1.Meets E allowed post y.2 := by
  obtain ⟨ha⟩ := hxy
  exact h.2 _ _ ha

theorem Meets.reaches {post : Option α → σ → Prop} {p q : Program I α} {s t : σ}
    (h : p.Meets E allowed post s) (hr : Reaches E p s q t) : q.Meets E allowed post t := by
  have hx : ∀ y, Relation.ReflTransGen (Turn E) (p, s) y → y.1.Meets E allowed post y.2 := by
    intro y hy
    induction hy with
    | refl => exact h
    | tail _ hyz ih => exact ih.turn hyz
  exact hx (q, t) hr

/-- Whatever it is answered, the program comes to a value. -/
def IsTotal : Program I α → Prop
  | .done _ => True
  | .stalled => False
  | .ask _ next => ∀ a, (next a).IsTotal

theorem IsTotal.bind {p : Program I α} {f : α → Program I β} (hp : p.IsTotal)
    (hf : ∀ a, (f a).IsTotal) : (p.bind f).IsTotal := by
  induction p with
  | done a => exact hf a
  | stalled => exact hp
  | ask c next ih => exact fun a => ih a (hp a)

end Program

/-- What a call may be answered, and the state afterwards. There is no answer to a call that is
given up. -/
abbrev Replies (I : Interface) (σ : Type) : Type :=
  σ → (c : I.Call) → Option (I.Answer c) → σ → Prop

def Cut.value? {α : Type} : Cut α → Option α
  | .finished _ a => some a
  | .expired => none
  | .stopped => none

/-- The surroundings of a task: time goes by as it likes, and a stop may be asked for at any moment.
-/
def Replies.timed {I : Interface} {σ : Type} (R : Replies I σ) : Surroundings (Timed I) σ
  | s, .act c, a, t => R s c (some a) t
  | s, .actWithin _ c, a, t => R s c (Cut.value? a) t
  | s, .pause _, _, t => t = s
  | s, .rest _, _, t => t = s
  | s, .stopRequested, _, t => t = s
  | s, .jitter _, _, t => t = s

/-- One call of a task and its answer, if there was one in time. -/
structure Exchange (I : Interface) where
  call : I.Call
  answer : Option (I.Answer call)

/-- Any answers at all, which are written into a log. -/
def Exchange.recording (I : Interface) : Surroundings (Timed I) (List (Exchange I)) :=
  Replies.timed fun h c a h' => h' = h ++ [⟨c, a⟩]

namespace Exchange

variable {I : Interface} {right : List (Exchange I) → I.Call → Prop} {log : List (Exchange I)}

/-- Each call of a log was right to make after the calls before it. -/
def AllRight (right : List (Exchange I) → I.Call → Prop) (log : List (Exchange I)) : Prop :=
  ∀ before e after, log = before ++ e :: after → right before e.call

theorem allRight_nil : AllRight right [] := eachAfter_nil

theorem AllRight.append {e : Exchange I} (h : AllRight right log) (he : right log e.call) :
    AllRight right (log ++ [e]) :=
  EachAfter.append (P := fun before e => right before e.call) h he

theorem AllRight.of_append {rest : List (Exchange I)} (h : AllRight right (log ++ rest)) :
    AllRight right log := by
  intro before e after hlog
  exact h before e (after ++ rest) (by rw [hlog, List.append_assoc, List.cons_append])

/-- Each step of a log keeps the invariant, if it is made by a call that is right. -/
theorem AllRight.induct (h : AllRight right log) (inv : List (Exchange I) → Prop) (hnil : inv [])
    (hstep : ∀ log e, right log e.call → inv log → inv (log ++ [e])) : inv log := by
  induction log using List.reverseRecOn with
  | nil => exact hnil
  | append_singleton log e ih =>
    exact hstep log e (h log e [] rfl) (ih h.of_append)

theorem AllRight.turn {allowed : List (Exchange I) → Timed.Call I → Prop}
    (hact : ∀ log c, allowed log (.act c) → right log c)
    (hwithin : ∀ log limit c, allowed log (.actWithin limit c) → right log c)
    {c : Timed.Call I} {a : Timed.Answer I c} {log' : List (Exchange I)} (h : AllRight right log)
    (hc : allowed log c) (ha : recording I log c a log') : AllRight right log' := by
  cases c with
  | act c =>
    obtain rfl := ha
    exact h.append (hact _ _ hc)
  | actWithin limit c =>
    obtain rfl := ha
    exact h.append (hwithin _ _ _ hc)
  | pause length => exact ha ▸ h
  | rest length => exact ha ▸ h
  | stopRequested => exact ha ▸ h
  | jitter bound => exact ha ▸ h

/-- What a program may call is what it did call. -/
theorem allRight_of_meets {α : Type} {allowed : List (Exchange I) → Timed.Call I → Prop}
    {post : Option α → List (Exchange I) → Prop} {p q : Task I α}
    (hact : ∀ log c, allowed log (.act c) → right log c)
    (hwithin : ∀ log limit c, allowed log (.actWithin limit c) → right log c)
    (h : p.Meets (recording I) allowed post []) (hr : Program.Reaches (recording I) p [] q log) :
    AllRight right log := by
  have hx : ∀ x, Relation.ReflTransGen (Program.Turn (recording I)) (p, []) x →
      AllRight right x.2 := by
    intro x hx
    induction hx with
    | refl => exact allRight_nil
    | tail hy hyz ih =>
      have hm := Program.Meets.reaches h hy
      obtain ⟨ha⟩ := hyz
      exact ih.turn hact hwithin hm.1 ha
  exact hx (q, log) hr

end Exchange

/-- The server answers nothing but what `R` tells, and its state changes by answers only. -/
structure Server.Within {I : Interface} {σ : Type} (server : Server I σ) (R : Replies I σ) :
    Prop where
  answered : ∀ now c s, R s c (some (server.serve now c s).1.2) (server.serve now c s).2
  givenUp : ∀ now c s, R s c none (server.serve now c s).2
  drawn : ∀ bound s, (server.draw bound s).2 = s

namespace Task

variable {I : Interface} {σ α : Type} {R : Replies I σ}

/-- The call that the task makes next, if it makes one. -/
def nextCall? : Task I α → Option I.Call
  | .ask (.act c) _ => some c
  | .ask (.actWithin _ c) _ => some c
  | _ => none

theorem atStop_state (w : World σ) : w.atStop.state = w.state := by
  unfold World.atStop
  split <;> rfl

/-- A task that is carried out ends as it does before all surroundings that answer like the server.
-/
theorem run_meets {server : Server I σ} (hserver : server.Within R)
    {allowed : σ → Timed.Call I → Prop} {post : Option α → σ → Prop} {p : Task I α} {w : World σ}
    (h : Program.Meets R.timed allowed post p w.state) :
    post (Task.run server p w).1 (Task.run server p w).2.state := by
  induction p generalizing w with
  | done a => exact h
  | stalled => exact h
  | ask c next ih =>
    obtain ⟨-, h⟩ := h
    cases c with
    | act c => exact ih _ (h _ _ (hserver.answered _ _ _))
    | actWithin limit c =>
      simp only [Task.run]
      -- given up for the stop, answered in time, or given up for the limit
      split_ifs
      · refine ih _ (h _ _ ?_)
        rw [atStop_state]
        exact hserver.givenUp _ _ _
      · exact ih _ (h _ _ (hserver.answered _ _ _))
      · exact ih _ (h _ _ (hserver.givenUp _ _ _))
    | pause length => exact ih _ (h _ _ rfl)
    | rest length =>
      simp only [Task.run]
      split_ifs
      · exact ih _ (h _ _ (atStop_state w))
      · exact ih _ (h _ _ rfl)
    | stopRequested => exact ih _ (h _ _ rfl)
    | jitter bound =>
      exact ih _ (h _ _ (hserver.drawn _ _))

end Task

end Decommission
