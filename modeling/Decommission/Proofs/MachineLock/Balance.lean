import Decommission.Proofs.MachineLock.Attempts
import Decommission.Simulation.Locker

/-!
Uses of one locker, one after the other. Whatever it answers, and whatever the work does, each lock
that is given is given back, and no other is tried for before.
-/
namespace Decommission.MachineLock

open Program

variable {σ α : Type}

/-- A use of a locker: work under a lock, or a lock that is held for a change of its session. -/
inductive Use (σ : Type) where
  | work (machine : String) (mode : Mode) (policy : RetryPolicy)
  | hold (machine : String) (mode : Mode) (change : σ → σ)

/-- What comes of a use. -/
inductive Outcome (α : Type) where
  | worked (result : Except Error (Option (Ending α)))
  | held (result : Except Refusal Unit)

namespace Use

/-- The lock that is asked for. -/
def ticket : Use σ → String × Mode
  | work machine mode _ => (machine, mode)
  | hold machine mode _ => (machine, mode)

def task : Use σ → Task (Locker σ α) (Outcome α)
  | work machine mode policy => (withLock machine mode policy).bind fun result =>
    .done (.worked result)
  | hold machine mode change => (holdOnce machine mode change).bind fun result =>
    .done (.held result)

/-- The uses in their order. -/
def allOf : List (Use σ) → Task (Locker σ α) (List (Outcome α))
  | [] => .done []
  | use :: later => use.task.bind fun outcome => (allOf later).bind fun outcomes =>
    .done (outcome :: outcomes)

/-- What the use itself does to a session leaves its ticket as it is. -/
def Keeps (ticket : σ → String × Mode) : Use σ → Prop
  | work .. => True
  | hold _ _ change => ∀ session, ticket (change session) = ticket session

end Use

/-- The calls to a locker and to the work, with their answers. -/
abbrev Log (σ α : Type) : Type := List (Exchange (Locker σ α))

section

variable (machine : String) (mode : Mode)

def refused (refusal : Refusal) : Exchange (Locker σ α) :=
  ⟨.lock machine mode, some (.error refusal)⟩

def granted (session : σ) : Exchange (Locker σ α) := ⟨.lock machine mode, some (.ok session)⟩

end

/-- Work that left the session `after` and ended like this. -/
def applied (before after : σ) (ending : Ending α) : Exchange (Locker σ α) :=
  ⟨.apply before, some (after, ending)⟩

def released (session : σ) : Exchange (Locker σ α) := ⟨.unlock session, some ()⟩

/-- What is held: nothing, a session as it was given, or what work has left of one. -/
inductive Grip (σ : Type) where
  | free
  | locked (session : σ)
  | worked (session : σ)

namespace Grip

def after : Grip σ → Exchange (Locker σ α) → Grip σ
  | _, ⟨.lock .., some (.ok session)⟩ => locked session
  | _, ⟨.apply _, some (session, _)⟩ => worked session
  | _, ⟨.unlock _, _⟩ => free
  | grip, _ => grip

/-- What is held after the calls of a log. -/
def afterAll (log : Log σ α) : Grip σ := log.foldl after free

variable {log : Log σ α} {e : Exchange (Locker σ α)}

theorem afterAll_concat : afterAll (log ++ [e]) = (afterAll log).after e := by
  rw [afterAll, List.foldl_append]
  rfl

end Grip

/-- The call is made in its turn: a lock is asked for when none is held, work is done on a session as
it was given, and what is given back is what work has left of it, or what the change of a use has. -/
def InOrder (uses : List (Use σ)) (before : Log σ α) : Call σ → Prop
  | .lock .. => Grip.afterAll before = .free
  | .apply session => Grip.afterAll before = .locked session
  | .unlock session => Grip.afterAll before = .worked session ∨
    ∃ machine mode change held, .hold machine mode change ∈ uses ∧
      Grip.afterAll before = .locked held ∧ session = change held

/-- Attempts that may be made again. -/
def Busy (machine : String) (mode : Mode) (log : Log σ α) : Prop :=
  ∀ e ∈ log, ∃ refusal, refusal.isRetryable = true ∧ e = refused machine mode refusal

/-- The result of work that was not done for this refusal. -/
def resultOf (machine : String) (mode : Mode) (policy : RetryPolicy) :
    Refusal → Except Error (Option (Ending α))
  | .notFound _ => .ok none
  | .busy id text => .error (.exhausted machine mode policy.attempts (.busy id text))
  | refusal => .error (.refused refusal)

/-- The whole log of a use, and what comes of the use. -/
inductive Episode : Use σ → Outcome α → Log σ α → Prop where
  | worked {machine : String} {mode : Mode} {policy : RetryPolicy} {attempts : Log σ α}
    {before after : σ} {ending : Ending α} (hattempts : Busy machine mode attempts) :
    Episode (.work machine mode policy) (.worked (.ok (some ending)))
      (attempts ++ [granted machine mode before, applied before after ending, released after])
  | notWorked {machine : String} {mode : Mode} {policy : RetryPolicy} {attempts : Log σ α}
    (refusal : Refusal) (hattempts : Busy machine mode attempts) :
    Episode (.work machine mode policy) (.worked (resultOf machine mode policy refusal))
      (attempts ++ [refused machine mode refusal])
  | held {machine : String} {mode : Mode} {change : σ → σ} {session : σ} :
    Episode (.hold machine mode change) (.held (.ok ()))
      [granted machine mode session, released (change session)]
  | notHeld {machine : String} {mode : Mode} {change : σ → σ} {refusal : Refusal} :
    Episode (.hold machine mode change) (.held (.error refusal)) [refused machine mode refusal]

section

variable {uses : List (Use σ)} {use : Use σ} {outcome : Outcome α} {log before : Log σ α}
  {machine : String} {mode : Mode}

/-- Attempts that are refused leave what is held as it is. -/
theorem Busy.afterAll_append (h : Busy machine mode log) :
    Grip.afterAll (before ++ log) = Grip.afterAll before := by
  induction log using List.reverseRecOn with
  | nil => rw [List.append_nil]
  | append_singleton log e ih =>
    obtain ⟨refusal, -, rfl⟩ := h e (List.mem_append_right _ List.mem_cons_self)
    have hlog : Busy machine mode log := fun e he => h e (List.mem_append_left _ he)
    rw [← List.append_assoc, Grip.afterAll_concat, ih hlog]
    rfl

theorem Busy.append (h : Busy machine mode log) {refusal : Refusal}
    (hrefusal : refusal.isRetryable = true) :
    Busy machine mode (log ++ [refused machine mode refusal]) := by
  intro e he
  rcases List.mem_append.mp he with he | he
  · exact h e he
  · exact ⟨refusal, hrefusal, List.mem_singleton.mp he⟩

theorem Busy.not_released (h : Busy machine mode log) {session : σ} : released session ∉ log := by
  intro hmem
  obtain ⟨refusal, -, heq⟩ := h _ hmem
  cases heq

/-- After a use nothing is held that was not held before it. -/
theorem Episode.afterAll_append (h : Episode use outcome log)
    (hbefore : Grip.afterAll before = .free) : Grip.afterAll (before ++ log) = .free := by
  have hback (log : Log σ α) (session : σ) :
      Grip.afterAll (before ++ (log ++ [released session])) = .free := by
    rw [← List.append_assoc, Grip.afterAll_concat]
    rfl
  cases h with
  | @worked machine mode policy attempts s s' ending =>
    have hlog : attempts ++ [granted machine mode s, applied s s' ending, released s'] =
        attempts ++ [granted machine mode s, applied s s' ending] ++ [released s'] := by
      simp
    rw [hlog]
    exact hback _ s'
  | notWorked refusal hattempts =>
    rw [← List.append_assoc, Grip.afterAll_concat, hattempts.afterAll_append, hbefore]
    rfl
  | @held machine mode change session => exact hback [granted machine mode session] (change session)
  | notHeld =>
    rw [Grip.afterAll_concat, hbefore]
    rfl

/-- What a use gives back is on the ticket that it asked for. -/
theorem Episode.ticket_released (h : Episode use outcome log) {ticket : σ → String × Mode}
    (hgranted : ∀ machine mode session, granted machine mode session ∈ log →
      ticket session = (machine, mode))
    (happlied : ∀ before after ending, applied before after ending ∈ log →
      ticket after = ticket before)
    (huse : use.Keeps ticket) {session : σ} (hsession : released session ∈ log) :
    ticket session = use.ticket := by
  cases h with
  | @worked machine mode policy attempts s s' ending hattempts =>
    have hticket : ticket s = (machine, mode) := hgranted machine mode s (by simp)
    have hwork : ticket s' = ticket s := happlied s s' ending (by simp)
    rcases List.mem_append.mp hsession with hsession | hsession
    · exact absurd hsession hattempts.not_released
    · simp only [List.mem_cons, List.not_mem_nil, or_false] at hsession
      rcases hsession with ⟨⟨⟩⟩ | ⟨⟨⟩⟩ | ⟨⟨⟩⟩
      exact hwork.trans hticket
  | notWorked refusal hattempts =>
    rcases List.mem_append.mp hsession with hsession | hsession
    · exact absurd hsession hattempts.not_released
    · cases List.mem_singleton.mp hsession
  | @held machine mode change s =>
    have hticket : ticket s = (machine, mode) := hgranted machine mode s (by simp)
    simp only [List.mem_cons, List.not_mem_nil, or_false] at hsession
    rcases hsession with ⟨⟨⟩⟩ | ⟨⟨⟩⟩
    exact (huse s).trans hticket
  | notHeld => cases List.mem_singleton.mp hsession

/-- Calls that are in order, and pauses between them. -/
def Allowed (uses : List (Use σ)) (before : Log σ α) : Timed.Call (Locker σ α) → Prop
  | .act c => InOrder uses before c
  | .pause _ => True
  | _ => False

/-- A program that ends with an episode of the use. -/
def Ends (use : Use σ) (before : Log σ α) (outcome : Option (Outcome α)) (log : Log σ α) : Prop :=
  ∃ o episode, outcome = some o ∧ log = before ++ episode ∧ Episode use o episode

theorem meets_work {policy : RetryPolicy} (hbefore : Grip.afterAll before = .free) :
    (Use.work machine mode policy).task.Meets (Exchange.recording (Locker σ α)) (Allowed uses)
      (Ends (.work machine mode policy) before) before := by
  rw [Use.task, withLock_eq]
  refine meets_bind.mpr (meets_bind.mpr ?_)
  -- before each attempt all those before it were refused
  refine RetryPolicy.meets_runFrom
    (fun log => ∃ attempts, log = before ++ attempts ∧ Busy machine mode attempts) ?_
    ⟨[], (List.append_nil _).symm, nofun⟩
  rintro _ ⟨attempts, rfl, hattempts⟩
  have hfree : Grip.afterAll (before ++ attempts) = .free := by
    rw [hattempts.afterAll_append, hbefore]
  refine ⟨hfree, ?_⟩
  rintro answer _ rfl
  constructor
  · match answer with
    | .ok session =>
      have hlocked : Grip.afterAll (before ++ attempts ++ [granted machine mode session]) =
          .locked session := Grip.afterAll_concat
      refine ⟨hlocked, ?_⟩
      rintro ⟨after, ending⟩ _ rfl
      have hworked : Grip.afterAll (before ++ attempts ++ [granted machine mode session] ++
          [applied session after ending]) = .worked after := Grip.afterAll_concat
      refine ⟨.inl hworked, ?_⟩
      rintro _ _ rfl
      exact ⟨_, _, rfl, by simp only [List.append_assoc]; rfl, .worked hattempts⟩
    | .error (.notFound id) =>
      exact ⟨_, _, rfl, List.append_assoc _ _ _, .notWorked (.notFound id) hattempts⟩
    | .error (.busy id text) =>
      exact ⟨_, _, rfl, List.append_assoc _ _ _, .notWorked (.busy id text) hattempts⟩
    | .error (.exhausted id other count last) =>
      exact ⟨_, _, rfl, List.append_assoc _ _ _,
        .notWorked (.exhausted id other count last) hattempts⟩
    | .error (.other id failure) =>
      exact ⟨_, _, rfl, List.append_assoc _ _ _, .notWorked (.other id failure) hattempts⟩
  · rintro refusal hrefusal hretry length
    obtain rfl := Option.some.inj hrefusal
    refine ⟨trivial, ?_⟩
    rintro _ rfl
    exact ⟨_, List.append_assoc _ _ _, hattempts.append hretry⟩

theorem meets_hold {change : σ → σ} (huse : .hold machine mode change ∈ uses)
    (hbefore : Grip.afterAll before = .free) :
    (Use.hold machine mode change).task.Meets (Exchange.recording (Locker σ α)) (Allowed uses)
      (Ends (.hold machine mode change) before) before := by
  refine ⟨hbefore, ?_⟩
  rintro answer _ rfl
  match answer with
  | .error refusal => exact ⟨_, _, rfl, rfl, .notHeld⟩
  | .ok session =>
    have hlocked : Grip.afterAll (before ++ [granted machine mode session]) = .locked session :=
      Grip.afterAll_concat
    refine ⟨.inr ⟨machine, mode, change, session, huse, hlocked, rfl⟩, ?_⟩
    rintro _ _ rfl
    exact ⟨_, _, rfl, List.append_assoc _ _ _, .held⟩

/-- One of the uses in a row, with what came of it and its log. -/
structure Turn (σ α : Type) where
  use : Use σ
  outcome : Outcome α
  log : Log σ α

/-- The turns of uses that have all ended like this. -/
structure Turns (uses : List (Use σ)) (outcomes : List (Outcome α)) (log : Log σ α)
    (turns : List (Turn σ α)) : Prop where
  uses : turns.map Turn.use = uses
  outcomes : turns.map Turn.outcome = outcomes
  log : log = turns.flatMap Turn.log
  episode : ∀ turn ∈ turns, Episode turn.use turn.outcome turn.log

theorem meets_task (huse : use ∈ uses) (hbefore : Grip.afterAll before = .free) :
    use.task.Meets (Exchange.recording (Locker σ α)) (Allowed uses) (Ends use before) before := by
  cases use with
  | work machine mode policy => exact meets_work hbefore
  | hold machine mode change => exact meets_hold huse hbefore

theorem meets_allOf {later : List (Use σ)} (huses : ∀ use ∈ later, use ∈ uses)
    (hbefore : Grip.afterAll before = .free) :
    (Use.allOf later).Meets (Exchange.recording (Locker σ α)) (Allowed uses)
      (fun outcomes log => ∃ os episodes turns, outcomes = some os ∧ log = before ++ episodes ∧
        Turns later os episodes turns) before := by
  induction later generalizing before with
  | nil =>
    refine ⟨[], [], [], rfl, (List.append_nil _).symm, rfl, rfl, rfl, ?_⟩
    exact fun _ hturn => absurd hturn List.not_mem_nil
  | cons use later ih =>
    obtain ⟨huse, hlater⟩ := List.forall_mem_cons.mp huses
    refine meets_bind.mpr ((meets_task huse hbefore).imp ?_)
    rintro _ _ ⟨o, episode, rfl, rfl, hepisode⟩
    refine meets_bind.mpr ((ih hlater (hepisode.afterAll_append hbefore)).imp ?_)
    rintro _ _ ⟨os, episodes, turns, rfl, rfl, hturns⟩
    refine ⟨o :: os, episode ++ episodes, ⟨use, o, episode⟩ :: turns, rfl, List.append_assoc _ _ _,
      ?_, ?_, ?_, ?_⟩
    · rw [List.map_cons, hturns.uses]
    · rw [List.map_cons, hturns.outcomes]
    · rw [List.flatMap_cons, hturns.log]
    · exact List.forall_mem_cons.mpr ⟨hepisode, hturns.episode⟩

/-- Between two turns nothing is held. -/
theorem Turns.free_between {outcomes : List (Outcome α)} {turns earlier later : List (Turn σ α)}
    (h : Turns uses outcomes log turns) (hturns : turns = earlier ++ later) :
    Grip.afterAll (earlier.flatMap Turn.log) = .free := by
  have hearlier : ∀ turn ∈ earlier, Episode turn.use turn.outcome turn.log := by
    intro turn hturn
    exact h.episode turn (hturns ▸ List.mem_append_left _ hturn)
  clear hturns
  induction earlier using List.reverseRecOn with
  | nil => rfl
  | append_singleton earlier turn ih =>
    have hbefore := ih fun x hx => hearlier x (List.mem_append_left _ hx)
    have hturn := hearlier turn (List.mem_append_right _ List.mem_cons_self)
    rw [List.flatMap_append, List.flatMap_singleton]
    exact hturn.afterAll_append hbefore

/-- However a locker answers, and whatever the work does with the sessions, also where it breaks
off: at any moment of uses in a row each call was made in its turn, and once they have ended the log
falls into one episode for each use. An episode has one lock that is given, one piece of work on it
and one unlock of the session that the work has left, or no such thing at all; nothing is held after
it. Where locks are given as asked for and the work keeps to its ticket, so does the unlock. -/
theorem locks_balanced {q : Task (Locker σ α) (List (Outcome α))}
    (hr : Reaches (Exchange.recording (Locker σ α)) (Use.allOf uses) [] q log) :
    Exchange.AllRight (InOrder uses) log ∧ q ≠ .stalled ∧
    ∀ outcomes, q = .done outcomes → ∃ turns, Turns uses outcomes log turns ∧
      (∀ earlier later, turns = earlier ++ later →
        Grip.afterAll (earlier.flatMap Turn.log) = .free) ∧
      ∀ ticket : σ → String × Mode,
        (∀ machine mode session, granted machine mode session ∈ log →
          ticket session = (machine, mode)) →
        (∀ before after ending, applied before after ending ∈ log →
          ticket after = ticket before) →
        (∀ use ∈ uses, use.Keeps ticket) →
        ∀ turn ∈ turns, ∀ session, released session ∈ turn.log →
          ticket session = turn.use.ticket := by
  have hfree : Grip.afterAll ([] : Log σ α) = .free := rfl
  have hmeets := meets_allOf (fun use (huse : use ∈ uses) => huse) hfree
  refine ⟨Exchange.allRight_of_meets (fun _ _ hc => hc) (fun _ _ _ hc => hc.elim) hmeets hr,
    ?_, ?_⟩
  · rintro rfl
    obtain ⟨_, _, _, hnone, -⟩ := hmeets.reaches hr
    cases hnone
  rintro outcomes rfl
  obtain ⟨os, episodes, turns, hos, hlog, hturns⟩ := hmeets.reaches hr
  obtain rfl := Option.some.inj hos
  rw [List.nil_append] at hlog
  subst hlog
  refine ⟨turns, hturns, fun _ _ => hturns.free_between, ?_⟩
  intro ticket hgranted happlied huses turn hturn session hsession
  have hmem {e : Exchange (Locker σ α)} (he : e ∈ turn.log) : e ∈ log := by
    rw [hturns.log]
    exact List.mem_flatMap.mpr ⟨turn, hturn, he⟩
  have huse : turn.use ∈ uses := by
    rw [← hturns.uses]
    exact List.mem_map_of_mem hturn
  refine (hturns.episode turn hturn).ticket_released ?_ ?_ (huses _ huse) hsession
  · exact fun machine mode session h => hgranted machine mode session (hmem h)
  · exact fun before after ending h => happlied before after ending (hmem h)

end

section

open Simulation (Session)

/-- Work on the machine `m`, which is tried for twice, and a lock that is held for a note. -/
def sampleUses : List (Use Session) :=
  [.work "m" .write (.fixed 2 (Duration.seconds 1)), .hold "m" .shared (Session.note · "held")]

/-- The machine is busy at first; then the work leaves a note and is broken off. -/
def sampleLog : Log Session Unit :=
  [refused "m" .write (.busy "m" "in use"), granted "m" .write ⟨"m", .write, []⟩,
    applied ⟨"m", .write, []⟩ ⟨"m", .write, ["worked"]⟩ (.aborted "broken off"),
    released ⟨"m", .write, ["worked"]⟩, granted "m" .shared ⟨"m", .shared, []⟩,
    released ⟨"m", .shared, ["held"]⟩]

theorem reaches_sample :
    Reaches (Exchange.recording (Locker Session Unit)) (Use.allOf sampleUses) []
      (.done [.worked (.ok (some (.aborted "broken off"))), .held (.ok ())]) sampleLog :=
  .ask (a := Except.error (Refusal.busy "m" "in use")) rfl <|
    .ask (a := ()) rfl <|
      .ask (a := Except.ok ⟨"m", .write, []⟩) rfl <|
        .ask (a := (⟨"m", .write, ["worked"]⟩, .aborted "broken off")) rfl <|
          .ask (a := ()) rfl <|
            .ask (a := Except.ok ⟨"m", .shared, []⟩) rfl <| .ask (a := ()) rfl .refl

/-- The session that the work has left is given back, with its note, before the next lock. -/
theorem locks_balanced_sample :
    Reaches (Exchange.recording (Locker Session Unit)) (Use.allOf sampleUses) []
      (.done [.worked (.ok (some (.aborted "broken off"))), .held (.ok ())]) sampleLog ∧
    ∃ turns, Turns sampleUses [.worked (.ok (some (.aborted "broken off"))), .held (.ok ())]
        sampleLog turns ∧
      ∀ turn ∈ turns, ∀ session, released session ∈ turn.log →
        (session.machine, session.mode) = turn.use.ticket := by
  obtain ⟨-, -, hdone⟩ := locks_balanced reaches_sample
  obtain ⟨turns, hturns, -, hticket⟩ := hdone _ rfl
  refine ⟨reaches_sample, turns, hturns, hticket (fun s => (s.machine, s.mode)) ?_ ?_ ?_⟩
  · intro machine mode session h
    simp only [sampleLog, List.mem_cons, List.not_mem_nil, or_false] at h
    rcases h with ⟨⟨⟩⟩ | ⟨⟨⟩⟩ | ⟨⟨⟩⟩ | ⟨⟨⟩⟩ | ⟨⟨⟩⟩ | ⟨⟨⟩⟩
    · rfl
    · rfl
  · intro before after ending h
    simp only [sampleLog, List.mem_cons, List.not_mem_nil, or_false] at h
    rcases h with ⟨⟨⟩⟩ | ⟨⟨⟩⟩ | ⟨⟨⟩⟩ | ⟨⟨⟩⟩ | ⟨⟨⟩⟩ | ⟨⟨⟩⟩
    rfl
  · intro use huse
    rcases List.mem_cons.mp huse with rfl | huse
    · trivial
    · obtain rfl := List.mem_singleton.mp huse
      exact fun session => rfl

end

end Decommission.MachineLock
