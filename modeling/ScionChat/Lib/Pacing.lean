import Mathlib.Order.Nat
import ScionChat.Lib.TransitionSystem

/-!
# Fetches that keep a distance

A feed fetches when it is asked for what is next.  Before a fetch it waits: until an interval
after a call has first come to the wait, or not at all when the last fetch has left nothing to
wait for.  The calls are futures: a caller may drop one wherever it awaits, and call again.

`Feed` is what the calls of such a feed do, and `Caller` one feed with a caller that polls and
drops as it likes.  Next to the feed, a `Caller` keeps two things that nothing reads: what the
last fetch came back with, and when a poll has first come to the wait since.  In these terms
`Law` says what pacing means, for one step; `Obeys` is what a feed has to do for it, in terms
of a deadline that it keeps across calls; and `law` is the theorem that connects the two, over
every run.

### design decisions

* **Time is what polls say it is.**  A poll brings the clock along.  Nothing asks it to be
  non-decreasing, so the law holds under a clock that is set back as well.
* **Being ready is part of the law.**  `Hands` says when a poll has something to hand over, in
  terms of what the feed holds and of what a fetch has brought.  At any other time a poll comes to
  the wait, and past the deadline it fetches: a feed cannot be lawful by never fetching.

### What is load-bearing

`AtPace` keeps the deadline equal to an interval after `reached`, unless the feed is free.  The
feed knows its deadline and not when the wait was first come to; the caller keeps the one and not
the other; and every clause of `Law` compares the two.
-/

namespace Pacing

open TransitionSystem

/-- What a future that is polled and not ready awaits: its deadline, or a reply. -/
inductive Awaits
  | deadline
  | reply
  deriving DecidableEq, Repr

/-- A feed: what the first poll of a call does, a later poll at the deadline, and the poll that
finds a fetch settled.  A poll without anything to await is ready. -/
structure Feed (F R : Type*) where
  next (now : ℕ) (feed : F) : F × Option Awaits
  wake (now : ℕ) (feed : F) : F × Option Awaits
  settle (now : ℕ) (fetched : R) (feed : F) : F × Option Awaits

/-- One feed, and a caller. -/
structure Caller (F R : Type*) where
  feed : F
  /-- What the call in progress awaits. -/
  awaits : Option Awaits
  /-- What the last fetch came back with. -/
  last : Option R
  /-- When a poll has first come to the wait since. -/
  reached : Option ℕ

/-- What a caller does, and what becomes of a fetch. -/
inductive Event (R : Type*)
  | next (now : ℕ)
  | wake (now : ℕ)
  | settle (fetched : R) (now : ℕ)
  /-- The call in progress is dropped. -/
  | drop

/-- When something is polled. -/
def Event.now {R : Type*} : Event R → Option ℕ
  | next now => some now
  | wake now => some now
  | settle _ now => some now
  | drop => none

namespace Caller

variable {F R : Type*} (api : Feed F R)

/-- A feed that has just been opened. -/
def opened (feed : F) : Caller F R := ⟨feed, none, none, none⟩

/-- A poll has come to this: if it is not ready, it has come to the wait. -/
def polled (p : Caller F R) (now : ℕ) : F × Option Awaits → Caller F R
  | (feed, none) => { p with feed := feed, awaits := none }
  | (feed, some awaits) =>
      { p with feed := feed, awaits := some awaits, reached := p.reached.or (some now) }

/-- One step. -/
def step (p : Caller F R) : Event R → Option (Caller F R)
  | .next now => if p.awaits = none then some (p.polled now (api.next now p.feed)) else none
  | .wake now =>
      if p.awaits = some .deadline then some (p.polled now (api.wake now p.feed)) else none
  | .settle fetched now =>
      if p.awaits = some .reply then
        some ({ p with last := some fetched, reached := none }.polled now
          (api.settle now fetched p.feed))
      else none
  | .drop => some { p with awaits := none }

end Caller

/-! ### The law -/

section Law

variable {F R : Type*}

/-- Whether there is nothing to wait for: as the last fetch says, and before there is one, as the
feed was opened. -/
def Free (full : R → Prop) (start : Prop) (p : Caller F R) : Prop :=
  match p.last with
  | some fetched => full fetched
  | none => start

/-- What a poll finds to hand over: what the feed holds as the call comes in, or what the fetch
has brought.  At the deadline there is nothing. -/
def Hands (held : F → Prop) (brings : R → Prop) (feed : F) : Event R → Prop
  | .next _ => held feed
  | .settle fetched _ => brings fetched
  | .wake _ => False
  | .drop => False

/-- **Pacing**, in one step of a caller: `due` is the deadline that the feed keeps, and `held` and
`brings` say when it has something to hand over without another fetch. -/
structure Law (due : F → Option ℕ) (interval : ℕ) (full : R → Prop) (start : Prop)
    (held : F → Prop) (brings : R → Prop)
    (p : Caller F R) (event : Event R) (q : Caller F R) : Prop where
  /-- A poll is ready when there is something to hand over, and at no other time. -/
  ready : ∀ now, event.now = some now → (q.awaits = none ↔ Hands held brings p.feed event)
  /-- With something to wait for, a fetch starts no earlier than the interval after a poll has
  first come to the wait. -/
  paced : ∀ now, event.now = some now → q.awaits = some .reply → ¬ Free full start q →
    ∃ first, q.reached = some first ∧ first + interval ≤ now
  /-- The deadline is that instant, whatever is dropped and called again until a fetch settles. -/
  due : ¬ Free full start q → due q.feed = q.reached.map (· + interval)
  stays : ∀ first, p.reached = some first → (∀ fetched now, event ≠ .settle fetched now) →
    q.reached = some first ∧ (Free full start q ↔ Free full start p)
  /-- A poll at the deadline or after it starts the fetch, unless there is something to hand
  over. -/
  starts : ∀ now first, event.now = some now → ¬ Hands held brings p.feed event →
    q.reached = some first → first + interval ≤ now → q.awaits = some .reply
  /-- With nothing to wait for, so does every poll. -/
  free : Free full start q → ∀ now, event.now = some now → ¬ Hands held brings p.feed event →
    q.awaits = some .reply

end Law

/-! ### What a feed has to do for it -/

/-- What a poll awaits, given the deadline. -/
def awaited (now : ℕ) (due : Option ℕ) : Awaits :=
  if due.all fun at_ => decide (at_ ≤ now) then .reply else .deadline

/-- The deadline as a poll leaves it that comes to the wait: it stands once it has been set. -/
def waiting (interval now : ℕ) (free : Bool) (due : Option ℕ) : Option ℕ :=
  due.or (if free then none else some (now + interval))

/-- **The feed keeps a deadline**, and whether it is free. -/
structure Obeys {F R : Type*} (api : Feed F R) (interval : ℕ) (full : R → Bool)
    (held : F → Prop) (brings : R → Prop) (due : F → Option ℕ) (free : F → Bool) : Prop where
  /-- A call hands over what there is, or comes to the wait. -/
  next : ∀ now feed,
    (held feed ∧ due (api.next now feed).1 = due feed ∧ (api.next now feed).2 = none ∨
      ¬ held feed ∧ due (api.next now feed).1 = waiting interval now (free feed) (due feed) ∧
        (api.next now feed).2 = some (awaited now (due (api.next now feed).1))) ∧
    free (api.next now feed).1 = free feed
  wake : ∀ now feed, api.wake now feed = (feed, some (awaited now (due feed)))
  /-- A fetch that settles gives up the deadline, and comes to the wait again if it has brought
  nothing. -/
  settle : ∀ now fetched feed,
    (brings fetched ∧ due (api.settle now fetched feed).1 = none ∧
        (api.settle now fetched feed).2 = none ∨
      ¬ brings fetched ∧
        due (api.settle now fetched feed).1 = waiting interval now (full fetched) none ∧
        (api.settle now fetched feed).2
          = some (awaited now (due (api.settle now fetched feed).1))) ∧
    free (api.settle now fetched feed).1 = full fetched

section Obeys

variable {F R : Type*} {api : Feed F R} {interval : ℕ} {full : R → Bool} {held : F → Prop}
  {brings : R → Prop} {due : F → Option ℕ} {free : F → Bool} {start : Bool}

/-- **The feed is at its pace**: it knows whether it is free, and its deadline is an interval
after the wait was first come to. -/
structure AtPace (due : F → Option ℕ) (free : F → Bool) (interval : ℕ) (full : R → Bool)
    (start : Bool) (p : Caller F R) : Prop where
  knows : free p.feed = true ↔ Free (fun fetched => full fetched = true) (start = true) p
  deadline : due p.feed = if free p.feed then none else p.reached.map (· + interval)
  waits : p.awaits ≠ none → p.reached ≠ none

theorem atPace_opened {feed : F} (fresh : due feed = none) (started : free feed = start) :
    AtPace (R := R) due free interval full start (.opened feed) where
  knows := by
    rw [← started]
    exact Iff.rfl
  deadline := by
    show due feed = if free feed then none else none
    rw [fresh, ite_self]
  waits := fun awaits => absurd rfl awaits

theorem awaited_eq_reply {now : ℕ} {due : Option ℕ} :
    awaited now due = .reply ↔ ∀ at_ ∈ due, at_ ≤ now := by
  cases due with
  | none => simp [awaited]
  | some at_ =>
      unfold awaited
      by_cases there : at_ ≤ now <;> simp [there]

/-- **The deadline is set by the poll that first comes to the wait**, and later ones leave it.
Polling more often neither brings the fetch forward nor puts it off. -/
theorem waiting_reached {now : ℕ} {free : Bool} {reached : Option ℕ} :
    waiting interval now free (if free then none else reached.map (· + interval))
      = if free then none else (reached.or (some now)).map (· + interval) := by
  cases free with
  | true => rfl
  | false => cases reached <;> rfl

/-- What is known of a poll that is ready, if it hands something over, or comes to the wait. -/
structure Polls (due : F → Option ℕ) (free : F → Bool) (interval now : ℕ) (before : Option ℕ)
    (isFree : Bool) (hands : Prop) (did : F × Option Awaits) : Prop where
  knows : free did.1 = isFree
  outcome : hands ∧ due did.1 = before ∧ did.2 = none ∨
    ¬ hands ∧ due did.1 = waiting interval now isFree before ∧
      did.2 = some (awaited now (due did.1))

/-- **A poll leaves the feed at its pace.** -/
theorem AtPace.polled {p : Caller F R} {now : ℕ} {isFree : Bool} {hands : Prop}
    {did : F × Option Awaits}
    (knows : isFree = true ↔ Free (fun fetched => full fetched = true) (start = true) p)
    (polls : Polls due free interval now (if isFree then none else p.reached.map (· + interval))
      isFree hands did) :
    AtPace due free interval full start (p.polled now did) ∧
      ((p.polled now did).awaits = none ↔ hands) ∧
      (¬ hands →
        (p.polled now did).awaits = some (awaited now (due (p.polled now did).feed))) ∧
      (∀ first, p.reached = some first → (p.polled now did).reached = some first) ∧
      (p.polled now did).last = p.last := by
  obtain ⟨feed, awaits⟩ := did
  obtain ⟨same, ⟨there, kept, ready⟩ | ⟨nothing, set, comes⟩⟩ := polls
  · obtain rfl : awaits = none := ready
    refine ⟨⟨?_, ?_, fun awaits => absurd rfl awaits⟩, ⟨fun _ => there, fun _ => rfl⟩,
      fun nothing => absurd there nothing, fun _ => id, rfl⟩
    · show free feed = true ↔ _
      rw [same]
      exact knows
    · show due feed = if free feed then none else _
      rw [same]
      exact kept
  · obtain rfl : awaits = some (awaited now (due feed)) := comes
    refine ⟨⟨?_, ?_, ?_⟩, ⟨nofun, fun hands => absurd hands nothing⟩, fun _ => rfl, ?_, rfl⟩
    · show free feed = true ↔ _
      rw [same]
      exact knows
    · show due feed = if free feed then none else (p.reached.or (some now)).map (· + interval)
      rw [same, ← waiting_reached]
      exact set
    · intro _
      show p.reached.or (some now) ≠ none
      cases p.reached <;> exact nofun
    · intro first first_
      show p.reached.or (some now) = some first
      rw [first_]
      rfl

/-- What the steps of a caller keep, and what a poll awaits. -/
structure Steps (due : F → Option ℕ) (free : F → Bool) (interval : ℕ) (full : R → Bool)
    (held : F → Prop) (brings : R → Prop) (start : Bool) (p : Caller F R) (event : Event R)
    (q : Caller F R) : Prop where
  atPace : AtPace due free interval full start q
  ready : ∀ now, event.now = some now → (q.awaits = none ↔ Hands held brings p.feed event)
  awaits : ∀ now, event.now = some now → ¬ Hands held brings p.feed event →
    q.awaits = some (awaited now (due q.feed))
  stays : (∀ fetched now, event ≠ .settle fetched now) →
    (∀ first, p.reached = some first → q.reached = some first) ∧ q.last = p.last

/-- **One step of a caller keeps the feed at its pace.** A caller may poll at any time, drop the
poll, and poll again. -/
theorem Obeys.step (obeys : Obeys api interval full held brings due free) {p q : Caller F R}
    {event : Event R} (pace : AtPace due free interval full start p)
    (h : p.step api event = some q) :
    Steps due free interval full held brings start p event q := by
  cases event with
  | next now =>
      simp only [Caller.step] at h
      split at h
      swap
      · cases h
      cases h
      obtain ⟨outcome, same⟩ := obeys.next now p.feed
      rw [pace.deadline] at outcome
      obtain ⟨atPace, ready, awaits, first, last⟩ := AtPace.polled pace.knows ⟨same, outcome⟩
      refine ⟨atPace, ?_, ?_, fun _ => ⟨first, last⟩⟩
      · rintro _ ⟨⟩
        exact ready
      · rintro _ ⟨⟩
        exact awaits
  | wake now =>
      simp only [Caller.step] at h
      split at h
      swap
      · cases h
      next waits =>
        cases h
        -- the deadline is there already, so coming to the wait again leaves it
        obtain ⟨first, reached⟩ := Option.ne_none_iff_exists'.mp
          (pace.waits (by rw [waits]; exact nofun))
        have polls : Polls due free interval now
            (if free p.feed then none else p.reached.map (· + interval)) (free p.feed) False
            (api.wake now p.feed) := by
          rw [obeys.wake]
          refine ⟨rfl, Or.inr ⟨not_false, ?_, rfl⟩⟩
          rw [waiting_reached, pace.deadline, reached]
          rfl
        obtain ⟨atPace, ready, awaits, first, last⟩ := AtPace.polled pace.knows polls
        refine ⟨atPace, ?_, ?_, fun _ => ⟨first, last⟩⟩
        · rintro _ ⟨⟩
          exact ready
        · rintro _ ⟨⟩
          exact awaits
  | settle fetched now =>
      simp only [Caller.step] at h
      split at h
      swap
      · cases h
      cases h
      obtain ⟨outcome, same⟩ := obeys.settle now fetched p.feed
      have none_ : (if full fetched then none else (none : Option ℕ).map (· + interval)) = none :=
        ite_self _
      rw [← none_] at outcome
      have fetches : Free (fun fetched => full fetched = true) (start = true)
          { p with last := some fetched, reached := none } ↔ full fetched = true := Iff.rfl
      obtain ⟨atPace, ready, awaits, -⟩ := AtPace.polled fetches.symm ⟨same, outcome⟩
      refine ⟨atPace, ?_, ?_, fun other => absurd rfl (other fetched now)⟩
      · rintro _ ⟨⟩
        exact ready
      · rintro _ ⟨⟩
        exact awaits
  | drop =>
      cases h
      exact ⟨⟨pace.knows, pace.deadline, fun awaits => absurd rfl awaits⟩, nofun, nofun,
        fun _ => ⟨fun _ => id, rfl⟩⟩

/-- A step that keeps the feed at its pace obeys the law. -/
theorem Steps.law {p q : Caller F R} {event : Event R}
    (steps : Steps due free interval full held brings start p event q) :
    Law due interval (fun fetched => full fetched = true) (start = true) held brings
      p event q := by
  have knows := steps.atPace.knows
  have deadline := steps.atPace.deadline
  refine ⟨steps.ready, ?_, ?_, ?_, ?_, ?_⟩
  · intro now polled replies busy
    have nothing : ¬ Hands held brings p.feed event := by
      rw [← steps.ready now polled, replies]
      exact nofun
    have awaits := steps.awaits now polled nothing
    rw [replies] at awaits
    have isDue := awaited_eq_reply.mp (Option.some.inj awaits).symm
    obtain ⟨first, reached⟩ := Option.ne_none_iff_exists'.mp
      (steps.atPace.waits (by rw [replies]; exact nofun))
    refine ⟨first, reached, isDue _ ?_⟩
    rw [deadline, if_neg fun free => busy (knows.mp free), reached]
    rfl
  · intro busy
    rw [deadline, if_neg fun free => busy (knows.mp free)]
  · intro first reached other
    obtain ⟨stays, last⟩ := steps.stays other
    refine ⟨stays first reached, ?_⟩
    unfold Free
    rw [last]
  · intro now first polled nothing reached there
    rw [steps.awaits now polled nothing, awaited_eq_reply.mpr]
    intro at_ set
    rw [deadline, reached] at set
    split at set
    · cases set
    · cases set
      exact there
  · intro isFree now polled nothing
    rw [steps.awaits now polled nothing, awaited_eq_reply.mpr]
    intro at_ set
    rw [deadline, if_pos (knows.mpr isFree)] at set
    cases set

/-- **Every step of every caller obeys the law.** It is a law of the step, and a caller that has
opened a feed keeps to it whatever it does with it. -/
theorem law (obeys : Obeys api interval full held brings due free) (feed : F)
    (fresh : due feed = none) (started : free feed = start) (events : List (Event R)) :
    EveryStep (Caller.step api)
      (fun _ => Law due interval (fun fetched => full fetched = true) (start = true) held brings)
      (.opened feed) events := by
  intro ms event rest p q _ ran stepped
  have pace : AtPace due free interval full start p :=
    run_invariant (fun _ _ _ stepped pace => (obeys.step pace stepped).atPace) ran
      (atPace_opened fresh started)
  exact (obeys.step pace stepped).law

end Obeys

end Pacing
