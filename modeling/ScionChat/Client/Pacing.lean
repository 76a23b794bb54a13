import ScionChat.Client.Feed
import ScionChat.Lib.Pacing

/-!
# The feeds keep their distance

`feed.rs`, as to when a feed fetches: `MessagesFeed` of a room's messages, and `RoomsFeed` of the
list of rooms, which waits in the same way but never catches up.  Both keep their deadline across
calls, so each is a `Pacing.Feed` that obeys its deadline, and the law of pacing holds of every
run of either: whatever fetches come back with, whenever calls are polled, and however often they
are dropped (`feeds_paced`).

A feed that is opened on the newest messages has nothing to catch up with.  So even when the page
it starts from is full, it waits before it fetches again (`opens_full_and_waits`).

### design decisions

* **The law is the library's, the feeds are the source's.**  `MessagesFeed.api` is made of the same
  `next`, `wake` and `settle` that `exactly_once` is about; only what is handed over is forgotten.
  There is no second model of the loop.
* **When a poll is ready is part of the law.**  `Held` and `Brings` say what the feed has to hand
  over.  Without them a feed that is always ready would be as lawful, and never fetch.
* **`start` is a parameter of `FeedsPaced`.**  The same law is stated for what the code does and for
  what one would expect of it, and the second one is refuted.

### What is load-bearing

`enter_waits`: the head of the loop is the only place where a deadline is set, and it is set once.
Both feeds come down to it, and `obeys` is then a matter of which branch a call takes.
-/

namespace ScionChat

open TransitionSystem Pacing

/-- What a poll of `next` awaits, if it is not ready. -/
def Polled.awaits : Polled → Option Pacing.Awaits
  | ready _ => none
  | pending .deadline => some .deadline
  | pending (.reply _) => some .reply

/-- A poll at the wait awaits its deadline, unless that is there. -/
theorem awaits_pending (isDue : Bool) :
    (Polled.pending (if isDue then .reply none else .deadline)).awaits
      = some (if isDue then .reply else .deadline) := by
  cases isDue <;> rfl

/-! ### The messages of a room -/

namespace MessagesFeed

variable (poll : PollConfig)

/-- A fetch has come back with a full page, which may not be all there is. -/
def fullPage : Except ChatError (List Message) → Bool
  | .ok messages => decide (poll.pageSize ≤ messages.length)
  | .error _ => false

/-- There is something in the feed to hand over. -/
def Held (feed : MessagesFeed) : Prop := feed.holding ≠ []

/-- A fetch has brought something to hand over: messages, or a failure.  An empty page is none, and
sends the feed back to waiting. -/
def Brings (fetched : Except ChatError (List Message)) : Prop := fetched ≠ .ok []

/-- The calls of a `MessagesFeed`. -/
def api : Pacing.Feed MessagesFeed (Except ChatError (List Message)) where
  next now feed := (feed.next poll now).map id Polled.awaits
  wake now feed := (feed.wake now).map id Polled.awaits
  settle now fetched feed := (feed.settle poll now fetched).map id Polled.awaits

variable {poll}

variable (poll) in
/-- The head of the loop comes to the wait. -/
theorem enter_waits (now : ℕ) (feed : MessagesFeed) :
    (feed.enter poll now).1.due
        = waiting poll.messagesInterval now feed.catchingUp feed.due ∧
      (feed.enter poll now).2.awaits = some (awaited now (feed.enter poll now).1.due) ∧
        (feed.enter poll now).1.catchingUp = feed.catchingUp := by
  refine ⟨rfl, ?_, rfl⟩
  exact awaits_pending _

variable (poll) in
/-- **A `MessagesFeed` obeys its deadline.** While it catches up it is free: a full page lets the
next fetch begin at once. -/
theorem obeys : Obeys (api poll) poll.messagesInterval (fullPage poll) Held Brings due
    catchingUp where
  next now feed := by
    obtain ⟨set, comes, same⟩ := enter_waits poll now feed
    simp only [api, Prod.map_fst, Prod.map_snd, id_eq]
    unfold next
    split
    · rename_i holds
      exact ⟨Or.inl ⟨holds, rfl, rfl⟩, rfl⟩
    · rename_i empty
      exact ⟨Or.inr ⟨empty, set, comes⟩, same⟩
  wake now feed := Prod.ext rfl (awaits_pending _)
  settle now fetched feed := by
    simp only [api, Prod.map_fst, Prod.map_snd, id_eq]
    cases fetched with
    | error e => exact ⟨Or.inl ⟨nofun, rfl, rfl⟩, rfl⟩
    | ok messages =>
        cases last : messages.getLast? with
        | some newest =>
            have brings : Brings (.ok messages) := by
              rintro ⟨⟩
              cases last
            rw [settle_of_getLast last]
            exact ⟨Or.inl ⟨brings, rfl, rfl⟩, rfl⟩
        | none =>
            -- an empty page: the loop comes to the wait again
            obtain rfl := List.getLast?_eq_none_iff.mp last
            rw [settle_nil]
            obtain ⟨set, comes, same⟩ := enter_waits poll now
              { feed with catchingUp := decide (poll.pageSize ≤ 0), due := none }
            exact ⟨Or.inr ⟨fun brings => brings rfl, set, comes⟩, same⟩

/-- A feed is opened with a full page after a position, and so with something to catch up with. -/
def opensFull (poll : PollConfig) (since : Since) (page : List Message) : Prop :=
  since ≠ .newest ∧ poll.pageSize ≤ page.length

instance (poll : PollConfig) (since : Since) (page : List Message) :
    Decidable (opensFull poll since page) :=
  inferInstanceAs (Decidable (_ ∧ _))

end MessagesFeed

/-! ### The list of rooms -/

/-- The list of rooms, kept current the way a `MessagesFeed` keeps a room's messages. -/
structure RoomsFeed where
  /-- Fetched but not yet handed over. -/
  holding : Option (List Room)
  /-- When the wait is over, once there is one. -/
  due : Option ℕ
  deriving DecidableEq, Repr

namespace RoomsFeed

variable (poll : PollConfig) (now : ℕ) (feed : RoomsFeed)

/-- `watch_rooms`, once the list is there. -/
def opened (rooms : List Room) : RoomsFeed := ⟨some rooms, none⟩

/-- What comes of polling a `next`: a list, a failure, or that it awaits its deadline or a reply. -/
inductive Polled
  | ready (result : Except ChatError (List Room))
  | deadline
  | reply
  deriving DecidableEq

/-- The first poll of `next`. -/
def next : RoomsFeed × Polled :=
  match feed.holding with
  | some rooms => ({ feed with holding := none }, .ready (.ok rooms))
  | none =>
      let due := feed.due.getD (now + poll.roomsInterval)
      ({ feed with due := some due }, if due ≤ now then .reply else .deadline)

/-- A poll of a `next` that awaits its deadline. -/
def wake : RoomsFeed × Polled :=
  (feed, if feed.due.all fun due => due ≤ now then .reply else .deadline)

/-- The rest of `next`, once the fetch has settled. -/
def settle (fetched : Except ChatError (List Room)) : RoomsFeed × Polled :=
  ({ feed with due := none }, .ready fetched)

/-- What a poll of `next` awaits, if it is not ready. -/
def Polled.awaits : Polled → Option Pacing.Awaits
  | ready _ => none
  | deadline => some .deadline
  | reply => some .reply

/-- There is a list in the feed to hand over. -/
def Held (feed : RoomsFeed) : Prop := feed.holding ≠ none

/-- The calls of a `RoomsFeed`. -/
def api : Pacing.Feed RoomsFeed (Except ChatError (List Room)) where
  next now feed := (feed.next poll now).map id Polled.awaits
  wake now feed := (feed.wake now).map id Polled.awaits
  settle _ fetched feed := (feed.settle fetched).map id Polled.awaits

variable {poll}

variable (poll) in
/-- **A `RoomsFeed` obeys its deadline**, and always has one to wait for. -/
theorem obeys : Obeys (api poll) poll.roomsInterval (fun _ => false) Held (fun _ => True) due
    (fun _ => false) where
  next now feed := by
    simp only [api, Prod.map_fst, Prod.map_snd, id_eq, and_true]
    unfold next
    split
    · rename_i rooms holds
      exact Or.inl ⟨holds.trans_ne nofun, rfl, rfl⟩
    · rename_i empty
      refine Or.inr ⟨fun holds => holds empty, ?_, ?_⟩
      · show some (feed.due.getD _) = feed.due.or (some _)
        cases feed.due <;> rfl
      · show Polled.awaits (if _ then _ else _) = some (awaited now (some _))
        unfold awaited
        by_cases there : feed.due.getD (now + poll.roomsInterval) ≤ now
        · rw [if_pos there, if_pos (by simpa using there)]
          rfl
        · rw [if_neg there, if_neg (by simpa using there)]
          rfl
  wake now feed := by
    refine Prod.ext rfl ?_
    show Polled.awaits (if _ then _ else _) = some (awaited now feed.due)
    unfold awaited
    cases feed.due.all fun due => decide (due ≤ now) <;> rfl
  settle now fetched feed := ⟨Or.inl ⟨trivial, rfl, rfl⟩, rfl⟩

end RoomsFeed

/-! ### Pacing -/

/-- The law of pacing in every run of either feed, where `start` says whether a feed that is opened
with a page has nothing to wait for. -/
structure FeedsPaced (start : PollConfig → Since → List Message → Prop) : Prop where
  messages : ∀ (poll : PollConfig) (room : RoomId) (since : Since) (page : List Message)
    (events : List (Event (Except ChatError (List Message)))),
    EveryStep (Caller.step (MessagesFeed.api poll))
      (fun _ => Law MessagesFeed.due poll.messagesInterval
        (fun fetched => MessagesFeed.fullPage poll fetched = true) (start poll since page)
        MessagesFeed.Held MessagesFeed.Brings)
      (.opened (.opened poll room since page)) events
  rooms : ∀ (poll : PollConfig) (rooms : List Room)
    (events : List (Event (Except ChatError (List Room)))),
    EveryStep (Caller.step (RoomsFeed.api poll))
      (fun _ => Law RoomsFeed.due poll.roomsInterval (fun _ => False) False RoomsFeed.Held
        fun _ => True)
      (.opened (.opened rooms)) events

/-- **The feeds keep their distance, and are never starved**, in every run of either: after a
fetch that fails or falls short of a page, and before the first one of a feed that was not opened
with a full page after a position. -/
theorem feeds_paced : FeedsPaced MessagesFeed.opensFull where
  messages poll room since page events := by
    have started : MessagesFeed.catchingUp (.opened poll room since page)
        = decide (MessagesFeed.opensFull poll since page) := by
      cases since <;> simp [MessagesFeed.opened, MessagesFeed.opensFull]
    have lawful := law (MessagesFeed.obeys poll) (.opened poll room since page) rfl started events
    simpa using lawful
  rooms poll rooms events := by
    have lawful := law (RoomsFeed.obeys poll) (.opened rooms) rfl rfl events
    simpa using lawful

/-- **The page that a feed starts from does not pass for a fetch**: a feed that is opened on a full
page of the newest messages waits all the same, so its pace is not that of its pages alone. -/
theorem opens_full_and_waits :
    ¬ FeedsPaced fun poll _ page => poll.pageSize ≤ page.length := by
  intro paced
  let poll : PollConfig := ⟨2, 2, 1⟩
  let page := [FeedRun.Sample.message 1]
  -- the first `next` hands the page over, and the second one waits
  have law := paced.messages poll ⟨1⟩ .newest page [.next 0, .next 0] [.next 0] (.next 0)
    [] _ _ rfl rfl rfl
  have replies := law.free (show poll.pageSize ≤ page.length by decide) 0 rfl fun holds => holds rfl
  exact absurd replies (by decide)

end ScionChat
