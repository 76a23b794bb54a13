import ScionChat.Client.Paging
import ScionChat.Lib.LogReader
import ScionChat.Lib.TransitionSystem

/-!
# The feed of a room's messages

`feed.rs`: a `MessagesFeed` keeps a cursor and hands over what lies after it, batch by batch.
`next` waits, fetches, and starts over when there is nothing new; it may be dropped wherever it
awaits, and a fetch may fail.

`FeedRun` is one feed among everybody's posts.

* `exactly_once` — what a reader of the feed can rely on: the batches, put together, are the
  room's messages after the start, in order, each of them once.
* `short_page_iff_end` — for which page limits a short page is the end of what there is.  The
  client asks for what it likes and the server clamps it, so the two disagree above 200.

### design decisions

* **`next` is cut where it awaits.**  The future is three functions: `next` up to the first
  await, `wake` for a poll at the deadline, and `settle` for what follows the fetch.  A dropped
  future is then a state like any other, with the feed as the last poll has left it.
* **A fetch sees some prefix of the log.**  The server answers from the first `n` posts, for any
  `n` at least as large as before.  Nothing is said about when, so replies may be as stale as the
  server allows, while posts of all rooms go on.
* **The page limit is a parameter.**  Nothing in the invariant depends on it, zero included.

### What is load-bearing

`Inv`: what has been handed over, and what is held, is the stretch of the room's log between the
start and the cursor.  It is stated as a `LogReader.Reading`, so that a page at the cursor extends
it by one lemma of the library, and the rest is that no poll moves the cursor without handing
over, or holding, what it has passed.
-/

namespace ScionChat

open TransitionSystem KeyedLog

/-! ### Configuration -/

/-- How a watched room is kept up to date.  The intervals are in milliseconds, as the clock is. -/
structure PollConfig where
  messagesInterval : ℕ
  roomsInterval : ℕ
  /-- How many messages to ask for at a time. -/
  pageLimit : ℕ
  deriving DecidableEq, Repr

/-- The page size to ask for, never zero. -/
def PollConfig.pageSize (poll : PollConfig) : ℕ :=
  max poll.pageLimit 1

/-! ### The feed -/

/-- Where watching a room starts from.  A feed that starts at the newest page has no earlier
messages, and one that starts after a position reads on from it. -/
inductive Since
  | newest
  | after (seq : Seq)
  deriving DecidableEq, Repr

namespace Since

/-- What the first fetch asks for. -/
def cursor : Since → ChatClient.Cursor
  | newest => .newest
  | after seq => .after seq

/-- The position a feed is at when its first page is empty. -/
def from' : Since → Seq
  | newest => Seq.START
  | after seq => seq

end Since

/-- One watched room. -/
structure MessagesFeed where
  room : RoomId
  cursor : Seq
  /-- Fetched but not yet handed over. -/
  holding : List Message
  catchingUp : Bool
  /-- When the wait is over, once there is one. -/
  due : Option ℕ
  deriving DecidableEq, Repr

/-- Where a `next` in progress awaits: for its deadline, or for a reply, which is there once the
server has answered. -/
inductive Awaits
  | deadline
  | reply (fetched : Option (Except ChatError (List Message)))

/-- What comes of polling a `next`.  One that is pending awaits its deadline or a reply, and keeps
what it has for the next poll. -/
inductive Polled
  | ready (result : Except ChatError (List Message))
  | pending (awaits : Awaits)

namespace MessagesFeed

variable (poll : PollConfig) (now : ℕ) (feed : MessagesFeed)

/-- `watch_room_messages`, once its page is there.  A page that is full leaves the feed catching
up, unless it is the newest one. -/
def opened (room : RoomId) (since : Since) (page : List Message) : MessagesFeed where
  room := room
  cursor := (page.getLast?.map Message.seq).getD since.from'
  holding := page
  catchingUp := since ≠ .newest && decide (poll.pageSize ≤ page.length)
  due := none

/-- The deadline, which stands until a fetch settles; there is none while catching up. -/
def wait : MessagesFeed :=
  { feed with
    due := feed.due.or (if feed.catchingUp then none else some (now + poll.messagesInterval)) }

/-- Whether the deadline is there yet, or there is none.  The first poll of a feed that catches up
has none, and so does not wait. -/
def isDue : Bool :=
  feed.due.all fun due => due ≤ now

/-- The head of the loop in `next`: up to the first await that does not return at once. -/
def enter : MessagesFeed × Polled :=
  let feed := feed.wait poll now
  (feed, .pending (if feed.isDue now then .reply none else .deadline))

/-- The first poll of `next`.  What the feed holds is handed over at once, without looking at the
clock. -/
def next : MessagesFeed × Polled :=
  if feed.holding ≠ [] then ({ feed with holding := [] }, .ready (.ok feed.holding))
  else feed.enter poll now

/-- A poll of a `next` that awaits its deadline. -/
def wake : MessagesFeed × Polled :=
  (feed, .pending (if feed.isDue now then .reply none else .deadline))

/-- The rest of the loop, once a fetch has settled.  A fetch that failed is reported, and one that
found nothing begins the wait again. -/
def settle (fetched : Except ChatError (List Message)) : MessagesFeed × Polled :=
  let feed := { feed with
    due := none
    catchingUp := match fetched with
      | .ok messages => decide (poll.pageSize ≤ messages.length)
      | .error _ => false }
  match fetched with
  | .error e => (feed, .ready (.error e))
  | .ok messages =>
      match messages.getLast? with
      | some newest => ({ feed with cursor := newest.seq }, .ready (.ok messages))
      | none => feed.enter poll now

end MessagesFeed

/-! ### A feed among everybody's posts -/

/-- The messages of one room, in what has been posted to all of them. -/
def roomLog (room : RoomId) (log : List (RoomId × Message)) : List Message :=
  (log.filter fun post => post.1 = room).map Prod.snd

/-- A message that may be posted next.  Its position is past all that were given before, in any
room. -/
def Newest (log : List (RoomId × Message)) (message : Message) : Prop :=
  (∀ post ∈ log, post.2.seq < message.seq) ∧ Seq.START < message.seq

instance (log : List (RoomId × Message)) (message : Message) : Decidable (Newest log message) :=
  inferInstanceAs (Decidable (_ ∧ _))

/-- The server's log, and a client that watches one room.  What has been handed over is kept, so
that it can be compared with the log. -/
structure FeedRun where
  log : List (RoomId × Message)
  /-- How much of the log the last fetch has seen. -/
  seen : ℕ
  /-- A `watch_room_messages` in progress, with its reply once the server has answered. -/
  opening : Option (Since × Option (Except ChatError (List Message)))
  feed : Option MessagesFeed
  next : Option Awaits
  /-- The position the feed started from. -/
  start : Seq
  /-- What `next` has returned. -/
  batches : List (List Message)

/-- What happens next. -/
inductive FeedEvent
  /-- Somebody posts to some room. -/
  | post (room : RoomId) (message : Message)
  | watch (since : Since)
  | next (now : ℕ)
  | wake (now : ℕ)
  /-- The server answers the fetch that is out, from the first `n` posts. -/
  | answer (n : ℕ)
  | arrive (now : ℕ)
  /-- The fetch that is out fails. -/
  | fail (e : ChatError) (now : ℕ)
  /-- The future in progress is dropped. -/
  | drop

namespace FeedRun

/-- Nothing posted, and nothing watched. -/
def fresh : FeedRun := ⟨[], 0, none, none, none, Seq.START, []⟩

variable (poll : PollConfig) (room : RoomId) (s : FeedRun)

/-- A poll of `next` has come to this. -/
def polled : MessagesFeed × Polled → FeedRun
  | (feed, .ready (.ok batch)) =>
      { s with feed := some feed, next := none, batches := s.batches ++ [batch] }
  | (feed, .ready (.error _)) => { s with feed := some feed, next := none }
  | (feed, .pending awaits) => { s with feed := some feed, next := some awaits }

/-- Where a feed starts that is opened with this page: just before the page, if it is the newest
one and there is anything on it. -/
def startOf : Since → List Message → Seq
  | .newest, first :: _ => ⟨first.seq.get - 1⟩
  | since, _ => since.from'

/-- `watch_room_messages` has its reply. -/
def openedWith (since : Since) : Except ChatError (List Message) → FeedRun
  | .ok page =>
      { s with
        opening := none
        feed := some (.opened poll room since page)
        start := startOf since page }
  | .error _ => { s with opening := none }

/-- One step. -/
def step : FeedEvent → Option FeedRun
  | .post there message =>
      if (∀ post ∈ s.log, post.2.seq < message.seq) ∧ Seq.START < message.seq then
        some { s with log := s.log ++ [(there, message)] }
      else none
  | .watch since =>
      if s.feed.isNone ∧ s.opening.isNone then
        some { s with opening := some (since, none) }
      else none
  | .next now =>
      match s.feed, s.next with
      | some feed, none => some (s.polled (feed.next poll now))
      | _, _ => none
  | .wake now =>
      match s.feed, s.next with
      | some feed, some .deadline => some (s.polled (feed.wake now))
      | _, _ => none
  | .answer n =>
      if s.seen ≤ n ∧ n ≤ s.log.length then
        match s.opening, s.feed, s.next with
        | some (since, none), _, _ =>
            some { s with
              seen := n
              opening := some (since, some (served (roomLog room (s.log.take n)) poll.pageSize
                since.cursor)) }
        | none, some feed, some (.reply none) =>
            some { s with
              seen := n
              next := some (.reply (some (served (roomLog feed.room (s.log.take n)) poll.pageSize
                (.after feed.cursor)))) }
        | _, _, _ => none
      else none
  | .arrive now =>
      match s.opening, s.feed, s.next with
      | some (since, some fetched), _, _ => some (s.openedWith poll room since fetched)
      | none, some feed, some (.reply (some fetched)) =>
          some (s.polled (feed.settle poll now fetched))
      | _, _, _ => none
  | .fail e now =>
      match s.opening, s.feed, s.next with
      | some (since, _), _, _ => some (s.openedWith poll room since (.error e))
      | none, some feed, some (.reply _) => some (s.polled (feed.settle poll now (.error e)))
      | _, _, _ => none
  | .drop => some { s with opening := none, next := none }

end FeedRun

/-! ### What one poll does -/

/-- The batch that a poll hands over. -/
def Polled.batch : Polled → List Message
  | ready (.ok batch) => batch
  | _ => []

/-- **What a poll does**: what it hands over was held, or is the page that has come back; the
cursor moves on with the page, and nothing is held any more. -/
structure PollStep (feed : MessagesFeed) (page : List Message) (after : MessagesFeed)
    (polled : Polled) : Prop where
  room : after.room = feed.room
  handsOver : polled.batch = feed.holding ++ page
  cursor : after.cursor = nextCursor Message.seq feed.cursor page
  holding : after.holding = []
  some_ : ∀ batch, polled = .ready (.ok batch) → batch ≠ []
  asks : ∀ fetched, polled ≠ .pending (.reply (some fetched))

namespace MessagesFeed

variable {poll : PollConfig} {now : ℕ} {feed : MessagesFeed}

variable (poll now) in
theorem enter_step (empty : feed.holding = []) :
    PollStep feed [] (feed.enter poll now).1 (feed.enter poll now).2 where
  room := rfl
  handsOver := by
    rw [empty]
    rfl
  cursor := rfl
  holding := empty
  some_ := nofun
  asks := by
    intro fetched
    simp only [enter]
    split <;> simp

theorem next_step : PollStep feed [] (feed.next poll now).1 (feed.next poll now).2 := by
  unfold next
  split
  · rename_i some_
    refine ⟨rfl, (List.append_nil _).symm, rfl, rfl, ?_, nofun⟩
    intro batch same
    cases same
    exact some_
  · rename_i none
    exact enter_step poll now (not_not.mp none)

theorem wake_step (empty : feed.holding = []) :
    PollStep feed [] (feed.wake now).1 (feed.wake now).2 where
  room := rfl
  handsOver := by
    rw [empty]
    rfl
  cursor := rfl
  holding := empty
  some_ := nofun
  asks := by
    intro fetched
    simp only [wake]
    split <;> simp

variable (poll now) in
theorem fail_step (empty : feed.holding = []) (e : ChatError) :
    PollStep feed [] (feed.settle poll now (.error e)).1 (feed.settle poll now (.error e)).2 where
  room := rfl
  handsOver := by
    rw [empty]
    rfl
  cursor := rfl
  holding := empty
  some_ := nofun
  asks := nofun

theorem settle_of_getLast {page : List Message} {newest : Message}
    (last : page.getLast? = some newest) : feed.settle poll now (.ok page)
      = ({ feed with
            cursor := newest.seq
            catchingUp := decide (poll.pageSize ≤ page.length)
            due := none }, .ready (.ok page)) := by
  simp only [settle, last]

theorem settle_nil : feed.settle poll now (.ok [])
    = { feed with catchingUp := decide (poll.pageSize ≤ 0), due := none }.enter poll now := rfl

theorem settle_step (empty : feed.holding = []) (page : List Message) :
    PollStep feed page (feed.settle poll now (.ok page)).1 (feed.settle poll now (.ok page)).2 := by
  cases last : page.getLast? with
  | none =>
      obtain rfl := List.getLast?_eq_none_iff.mp last
      rw [settle_nil]
      have again : ({ feed with catchingUp := decide (poll.pageSize ≤ 0), due := none } :
          MessagesFeed).holding = [] := empty
      have entered := enter_step poll now again
      exact ⟨entered.room, entered.handsOver, entered.cursor, entered.holding, entered.some_,
        entered.asks⟩
  | some newest =>
      rw [settle_of_getLast last]
      refine ⟨rfl, ?_, ?_, empty, ?_, ?_⟩
      · rw [empty]
        rfl
      · rw [nextCursor_of_getLast last]
      · intro batch same
        cases same
        exact List.ne_nil_of_mem (List.mem_of_getLast? last)
      · intro fetched same
        cases same

end MessagesFeed

/-! ### What every run keeps -/

theorem page_of_served {log page : List Message} {limit : ℕ} {cursor : ChatClient.Cursor}
    (h : served log limit cursor = .ok page) : page = (cursor.query limit).page log := by
  unfold served at h
  split at h
  · cases h
  · split at h
    · exact (Except.ok.inj h).symm
    · cases h

theorem roomLog_grows {log log' : List (RoomId × Message)} (grows : log <+: log')
    (room : RoomId) : roomLog room log <+: roomLog room log' := by
  obtain ⟨more, rfl⟩ := grows
  unfold roomLog
  rw [List.filter_append, List.map_append]
  exact List.prefix_append _ _

theorem roomLog_ascending {log : List (RoomId × Message)}
    (ascending : log.Pairwise fun a b => a.2.seq < b.2.seq) (room : RoomId) :
    Ascending Message.seq (roomLog room log) :=
  List.pairwise_map.mpr (ascending.filter _)

theorem mem_roomLog {log : List (RoomId × Message)} {room : RoomId} {message : Message} :
    message ∈ roomLog room log ↔ (room, message) ∈ log := by
  simp [roomLog]

/-- The messages that are posted come with ascending positions. -/
structure Posted (log : List (RoomId × Message)) : Prop where
  ascending : log.Pairwise fun a b => a.2.seq < b.2.seq
  positive : ∀ post ∈ log, Seq.START < post.2.seq

theorem Posted.post {log : List (RoomId × Message)} (posted : Posted log) {room : RoomId}
    {message : Message} (newest : Newest log message) : Posted (log ++ [(room, message)]) where
  ascending := Ascending.concat posted.ascending newest.1
  positive := by
    intro post mem
    rcases List.mem_append.mp mem with before | last
    · exact posted.positive post before
    · rw [List.mem_singleton.mp last]
      exact newest.2

namespace FeedRun

/-- What the last fetch has seen of the room. -/
def view (room : RoomId) (s : FeedRun) : List Message :=
  roomLog room (s.log.take s.seen)

/-- **The invariant of a feed**: it has read the stretch of the room's log between its start and
its cursor, and what it awaits is the next page. -/
structure Inv (poll : PollConfig) (room : RoomId) (s : FeedRun) : Prop where
  ascending : s.log.Pairwise fun a b => a.2.seq < b.2.seq
  positive : ∀ post ∈ s.log, Seq.START < post.2.seq
  seen : s.seen ≤ s.log.length
  opening : s.opening.isSome → s.feed = none
  opened : ∀ since fetched, s.opening = some (since, some fetched) →
    fetched = served (s.view room) poll.pageSize since.cursor
  closed : s.feed = none → s.batches = [] ∧ s.next = none
  room_ : ∀ feed ∈ s.feed, feed.room = room
  reading : ∀ feed ∈ s.feed, Reading Message.seq s.start feed.cursor (s.view room)
    (s.batches.flatten ++ feed.holding)
  emptied : ∀ feed ∈ s.feed, s.next.isSome → feed.holding = []
  reply : ∀ feed ∈ s.feed, ∀ fetched, s.next = some (.reply (some fetched)) →
    fetched = served (s.view room) poll.pageSize (.after feed.cursor)
  some_ : ∀ batch ∈ s.batches, batch ≠ []

variable {poll : PollConfig} {room : RoomId} {s t : FeedRun}

theorem inv_fresh : Inv poll room fresh where
  ascending := List.Pairwise.nil
  positive := fun _ mem => absurd mem List.not_mem_nil
  seen := le_refl 0
  opening := fun some_ => by cases some_
  opened := fun _ _ same => by cases same
  closed := fun _ => ⟨rfl, rfl⟩
  room_ := fun _ mem => by cases mem
  reading := fun _ mem => by cases mem
  emptied := fun _ mem => by cases mem
  reply := fun _ mem => by cases mem
  some_ := fun _ mem => absurd mem List.not_mem_nil

theorem Inv.view_ascending (inv : Inv poll room s) : Ascending Message.seq (s.view room) :=
  roomLog_ascending (inv.ascending.sublist (List.take_sublist _ _)) room

theorem Inv.closed_opening (inv : Inv poll room s) {feed : MessagesFeed}
    (held : s.feed = some feed) : s.opening = none := by
  cases opening : s.opening with
  | none => rfl
  | some _ =>
      have none := inv.opening (by rw [opening]; rfl)
      rw [held] at none
      cases none

/-- The feed has gone on with a page, and hands over what it had and the page. -/
theorem Inv.advance (inv : Inv poll room s) {feed after : MessagesFeed} (held : s.feed = some feed)
    (same : after.room = feed.room) (empty : after.holding = []) {batches : List (List Message)}
    {next : Option Awaits} (asks : ∀ fetched, next ≠ some (.reply (some fetched)))
    (some_ : ∀ batch ∈ batches, batch ≠ [])
    (reading : Reading Message.seq s.start after.cursor (s.view room) batches.flatten) :
    Inv poll room { s with feed := some after, next := next, batches := batches } where
  ascending := inv.ascending
  positive := inv.positive
  seen := inv.seen
  opening := by
    intro opening
    rw [inv.closed_opening held] at opening
    cases opening
  opened := inv.opened
  closed := nofun
  room_ := by
    rintro _ ⟨⟩
    exact same.trans (inv.room_ feed held)
  reading := by
    rintro _ ⟨⟩
    rw [empty, List.append_nil]
    exact reading
  emptied := by
    rintro _ ⟨⟩ -
    exact empty
  reply := fun _ _ fetched awaits => absurd awaits (asks fetched)
  some_ := some_

/-- **A poll keeps the invariant**, if the page it has is the next one.  It does not matter whether
the poll hands over what it has, or keeps it for a later one. -/
theorem Inv.polled (inv : Inv poll room s) {feed after : MessagesFeed} {page : List Message}
    {result : Polled} (held : s.feed = some feed) (did : PollStep feed page after result)
    (reading : Reading Message.seq s.start (nextCursor Message.seq feed.cursor page) (s.view room)
      (s.batches.flatten ++ feed.holding ++ page)) :
    Inv poll room (s.polled (after, result)) := by
  rw [← did.cursor, List.append_assoc, ← did.handsOver] at reading
  rcases result with (e | batch) | awaits
  · rw [show (Polled.ready (.error e)).batch = [] from rfl, List.append_nil] at reading
    exact inv.advance held did.room did.holding nofun inv.some_ reading
  · rw [Polled.batch, ← List.flatten_concat] at reading
    refine inv.advance held did.room did.holding nofun ?_ reading
    intro other mem
    rcases List.mem_append.mp mem with before | last
    · exact inv.some_ other before
    · rw [List.mem_singleton.mp last]
      exact did.some_ batch rfl
  · rw [show (Polled.pending awaits).batch = [] from rfl, List.append_nil] at reading
    refine inv.advance held did.room did.holding ?_ inv.some_ reading
    intro fetched same
    exact did.asks fetched (congrArg Polled.pending (Option.some.inj same))

/-- What has been read is unchanged by a poll that has no page. -/
theorem Inv.idle (inv : Inv poll room s) {feed : MessagesFeed} (held : s.feed = some feed) :
    Reading Message.seq s.start (nextCursor Message.seq feed.cursor []) (s.view room)
      (s.batches.flatten ++ feed.holding ++ []) := by
  rw [List.append_nil]
  exact inv.reading feed held

/-- A fetch that has settled with what it was served. -/
theorem Inv.settled (inv : Inv poll room s) {feed : MessagesFeed} (held : s.feed = some feed)
    (awaits : s.next.isSome) {fetched : Except ChatError (List Message)} (now : ℕ)
    (answered : fetched = served (s.view room) poll.pageSize (.after feed.cursor) ∨
      ∃ e, fetched = .error e) : Inv poll room (s.polled (feed.settle poll now fetched)) := by
  have empty := inv.emptied feed held awaits
  cases fetched with
  | error e => exact inv.polled held (MessagesFeed.fail_step poll now empty e) (inv.idle held)
  | ok page =>
      rcases answered with answered | ⟨e, failed⟩
      · refine inv.polled held (MessagesFeed.settle_step empty page) ?_
        rw [page_of_served answered.symm]
        exact (inv.reading feed held).page inv.view_ascending _
      · cases failed

/-- The first page of a feed, read from where the feed starts. -/
theorem reading_first {view page : List Message} (ascending : Ascending Message.seq view)
    (positive : ∀ message ∈ view, Seq.START < message.seq) {since : Since} {limit : ℕ}
    (answered : page = (since.cursor.query limit).page view) :
    Reading Message.seq (startOf since page) (nextCursor Message.seq since.from' page)
      view page := by
  cases since with
  | after seq =>
      have start : startOf (.after seq) page = seq := by cases page <;> rfl
      rw [start, ← List.nil_append page]
      have first := (Reading.start seq view).page ascending (max 1 (min limit MAX_LIMIT))
      rw [answered]
      exact first
  | newest =>
      cases page with
      | nil => exact Reading.start _ _
      | cons f rest =>
          have shown : f ∈ view :=
            mem_of_mem_pageNewest (answered ▸ List.mem_cons_self : f ∈ pageNewest _ _)
          -- a newest page is read as if from the position right before its first message
          have positive : 0 < f.seq.get := positive f shown
          have below : (⟨f.seq.get - 1⟩ : Seq) < f.seq := by
            rw [Seq.lt_iff]
            exact Nat.sub_lt positive Nat.zero_lt_one
          have before : ∀ a ∈ view, (⟨f.seq.get - 1⟩ : Seq) < a.seq ↔ f.seq ≤ a.seq := by
            intro a _
            rw [Seq.lt_iff, Seq.le_iff]
            dsimp only
            omega
          have first := Reading.newest ascending (congrArg List.head? answered.symm) below before
          have last : (f :: rest).getLast? = some ((f :: rest).getLast (List.cons_ne_nil f rest)) :=
            List.getLast?_eq_some_getLast _
          have page : pageNewest (max 1 (min limit MAX_LIMIT)) view = f :: rest := answered.symm
          rw [page, nextCursor_of_getLast last] at first
          rw [nextCursor_of_getLast last]
          exact first

/-- A feed that is opened with its first page. -/
theorem Inv.openedWith (inv : Inv poll room s) (closed : s.feed = none) {since : Since}
    {fetched : Except ChatError (List Message)}
    (answered : fetched = served (s.view room) poll.pageSize since.cursor ∨
      ∃ e, fetched = .error e) : Inv poll room (s.openedWith poll room since fetched) := by
  cases fetched with
  | error e =>
      exact ⟨inv.ascending, inv.positive, inv.seen, fun _ => closed, nofun, inv.closed, inv.room_,
        inv.reading, inv.emptied, inv.reply, inv.some_⟩
  | ok page =>
      rcases answered with answered | ⟨e, failed⟩
      · have positive : ∀ message ∈ s.view room, Seq.START < message.seq := fun message mem =>
          inv.positive _ (List.mem_of_mem_take (mem_roomLog.mp mem))
        have first := reading_first inv.view_ascending positive (page_of_served answered.symm)
        refine ⟨inv.ascending, inv.positive, inv.seen, nofun, nofun, nofun, ?_, ?_, ?_, ?_,
          inv.some_⟩
        · rintro _ ⟨⟩
          rfl
        · rintro _ ⟨⟩
          change Reading Message.seq _ _ (s.view room) (s.batches.flatten ++ page)
          rw [(inv.closed closed).1]
          exact first
        · rintro _ ⟨⟩ awaits
          rw [FeedRun.openedWith, (inv.closed closed).2] at awaits
          cases awaits
        · rintro _ ⟨⟩ fetched awaits
          cases (inv.closed closed).2.symm.trans awaits
      · cases failed

/-- What has been read stays what it is when more of the log is seen. -/
theorem Inv.reading_at (inv : Inv poll room s) {n : ℕ} (later : s.seen ≤ n) :
    ∀ feed ∈ s.feed, Reading Message.seq s.start feed.cursor (roomLog room (s.log.take n))
      (s.batches.flatten ++ feed.holding) := by
  intro feed held
  refine (inv.reading feed held).grow (roomLog_grows ?_ room)
    (roomLog_ascending (inv.ascending.sublist (List.take_sublist _ _)) room)
  exact List.take_prefix_take_left later

/-- A post, to this room or another one. -/
theorem Inv.posted (inv : Inv poll room s) {there : RoomId} {message : Message}
    (newest : ∀ post ∈ s.log, post.2.seq < message.seq) (positive : Seq.START < message.seq) :
    Inv poll room { s with log := s.log ++ [(there, message)] } := by
  have same : (s.log ++ [(there, message)]).take s.seen = s.log.take s.seen :=
    List.take_append_of_le_length inv.seen
  have view : view room { s with log := s.log ++ [(there, message)] } = s.view room :=
    congrArg (roomLog room) same
  refine ⟨?_, ?_, ?_, inv.opening, ?_, inv.closed, inv.room_, ?_, inv.emptied, ?_, inv.some_⟩
  · exact Ascending.concat inv.ascending newest
  · intro post mem
    rcases List.mem_append.mp mem with before | last
    · exact inv.positive post before
    · rw [List.mem_singleton.mp last]
      exact positive
  · rw [List.length_append]
    exact inv.seen.trans (Nat.le_add_right _ _)
  · rw [view]
    exact inv.opened
  · rw [view]
    exact inv.reading
  · rw [view]
    exact inv.reply

/-- **Every step keeps the invariant.** Posts make the log longer at its end, and what has been
handed over stays as it is. -/
theorem Inv.step {event : FeedEvent} (inv : Inv poll room s)
    (stepped : s.step poll room event = some t) : Inv poll room t := by
  cases event with
  | post there message =>
      rw [FeedRun.step] at stepped
      split at stepped
      · rename_i newest
        cases stepped
        exact inv.posted newest.1 newest.2
      · cases stepped
  | watch since =>
      rw [FeedRun.step] at stepped
      split at stepped
      · rename_i idle
        cases stepped
        have closed := Option.isNone_iff_eq_none.mp idle.1
        exact ⟨inv.ascending, inv.positive, inv.seen, fun _ => closed,
          fun _ _ same => (by cases same),
          inv.closed, inv.room_, inv.reading, inv.emptied, inv.reply, inv.some_⟩
      · cases stepped
  | next now =>
      simp only [FeedRun.step] at stepped
      split at stepped
      · rename_i feed held none
        cases stepped
        exact inv.polled held MessagesFeed.next_step (inv.idle held)
      · cases stepped
  | wake now =>
      simp only [FeedRun.step] at stepped
      split at stepped
      · rename_i feed held awaits
        cases stepped
        have empty := inv.emptied feed held (by rw [awaits]; rfl)
        exact inv.polled held (MessagesFeed.wake_step empty) (inv.idle held)
      · cases stepped
  | answer n =>
      simp only [FeedRun.step] at stepped
      split at stepped
      · rename_i bounds
        have reading := inv.reading_at bounds.1
        split at stepped
        · -- the first page, while there is no feed yet
          rename_i since opening
          cases stepped
          have closed := inv.opening (by rw [opening]; rfl)
          refine ⟨inv.ascending, inv.positive, bounds.2, fun _ => closed, ?_, inv.closed, inv.room_,
            reading, inv.emptied, ?_, inv.some_⟩
          · rintro _ _ ⟨⟩
            rfl
          · intro feed held
            cases closed.symm.trans held
        · -- the page of a `next` that awaits it
          rename_i feed opening held awaits
          cases stepped
          refine ⟨inv.ascending, inv.positive, bounds.2, inv.opening, ?_, ?_, inv.room_, reading,
            ?_, ?_, inv.some_⟩
          · intro since fetched same
            cases opening.symm.trans same
          · intro none
            cases held.symm.trans none
          · intro feed held _
            exact inv.emptied feed held (by rw [awaits]; rfl)
          · rintro feed' held' _ ⟨⟩
            obtain rfl := Option.some.inj (held.symm.trans held')
            rw [inv.room_ feed held]
            rfl
        · cases stepped
      · cases stepped
  | arrive now =>
      simp only [FeedRun.step] at stepped
      split at stepped
      · rename_i since fetched opening
        cases stepped
        exact inv.openedWith (inv.opening (by rw [opening]; rfl))
          (Or.inl (inv.opened since fetched opening))
      · rename_i feed fetched _ held awaits
        cases stepped
        exact inv.settled held (by rw [awaits]; rfl) now
          (Or.inl (inv.reply feed held fetched awaits))
      · cases stepped
  | fail e now =>
      simp only [FeedRun.step] at stepped
      split at stepped
      · rename_i since _ opening
        cases stepped
        exact inv.openedWith (inv.opening (by rw [opening]; rfl)) (Or.inr ⟨e, rfl⟩)
      · rename_i feed fetched _ held awaits
        cases stepped
        exact inv.settled held (by rw [awaits]; rfl) now (Or.inr ⟨e, rfl⟩)
      · cases stepped
  | drop =>
      cases stepped
      exact ⟨inv.ascending, inv.positive, inv.seen, nofun, nofun,
        fun none => ⟨(inv.closed none).1, rfl⟩,
        inv.room_, inv.reading, nofun, nofun, inv.some_⟩

theorem run_inv {events : List FeedEvent} (ran : run (step poll room) fresh events = some s) :
    Inv poll room s :=
  run_invariant (P := Inv poll room) (fun _ _ _ stepped inv => inv.step stepped) ran inv_fresh

/-! ### What a reader can rely on -/

/-- **What a feed has delivered**, and what it holds: the room's messages after its start and up
to its cursor, in their order; and no batch is empty. -/
structure ExactlyOnce (room : RoomId) (s : FeedRun) (feed : MessagesFeed) : Prop where
  delivered : s.batches.flatten ++ feed.holding
    = (roomLog room s.log).filter fun m => decide (s.start < m.seq) && decide (m.seq ≤ feed.cursor)
  ascending : (s.batches.flatten ++ feed.holding).Pairwise fun a b => a.seq < b.seq
  some_ : ∀ batch ∈ s.batches, batch ≠ []

/-- **Exactly once, from poster to reader**: in every run of a feed, for any page limit.  Others
may post before, between and after the polls, fetches may fail, and the feed may be dropped in any
state. -/
theorem exactly_once {events : List FeedEvent} (ran : run (step poll room) fresh events = some s) :
    ∀ feed ∈ s.feed, ExactlyOnce room s feed := by
  intro feed held
  have inv := run_inv ran
  have ascending := roomLog_ascending inv.ascending room
  have reading := (inv.reading feed held).grow
    (roomLog_grows (List.take_prefix _ _) room) ascending
  refine ⟨?_, ?_, inv.some_⟩
  · rw [reading.got, between, upto, above, List.filter_filter]
    refine List.filter_congr fun m _ => ?_
    rw [Bool.and_comm]
  · rw [reading.got]
    exact (ascending.filter _).filter _

namespace Sample

/-- A message at a position. -/
def message (n : ℕ) : Message := ⟨⟨n⟩, "ada", "hi", ⟨0⟩⟩

/-- A feed is opened on its newest page; then a fetch fails, a `next` is dropped while its reply
is out, and the next one brings what was posted meanwhile. -/
def interrupted : List FeedEvent :=
  [.post ⟨1⟩ (message 1), .watch .newest, .answer 1, .arrive 0, .next 0, .next 0, .wake 2,
    .fail (.transport .timeout) 2, .post ⟨2⟩ (message 2), .post ⟨1⟩ (message 3), .next 2, .wake 4,
    .answer 3, .drop, .next 4, .answer 3, .arrive 4]

end Sample

/-- Nothing is lost or given twice, although a `next` was dropped with its reply out. -/
theorem exactly_once_interrupted : ∃ s feed,
    run (step ⟨2, 2, 50⟩ ⟨1⟩) fresh Sample.interrupted = some s ∧ s.feed = some feed ∧
      s.batches = [[Sample.message 1], [Sample.message 3]] ∧ ExactlyOnce ⟨1⟩ s feed := by
  obtain ⟨s, feed, ran, held, batches⟩ : ∃ s feed,
      run (step ⟨2, 2, 50⟩ ⟨1⟩) fresh Sample.interrupted = some s ∧ s.feed = some feed ∧
        s.batches = [[Sample.message 1], [Sample.message 3]] := ⟨_, _, rfl, rfl, rfl⟩
  exact ⟨s, feed, ran, held, batches, exactly_once ran feed held⟩

end FeedRun

/-! ### What a short page means -/

/-- What lies beyond a page in the direction that was asked for. -/
def beyond (log page : List Message) : ChatClient.Cursor → List Message
  | .newest => log.filter fun m => page.all fun shown => m.seq < shown.seq
  | .after seq => log.filter fun m => seq < m.seq ∧ page.all fun shown => shown.seq < m.seq
  | .before seq => log.filter fun m => m.seq < seq ∧ page.all fun shown => m.seq < shown.seq

/-- What there is in the direction that is asked for. -/
def ahead (log : List Message) : ChatClient.Cursor → List Message
  | .newest => log
  | .after seq => log.filter fun m => seq < m.seq
  | .before seq => log.filter fun m => m.seq < seq

/-- **A short page means the end**: the fetch is accepted, and a page with fewer messages than
were asked for leaves nothing.  So a feed that has gone on to its end stops catching up, and one
that has not asks again at once. -/
structure ShortIsEnd (poll : PollConfig) (log : List Message) (cursor : ChatClient.Cursor)
    (fetched : Except ChatError (List Message)) : Prop where
  accepted : ∃ page, fetched = .ok page
  end_ : ∀ page, fetched = .ok page → page.length < poll.pageSize → beyond log page cursor = []
  caughtUp : ∀ (feed : MessagesFeed) now, cursor = .after feed.cursor →
    (feed.settle poll now fetched).1.catchingUp = false →
      ∀ m ∈ log, m.seq ≤ (feed.settle poll now fetched).1.cursor
  drains : ∀ (feed : MessagesFeed) now later, cursor = .after feed.cursor → feed.holding = [] →
    (∃ m ∈ log, (feed.settle poll now fetched).1.cursor < m.seq) →
      ((feed.settle poll now fetched).1.next poll later).2 = .pending (.reply none)

/-- The two sides mean the same by a full page: the position is one that the store can look up,
and the page size is one that the server gives, or a `u32` that takes in all there is on a page
of the server's. -/
def Agreed (poll : PollConfig) (log : List Message) (cursor : ChatClient.Cursor) : Prop :=
  (cursor.query poll.pageSize).Fits ∧
    (poll.pageSize ≤ MAX_LIMIT ∨ poll.pageSize ≤ u32Max ∧ (ahead log cursor).length ≤ MAX_LIMIT)

section

variable {poll : PollConfig} {log : List Message} {limit : ℕ} {cursor : ChatClient.Cursor}

/-- A page holds as much as it is allowed to, of what there is. -/
theorem page_length (log : List Message) (limit : ℕ) (cursor : ChatClient.Cursor) :
    ((cursor.query limit).page log).length
      = min (max 1 (min limit MAX_LIMIT)) (ahead log cursor).length := by
  have last (l : List Message) (n : ℕ) : (l.rtake n).length = min n l.length := by
    rw [List.rtake, List.length_drop]
    omega
  cases cursor with
  | newest => exact last log _
  | after seq => exact List.length_take
  | before seq => exact last _ _

/-- **What a page leaves**: all there is but the page.  The page has as many messages as were asked
for, but one at least, and no more than the server's own limit. -/
theorem beyond_length (ascending : Ascending Message.seq log) (limit : ℕ)
    (cursor : ChatClient.Cursor) : (beyond log ((cursor.query limit).page log) cursor).length
      = (ahead log cursor).length - max 1 (min limit MAX_LIMIT) := by
  have later (l page : List Message) (seq : Seq) : l.filter (fun m => decide (seq < m.seq ∧
      page.all fun shown => shown.seq < m.seq)) = (above Message.seq seq l).filter fun m =>
        page.all fun shown => shown.seq < m.seq := by
    rw [above, List.filter_filter]
    refine List.filter_congr fun m _ => ?_
    rw [Bool.decide_and, Bool.decide_eq_true, Bool.and_comm]
  have earlier (l page : List Message) (seq : Seq) : l.filter (fun m => decide (m.seq < seq ∧
      page.all fun shown => m.seq < shown.seq)) = (below Message.seq seq l).filter fun m =>
        page.all fun shown => m.seq < shown.seq := by
    rw [below, List.filter_filter]
    refine List.filter_congr fun m _ => ?_
    rw [Bool.decide_and, Bool.decide_eq_true, Bool.and_comm]
  cases cursor with
  | newest =>
      have left := filter_before_rtake ascending (max 1 (min limit MAX_LIMIT))
      change (log.filter fun a => (log.rtake _).all fun b => a.seq < b.seq).length = _
      rw [left, List.length_take]
      exact min_eq_left (Nat.sub_le _ _)
  | after seq =>
      have left := filter_after_take (ascending.filter fun m => seq < m.seq)
        (max 1 (min limit MAX_LIMIT))
      change (log.filter _).length = _
      rw [later]
      exact (congrArg List.length left).trans List.length_drop
  | before seq =>
      have left := filter_before_rtake (ascending.filter fun m => m.seq < seq)
        (max 1 (min limit MAX_LIMIT))
      change (log.filter _).length = _
      rw [earlier]
      refine (congrArg List.length left).trans ?_
      rw [List.length_take]
      exact min_eq_left (Nat.sub_le _ _)

theorem settle_catchingUp {feed : MessagesFeed} {now : ℕ} (page : List Message) :
    (feed.settle poll now (.ok page)).1.catchingUp = decide (poll.pageSize ≤ page.length) := by
  cases last : page.getLast? with
  | none =>
      obtain rfl := List.getLast?_eq_none_iff.mp last
      rfl
  | some newest => rw [MessagesFeed.settle_of_getLast last]

theorem settle_cursor {feed : MessagesFeed} {now : ℕ} (page : List Message) :
    (feed.settle poll now (.ok page)).1.cursor = nextCursor Message.seq feed.cursor page := by
  cases last : page.getLast? with
  | none =>
      obtain rfl := List.getLast?_eq_none_iff.mp last
      rfl
  | some newest => rw [MessagesFeed.settle_of_getLast last, nextCursor_of_getLast last]

/-- What lies after the cursor that a page leads to lies beyond the page. -/
theorem mem_beyond_of_next (ascending : Ascending Message.seq log) {seq : Seq} {m : Message}
    (mem : m ∈ log) (n : ℕ)
    (next : nextCursor Message.seq seq (pageAfter Message.seq seq n log) < m.seq) :
    m ∈ beyond log (pageAfter Message.seq seq n log) (.after seq) := by
  suffices past : seq < m.seq ∧ ∀ shown ∈ pageAfter Message.seq seq n log, shown.seq < m.seq by
    rw [beyond, List.mem_filter, decide_eq_true_iff, List.all_eq_true]
    exact ⟨mem, past.1, fun shown on_page => decide_eq_true (past.2 shown on_page)⟩
  cases last : (pageAfter Message.seq seq n log).getLast? with
  | none =>
      rw [List.getLast?_eq_none_iff.mp last] at next ⊢
      exact ⟨next, fun _ none => absurd none List.not_mem_nil⟩
  | some z =>
      rw [nextCursor_of_getLast last] at next
      refine ⟨(lt_of_mem_pageAfter (List.mem_of_getLast? last)).trans next, fun shown on_page => ?_⟩
      rw [pageAfter_eq_between ascending last, mem_between] at on_page
      exact lt_of_le_of_lt on_page.2.2 next

/-- A feed that has read a page and is still catching up asks again at once. -/
theorem asks_of_catchingUp {feed : MessagesFeed} {now later : ℕ} {page : List Message}
    (empty : feed.holding = []) (full : poll.pageSize ≤ page.length) :
    ((feed.settle poll now (.ok page)).1.next poll later).2 = .pending (.reply none) := by
  have some_ : page ≠ [] := by
    rintro rfl
    exact absurd full (by simp [PollConfig.pageSize])
  rw [MessagesFeed.settle_of_getLast (List.getLast?_eq_some_getLast some_)]
  simp [MessagesFeed.next, MessagesFeed.enter, MessagesFeed.wait, MessagesFeed.isDue, empty, full]

/-- What a short page means, given that nothing lies beyond it. -/
theorem shortIsEnd_of_end (ascending : Ascending Message.seq log)
    (answered : served log poll.pageSize cursor = .ok ((cursor.query poll.pageSize).page log))
    (none_beyond : ((cursor.query poll.pageSize).page log).length < poll.pageSize →
      beyond log ((cursor.query poll.pageSize).page log) cursor = []) :
    ShortIsEnd poll log cursor (served log poll.pageSize cursor) := by
  rw [answered]
  have newer (feed : MessagesFeed) (now : ℕ) (at_ : cursor = .after feed.cursor) (m : Message)
      (mem : m ∈ log) (past : (feed.settle poll now
        (.ok ((cursor.query poll.pageSize).page log))).1.cursor < m.seq) :
      poll.pageSize ≤ ((cursor.query poll.pageSize).page log).length := by
    subst at_
    rw [settle_cursor] at past
    by_contra short
    have waiting := mem_beyond_of_next ascending mem _ past
    exact List.ne_nil_of_mem waiting (none_beyond (not_le.mp short))
  refine ⟨⟨_, rfl⟩, ?_, ?_, ?_⟩
  · rintro _ ⟨⟩ short
    exact none_beyond short
  · intro feed now at_ done m mem
    rw [settle_catchingUp, decide_eq_false_iff_not] at done
    by_contra past
    exact done (newer feed now at_ m mem (not_le.mp past))
  · rintro feed now later at_ empty ⟨m, mem, past⟩
    exact asks_of_catchingUp empty (newer feed now at_ m mem past)

/-- **Where the two sides agree**, of what is served.  The client takes a short page for the end of
what there is, and the server cuts a page to its own limit; they agree where that limit does not
come in between. -/
theorem served_shortIsEnd_iff (ascending : Ascending Message.seq log) :
    ShortIsEnd poll log cursor (served log poll.pageSize cursor) ↔ Agreed poll log cursor := by
  have positive : 1 ≤ poll.pageSize := le_max_right _ _
  have most : MAX_LIMIT ≤ u32Max := by decide
  have one : 1 ≤ MAX_LIMIT := by decide
  have length := page_length log poll.pageSize cursor
  have left := beyond_length ascending poll.pageSize cursor
  constructor
  · intro means
    obtain ⟨page, answered⟩ := means.accepted
    have same := page_of_served answered
    have none_beyond := means.end_ page answered
    unfold served at answered
    split at answered
    · cases answered
    · split at answered
      · rename_i small fits
        refine ⟨fits, ?_⟩
        rw [same] at none_beyond
        -- otherwise the page falls short of what was asked for, and yet leaves something
        by_contra apart
        have short : ((cursor.query poll.pageSize).page log).length < poll.pageSize := by omega
        rw [none_beyond short, List.length_nil] at left
        omega
      · cases answered
  · rintro ⟨fits, agreed⟩
    have small : ¬ u32Max < poll.pageSize := by omega
    refine shortIsEnd_of_end ascending ?_ ?_
    · unfold served
      rw [if_neg small, if_pos fits]
    · intro short
      refine List.eq_nil_of_length_eq_zero ?_
      omega

end

/-- **For which page sizes a short page means the end**: of what the handler answers to the
client's fetch, whatever the room holds. -/
theorem short_page_iff_end {ω : ℕ → Moment} {w : World} {room : RoomId} {state : AppState}
    {authorization : Option (List UInt8)} {body : JsonBody} {username : String}
    (accepted : authenticate state authorization (ω 0).now w.issued = .ok username)
    (valid : w.db.Valid) (there : ∃ row ∈ w.db.rooms, row.id = room.get)
    (works : ∀ n, (ω n).fails = false) (poll : PollConfig) (cursor : ChatClient.Cursor)
    (position : ∀ seq ∈ cursor.position, seq.get ≤ u64Max) :
    ShortIsEnd poll (w.db.log room) cursor (received ((handle state
        (pageRequest authorization body room poll.pageSize cursor)).exec ω w).1)
      ↔ Agreed poll (w.db.log room) cursor := by
  rw [list_served accepted valid there works position]
  exact served_shortIsEnd_iff (log_ascending valid room)

namespace Sample

/-- A server to read from. -/
def paging : AppState where
  crypto := .plain
  tokens := ⟨[], 604800⟩
  config := ⟨10, 10, 100, 7, "0.1.0"⟩

/-- The header of a session. -/
def bearer : List UInt8 :=
  "Bearer ada.604800".toList.map fun c => UInt8.ofNat c.toNat

def noBody : JsonBody := ⟨.error "", .error "", .error "", .error ""⟩

/-- A lobby with a number of messages. -/
def backlog (n : ℕ) : World where
  db := ⟨[], [⟨1, LOBBY, 0⟩], (List.range n).map fun i => ⟨i + 1, 1, "ada", "hi", 0⟩⟩
  issued := [⟨[], ⟨"ada", 604800⟩, "ada.604800"⟩]

theorem bearer_accepted (n : ℕ) :
    authenticate paging (some bearer) 0 (backlog n).issued = .ok "ada" := by
  change authenticate paging (some bearer) 0 (backlog 0).issued = .ok "ada"
  decide +kernel

theorem backlog_valid (n : ℕ) (fits : n ≤ i64Max) : (backlog n).db.Valid := by
  induction n with
  | zero =>
      exact ⟨List.Pairwise.nil, List.pairwise_singleton _ _, rfl, rfl, by decide, by decide,
        fun _ mem => absurd mem List.not_mem_nil, fun _ mem => absurd mem List.not_mem_nil⟩
  | succ n ih =>
      have posted := (ih (Nat.le_of_succ_le fits)).addMessage ⟨n + 1, 1, "ada", "hi", 0⟩
        (by simp [backlog]) (by simpa [backlog] using Nat.lt_of_succ_le fits) le_rfl
        ⟨⟨1, LOBBY, 0⟩, List.mem_cons_self, rfl⟩
      simpa [backlog, List.range_succ] using posted

end Sample

/-- With a page limit of 50, a page of fewer is the end, although 201 messages wait. -/
theorem short_page_of_fifty : ShortIsEnd ⟨2, 2, 50⟩ ((Sample.backlog 201).db.log ⟨1⟩) (.after ⟨0⟩)
    (received ((handle Sample.paging (pageRequest (some Sample.bearer) Sample.noBody ⟨1⟩
      (PollConfig.pageSize ⟨2, 2, 50⟩) (.after ⟨0⟩))).exec (fun _ => {}) (Sample.backlog 201)).1) :=
  (short_page_iff_end (Sample.bearer_accepted 201) (Sample.backlog_valid 201 (by decide))
    ⟨⟨1, LOBBY, 0⟩, List.mem_cons_self, rfl⟩ (fun _ => rfl) ⟨2, 2, 50⟩ (.after ⟨0⟩)
    (by rintro _ ⟨⟩; decide)).mpr ⟨by decide, Or.inl (by decide)⟩

/-- **With a page limit of 300, the server's full page of 200 is taken for the end**, and the
message after it has to wait. -/
theorem full_page_taken_for_end :
    ¬ ShortIsEnd ⟨2, 2, 300⟩ ((Sample.backlog 201).db.log ⟨1⟩) (.after ⟨0⟩)
      (received ((handle Sample.paging (pageRequest (some Sample.bearer) Sample.noBody ⟨1⟩
        (PollConfig.pageSize ⟨2, 2, 300⟩) (.after ⟨0⟩))).exec (fun _ => {})
          (Sample.backlog 201)).1) := by
  have valid := Sample.backlog_valid 201 (by decide)
  rw [list_served (Sample.bearer_accepted 201) valid ⟨⟨1, LOBBY, 0⟩, List.mem_cons_self, rfl⟩
    (fun _ => rfl) (by rintro _ ⟨⟩; decide)]
  intro means
  obtain ⟨-, given | ⟨-, few⟩⟩ := (served_shortIsEnd_iff (log_ascending valid _)).mp means
  · exact absurd given (by decide)
  · exact absurd few (by decide +kernel)

end ScionChat
