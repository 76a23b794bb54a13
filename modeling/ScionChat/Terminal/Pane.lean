import ScionChat.Terminal.Calls

/-!
# What the pane shows

`append` takes a batch for one of the room that is selected when it arrives.  That is right as long
as the open room's stream, the room the pane records as watched and the selection name one room:
`Watching` is what holds while a room is watched, and `Pane` of any time on the chat screen.

`pane_shows_selected` is what the user can rely on, where the server keeps the rooms it has listed:
the pane is a contiguous piece of the selected room's log, and begins with the newest page as the
room was opened.

### design decisions

* **A batch carries no room.**  The source's batch is a list of messages, and so is the model's.
  That it is of the room that is selected has to be proved, from the stream it came out of.
* **The server keeps its rooms.**  `Keeping` says that a list of rooms has those that an earlier
  one had.  A list without the open room moves the selection, and the pane is then opened anew.

### What is load-bearing

The order in which the loop does things: selecting a room empties the pane and drops the stream in
the same step.  So no state is reached in which the stream of one room is polled for the pane of
another, and `pane_step` has no such case to close.
-/

namespace ScionChat

open TransitionSystem KeyedLog

namespace Terminal

variable {Input : Type} {kit : Toolkit Input} {s t : Terminal Input} {event : TerminalEvent}

/-! ### While a room is watched -/

/-- The newest page of a room, as its log was at some time. -/
def NewestPage (room : RoomId) (log : List (RoomId × Message)) (page : List Message) : Prop :=
  ∃ n ≤ log.length, served (roomLog room (log.take n)) terminalPoll.pageSize .newest = .ok page

/-- **What holds while a room is watched**: it is the selected one, and the pane shows what its
feed has handed over, from the newest page on. -/
structure Watching (log : List (RoomId × Message)) (page : List Message) (stream : MessagesStream)
    (screen : Chat Input) : Prop where
  watched : screen.watched = some stream.feed.room
  selected : screen.openRoom.map Room.id = some stream.feed.room
  reading : ∃ start, Reading Message.seq start stream.feed.cursor (roomLog stream.feed.room log)
    (screen.messages ++ stream.feed.holding)
  begins : page <+: screen.messages ++ stream.feed.holding
  newest : NewestPage stream.feed.room log page
  held : stream.feed.holding = [] ∨ screen.messages = []
  reply : ∀ fetched, stream.awaits = some (.reply (some fetched)) → ∃ n ≤ log.length,
    fetched = served (roomLog stream.feed.room (log.take n)) terminalPoll.pageSize
      (.after stream.feed.cursor)

/-- **The pane at any time**: nothing is watched and it is empty, or a room is watched.  A room
that is being opened is selected already, and its pane is empty until its feed is there. -/
def Pane (log : List (RoomId × Message)) (page : List Message) (app : App Input) : Prop :=
  ∀ screen, app.screen = .chat screen →
    app.messages = none ∧ screen.messages = [] ∧ screen.watched = none ∨
      ∃ stream, app.messages = some stream ∧ Watching log page stream screen

/-- What has been seen of a log is still there when it has grown. -/
theorem take_of_grows {α : Type} {log later : List α} (grows : log <+: later) {n : ℕ}
    (bound : n ≤ log.length) : later.take n = log.take n := by
  obtain ⟨more, rfl⟩ := grows
  exact List.take_append_of_le_length bound

/-- A log that grows leaves what the pane shows as it is. -/
theorem Watching.grow {log later : List (RoomId × Message)} {page : List Message}
    {stream : MessagesStream} {screen : Chat Input} (watching : Watching log page stream screen)
    (grows : log <+: later) (posted : Posted later) : Watching later page stream screen where
  watched := watching.watched
  selected := watching.selected
  reading := by
    obtain ⟨start, reading⟩ := watching.reading
    exact ⟨start, reading.grow (roomLog_grows grows _) (roomLog_ascending posted.ascending _)⟩
  begins := watching.begins
  newest := by
    obtain ⟨n, bound, got⟩ := watching.newest
    exact ⟨n, bound.trans grows.length_le, by rw [take_of_grows grows bound]; exact got⟩
  held := watching.held
  reply := by
    intro fetched awaits
    obtain ⟨n, bound, got⟩ := watching.reply fetched awaits
    exact ⟨n, bound.trans grows.length_le, by rw [take_of_grows grows bound]; exact got⟩

/-- The pane shows the same. -/
theorem Watching.same {log : List (RoomId × Message)} {page : List Message}
    {stream : MessagesStream} {screen shown : Chat Input}
    (watching : Watching log page stream screen) (pane : screen.SamePane True shown) :
    Watching log page stream shown where
  watched := pane.watched.trans watching.watched
  selected := (pane.openRoom trivial).trans watching.selected
  reading := by
    rw [pane.messages]
    exact watching.reading
  begins := by
    rw [pane.messages]
    exact watching.begins
  newest := watching.newest
  held := by
    rw [pane.messages]
    exact watching.held
  reply := watching.reply

/-- **A poll of the stream**: what it hands over goes on where the pane ends.  What the stream
awaits is of the same room, so the page that answers it goes on from its cursor. -/
theorem Watching.polled {log : List (RoomId × Message)} {page got : List Message}
    {stream : MessagesStream} {screen shown : Chat Input}
    (watching : Watching log page stream screen)
    (posted : Posted log) {feed : MessagesFeed} {polled : Polled}
    (goes : PollStep stream.feed got feed polled)
    (reply : got = [] ∨ stream.awaits = some (.reply (some (.ok got)))) (awaits : Option Awaits)
    (asks : ∀ fetched, awaits ≠ some (.reply (some fetched)))
    (watched : shown.watched = screen.watched) (open_ : shown.openRoom = screen.openRoom)
    (messages : shown.messages = screen.messages ++ polled.batch) :
    Watching log page ⟨feed, awaits⟩ shown where
  watched := by
    rw [watched, goes.room]
    exact watching.watched
  selected := by
    rw [open_, goes.room]
    exact watching.selected
  reading := by
    obtain ⟨start, reading⟩ := watching.reading
    -- what has been read now ends with the page that has arrived, if one has
    have next : Reading Message.seq start (nextCursor Message.seq stream.feed.cursor got)
        (roomLog stream.feed.room log) (screen.messages ++ stream.feed.holding ++ got) := by
      rcases reply with rfl | awaited
      · rw [List.append_nil]
        exact reading
      · obtain ⟨n, -, served⟩ := watching.reply (.ok got) awaited
        rw [page_of_served served.symm]
        exact reading.page_of_prefix (roomLog_ascending posted.ascending _)
          (roomLog_grows (List.take_prefix _ _) _) _
    refine ⟨start, ?_⟩
    rw [messages, goes.handsOver, goes.holding, goes.cursor, goes.room, List.append_nil,
      ← List.append_assoc]
    exact next
  begins := by
    rw [messages, goes.handsOver, goes.holding, List.append_nil, ← List.append_assoc]
    exact watching.begins.trans (List.prefix_append _ _)
  newest := by
    rw [goes.room]
    exact watching.newest
  held := Or.inl goes.holding
  reply := fun fetched same => absurd same (asks fetched)

/-- **The newest page of the room that is opened** is where the pane will begin.  The page was cut
from the log as it was when the server answered, which has only grown since. -/
theorem Watching.opened {log : List (RoomId × Message)} (posted : Posted log) {room : RoomId}
    {n : ℕ}
    {page : List Message} {screen : Chat Input} (bound : n ≤ log.length)
    (got : served (roomLog room (log.take n)) terminalPoll.pageSize .newest = .ok page)
    (selected : screen.openRoom.map Room.id = some room) (empty : screen.messages = []) :
    Watching log page ⟨.opened terminalPoll room .newest page, none⟩ (screen.watching room) where
  watched := rfl
  selected := selected
  reading := by
    have ascending := roomLog_ascending posted.ascending room
    have seen : roomLog room (log.take n) <+: roomLog room log :=
      roomLog_grows (List.take_prefix _ _) room
    have positive : ∀ message ∈ roomLog room (log.take n), Seq.START < message.seq := by
      intro message mem
      exact posted.positive _ (List.mem_of_mem_take (mem_roomLog.mp mem))
    have first := FeedRun.reading_first (ascending.sublist seen.sublist) positive
      (page_of_served got : page = (Since.newest.cursor.query terminalPoll.pageSize).page _)
    refine ⟨FeedRun.startOf .newest page, ?_⟩
    change Reading Message.seq _ _ (roomLog room log) (screen.messages ++ page)
    rw [empty]
    exact first.grow seen ascending
  begins := by
    rw [Chat.watching, empty]
    exact List.prefix_rfl
  newest := ⟨n, bound, got⟩
  held := Or.inr empty
  reply := nofun

/-! ### One step -/

/-- What is kept of the pane. -/
structure PaneInv (s : Terminal Input) : Prop where
  calls : Inv True s
  posted : Posted s.log
  pane : Pane s.log s.page s.app

/-- **A function of the app leaves the pane right.** A function that selects another room empties
the pane, and any other leaves it alone. -/
theorem Pane.does {app : App Input} {log : List (RoomId × Message)} {page : List Message}
    (pane : Pane log page app) {did : App Input × Option AppCall} (does : App.Does True app did) :
    Pane log page did.1 := by
  intro screen at_
  cases does with
  | keeps after started same fits =>
      obtain ⟨shown, shows, kept⟩ := same.screen.chat_left at_
      rcases pane shown shows with ⟨none_, empty, unwatched⟩ | ⟨stream, held, watching⟩
      · exact Or.inl ⟨same.messages.trans none_, kept.messages.trans empty,
          kept.watched.trans unwatched⟩
      · exact Or.inr ⟨stream, same.messages.trans held, watching.same kept⟩
  | opens after room fits sound =>
      obtain ⟨none_, shown, shows, -, empty, unwatched⟩ := fits
      obtain rfl := Screen.chat.inj (shows.symm.trans at_)
      exact Or.inl ⟨none_, empty, unwatched⟩
  | signIn after shows idle sound =>
      obtain ⟨other, elsewhere⟩ := shows
      rw [elsewhere] at at_
      cases at_

/-- The stream of the open room is the one that is watched. -/
theorem PaneInv.watching (inv : PaneInv s) {stream : MessagesStream}
    (held : s.app.messages = some stream) :
    ∃ screen, s.app.screen = .chat screen ∧ Watching s.log s.page stream screen := by
  obtain ⟨screen, at_⟩ := inv.calls.sound.shows_chat held
  rcases inv.pane screen at_ with ⟨none_, -, -⟩ | ⟨other, held', watching⟩
  · rw [held] at none_
    cases none_
  · obtain rfl := Option.some.inj (held.symm.trans held')
    exact ⟨screen, at_, watching⟩

/-- **A poll of the stream leaves the pane right.** What it hands over is appended, and is of the
room that is watched. -/
theorem PaneInv.polled (inv : PaneInv s) {stream : MessagesStream}
    (held : s.app.messages = some stream) {got : List Message} {feed : MessagesFeed}
    {polled : Polled}
    (goes : PollStep stream.feed got feed polled)
    (reply : got = [] ∨ stream.awaits = some (.reply (some (.ok got)))) :
    Pane s.log s.page (s.polled kit (feed, polled)).app := by
  obtain ⟨screen, at_, watching⟩ := inv.watching held
  intro shown shows
  cases polled with
  | pending awaits =>
      obtain rfl := Screen.chat.inj (at_.symm.trans shows)
      refine Or.inr ⟨⟨feed, some awaits⟩, rfl, ?_⟩
      refine watching.polled inv.posted goes reply _ ?_ rfl rfl (List.append_nil _).symm
      intro fetched same
      exact goes.asks fetched (congrArg Polled.pending (Option.some.inj same))
  | ready result =>
      have shown_ : (s.streaming ⟨feed, none⟩).app.screen = .chat screen := at_
      cases result with
      | error error =>
          -- a failure keeps the stream, or ends the session and the pane with it
          have pane : Pane s.log s.page (s.streaming ⟨feed, none⟩).app := by
            intro other is
            obtain rfl := Screen.chat.inj (at_.symm.trans is)
            exact Or.inr ⟨_, rfl, watching.polled inv.posted goes reply none nofun rfl rfl
              (List.append_nil _).symm⟩
          exact pane.does (App.applyMessages_does _ error) shown shows
      | ok batch =>
          have appended : (s.polled kit (feed, .ready (.ok batch))).app = _ :=
            App.applyMessages_of_chat kit shown_ batch
          rw [appended] at shows ⊢
          obtain rfl := Screen.chat.inj shows
          exact Or.inr ⟨_, rfl, watching.polled inv.posted goes reply none nofun rfl rfl rfl⟩

/-- A log that grows leaves the pane right. -/
theorem Pane.grow {app : App Input} {log later : List (RoomId × Message)} {page : List Message}
    (pane : Pane log page app) (grows : log <+: later) (posted : Posted later) :
    Pane later page app := by
  intro screen at_
  rcases pane screen at_ with empty | ⟨stream, held, watching⟩
  · exact Or.inl empty
  · exact Or.inr ⟨stream, held, watching.grow grows posted⟩

/-- **One step leaves the pane right.** The step's cases are those of `Did`, and each of them is
one of the lemmas above. -/
theorem pane_step (keeping : Keeping s event) (stepped : s.step kit event = some t)
    (inv : PaneInv s) : PaneInv t := by
  have calls := inv_step (fun _ => keeping) stepped inv.calls
  have posted := inv.posted
  cases step_did inv.calls (fun _ => keeping) stepped with
  | acts _ did cause acts does =>
      exact ⟨calls, by rw [acted_log]; exact posted,
        by rw [acted_log, acted_page, acted_app]; exact inv.pane.does does⟩
  | polls event stream held page feed polled goes reply noKey =>
      exact ⟨calls, by rw [polled_log]; exact posted,
        by rw [polled_log, polled_page]; exact inv.polled held goes reply⟩
  | replies n feed held bound =>
      refine ⟨calls, posted, fun screen at_ => ?_⟩
      obtain ⟨shown, shows, watching⟩ := inv.watching held
      obtain rfl := Screen.chat.inj (shows.symm.trans at_)
      refine Or.inr ⟨_, rfl, watching.watched, watching.selected, watching.reading, watching.begins,
        watching.newest, watching.held, ?_⟩
      rintro fetched ⟨⟩
      exact ⟨n, bound, rfl⟩
  | posts room message newest =>
      exact ⟨calls, posted.post newest, inv.pane.grow (List.prefix_append _ _) (posted.post newest)⟩
  | lands id task room message is sends fresh newest =>
      exact ⟨calls, posted.post newest, inv.pane.grow (List.prefix_append _ _) (posted.post newest)⟩
  | finishes id task outcome answer is running answers =>
      refine ⟨calls, posted, ?_⟩
      unfold finished
      split <;> exact inv.pane
  | takes id answer one did acts does =>
      have pane : Pane s.log s.page s.freed.app := inv.pane
      exact ⟨calls, by rw [acted_log]; exact posted,
        by rw [acted_log, acted_page, acted_app]; exact pane.does does⟩
  | opens id room screen n page bound got at_ fits one =>
      refine ⟨calls, posted, fun shown shows => Or.inr ⟨_, rfl, ?_⟩⟩
      obtain ⟨-, there, is, selected, empty, -⟩ := fits
      obtain rfl := Screen.chat.inj (at_.symm.trans is)
      obtain rfl := Screen.chat.inj shows
      exact .opened posted bound got (selected trivial) empty

theorem paneInv_launched (form : ConnectionForm) : PaneInv (launched kit form) :=
  ⟨inv_launched form, ⟨List.Pairwise.nil, nofun⟩, nofun⟩

/-! ### What the user sees -/

variable (s) in
/-- **The pane shows the selected room**: a contiguous piece of its log, which begins with the
newest page as the room was opened; and what is watched is that room. -/
structure ShowsSelected : Prop where
  selected : ∀ screen, s.app.screen = .chat screen → ∃ room, screen.openRoom = some room
  segment : ∀ screen room, s.app.screen = .chat screen → screen.openRoom = some room →
    screen.messages <:+: roomLog room.id s.log ∧ Ascending Message.seq screen.messages ∧
      (screen.messages ≠ [] → s.page <+: screen.messages ∧ NewestPage room.id s.log s.page)
  feed : ∀ screen room stream, s.app.screen = .chat screen → screen.openRoom = some room →
    s.app.messages = some stream → stream.feed.room = room.id ∧ screen.watched = some room.id
  watched : ∀ screen room there, s.app.screen = .chat screen → screen.openRoom = some room →
    screen.watched = some there → there = room.id

theorem PaneInv.showsSelected (inv : PaneInv s) : ShowsSelected s where
  selected := fun screen at_ => (inv.calls.sound.selected screen at_).openRoom
  segment := by
    intro screen room at_ open_
    rcases inv.pane screen at_ with ⟨-, empty, -⟩ | ⟨stream, held, watching⟩
    · rw [empty]
      exact ⟨List.nil_infix, List.Pairwise.nil, fun some_ => absurd rfl some_⟩
    · have same := watching.selected
      rw [open_, Option.map_some] at same
      rw [Option.some.inj same]
      have ascending := roomLog_ascending inv.posted.ascending stream.feed.room
      have shown : screen.messages <:+: roomLog stream.feed.room s.log := by
        obtain ⟨start, reading⟩ := watching.reading
        exact (List.prefix_append _ _).isInfix.trans (reading.isInfix ascending)
      refine ⟨shown, ascending.sublist shown.sublist, fun some_ => ⟨?_, watching.newest⟩⟩
      -- a pane that shows something has been handed all that the feed held
      have begins := watching.begins
      rwa [watching.held.resolve_right some_, List.append_nil] at begins
  feed := by
    intro screen room stream at_ open_ held
    obtain ⟨shown, shows, watching⟩ := inv.watching held
    obtain rfl := Screen.chat.inj (at_.symm.trans shows)
    have same := watching.selected
    rw [open_, Option.map_some] at same
    rw [watching.watched, ← Option.some.inj same]
    exact ⟨rfl, rfl⟩
  watched := by
    intro screen room there at_ open_ recorded
    rcases inv.pane screen at_ with ⟨-, -, unwatched⟩ | ⟨stream, held, watching⟩
    · rw [unwatched] at recorded
      cases recorded
    · have same := watching.selected
      rw [open_, Option.map_some] at same
      rw [watching.watched] at recorded
      exact (Option.some.inj recorded).symm.trans (Option.some.inj same).symm

/-- **The pane always shows the selected room**, in every run in which the server keeps the rooms
it has listed.  Nothing is asked of the keys, of the time between polls, or of the fetches, which
may fail.  What carries over a step is that the open room's feed, if there is one, watches what the
pane shows. -/
theorem pane_shows_selected {form : ConnectionForm} {events : List TerminalEvent}
    (keeping : Along (step kit) Keeping (launched kit form) events)
    (ran : run (step kit) (launched kit form) events = some s) : ShowsSelected s :=
  (run_invariant_along (fun _ _ _ keeping stepped inv => pane_step keeping stepped inv) keeping ran
    (paneInv_launched form)).showsSelected

namespace Sample

def posted (n : ℕ) : Message := ⟨⟨n⟩, "ada", "hi", ⟨0⟩⟩

/-- The first room is opened with a message in it, and watched while another one is posted and a
third room is listed. -/
def watching : List TerminalEvent :=
  connecting ++ [.post ⟨1⟩ (posted 1), enter, .finish 1 (.listed twoRooms), .answer,
    .finish 2 (.page 1), .answer, .poll 0, .rooms (.ok (twoRooms ++ [⟨⟨3⟩, "new", Seq.START⟩])),
    .poll 0, .post ⟨1⟩ (posted 2), .poll 1000, .reply 2, .arrive 1000]

end Sample

/-- The pane has the page of the room, and after it what was posted since. -/
theorem pane_shows_selected_watching : ∃ s screen, run (step Toolkit.plain)
    (launched Toolkit.plain ConnectionForm.Sample.answered) Sample.watching = some s ∧
      s.app.screen = .chat screen ∧ screen.messages = [Sample.posted 1, Sample.posted 2] ∧
        ShowsSelected s := by
  obtain ⟨s, screen, ran, at_, messages⟩ : ∃ s screen, run (step Toolkit.plain)
      (launched Toolkit.plain ConnectionForm.Sample.answered) Sample.watching = some s ∧
        s.app.screen = .chat screen ∧ screen.messages = [Sample.posted 1, Sample.posted 2] :=
    ⟨_, _, rfl, rfl, rfl⟩
  exact ⟨s, screen, ran, at_, messages, pane_shows_selected (by decide +kernel) ran⟩

end Terminal

end ScionChat
