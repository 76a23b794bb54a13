import Mathlib.Order.Bounds.Basic
import ScionChat.Terminal.Pane

/-!
# Unread markers

The sidebar marks a room unread if the server lists a message in it that is newer than the room's
`last_read`.  `append` overwrites that position with the last one of whatever batch it is given,
for whatever room is selected; it compares nothing.  That it is right all the same, and never goes
back, rests on the stream, the selection and the times at which the server looked at its log.

`Reader` is a terminal together with what its user has been shown since signing in.  `ReadInv` is
what its runs keep, against a server that never shows an older log than it has shown before, and
`unread_exact` is what the markers mean.

### design decisions

* **Shown is a set.**  What the user has been shown of a room is the position it was listed with at
  the sign-in, and those of the messages that the pane has been given.  The position that the
  screen keeps is the greatest of that set, and what a marker means is said of the set.
* **An honest server, and no more.**  `Serving` asks that no page, and no list of a sign-in, is of
  an older log than the server has shown before.  A later list may be older: it can leave a marker
  out, and cannot move a position back.
* **Events carry how much is shown.**  `Timed` pairs an event with how far into its log the server
  has looked, so that being honest is a condition on one step.

### What is load-bearing

`Ahead` and `Streams`: a feed has read on from where the user is, and no further than the server
has shown.  A batch then ends past the position it overwrites, so that overwriting is as good as
taking the greater one.  Which function of the app leaves the positions alone is proved once for
each (`handleKey_remembers`, `applyRooms_remembers`, `answer_remembers`).
-/

namespace ScionChat

open TransitionSystem KeyedLog

/-! ### What leaves the positions alone -/

namespace App

variable {Input : Type} {kit : Toolkit Input} {app before after first second third : App Input}

/-- If the chat still shows afterwards, it has kept its positions and its list of rooms. -/
def Remembers (before after : App Input) : Prop :=
  ∀ shown, after.screen = .chat shown → ∃ screen, before.screen = .chat screen ∧
    shown.lastRead = screen.lastRead ∧ shown.rooms = screen.rooms

theorem Remembers.trans (one : Remembers first second) (two : Remembers second third) :
    Remembers first third := by
  intro shown shows
  obtain ⟨screen, at_, read, rooms⟩ := two shown shows
  obtain ⟨earlier, was, read', rooms'⟩ := one screen at_
  exact ⟨earlier, was, read.trans read', rooms.trans rooms'⟩

theorem remembers_of_screen (same : after.screen = before.screen) : Remembers before after :=
  fun shown shows => ⟨shown, same ▸ shows, rfl, rfl⟩

/-- The chat screen has been changed otherwise. -/
theorem remembers_chat {screen shown : Chat Input} (at_ : before.screen = .chat screen)
    (shows : after.screen = .chat shown) (read : shown.lastRead = screen.lastRead)
    (rooms : shown.rooms = screen.rooms) : Remembers before after := by
  intro other is
  obtain rfl := Screen.chat.inj (shows.symm.trans is)
  exact ⟨screen, at_, read, rooms⟩

/-- The chat does not show any more. -/
theorem remembers_away (elsewhere : ∀ screen, after.screen ≠ .chat screen) :
    Remembers before after :=
  fun shown shows => absurd shows (elsewhere shown)

theorem ask_remembers (app : App Input) (call : AppCall) : Remembers app (app.ask call).1 := by
  refine remembers_of_screen ?_
  rcases ask_cases app call with refused | ⟨-, started⟩
  · rw [refused]
  · rw [started]

theorem cleared_remembers (app : App Input) : Remembers app app.cleared := by
  unfold cleared
  split
  · rename_i screen at_
    exact remembers_chat at_ rfl rfl rfl
  · exact remembers_of_screen rfl

theorem openRoom_remembers (app : App Input) : Remembers app app.openRoom.1 := by
  unfold openRoom
  split
  · exact remembers_of_screen rfl
  · rename_i room _
    have asked := ask_remembers app (.openRoom room)
    split
    · rename_i after refused
      rw [refused] at asked
      exact asked
    · rename_i after call started
      rw [started] at asked
      refine (asked.trans (cleared_remembers after)).trans ?_
      exact remembers_of_screen rfl

theorem send_remembers (app : App Input) (body : String) : Remembers app (app.send body).1 := by
  unfold send
  split
  · exact remembers_of_screen rfl
  · exact ask_remembers app _

theorem signedOut_remembers {error : ChatError} {ended : App Input}
    (out : app.signedOut kit error = some ended) : Remembers app ended := by
  obtain ⟨screen, shows⟩ := (signedOut_ends error out).screen
  refine remembers_away fun shown no => ?_
  rw [shows] at no
  cases no

theorem reported_remembers (app : App Input) (message : String) :
    Remembers app { app with screen := app.reported message } := by
  unfold reported
  split
  · exact remembers_away nofun
  · exact remembers_away nofun
  · rename_i screen at_
    exact remembers_chat at_ rfl rfl rfl

variable (kit) in
theorem failed_remembers (app : App Input) (error : ChatError) :
    Remembers app (app.failed kit error) := by
  unfold failed
  split
  · rename_i ended out
    exact signedOut_remembers out
  · exact reported_remembers app _

variable (kit) in
theorem refused_remembers (app : App Input) (error : ChatError) :
    Remembers app (app.refused kit error) := by
  unfold refused
  split
  · rename_i ended out
    exact signedOut_remembers out
  · split
    · rename_i screen at_
      exact remembers_chat at_ rfl rfl rfl
    · exact reported_remembers app _

theorem restored_remembers (app : App Input) (body : String) :
    Remembers app (app.restored kit body) := by
  unfold restored
  split
  · rename_i screen at_
    exact remembers_chat at_ rfl rfl rfl
  · exact remembers_of_screen rfl

/-- **No key touches the positions.** A key may move to another room, which is not marked while it
is open, and its position stays. -/
theorem handleKey_remembers (app : App Input) (key : KeyEvent) :
    Remembers app (app.handleKey kit key).1 := by
  unfold handleKey
  split
  · exact remembers_of_screen rfl
  · dsimp only
    split
    · split
      · exact remembers_away nofun
      · rename_i form _
        refine remembers_away fun shown shows => ?_
        rcases connect_cases _ form with refused | ⟨-, started⟩
        · rw [refused] at shows
          cases shows
        · rw [started] at shows
          cases shows
    · split
      · exact remembers_away nofun
      all_goals
        refine Remembers.trans ?_ (ask_remembers _ _)
        exact remembers_away nofun
    · rename_i screen at_
      -- the screen edits what is typed, or moves to another room
      have kept : Remembers app { app with
          screen := .chat (screen.handleKey kit key app.background.pending).1 } := by
        rcases Chat.handleKey_cases kit screen key app.background.pending with edits | moves
        · obtain ⟨⟨input, notices, scroll, revision, same⟩, -⟩ := edits
          rw [same]
          exact remembers_chat at_ rfl rfl rfl
        · obtain ⟨-, index, -, did⟩ := moves
          rw [did]
          exact remembers_chat at_ rfl rfl rfl
      split
      · exact kept
      · exact kept.trans (send_remembers _ _)
      · exact kept.trans (ask_remembers _ _)
      · exact kept.trans (openRoom_remembers _)

/-- **A list of rooms changes the list, and no position.** -/
theorem applyRooms_remembers (app : App Input) (rooms : List Room) {shown : Chat Input}
    (shows : (app.applyRooms kit (.ok rooms)).1.screen = .chat shown) :
    ∃ screen, app.screen = .chat screen ∧ shown.lastRead = screen.lastRead ∧
      shown.rooms = rooms := by
  cases at_ : app.screen with
  | connection screen =>
      simp only [applyRooms, at_] at shows
      split at shows
      · obtain ⟨other, is, -⟩ := openRoom_remembers app shown shows
        rw [at_] at is
        cases is
      · rw [at_] at shows
        cases shows
  | signIn screen =>
      simp only [applyRooms, at_] at shows
      split at shows
      · obtain ⟨other, is, -⟩ := openRoom_remembers app shown shows
        rw [at_] at is
        cases is
      · rw [at_] at shows
        cases shows
  | chat screen =>
      refine ⟨screen, rfl, ?_⟩
      simp only [applyRooms, at_] at shows
      split at shows
      · obtain ⟨other, is, read, listed⟩ := openRoom_remembers _ shown shows
        cases is
        exact ⟨read, listed⟩
      · cases shows
        exact ⟨rfl, rfl⟩

/-- **No answer touches the positions**, but the one that signs in.  That one makes a new chat
screen, with the positions of its list. -/
theorem answer_remembers (app : App Input) {answer : Answer}
    (other : ∀ username listed, answer ≠ .loggedIn username (.ok listed)) :
    Remembers app (app.answer kit answer).1 := by
  have freed : Remembers app { app with background := { app.background with pending := false } } :=
    remembers_of_screen rfl
  unfold App.answer
  dsimp only
  split
  · exact remembers_away nofun
  · split
    · exact freed.trans (ask_remembers _ _)
    · exact freed
  · rename_i username listed
    exact absurd rfl (other username listed)
  · unfold watching
    dsimp only
    split
    · rename_i screen at_
      exact remembers_chat at_ rfl rfl rfl
    · exact remembers_of_screen rfl
  · exact (freed.trans (restored_remembers _ _)).trans (refused_remembers kit _ _)
  · exact freed
  · exact freed
  · refine Remembers.trans (remembers_of_screen rfl) (refused_remembers kit _ _)
  all_goals exact freed.trans (refused_remembers kit _ _)

end App

/-! ### The positions of a fresh chat -/

namespace Chat

variable {Input : Type} {kit : Toolkit Input} {screen shown : Chat Input}

/-- The `latest_seq` that a list shows for a room, or `Seq::START` if the room is not listed. -/
def latestIn (rooms : List Room) (room : RoomId) : Seq :=
  ((rooms.find? fun listed => listed.id = room).map Room.latestSeq).getD Seq.START

/-- What a list shows for a room that is on it, where a room is not listed twice with different
positions. -/
theorem readFrom_eq {rooms : List Room} (latest : RoomId → Seq)
    (shows : ∀ room ∈ rooms, room.latestSeq = latest room.id) (room : RoomId) :
    readFrom rooms room = (rooms.find? fun listed => listed.id = room).map Room.latestSeq := by
  induction rooms using List.reverseRecOn with
  | nil => rfl
  | append_singleton rooms last ih =>
      have before := ih fun other mem => shows other (List.mem_append_left _ mem)
      have here : last.latestSeq = latest last.id :=
        shows last (List.mem_append_right _ (List.mem_singleton_self last))
      have next : readFrom (rooms ++ [last])
          = Function.update (readFrom rooms) last.id (some last.latestSeq) :=
        List.foldl_append
      rw [next, List.find?_append]
      by_cases same : last.id = room
      · subst same
        rw [Function.update_self]
        cases found : rooms.find? fun listed => listed.id = last.id with
        | none => simp
        | some listed =>
            -- listed before, with the same position
            have id_eq : listed.id = last.id := by simpa using List.find?_some found
            have position := shows listed (List.mem_append_left _ (List.mem_of_find?_eq_some found))
            rw [Option.some_or, Option.map_some, position, here, id_eq]
      · rw [Function.update_of_ne (Ne.symm same), before]
        simp [same]

variable (kit) in
/-- **A fresh chat starts with the positions of its list.** -/
theorem readTo_new {rooms : List Room} (latest : RoomId → Seq)
    (shows : ∀ room ∈ rooms, room.latestSeq = latest room.id) (me : String) (room : RoomId) :
    (new kit rooms me).readTo room = latestIn rooms room :=
  congrArg (fun read => read.getD Seq.START) (readFrom_eq latest shows room)

theorem readTo_of_lastRead (same : shown.lastRead = screen.lastRead) (room : RoomId) :
    shown.readTo room = screen.readTo room := by
  rw [readTo, readTo, same]

/-- **A batch moves the position of the open room**, to its last message.  The source takes the
last message of the batch, and does not look whether it is newer. -/
theorem readTo_append {room : RoomId} (open_ : screen.openRoom.map Room.id = some room)
    {batch : List Message} {newest : Message} (last : batch.getLast? = some newest)
    (other : RoomId) : (screen.append batch).readTo other
      = if other = room then newest.seq else screen.readTo other := by
  obtain ⟨opened, at_, rfl⟩ := Option.map_eq_some_iff.mp open_
  have read : (screen.append batch).lastRead
      = Function.update screen.lastRead opened.id (some newest.seq) := by
    simp only [append, changed, at_, last]
  rw [readTo, readTo, read, Function.update_apply]
  split <;> rfl

end Chat

namespace Terminal

/-! ### What the server shows -/

/-- The `latest_seq` of a room, when this is the log. -/
def latestSeq (room : RoomId) (log : List (RoomId × Message)) : Seq :=
  ((roomLog room log).getLast?.map Message.seq).getD Seq.START

/-- The rooms are listed as they stand when this is the log. -/
def ListedAt (rooms : List Room) (log : List (RoomId × Message)) : Prop :=
  ∀ room ∈ rooms, room.latestSeq = latestSeq room.id log

instance (rooms : List Room) (log : List (RoomId × Message)) : Decidable (ListedAt rooms log) :=
  inferInstanceAs (Decidable (∀ room ∈ rooms, _))

section

variable {log later : List (RoomId × Message)} {room : RoomId}

/-- No message of the room is newer. -/
theorem le_latestSeq (posted : Posted log) {message : Message}
    (mem : (room, message) ∈ log) : message.seq ≤ latestSeq room log := by
  have there : message ∈ roomLog room log := mem_roomLog.mpr mem
  obtain ⟨newest, last⟩ : ∃ newest, (roomLog room log).getLast? = some newest :=
    Option.isSome_iff_exists.mp (List.getLast?_isSome.mpr (List.ne_nil_of_mem there))
  rw [latestSeq, last]
  exact (roomLog_ascending posted.ascending room).le_getLast there last

/-- It goes up as the log grows. -/
theorem latestSeq_grows (posted : Posted later) (grows : log <+: later) :
    latestSeq room log ≤ latestSeq room later := by
  cases last : (roomLog room log).getLast? with
  | none =>
      rw [latestSeq, last]
      exact Seq.START_le _
  | some newest =>
      rw [latestSeq, last]
      have mem : (room, newest) ∈ log := mem_roomLog.mp (List.mem_of_getLast? last)
      exact le_latestSeq posted (grows.subset mem)

/-- **A feed that is opened on the newest page starts at the room's `latest_seq`.** A room without
messages has the position `START`, and so has the cursor of its feed. -/
theorem cursor_opened {page : List Message}
    (got : served (roomLog room log) terminalPoll.pageSize .newest = .ok page) :
    (MessagesFeed.opened terminalPoll room .newest page).cursor = latestSeq room log := by
  have newest : page = pageNewest _ (roomLog room log) := page_of_served got
  rw [MessagesFeed.opened, newest, getLast?_pageNewest (by decide)]
  rfl

theorem latestIn_of_listing {rooms : List Room} (listing : ListedAt rooms log) (room : RoomId) :
    Chat.latestIn rooms room ≤ latestSeq room log := by
  unfold Chat.latestIn
  cases found : rooms.find? fun listed => listed.id = room with
  | none => exact Seq.START_le _
  | some listed =>
      have id_eq : listed.id = room := by simpa using List.find?_some found
      rw [Option.map_some, Option.getD_some, listing listed (List.mem_of_find?_eq_some found),
        id_eq]

end

/-! ### What the user has been shown -/

/-- The list that the chat opens with, if the loop takes the answer of a sign-in. -/
def signsIn {Input : Type} (s : Terminal Input) : TerminalEvent → Option (List Room)
  | .answer =>
      match s.app.exit, s.app.background.answers with
      | false, (_, .loggedIn _ (.ok listed)) :: _ => some listed
      | _, _ => none
  | _ => none

/-- An event, and how much of its log the server has shown by then. -/
structure Timed where
  event : TerminalEvent
  seen : ℕ

end Terminal

/-- A terminal, with what its user has been shown. -/
structure Reader (Input : Type) where
  terminal : Terminal Input
  /-- How much of its log the server has shown. -/
  seen : ℕ
  /-- How often somebody has signed in. -/
  signIns : ℕ
  /-- The list that was there at the last sign-in. -/
  listed : List Room
  /-- The last list of all. -/
  latest : List Room
  /-- Everything the pane has been given since the last sign-in. -/
  delivered : List Message

namespace Reader

open Terminal

variable {Input : Type} (kit : Toolkit Input) (r : Reader Input)

/-- The app as it is started, with nothing shown. -/
def launched (form : ConnectionForm) : Reader Input := ⟨.launched kit form, 0, 0, [], [], []⟩

/-- The terminal has become this one. -/
def told (timed : Timed) (terminal : Terminal Input) : Reader Input :=
  match r.terminal.signsIn timed.event with
  | some listed => ⟨terminal, timed.seen, r.signIns + 1, listed, listed, []⟩
  | none =>
      { r with
        terminal := terminal
        seen := timed.seen
        latest := match timed.event with
          | .rooms (.ok rooms) => rooms
          | _ => r.latest
        delivered := r.delivered ++ r.terminal.handed timed.event }

/-- One step. -/
def step (timed : Timed) : Option (Reader Input) :=
  (r.terminal.step kit timed.event).map (r.told timed)

/-- **The server never shows an older log than it has shown before**: not on a page, and not in
the list of a sign-in.  A later list only has to keep the rooms that are listed. -/
def Serving (timed : Timed) : Prop :=
  match timed.event with
  | .reply n | .finish _ (.page n) =>
      timed.seen = n ∧ r.seen ≤ n ∧ n ≤ r.terminal.log.length
  | .finish _ (.listed rooms) =>
      ListedAt rooms (r.terminal.log.take timed.seen) ∧ r.seen ≤ timed.seen ∧
        timed.seen ≤ r.terminal.log.length
  | .rooms (.ok rooms) => timed.seen = r.seen ∧ Chat.Grown r.terminal.sidebar rooms
  | _ => timed.seen = r.seen

instance : DecidablePred r.Serving
  | ⟨.reply _, _⟩ | ⟨.finish _ (.page _), _⟩ => inferInstanceAs (Decidable (_ ∧ _ ∧ _))
  | ⟨.finish _ (.listed rooms), seen⟩ =>
      inferInstanceAs (Decidable (ListedAt rooms (r.terminal.log.take seen) ∧ _ ∧ _))
  | ⟨.rooms (.ok rooms), _⟩ =>
      inferInstanceAs (Decidable (_ ∧ Chat.Grown r.terminal.sidebar rooms))
  | ⟨.finish _ (.failed _), _⟩ | ⟨.finish _ (.connected _), _⟩ | ⟨.finish _ .done, _⟩
  | ⟨.rooms (.error _), _⟩ | ⟨.key _, _⟩ | ⟨.closed, _⟩ | ⟨.poll _, _⟩ | ⟨.arrive _, _⟩
  | ⟨.fetchFails _ _, _⟩ | ⟨.post _ _, _⟩ | ⟨.land _ _, _⟩ | ⟨.answer, _⟩ =>
      inferInstanceAs (Decidable (_ = _))

/-- The log, as far as the server has shown it. -/
def view : List (RoomId × Message) := r.terminal.log.take r.seen

/-- **What the user has been shown of a room since the sign-in**: the position it was listed
with, and those of its messages that the pane has been given. -/
def shown (room : RoomId) : Set Seq :=
  insert (Chat.latestIn r.listed room)
    {seq | ∃ message ∈ r.delivered, (room, message) ∈ r.terminal.log ∧ message.seq = seq}

/-! ### What every run keeps -/

variable {kit r} {r' before after : Reader Input} {timed : Timed}

variable (r) in
/-- A feed has read on from where the user is, and no further than the server has shown. -/
structure Ahead (feed : MessagesFeed) : Prop where
  user : ∀ screen, r.terminal.app.screen = .chat screen → screen.readTo feed.room ≤ feed.cursor
  server : feed.cursor ≤ latestSeq feed.room r.view

variable (r) in
/-- What holds of the open room's stream: the page it awaits comes from what has been shown. -/
structure Streams (stream : MessagesStream) : Prop where
  ahead : r.Ahead stream.feed
  reply : ∀ page, stream.awaits = some (.reply (some (.ok page))) → ∃ n ≤ r.seen,
    served (roomLog stream.feed.room (r.terminal.log.take n)) terminalPoll.pageSize
      (.after stream.feed.cursor) = .ok page

variable (r) in
/-- What holds of an answer that waits to be taken. -/
def Waits : Answer → Prop
  | .roomOpened (.ok feed) => r.Ahead feed
  | .loggedIn _ (.ok rooms) => ∃ n ≤ r.seen, ListedAt rooms (r.terminal.log.take n)
  | _ => True

/-- **The invariant of the positions.** The positions are those that the user has been shown, the
streams and answers on their way are from no less, and nothing is from more than the server has
shown. -/
structure ReadInv (r : Reader Input) : Prop where
  seen : r.seen ≤ r.terminal.log.length
  posted : ∀ message ∈ r.delivered, ∃ room, (room, message) ∈ r.terminal.log
  latest : ∀ screen, r.terminal.app.screen = .chat screen → screen.rooms = r.latest
  greatest : ∀ screen, r.terminal.app.screen = .chat screen →
    ∀ room, IsGreatest (r.shown room) (screen.readTo room)
  behind : ∀ screen, r.terminal.app.screen = .chat screen →
    ∀ room, screen.readTo room ≤ latestSeq room r.view
  streams : ∀ stream, r.terminal.app.messages = some stream → r.Streams stream
  waits : ∀ pair ∈ r.terminal.app.background.answers, r.Waits pair.2

/-- **The server goes on, and the positions stay as they are.** The log and what is shown of it
have grown, or stayed. -/
structure Later (before after : Reader Input) : Prop where
  log : before.terminal.log <+: after.terminal.log
  onward : before.seen ≤ after.seen
  seen : after.seen ≤ after.terminal.log.length
  posted : Posted after.terminal.log
  remembers : ∀ shown, after.terminal.app.screen = .chat shown → ∃ screen,
    before.terminal.app.screen = .chat screen ∧ shown.lastRead = screen.lastRead

/-- What has been shown of a log that has grown. -/
theorem take_grows {log later : List (RoomId × Message)} (grows : log <+: later) {n m : ℕ}
    (onward : n ≤ m) (bound : n ≤ log.length) : log.take n <+: later.take m := by
  rw [← take_of_grows grows bound]
  exact List.take_prefix_take_left onward

theorem posted_take {log : List (RoomId × Message)} (posted : Posted log) (n : ℕ) :
    Posted (log.take n) where
  ascending := posted.ascending.sublist (List.take_sublist n log)
  positive := fun post mem => posted.positive post (List.mem_of_mem_take mem)

theorem Later.latestSeq_le (later : Later before after)
    (bound : before.seen ≤ before.terminal.log.length) (room : RoomId) :
    latestSeq room before.view ≤ latestSeq room after.view :=
  latestSeq_grows (posted_take later.posted _) (take_grows later.log later.onward bound)

theorem Ahead.later {feed : MessagesFeed} (ahead : before.Ahead feed) (later : Later before after)
    (bound : before.seen ≤ before.terminal.log.length) : after.Ahead feed where
  user := by
    intro shown shows
    obtain ⟨screen, at_, read⟩ := later.remembers shown shows
    rw [Chat.readTo_of_lastRead read]
    exact ahead.user screen at_
  server := ahead.server.trans (later.latestSeq_le bound feed.room)

theorem Streams.later {stream : MessagesStream} (streams : before.Streams stream)
    (later : Later before after) (bound : before.seen ≤ before.terminal.log.length) :
    after.Streams stream where
  ahead := streams.ahead.later later bound
  reply := by
    intro page awaits
    obtain ⟨n, early, got⟩ := streams.reply page awaits
    exact ⟨n, early.trans later.onward, by
      rw [take_of_grows later.log (early.trans bound)]
      exact got⟩

theorem Waits.later {answer : Answer} (waits : before.Waits answer) (later : Later before after)
    (bound : before.seen ≤ before.terminal.log.length) : after.Waits answer := by
  unfold Waits at waits ⊢
  split
  · exact Ahead.later waits later bound
  · obtain ⟨n, early, listing⟩ := waits
    exact ⟨n, early.trans later.onward, by
      rw [take_of_grows later.log (early.trans bound)]
      exact listing⟩
  · trivial

/-- A message has been posted to one room. -/
theorem one_room {log : List (RoomId × Message)} (posted : Posted log) {room other : RoomId}
    {message : Message} (there : (room, message) ∈ log) (here : (other, message) ∈ log) :
    room = other := by
  have ascending : Ascending (fun post : RoomId × Message => post.2.seq) log := posted.ascending
  exact congrArg Prod.fst (ascending.eq_of_key_eq there here rfl)

/-- What has been shown of a room stays what it is while the log grows: a message that has been
delivered is not posted again. -/
theorem ReadInv.shown_eq (inv : ReadInv r) (grows : r.terminal.log <+: r'.terminal.log)
    (posted : Posted r'.terminal.log) (listed : r'.listed = r.listed)
    (delivered : r'.delivered = r.delivered) (room : RoomId) : r'.shown room = r.shown room := by
  unfold shown
  rw [listed, delivered]
  congr 1
  ext seq
  constructor
  · rintro ⟨message, mem, there, rfl⟩
    obtain ⟨origin, here⟩ := inv.posted message mem
    have same := one_room posted there (grows.subset here)
    exact ⟨message, mem, same ▸ here, rfl⟩
  · rintro ⟨message, mem, there, rfl⟩
    exact ⟨message, mem, grows.subset there, rfl⟩

/-- **What leaves the positions alone keeps the invariant**, as long as a new stream and a new
answer are right.  Most events are of this kind, and are closed by it. -/
theorem ReadInv.later (inv : ReadInv r) (later : Later r r')
    (listed : r'.listed = r.listed) (delivered : r'.delivered = r.delivered)
    (latest : ∀ screen, r'.terminal.app.screen = .chat screen → screen.rooms = r'.latest)
    (streams : ∀ stream, r'.terminal.app.messages = some stream →
      r.terminal.app.messages = some stream ∨ r'.Streams stream)
    (waits : ∀ pair ∈ r'.terminal.app.background.answers,
      pair ∈ r.terminal.app.background.answers ∨ r'.Waits pair.2) : ReadInv r' where
  seen := later.seen
  posted := by
    intro message mem
    rw [delivered] at mem
    obtain ⟨room, there⟩ := inv.posted message mem
    exact ⟨room, later.log.subset there⟩
  latest := latest
  greatest := by
    intro shown shows room
    obtain ⟨screen, at_, read⟩ := later.remembers shown shows
    rw [inv.shown_eq later.log later.posted listed delivered, Chat.readTo_of_lastRead read]
    exact inv.greatest screen at_ room
  behind := by
    intro shown shows room
    obtain ⟨screen, at_, read⟩ := later.remembers shown shows
    rw [Chat.readTo_of_lastRead read]
    exact (inv.behind screen at_ room).trans (later.latestSeq_le inv.seen room)
  streams := by
    intro stream held
    rcases streams stream held with before | new
    · exact (inv.streams stream before).later later inv.seen
    · exact new
  waits := by
    intro pair mem
    rcases waits pair mem with before | new
    · exact (inv.waits pair before).later later inv.seen
    · exact new

/-! ### What a step does to them -/

/-- A function of the app makes no answer wait. -/
theorem answers_of_acts {app : App Input} {did : App Input × Option AppCall}
    (acts : App.Acts app did) :
    ∀ pair ∈ did.1.background.answers, pair ∈ app.background.answers := by
  intro pair mem
  cases acts with
  | quiet after same =>
      rw [same] at mem
      exact mem
  | starts after call idle busy =>
      rw [busy] at mem
      exact mem
  | ends after other =>
      rw [other] at mem
      exact absurd mem List.not_mem_nil

/-- **A function of the app acts** that leaves the positions alone.  The pane may change, and a
call may be started or the session end. -/
theorem ReadInv.acted (inv : ReadInv r) (sound : r.terminal.app.Sound)
    (posted : Posted r.terminal.log) {did : App Input × Option AppCall}
    (acts : App.Acts r.terminal.app did) (does : App.Does True r.terminal.app did)
    (became : r'.terminal = r.terminal.acted did) (seen : r'.seen = r.seen)
    (listed : r'.listed = r.listed) (delivered : r'.delivered = r.delivered)
    (remembers : ∀ shown, did.1.screen = .chat shown → ∃ screen,
      r.terminal.app.screen = .chat screen ∧ shown.lastRead = screen.lastRead ∧
        shown.rooms = r'.latest) : ReadInv r' := by
  have app : r'.terminal.app = did.1 := by rw [became, acted_app]
  have log : r'.terminal.log = r.terminal.log := by rw [became, acted_log]
  have later : Later r r' := by
    refine ⟨log ▸ List.prefix_rfl, seen.ge, ?_, log ▸ posted, ?_⟩
    · rw [seen, log]
      exact inv.seen
    · intro shown shows
      rw [app] at shows
      obtain ⟨screen, at_, read, -⟩ := remembers shown shows
      exact ⟨screen, at_, read⟩
  refine inv.later later listed delivered ?_ ?_ ?_
  · intro shown shows
    rw [app] at shows
    obtain ⟨screen, at_, -, rooms⟩ := remembers shown shows
    exact rooms
  · intro stream held
    rw [app] at held
    exact Or.inl (stream_of_does sound does held)
  · intro pair mem
    rw [app] at mem
    exact Or.inl (answers_of_acts acts pair mem)

/-- **Somebody posts**, and nothing has been shown of it. -/
theorem ReadInv.grow (inv : ReadInv r) (same : r'.terminal.app = r.terminal.app)
    (grows : r.terminal.log <+: r'.terminal.log) (posted : Posted r'.terminal.log)
    (seen : r'.seen = r.seen) (listed : r'.listed = r.listed)
    (delivered : r'.delivered = r.delivered) (latest : r'.latest = r.latest) : ReadInv r' := by
  have later : Later r r' := by
    refine ⟨grows, seen.ge, ?_, posted, ?_⟩
    · rw [seen]
      exact inv.seen.trans grows.length_le
    · intro shown shows
      rw [same] at shows
      exact ⟨shown, shows, rfl⟩
  refine inv.later later listed delivered ?_ ?_ ?_
  · intro shown shows
    rw [same] at shows
    rw [latest]
    exact inv.latest shown shows
  · intro stream held
    rw [same] at held
    exact Or.inl held
  · intro pair mem
    rw [same] at mem
    exact Or.inl mem

/-- **The cursor only moves on**, and no further than the server has shown.  The page a poll takes
was cut at the cursor, and ends no earlier. -/
theorem Streams.polled {stream : MessagesStream} (streams : r.Streams stream)
    (posted : Posted r.terminal.log) {page : List Message} {feed : MessagesFeed} {polled : Polled}
    (goes : PollStep stream.feed page feed polled)
    (reply : page = [] ∨ stream.awaits = some (.reply (some (.ok page)))) :
    stream.feed.cursor ≤ feed.cursor ∧ feed.cursor ≤ latestSeq feed.room r.view := by
  rw [goes.cursor, goes.room]
  rcases reply with rfl | awaited
  · exact ⟨le_rfl, streams.ahead.server⟩
  · obtain ⟨n, early, got⟩ := streams.reply page awaited
    have fetched : page = pageAfter Message.seq stream.feed.cursor _ _ := page_of_served got
    refine ⟨le_nextCursor fun message mem => ?_, ?_⟩
    · rw [fetched] at mem
      exact lt_of_mem_pageAfter mem
    · cases last : page.getLast? with
      | none =>
          rw [List.getLast?_eq_none_iff.mp last]
          exact streams.ahead.server
      | some newest =>
          rw [nextCursor_of_getLast last]
          have mem := List.mem_of_getLast? last
          rw [fetched] at mem
          have there := mem_roomLog.mp (mem_of_mem_pageAfter mem)
          have early' : r.terminal.log.take n <+: r.view := List.take_prefix_take_left early
          exact le_latestSeq (posted_take posted _) (early'.subset there)

/-- While a stream goes on, no feed waits to take its place. -/
theorem no_feed_waits {s : Terminal Input} (calls : Inv True s) {stream : MessagesStream}
    (held : s.app.messages = some stream) {id : ℕ} {feed : MessagesFeed} :
    (id, Answer.roomOpened (.ok feed)) ∉ s.app.background.answers := by
  intro mem
  cases calls.calls with
  | idle _ none_ _ =>
      rw [none_] at mem
      cases mem
  | out _ _ _ _ none_ _ _ =>
      rw [none_] at mem
      cases mem
  | waits _ call _ answer _ one _ _ fits answered =>
      rw [one, List.mem_singleton] at mem
      obtain ⟨rfl, rfl⟩ := Prod.mk.inj mem
      obtain ⟨log, outcome, -, answers⟩ := answered
      obtain ⟨room, n, page, rfl, -⟩ := call_of_roomOpened answers
      have gone := fits.1
      rw [held] at gone
      cases gone

/-- **A batch that the pane has been given ends at the cursor**, and is of the room that is
watched.  It is what stands between the position a batch writes and the one that should be
there. -/
theorem batch_watched {log : List (RoomId × Message)} {page earlier batch : List Message}
    {feed : MessagesFeed} {screen : Chat Input} (watching : Watching log page ⟨feed, none⟩ screen)
    (posted : Posted log) (empty : feed.holding = [])
    (messages : screen.messages = earlier ++ batch)
    {newest : Message} (last : batch.getLast? = some newest) :
    newest.seq = feed.cursor ∧
      ∀ message ∈ batch, (feed.room, message) ∈ log ∧ message.seq ≤ feed.cursor := by
  obtain ⟨start, reading⟩ := watching.reading
  rw [messages, empty, List.append_nil] at reading
  refine ⟨reading.key_getLast (roomLog_ascending posted.ascending feed.room) ?_, ?_⟩
  · rw [List.getLast?_append, last, Option.some_or]
  · intro message mem
    have got : message ∈ earlier ++ batch := List.mem_append_right _ mem
    rw [reading.got, mem_between] at got
    exact ⟨mem_roomLog.mp got.1, got.2.2⟩

/-- What a batch adds to what has been shown of a room. -/
theorem shown_delivered {batch : List Message} (log : r'.terminal.log = r.terminal.log)
    (listed : r'.listed = r.listed) (delivered : r'.delivered = r.delivered ++ batch)
    (room : RoomId) : r'.shown room = r.shown room ∪
      {seq | ∃ message ∈ batch, (room, message) ∈ r.terminal.log ∧ message.seq = seq} := by
  unfold shown
  rw [listed, delivered, log, Set.insert_union]
  congr 1
  ext seq
  constructor
  · rintro ⟨message, mem, there, same⟩
    rcases List.mem_append.mp mem with old | new
    · exact Or.inl ⟨message, old, there, same⟩
    · exact Or.inr ⟨message, new, there, same⟩
  · rintro (⟨message, old, there, same⟩ | ⟨message, new, there, same⟩)
    · exact ⟨message, List.mem_append_left _ old, there, same⟩
    · exact ⟨message, List.mem_append_right _ new, there, same⟩

/-- **The position stays the greatest** as a batch of one room ends at its cursor.  Of the other
rooms nothing is written, and nothing of theirs is in the batch. -/
theorem greatest_delivered {log : List (RoomId × Message)} (posted : Posted log)
    {batch : List Message} {room : RoomId} {cursor : Seq} {newest : Message}
    (last : batch.getLast? = some newest) (at_cursor : newest.seq = cursor)
    (of_room : ∀ message ∈ batch, (room, message) ∈ log ∧ message.seq ≤ cursor)
    {positions : Set Seq} {position : Seq} (other : RoomId)
    (greatest : IsGreatest positions position)
    (onward : other = room → position ≤ cursor) :
    IsGreatest (positions ∪
        {seq | ∃ message ∈ batch, (other, message) ∈ log ∧ message.seq = seq})
      (if other = room then cursor else position) := by
  split
  · rename_i same
    subst same
    have mem := List.mem_of_getLast? last
    refine ⟨Or.inr ⟨newest, mem, (of_room newest mem).1, at_cursor⟩, ?_⟩
    rintro seq (old | ⟨message, mem, -, rfl⟩)
    · exact (greatest.2 old).trans (onward rfl)
    · exact (of_room message mem).2
  · rename_i elsewhere
    rw [Set.union_eq_self_of_subset_right]
    · exact greatest
    · rintro seq ⟨message, mem, there, -⟩
      exact absurd (one_room posted there (of_room message mem).1) elsewhere

/-- **What a batch does to the chat screen** that the stream of the open room hands over.  It is
read off the pane's invariant before and after, once, and both results use it. -/
structure Delivers (s t : Terminal Input) (screen : Chat Input) (feed : MessagesFeed)
    (batch : List Message) : Prop where
  at_ : s.app.screen = .chat screen
  app : t.app = { s.app with
    screen := .chat { screen.append batch with error := none }
    messages := some ⟨feed, none⟩ }
  log : t.log = s.log
  last : ∃ newest, batch.getLast? = some newest ∧ newest.seq = feed.cursor
  of_room : ∀ message ∈ batch, (feed.room, message) ∈ s.log ∧ message.seq ≤ feed.cursor
  position : ∀ room, (screen.append batch).readTo room
    = if room = feed.room then feed.cursor else screen.readTo room

/-- The chat is the one that has been given the batch. -/
theorem Delivers.chat {s t : Terminal Input} {screen shown : Chat Input} {feed : MessagesFeed}
    {batch : List Message} (delivers : Delivers s t screen feed batch)
    (shows : t.app.screen = .chat shown) : shown = { screen.append batch with error := none } := by
  rw [delivers.app] at shows
  exact (Screen.chat.inj shows).symm

theorem delivers_polled {s t : Terminal Input} (before : PaneInv s) (after : PaneInv t)
    {stream : MessagesStream} (held : s.app.messages = some stream) {page batch : List Message}
    {feed : MessagesFeed} (goes : PollStep stream.feed page feed (.ready (.ok batch)))
    (became : t = s.polled kit (feed, .ready (.ok batch))) :
    ∃ screen, Delivers s t screen feed batch := by
  obtain ⟨screen, at_, watching⟩ := before.watching held
  have app : t.app = { s.app with
      screen := .chat { screen.append batch with error := none }
      messages := some ⟨feed, none⟩ } := by
    have streaming : (s.streaming ⟨feed, none⟩).app.screen = .chat screen := at_
    rw [became]
    exact App.applyMessages_of_chat kit streaming batch
  have log : t.log = s.log := by rw [became, polled_log]
  obtain ⟨newest, last⟩ : ∃ newest, batch.getLast? = some newest :=
    Option.isSome_iff_exists.mp (List.getLast?_isSome.mpr (goes.some_ batch rfl))
  obtain ⟨at_cursor, of_room⟩ : newest.seq = feed.cursor ∧
      ∀ message ∈ batch, (feed.room, message) ∈ s.log ∧ message.seq ≤ feed.cursor := by
    obtain ⟨shown, shows, watched⟩ := after.watching (by rw [app] : t.app.messages = _)
    rw [app] at shows
    obtain rfl := Screen.chat.inj shows
    rw [log] at watched
    exact batch_watched watched before.posted goes.holding rfl last
  refine ⟨screen, at_, app, log, ⟨newest, last, at_cursor⟩, of_room, fun room => ?_⟩
  rw [goes.room, ← at_cursor]
  exact Chat.readTo_append watching.selected last room

/-- **A batch is delivered.** The room that is open has been shown up to the cursor by then, and
its position says so. -/
theorem ReadInv.delivers (inv : ReadInv r) (before : PaneInv r.terminal)
    (after : PaneInv r'.terminal) {stream : MessagesStream}
    (held : r.terminal.app.messages = some stream) {page batch : List Message}
    {feed : MessagesFeed} (goes : PollStep stream.feed page feed (.ready (.ok batch)))
    (reply : page = [] ∨ stream.awaits = some (.reply (some (.ok page))))
    (became : r'.terminal = r.terminal.polled kit (feed, .ready (.ok batch)))
    (seen : r'.seen = r.seen) (listed : r'.listed = r.listed)
    (delivered : r'.delivered = r.delivered ++ batch) (latest : r'.latest = r.latest) :
    ReadInv r' := by
  obtain ⟨screen, delivers⟩ := delivers_polled before after held goes became
  have streams := inv.streams stream held
  obtain ⟨onward, server⟩ := streams.polled before.posted goes reply
  have view : r'.view = r.view := by rw [Reader.view, Reader.view, delivers.log, seen]
  have ahead : r'.Ahead feed := by
    refine ⟨fun shown shows => ?_, view ▸ server⟩
    rw [delivers.chat shows]
    exact ((delivers.position feed.room).trans (if_pos rfl)).le
  constructor
  · rw [seen, delivers.log]
    exact inv.seen
  · intro message mem
    rw [delivered] at mem
    rw [delivers.log]
    rcases List.mem_append.mp mem with old | new
    · exact inv.posted message old
    · exact ⟨feed.room, (delivers.of_room message new).1⟩
  · intro shown shows
    rw [delivers.chat shows, latest]
    exact inv.latest screen delivers.at_
  · intro shown shows room
    obtain ⟨newest, last, at_cursor⟩ := delivers.last
    rw [delivers.chat shows, shown_delivered delivers.log listed delivered room]
    show IsGreatest _ ((screen.append batch).readTo room)
    rw [delivers.position room]
    refine greatest_delivered before.posted last at_cursor delivers.of_room room
      (inv.greatest screen delivers.at_ room) ?_
    rintro rfl
    rw [goes.room]
    exact (streams.ahead.user screen delivers.at_).trans onward
  · intro shown shows room
    rw [delivers.chat shows, view]
    show (screen.append batch).readTo room ≤ _
    rw [delivers.position room]
    split
    · rename_i same
      rw [same]
      exact server
    · exact inv.behind screen delivers.at_ room
  · intro stream' held'
    rw [delivers.app] at held'
    obtain rfl := Option.some.inj held'
    exact ⟨ahead, nofun⟩
  · rintro ⟨id, answer⟩ mem
    rw [delivers.app] at mem
    have waits : r.Waits answer := inv.waits _ mem
    show r'.Waits answer
    unfold Waits at waits ⊢
    split at waits
    · exact absurd mem (no_feed_waits before.calls held)
    · obtain ⟨n, early, listing⟩ := waits
      exact ⟨n, seen ▸ early, delivers.log ▸ listing⟩
    · trivial

/-- **A poll that hands over nothing** leaves the stream with its cursor. -/
theorem ReadInv.polls (inv : ReadInv r) (posted : Posted r.terminal.log) {stream : MessagesStream}
    (held : r.terminal.app.messages = some stream) {page : List Message} {feed : MessagesFeed}
    {polled : Polled} (goes : PollStep stream.feed page feed polled) {awaits : Option Awaits}
    (asks : ∀ fetched, awaits ≠ some (.reply (some fetched)))
    (became : r'.terminal = r.terminal.streaming ⟨feed, awaits⟩) (nothing : polled.batch = [])
    (seen : r'.seen = r.seen) (listed : r'.listed = r.listed)
    (delivered : r'.delivered = r.delivered) (latest : r'.latest = r.latest) : ReadInv r' := by
  have streams := inv.streams stream held
  -- nothing has come back either, so the cursor is where it was
  have same : feed.cursor = stream.feed.cursor := by
    have none_ := goes.handsOver
    rw [nothing] at none_
    rw [goes.cursor, (List.append_eq_nil_iff.mp none_.symm).2]
    rfl
  have app : r'.terminal.app = { r.terminal.app with messages := some ⟨feed, awaits⟩ } := by
    rw [became]
    rfl
  have log : r'.terminal.log = r.terminal.log := by
    rw [became]
    rfl
  have later : Later r r' := by
    refine ⟨log ▸ List.prefix_rfl, seen.ge, ?_, log ▸ posted, ?_⟩
    · rw [seen, log]
      exact inv.seen
    · intro shown shows
      rw [app] at shows
      exact ⟨shown, shows, rfl⟩
  refine inv.later later listed delivered ?_ ?_ ?_
  · intro shown shows
    rw [app] at shows
    rw [latest]
    exact inv.latest shown shows
  · intro stream' held'
    rw [app] at held'
    obtain rfl := Option.some.inj held'
    have ahead := streams.ahead.later later inv.seen
    refine Or.inr ⟨⟨?_, ?_⟩, fun page no => absurd no (asks _)⟩
    · rw [same, goes.room]
      exact ahead.user
    · rw [same, goes.room]
      exact ahead.server
  · intro pair mem
    rw [app] at mem
    exact Or.inl mem

/-- **A poll of the open room's stream.** -/
theorem ReadInv.polled (inv : ReadInv r) (before : PaneInv r.terminal)
    (after : PaneInv r'.terminal)
    (polls : Polls kit r.terminal timed.event r'.terminal) (seen : r'.seen = r.seen)
    (listed : r'.listed = r.listed)
    (delivered : r'.delivered = r.delivered ++ r.terminal.handed timed.event)
    (latest : r'.latest = r.latest) : ReadInv r' := by
  obtain ⟨stream, page, feed, polled, held, became, goes, reply, handed⟩ := polls
  rw [handed] at delivered
  cases polled with
  | pending awaits =>
      have nothing : (Polled.pending awaits).batch = [] := rfl
      rw [nothing, List.append_nil] at delivered
      refine inv.polls before.posted held goes ?_ became nothing seen listed delivered latest
      intro fetched no
      exact goes.asks fetched (congrArg Polled.pending (Option.some.inj no))
  | ready result =>
      cases result with
      | ok batch =>
          exact inv.delivers before after held goes reply became seen listed delivered latest
      | error error =>
          have nothing : (Polled.ready (.error error)).batch = [] := rfl
          rw [nothing, List.append_nil] at delivered
          -- the stream has gone on, and the failure is shown, or ends the session
          have asks : ∀ fetched, (none : Option Awaits) ≠ some (.reply (some fetched)) := nofun
          have streaming : ReadInv { r with terminal := r.terminal.streaming ⟨feed, none⟩ } :=
            inv.polls before.posted held goes asks rfl nothing rfl rfl rfl rfl
          have passed_on : Inv True (r.terminal.streaming ⟨feed, none⟩) :=
            before.calls.streaming held nofun
          refine streaming.acted passed_on.sound before.posted (App.failed_acts _ error)
            (App.failed_does _ error) became seen listed delivered ?_
          intro shown shows
          obtain ⟨screen, at_, read, rooms⟩ := App.failed_remembers kit _ error shown shows
          refine ⟨screen, at_, read, rooms.trans ?_⟩
          rw [latest]
          exact inv.latest screen at_

/-- **The server answers the fetch of the stream**, from no less than it has shown.  What the page
ends at is therefore not behind the user's position. -/
theorem ReadInv.replies (inv : ReadInv r) (posted : Posted r.terminal.log) {n : ℕ}
    {feed : MessagesFeed} (held : r.terminal.app.messages = some ⟨feed, some (.reply none)⟩)
    (became : r'.terminal = r.terminal.replied n feed) (seen : r'.seen = n) (onward : r.seen ≤ n)
    (bound : n ≤ r.terminal.log.length) (listed : r'.listed = r.listed)
    (delivered : r'.delivered = r.delivered) (latest : r'.latest = r.latest) : ReadInv r' := by
  have log : r'.terminal.log = r.terminal.log := by
    rw [became]
    rfl
  have screen : r'.terminal.app.screen = r.terminal.app.screen := by
    rw [became]
    rfl
  have later : Later r r' := by
    refine ⟨log ▸ List.prefix_rfl, seen ▸ onward, ?_, log ▸ posted, ?_⟩
    · rw [seen, log]
      exact bound
    · intro shown shows
      rw [screen] at shows
      exact ⟨shown, shows, rfl⟩
  refine inv.later later listed delivered ?_ ?_ ?_
  · intro shown shows
    rw [screen] at shows
    rw [latest]
    exact inv.latest shown shows
  · intro stream held'
    have ahead := (inv.streams _ held).ahead.later later inv.seen
    rw [became] at held'
    obtain rfl := Option.some.inj held'
    refine Or.inr ⟨ahead, fun page awaited => ⟨n, seen.ge, ?_⟩⟩
    rw [log]
    exact Option.some.inj (Awaits.reply.inj (Option.some.inj awaited))
  · intro pair mem
    rw [became] at mem
    exact Or.inl mem

/-- **What a call is answered with** comes from no less than the server has shown.  A feed that is
opened starts at the newest of its page, and a list names positions that were reached. -/
theorem waits_answered (inv : ReadInv r) (later : Later r r') {task : Task} {id : ℕ}
    {outcome : Outcome} {answer : Answer} (serving : r.Serving ⟨.finish id outcome, r'.seen⟩)
    (log : r'.terminal.log = r.terminal.log)
    (answers : answerTo r.terminal.log task.call outcome = some answer) : r'.Waits answer := by
  unfold Waits
  split
  · obtain ⟨room, n, page, -, rfl, got, rfl⟩ := call_of_roomOpened answers
    obtain ⟨seen, onward, bound⟩ : r'.seen = n ∧ r.seen ≤ n ∧ n ≤ r.terminal.log.length := serving
    have view : r'.view = r.terminal.log.take n := by rw [Reader.view, log, seen]
    have cursor := cursor_opened got
    rw [← view] at cursor
    refine ⟨fun shown shows => ?_, cursor.le⟩
    obtain ⟨screen, at_, read⟩ := later.remembers shown shows
    rw [cursor, Chat.readTo_of_lastRead read]
    exact (inv.behind screen at_ room).trans (later.latestSeq_le inv.seen room)
  · obtain ⟨rfl, -⟩ := call_of_loggedIn answers
    obtain ⟨listing, onward, bound⟩ := serving
    exact ⟨r'.seen, le_rfl, log ▸ listing⟩
  · trivial

/-- **A call is answered.** The answer waits in its channel if the session lasts, and then it is
from no less than was shown. -/
theorem ReadInv.finishes (inv : ReadInv r) (posted : Posted r.terminal.log) {id : ℕ} {task : Task}
    {outcome : Outcome} {answer : Answer} (serving : r.Serving ⟨.finish id outcome, r'.seen⟩)
    (answers : answerTo r.terminal.log task.call outcome = some answer)
    (became : r'.terminal = r.terminal.finished id task answer) (listed : r'.listed = r.listed)
    (delivered : r'.delivered = r.delivered) (latest : r'.latest = r.latest) : ReadInv r' := by
  have log : r'.terminal.log = r.terminal.log := by
    rw [became]
    rfl
  have app : r'.terminal.app.screen = r.terminal.app.screen ∧
      r'.terminal.app.messages = r.terminal.app.messages ∧
      ∀ pair ∈ r'.terminal.app.background.answers,
        pair ∈ r.terminal.app.background.answers ∨ pair = (id, answer) := by
    rw [became, finished]
    dsimp only
    split
    · refine ⟨rfl, rfl, fun pair mem => ?_⟩
      exact (List.mem_append.mp mem).imp_right List.mem_singleton.mp
    · exact ⟨rfl, rfl, fun pair mem => Or.inl mem⟩
  obtain ⟨screen, messages, pairs⟩ := app
  obtain ⟨onward, bound⟩ : r.seen ≤ r'.seen ∧ r'.seen ≤ r.terminal.log.length := by
    cases outcome with
    | page n =>
        obtain ⟨seen, onward, bound⟩ := serving
        exact ⟨onward.trans seen.ge, seen.le.trans bound⟩
    | listed rooms => exact serving.2
    | failed error => exact ⟨(show r'.seen = r.seen from serving).ge, serving.le.trans inv.seen⟩
    | connected client => exact ⟨(show r'.seen = r.seen from serving).ge, serving.le.trans inv.seen⟩
    | done => exact ⟨(show r'.seen = r.seen from serving).ge, serving.le.trans inv.seen⟩
  have later : Later r r' := by
    refine ⟨log ▸ List.prefix_rfl, onward, log ▸ bound, log ▸ posted, ?_⟩
    intro shown shows
    rw [screen] at shows
    exact ⟨shown, shows, rfl⟩
  refine inv.later later listed delivered ?_ ?_ ?_
  · intro shown shows
    rw [screen] at shows
    rw [latest]
    exact inv.latest shown shows
  · intro stream held
    rw [messages] at held
    exact Or.inl held
  · intro pair mem
    rcases pairs pair mem with old | rfl
    · exact Or.inl old
    · exact Or.inr (waits_answered inv later serving log answers)

/-- The loop has taken the answer that waited. -/
theorem ReadInv.freed (inv : ReadInv r) (posted : Posted r.terminal.log) :
    ReadInv { r with terminal := r.terminal.freed } := by
  have later : Later r { r with terminal := r.terminal.freed } :=
    ⟨List.prefix_rfl, le_rfl, inv.seen, posted, fun shown shows => ⟨shown, shows, rfl⟩⟩
  refine inv.later later rfl rfl inv.latest (fun stream held => Or.inl held) ?_
  exact fun pair mem => absurd mem List.not_mem_nil

/-- **The feed of the room that was to be opened is watched.** -/
theorem ReadInv.watches (inv : ReadInv r) (posted : Posted r.terminal.log) {id : ℕ}
    {feed : MessagesFeed} {screen : Chat Input} (at_ : r.terminal.app.screen = .chat screen)
    (one : r.terminal.app.background.answers = [(id, .roomOpened (.ok feed))])
    (became : r'.terminal = r.terminal.watched screen feed) (seen : r'.seen = r.seen)
    (listed : r'.listed = r.listed) (delivered : r'.delivered = r.delivered)
    (latest : r'.latest = r.latest) : ReadInv r' := by
  have log : r'.terminal.log = r.terminal.log := by
    rw [became]
    rfl
  have later : Later r r' := by
    refine ⟨log ▸ List.prefix_rfl, seen.ge, ?_, log ▸ posted, ?_⟩
    · rw [seen, log]
      exact inv.seen
    · intro shown shows
      rw [became] at shows
      obtain rfl := Screen.chat.inj shows
      exact ⟨screen, at_, rfl⟩
  refine inv.later later listed delivered ?_ ?_ ?_
  · intro shown shows
    rw [became] at shows
    obtain rfl := Screen.chat.inj shows
    rw [latest]
    exact inv.latest screen at_
  · intro stream held
    have waited : r.Ahead feed := inv.waits (id, .roomOpened (.ok feed)) (by rw [one]; simp)
    rw [became] at held
    obtain rfl := Option.some.inj held
    exact Or.inr ⟨waited.later later inv.seen, nofun⟩
  · intro pair mem
    rw [became] at mem
    exact absurd mem List.not_mem_nil

/-- **Signing in starts over**, with the positions of the list that came with it.  What was shown
before belongs to another session, and does not count any more. -/
theorem ReadInv.signs (inv : ReadInv r) (calls : Inv True r.terminal)
    (posted : Posted r.terminal.log) {id : ℕ} {username : String} {rooms : List Room}
    (one : r.terminal.app.background.answers = [(id, .loggedIn username (.ok rooms))])
    (at_ : ∃ screen, r.terminal.app.screen = .signIn screen) (some_ : rooms ≠ [])
    (became : r'.terminal = r.terminal.freed.acted
      (r.terminal.freed.app.answer kit (.loggedIn username (.ok rooms))))
    (seen : r'.seen = r.seen) (listed : r'.listed = rooms) (delivered : r'.delivered = [])
    (latest : r'.latest = rooms) : ReadInv r' := by
  obtain ⟨signIn, at_⟩ := at_
  have built : r.terminal.app.client.isSome := calls.sound.built (by rw [at_]; nofun)
  obtain ⟨n, early, listing⟩ : ∃ n ≤ r.seen, ListedAt rooms (r.terminal.log.take n) :=
    inv.waits (id, .loggedIn username (.ok rooms)) (by rw [one]; simp)
  have opens : ∃ app : App Input, (app.screen = .chat (Chat.new kit rooms username).clear ∧
      app.messages = none ∧ app.background.answers = []) ∧ r'.terminal.app = app := by
    have chat : ({ r.terminal.freed.app with
        rooms := true
        screen := .chat (.new kit rooms username) } : App Input).screen
          = .chat (.new kit rooms username) := rfl
    obtain ⟨room, -, opened⟩ :=
      App.openRoom_of_idle chat (Chat.selected_new some_ username) built rfl
    rw [became, acted_app]
    exact ⟨_, ⟨rfl, rfl, rfl⟩, congrArg Prod.fst opened⟩
  obtain ⟨app, ⟨screen, messages, answers⟩, is⟩ := opens
  have log : r'.terminal.log = r.terminal.log := by
    rw [became, acted_log]
    rfl
  have chat : ∀ shown, r'.terminal.app.screen = .chat shown →
      shown = (Chat.new kit rooms username).clear := by
    intro shown shows
    rw [is, screen] at shows
    exact (Screen.chat.inj shows).symm
  have position (room : RoomId) : (Chat.new kit rooms username).clear.readTo room
      = Chat.latestIn rooms room := Chat.readTo_new kit (latestSeq · _) listing username room
  constructor
  · rw [seen, log]
    exact inv.seen
  · intro message mem
    rw [delivered] at mem
    cases mem
  · intro shown shows
    rw [chat shown shows, latest]
    rfl
  · intro shown shows room
    rw [chat shown shows, position]
    unfold Reader.shown
    rw [listed, delivered]
    refine ⟨Or.inl rfl, ?_⟩
    rintro seq (rfl | ⟨message, mem, -⟩)
    · exact le_rfl
    · cases mem
  · intro shown shows room
    rw [chat shown shows, position, Reader.view, seen, log]
    have early' := List.take_prefix_take_left (l := r.terminal.log) early
    exact (latestIn_of_listing listing room).trans
      (latestSeq_grows (posted_take posted _) early')
  · intro stream held
    rw [is, messages] at held
    cases held
  · intro pair mem
    rw [is, answers] at mem
    cases mem

/-! ### One step -/

theorem signsIn_loggedIn {s : Terminal Input} (stays : s.app.exit = false) {id : ℕ}
    {username : String} {rooms : List Room}
    (one : s.app.background.answers = [(id, .loggedIn username (.ok rooms))]) :
    s.signsIn .answer = some rooms := by
  rw [signsIn, stays, one]

theorem signsIn_other {s : Terminal Input} {id : ℕ} {answer : Answer}
    (one : s.app.background.answers = [(id, answer)])
    (other : ∀ username rooms, answer ≠ .loggedIn username (.ok rooms)) :
    s.signsIn .answer = none := by
  rw [signsIn, one]
  split
  · rename_i same
    cases same
    exact absurd rfl (other _ _)
  · rfl

/-- Nobody signs in. -/
theorem told_of_none {terminal : Terminal Input}
    (none_ : r.terminal.signsIn timed.event = none) : r.told timed terminal
      = { r with
          terminal := terminal
          seen := timed.seen
          latest := match timed.event with
            | .rooms (.ok rooms) => rooms
            | _ => r.latest
          delivered := r.delivered ++ r.terminal.handed timed.event } := by
  rw [told, none_]

theorem told_terminal (terminal : Terminal Input) :
    (r.told timed terminal).terminal = terminal := by
  unfold told
  split <;> rfl

variable (kit r) in
/-- **A reader runs as its terminal does**, whatever it has been shown.  So whatever is proved of
terminals holds of the one that a reader has. -/
theorem run_terminal (timeds : List Timed) : (run (step kit) r timeds).map Reader.terminal
    = run (Terminal.step kit) r.terminal (timeds.map Timed.event) := by
  refine run_projects Reader.terminal Timed.event (fun q timed => ?_) r timeds
  rw [step, Option.map_map]
  have same : Reader.terminal ∘ q.told timed = id := funext told_terminal
  rw [same, Option.map_id, id]

/-- The server keeps the rooms it has listed. -/
theorem Serving.keeping (serving : r.Serving timed) : Keeping r.terminal timed.event := by
  obtain ⟨event, seen⟩ := timed
  cases event with
  | rooms list =>
      cases list with
      | ok rooms => exact serving.2
      | error error => trivial
  | _ => trivial

/-- **The loop takes an answer.** -/
theorem ReadInv.answers (inv : ReadInv r) (before : PaneInv r.terminal) {t : Terminal Input}
    (stepped : r.terminal.step kit .answer = some t) :
    ReadInv (r.told ⟨.answer, r.seen⟩ t) := by
  obtain ⟨id, answer, call, stays, one, fits, answered, rfl⟩ :=
    step_answer before.calls stepped
  by_cases signs : ∃ username rooms, answer = .loggedIn username (.ok rooms)
  · obtain ⟨username, rooms, rfl⟩ := signs
    obtain ⟨log, outcome, -, answers⟩ := answered
    obtain ⟨-, some_, password, rfl⟩ := call_of_loggedIn answers
    rw [told, signsIn_loggedIn stays one]
    exact inv.signs before.calls before.posted one fits some_ rfl rfl rfl rfl rfl
  · have other : ∀ username rooms, answer ≠ .loggedIn username (.ok rooms) :=
      fun username rooms same => signs ⟨username, rooms, same⟩
    rw [told_of_none (signsIn_other one other)]
    by_cases opened : ∃ feed, answer = .roomOpened (.ok feed)
    · obtain ⟨feed, rfl⟩ := opened
      obtain ⟨log, outcome, -, answers⟩ := answered
      obtain ⟨room, n, page, rfl, -, -, rfl⟩ := call_of_roomOpened answers
      obtain ⟨-, screen, at_, -⟩ := fits
      refine inv.watches before.posted at_ one ?_ rfl rfl (List.append_nil _) rfl
      show Terminal.acted { r.terminal with page := page } (r.terminal.freed.app.answer kit
        (.roomOpened (.ok (.opened terminalPoll room .newest page)))) = _
      have shows : r.terminal.freed.app.screen = .chat screen := at_
      rw [App.answer_roomOpened shows]
      rfl
    · have unopened : ∀ feed, answer ≠ .roomOpened (.ok feed) := fun feed same =>
        opened ⟨feed, same⟩
      have sound := before.calls.sound
      refine (inv.freed before.posted).acted ⟨sound.client, sound.selected, sound.away⟩
        before.posted (App.answer_acts r.terminal.freed.app answer)
        (answer_does kit before.calls fits answered unopened) ?_ rfl rfl (List.append_nil _) ?_
      · rw [page_of_not_opened _ unopened]
        rfl
      · intro shown shows
        obtain ⟨screen, at_, read, rooms⟩ := App.answer_remembers _ other shown shows
        exact ⟨screen, at_, read, rooms.trans (inv.latest screen at_)⟩

/-- **One step keeps the positions right.** The event may be any, as long as the server is honest
in it. -/
theorem readInv_step (serving : r.Serving timed) (stepped : r.step kit timed = some r')
    (before : PaneInv r.terminal) (inv : ReadInv r) : PaneInv r'.terminal ∧ ReadInv r' := by
  obtain ⟨t, next, rfl⟩ := Option.map_eq_some_iff.mp stepped
  have after : PaneInv t := pane_step serving.keeping next before
  refine ⟨(told_terminal t).symm ▸ after, ?_⟩
  have sound := before.calls.sound
  have keeping := serving.keeping
  obtain ⟨event, seen⟩ := timed
  cases event with
  | key key =>
      obtain rfl : seen = r.seen := serving
      obtain rfl := step_key next
      refine inv.acted sound before.posted (App.handleKey_acts kit _ key)
        (App.handleKey_does sound key) rfl rfl rfl (List.append_nil _) ?_
      intro shown shows
      obtain ⟨screen, at_, read, rooms⟩ := App.handleKey_remembers _ key shown shows
      exact ⟨screen, at_, read, rooms.trans (inv.latest screen at_)⟩
  | closed =>
      obtain rfl : seen = r.seen := serving
      cases next
      refine inv.acted sound before.posted (.quiet { r.terminal.app with exit := true } rfl)
        (.keeps _ none ⟨.refl _, rfl, rfl, rfl⟩ nofun) rfl rfl rfl (List.append_nil _) ?_
      exact fun shown shows => ⟨shown, shows, rfl, inv.latest shown shows⟩
  | poll now =>
      obtain rfl : seen = r.seen := serving
      exact inv.polled before after (step_poll before.calls next) rfl rfl rfl rfl
  | arrive now =>
      obtain rfl : seen = r.seen := serving
      exact inv.polled before after (step_arrive before.calls next) rfl rfl rfl rfl
  | fetchFails error now =>
      obtain rfl : seen = r.seen := serving
      exact inv.polled before after (step_fetchFails before.calls next) rfl rfl rfl rfl
  | reply n =>
      obtain ⟨same, onward, bound⟩ : seen = n ∧ r.seen ≤ n ∧ n ≤ r.terminal.log.length := serving
      obtain ⟨feed, held, -, rfl⟩ := step_reply next
      exact inv.replies before.posted held rfl same onward bound rfl (List.append_nil _) rfl
  | rooms list =>
      obtain ⟨-, rfl, does⟩ := step_rooms before.calls (fun _ => keeping) next
      cases list with
      | error error =>
          obtain rfl : seen = r.seen := serving
          refine inv.acted sound before.posted (App.applyRooms_acts _ _) does rfl rfl rfl
            (List.append_nil _) ?_
          intro shown shows
          obtain ⟨screen, at_, read, rooms⟩ := App.failed_remembers kit _ error shown shows
          exact ⟨screen, at_, read, rooms.trans (inv.latest screen at_)⟩
      | ok rooms =>
          obtain ⟨rfl, -⟩ : seen = r.seen ∧ _ := serving
          refine inv.acted sound before.posted (App.applyRooms_acts _ _) does rfl rfl rfl
            (List.append_nil _) ?_
          exact fun shown shows => App.applyRooms_remembers _ rooms shows
  | post room message =>
      obtain rfl : seen = r.seen := serving
      obtain ⟨-, rfl⟩ := step_post next
      exact inv.grow rfl (List.prefix_append _ _) after.posted rfl rfl (List.append_nil _) rfl
  | land id message =>
      obtain rfl : seen = r.seen := serving
      obtain ⟨task, room, -, -, -, -, rfl⟩ := step_land next
      exact inv.grow rfl (List.prefix_append _ _) after.posted rfl rfl (List.append_nil _) rfl
  | finish id outcome =>
      obtain ⟨task, answer, -, -, answers, rfl⟩ := step_finish next
      exact inv.finishes before.posted serving answers rfl rfl (List.append_nil _) rfl
  | answer =>
      obtain rfl : seen = r.seen := serving
      exact inv.answers before next

theorem readInv_launched (form : ConnectionForm) : ReadInv (launched kit form) where
  seen := le_rfl
  posted := nofun
  latest := nofun
  greatest := nofun
  behind := nofun
  streams := nofun
  waits := nofun

/-! ### What the markers mean -/

/-- **What has been shown is not taken back**, as long as nobody signs in again.  Within one
sign-in the list it came with is the same, and messages are only added to those given. -/
structure Onward (before after : Reader Input) : Prop where
  signIns : before.signIns ≤ after.signIns
  same : after.signIns = before.signIns →
    after.listed = before.listed ∧ before.delivered <+: after.delivered
  log : before.terminal.log <+: after.terminal.log

theorem Onward.trans {first second third : Reader Input} (one : Onward first second)
    (two : Onward second third) : Onward first third where
  signIns := one.signIns.trans two.signIns
  same := by
    intro same
    have first_second : second.signIns = first.signIns :=
      le_antisymm (two.signIns.trans same.le) one.signIns
    obtain ⟨listed, delivered⟩ := one.same first_second
    obtain ⟨listed', delivered'⟩ := two.same (same.trans first_second.symm)
    exact ⟨listed'.trans listed, delivered.trans delivered'⟩
  log := one.log.trans two.log

theorem Onward.shown (onward : Onward before after) (same : after.signIns = before.signIns)
    (room : RoomId) : before.shown room ⊆ after.shown room := by
  obtain ⟨listed, delivered⟩ := onward.same same
  unfold Reader.shown
  rw [listed]
  refine Set.insert_subset_insert ?_
  rintro seq ⟨message, mem, there, rfl⟩
  exact ⟨message, delivered.subset mem, onward.log.subset there, rfl⟩

/-- The log only grows. -/
theorem log_step {s t : Terminal Input} (inv : Inv True s) {event : TerminalEvent}
    (keeping : Keeping s event) (stepped : s.step kit event = some t) : s.log <+: t.log := by
  cases step_did inv (fun _ => keeping) stepped with
  | acts event did cause acts does =>
      simp only [acted_log, List.prefix_refl]
  | polls event stream held page feed polled goes reply noKey =>
      simp only [polled_log, List.prefix_refl]
  | replies n feed held bound => exact List.prefix_rfl
  | posts room message newest => exact List.prefix_append _ _
  | lands id task room message at_ sends fresh newest => exact List.prefix_append _ _
  | finishes id task outcome answer at_ running answers => exact List.prefix_rfl
  | takes id answer one did acts does =>
      rw [acted_log]
      exact List.prefix_rfl
  | opens id room screen n page bound got at_ fits one => exact List.prefix_rfl

theorem onward_step (serving : r.Serving timed) (stepped : r.step kit timed = some r')
    (before : PaneInv r.terminal) : Onward r r' := by
  obtain ⟨t, next, rfl⟩ := Option.map_eq_some_iff.mp stepped
  have log : r.terminal.log <+: (r.told timed t).terminal.log := by
    rw [told_terminal]
    exact log_step before.calls serving.keeping next
  unfold told at log ⊢
  split at log
  · exact ⟨Nat.le_succ _, fun same => absurd same (Nat.succ_ne_self _), log⟩
  · exact ⟨le_rfl, fun _ => ⟨rfl, List.prefix_append _ _⟩, log⟩

/-- **Delivering messages leaves the markers of other rooms alone.** A room without a message in
the batch is not the one that is watched, so its position is not touched. -/
theorem unread_of_handed {s t : Terminal Input} (before : PaneInv s) {event : TerminalEvent}
    (stepped : s.step kit event = some t) (some_ : s.handed event ≠ []) {screen shown : Chat Input}
    (at_ : s.app.screen = .chat screen) (shows : t.app.screen = .chat shown) {room : Room}
    (elsewhere : ∀ message ∈ s.handed event, (room.id, message) ∉ s.log) :
    shown.unread room = screen.unread room := by
  have polls : Polls kit s event t := by
    cases event with
    | poll now => exact step_poll before.calls stepped
    | arrive now => exact step_arrive before.calls stepped
    | _ => exact absurd rfl some_
  have keeping : Keeping s event := by
    cases event with
    | rooms list => exact absurd rfl some_
    | _ => trivial
  obtain ⟨stream, page, feed, polled, held, became, goes, reply, hands⟩ := polls
  rw [hands] at some_ elsewhere
  cases polled with
  | pending awaits => exact absurd rfl some_
  | ready result =>
      cases result with
      | error error => exact absurd rfl some_
      | ok batch =>
          obtain ⟨there, delivers⟩ :=
            delivers_polled before (pane_step keeping stepped before) held goes became
          obtain rfl := Screen.chat.inj (at_.symm.trans delivers.at_)
          obtain ⟨newest, last, -⟩ := delivers.last
          have mem := List.mem_of_getLast? last
          have other : room.id ≠ feed.room := by
            intro same
            exact elsewhere newest mem (same ▸ (delivers.of_room newest mem).1)
          rw [delivers.chat shows]
          show (screen.append batch).unread room = screen.unread room
          rw [Chat.unread, Chat.unread, delivers.position room.id, if_neg other]
          rfl

variable (kit r) in
/-- **Unread markers are exact**: a room has been read up to the newest position that the user
has been shown of it, and is marked exactly if the latest list shows a newer one; reading never
goes back; and messages of one room leave the markers of the others alone. -/
structure Exact : Prop where
  position : ∀ screen, r.terminal.app.screen = .chat screen →
    ∀ room, IsGreatest (r.shown room) (screen.readTo room)
  listed : ∀ screen, r.terminal.app.screen = .chat screen → screen.rooms = r.latest
  marked : ∀ screen, r.terminal.app.screen = .chat screen → ∀ room ∈ r.latest,
    screen.watched ≠ some room.id →
      (screen.unread room = true ↔ ∀ seq ∈ r.shown room.id, seq < room.latestSeq)
  forward : ∀ timeds r' screen shown, Along (step kit) Serving r timeds →
    run (step kit) r timeds = some r' → r'.signIns = r.signIns →
      r.terminal.app.screen = .chat screen → r'.terminal.app.screen = .chat shown →
        ∀ room, screen.readTo room ≤ shown.readTo room
  others : ∀ event t screen shown, r.terminal.step kit event = some t →
    r.terminal.handed event ≠ [] → r.terminal.app.screen = .chat screen →
      t.app.screen = .chat shown → ∀ room : Room,
        (∀ message ∈ r.terminal.handed event, (room.id, message) ∉ r.terminal.log) →
          shown.unread room = screen.unread room

theorem ReadInv.exact (inv : ReadInv r) (pane : PaneInv r.terminal) : Exact kit r where
  position := inv.greatest
  listed := inv.latest
  marked := by
    intro screen at_ room listed unwatched
    rw [Chat.unread, if_neg unwatched, decide_eq_true_iff]
    exact (inv.greatest screen at_ room.id).lt_iff
  forward := by
    intro timeds r' screen shown serving ran same at_ shows room
    have keeps : ∀ (q : Reader Input) timed q', Serving q timed → q.step kit timed = some q' →
        PaneInv q.terminal ∧ ReadInv q ∧ Onward r q →
          PaneInv q'.terminal ∧ ReadInv q' ∧ Onward r q' := by
      intro q timed q' serving stepped ⟨pane, inv, onward⟩
      obtain ⟨pane', inv'⟩ := readInv_step serving stepped pane inv
      exact ⟨pane', inv', onward.trans (onward_step serving stepped pane)⟩
    have start : Onward r r := ⟨le_rfl, fun _ => ⟨rfl, List.prefix_rfl⟩, List.prefix_rfl⟩
    obtain ⟨-, inv', onward⟩ := run_invariant_along keeps serving ran ⟨pane, inv, start⟩
    exact (inv.greatest screen at_ room).mono (inv'.greatest shown shows room)
      (onward.shown same room)
  others := fun event t screen shown stepped some_ at_ shows room elsewhere =>
    unread_of_handed pane stepped some_ at_ shows elsewhere

/-- **Unread markers are exact**, after every run against a server that never shows an older log
than it has shown before, and keeps the rooms it has listed. -/
theorem unread_exact {form : ConnectionForm} {timeds : List Timed}
    (serving : Along (step kit) Serving (launched kit form) timeds)
    (ran : run (step kit) (launched kit form) timeds = some r) : Exact kit r := by
  have keeps : ∀ (q : Reader Input) timed q', Serving q timed → q.step kit timed = some q' →
      PaneInv q.terminal ∧ ReadInv q → PaneInv q'.terminal ∧ ReadInv q' :=
    fun q timed q' serving stepped both => readInv_step serving stepped both.1 both.2
  obtain ⟨pane, inv⟩ :=
    run_invariant_along keeps serving ran ⟨paneInv_launched form, readInv_launched form⟩
  exact inv.exact pane

namespace Sample

/-- Events that happen while the server has shown so much of its log. -/
def upTo (seen : ℕ) (events : List TerminalEvent) : List Timed :=
  events.map fun event => ⟨event, seen⟩

/-- Two rooms with their positions. -/
def listing (lobby scion : ℕ) : List Room := [⟨⟨1⟩, "lobby", ⟨lobby⟩⟩, ⟨⟨2⟩, "scion", ⟨scion⟩⟩]

/-- Signing in with a message in the first room, which is opened; then one is posted to the
second, and listed. -/
def marking : List Timed :=
  upTo 0 (Terminal.Sample.connecting ++ [.post ⟨1⟩ (Terminal.Sample.posted 1),
      Terminal.Sample.enter]) ++
    upTo 1 [.finish 1 (.listed (listing 1 0)), .answer, .finish 2 (.page 1), .answer, .poll 0,
      .post ⟨2⟩ (Terminal.Sample.posted 2), .rooms (.ok (listing 1 2))]

end Sample

/-- The room that is watched has no marker, and the other one has got one. -/
theorem unread_exact_marking : ∃ r screen, run (step Toolkit.plain)
    (launched Toolkit.plain ConnectionForm.Sample.answered) Sample.marking = some r ∧
      r.terminal.app.screen = .chat screen ∧ r.delivered = [Terminal.Sample.posted 1] ∧
        (Sample.listing 1 2).map screen.unread = [false, true] ∧ Exact Toolkit.plain r := by
  obtain ⟨r, screen, ran, at_, delivered, markers⟩ : ∃ r screen, run (step Toolkit.plain)
      (launched Toolkit.plain ConnectionForm.Sample.answered) Sample.marking = some r ∧
        r.terminal.app.screen = .chat screen ∧ r.delivered = [Terminal.Sample.posted 1] ∧
          (Sample.listing 1 2).map screen.unread = [false, true] :=
    ⟨_, _, rfl, rfl, rfl, rfl⟩
  exact ⟨r, screen, ran, at_, delivered, markers, unread_exact (by decide +kernel) ran⟩

end Reader

end ScionChat
