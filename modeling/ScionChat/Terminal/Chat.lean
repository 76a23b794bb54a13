import Mathlib.Logic.Function.Basic
import ScionChat.Core.V1
import ScionChat.Terminal.SignIn

/-!
# The chat screen

`screens/chat.rs` and `screens/chat/commands.rs`: rooms on the left, the open room's messages on
the right, a line to type at the bottom.  The screen decides which of its keys reach a server, and
asks for it with an `Intent`.

Beside the functions stand the inversions that the loop is verified with.  `handleKey_cases` says
all that a key can do to the screen: it edits the line, moves the selection, scrolls, or takes the
line and asks for something.  `handleKey_pending` is the guard: while a call is pending, the screen
asks for nothing.

### design decisions

* **The line editor is a library.**  What a key does to a line is `Toolkit.handleEvent`'s, and the
  screen's functions hold for any editor.  What is taken from the line is its text, and where it is
  put back it is put back whole.
* **Whether a call is pending is an argument.**  The screen does not know, and is told with each
  key, as in the source.  A key that is refused leaves the line and the selection as they were.
* **Every change counts.**  `revision` counts up wherever the source counts it up.  Nothing here
  reads it; the pane that is kept between two draws does.

### What is load-bearing

`showRooms_openRoom`: a new list of rooms leaves the open room selected as long as it is listed.
It looks the room up by its id, and falls back to the first one otherwise.
-/

namespace ScionChat

/-! ### What a typed line can mean -/

/-- The word that turns a line into a room rather than a message. -/
def CREATE : String := "/room"

/-- The word that lists what the other words do. -/
def HELP : String := "/help"

/-- Every command and key `/help` lists. -/
def COMMANDS : List (String × String) :=
  [(HELP, "list these commands"),
    ("/room <name>", "create a room"),
    ("<Enter>", "send what is typed"),
    ("<Tab>", "next room"),
    ("<Shift+Tab>", "previous room"),
    ("<↑↓>", "scroll a line"),
    ("<PgUp/PgDn>", "scroll a screenful"),
    ("<Esc>/<Ctrl+C>", "quit")]

/-- How much room a command is given before what it does. -/
def COMMAND_WIDTH : ℕ := 16

/-- Which column a message's own text starts in. -/
def BODY_COLUMN : ℕ := NAME_WIDTH + 1

/-- The longest room name this client will create. -/
def ROOM_NAME_MAX : ℕ := 10

/-- The `/help` output. -/
def help : List String :=
  (padLeft NAME_WIDTH HELP ++ " commands") :: COMMANDS.map fun (command, does) =>
    padRight BODY_COLUMN "" ++ padRight COMMAND_WIDTH command ++ does

/-- A complaint, in the shape every screen makes one. -/
def warning (message : String) : String :=
  "⚠ " ++ message

/-! ### The screen -/

namespace Chat

/-- What the screen is asking for. -/
inductive Intent
  /-- Post what was typed to the open room. -/
  | send (body : String)
  /-- Create a room under this name. -/
  | create (name : String)
  /-- Read the room the sidebar has just moved to. -/
  | open_
  deriving DecidableEq, Repr

end Chat

/-- The rooms, the open room's messages, and the line being typed. -/
structure Chat (Input : Type) where
  /-- Every room the server listed, in the order the sidebar shows them. -/
  rooms : List Room
  /-- Which room is open. -/
  open_ : Option ℕ
  /-- The open room's messages, oldest first. -/
  messages : List Message
  /-- Lines this client wrote itself. -/
  notices : List String
  /-- The newest `seq` the user has seen in each room. -/
  lastRead : RoomId → Option Seq
  /-- The room a feed is watching. -/
  watched : Option RoomId
  /-- How far down the pane is scrolled, or `none` to follow the newest message. -/
  scroll : Option ℕ
  /-- What the last draw measured: the largest offset, and how many rows fit. -/
  measured : ℕ × ℕ
  me : String
  input : Input
  error : Option String
  /-- Counts the changes to what the pane shows.  The source keeps it in a `u64` and adds one with
  `+=`, which would overflow after `2 ^ 64` changes; here it goes on counting. -/
  revision : ℕ

namespace Chat

/-- Marks every room read as it stands. -/
def readFrom (rooms : List Room) : RoomId → Option Seq :=
  rooms.foldl (fun read room => Function.update read room.id (some room.latestSeq)) fun _ => none

variable {Input : Type} (kit : Toolkit Input) (screen : Chat Input)

/-- Opens over the rooms the server listed, with the first one selected. -/
def new (rooms : List Room) (me : String) : Chat Input where
  rooms := rooms
  open_ := some 0
  messages := []
  notices := []
  lastRead := readFrom rooms
  watched := none
  scroll := none
  measured := (0, 0)
  me := me
  input := kit.empty
  error := none
  revision := 0

/-- Records that what the pane shows has changed.  The pane that was kept is then out of date. -/
def changed : Chat Input :=
  { screen with revision := screen.revision + 1 }

def selected : ℕ :=
  screen.open_.getD 0

/-- The room the sidebar has selected, if the server listed any.  It is looked up by its place in
the list. -/
def openRoom : Option Room :=
  screen.rooms[screen.selected]?

/-- Replaces the sidebar, keeping the open room selected if the server still lists it. -/
def showRooms (rooms : List Room) : Chat Input :=
  let index :=
    (screen.openRoom.bind fun open_ => rooms.findIdx? fun room => room.id = open_.id).getD 0
  { screen with rooms := rooms, open_ := some index }

/-- Appends a batch the feed delivered, and marks the open room read up to it. -/
def append (messages : List Message) : Chat Input :=
  let lastRead := match screen.openRoom, messages.getLast? with
    | some room, some newest => Function.update screen.lastRead room.id (some newest.seq)
    | _, _ => screen.lastRead
  { screen with lastRead := lastRead, messages := screen.messages ++ messages }.changed

/-- Empties the message pane, for a room that is about to be watched. -/
def clear : Chat Input :=
  { screen with messages := [], notices := [], watched := none, scroll := none }.changed

/-- Records which room a feed is now watching. -/
def watching (room : RoomId) : Chat Input :=
  { screen with watched := some room }

/-- Puts back what a failed send did not deliver.  What the line held is gone: it is a new line
with that text. -/
def restore (body : String) : Chat Input :=
  { screen with input := kit.new body }

/-- Complains in the pane, where a notice stays until the next line is typed. -/
def warn (message : String) : Chat Input :=
  { screen with notices := [warning message], scroll := none }.changed

/-- Moves the pane by a number of rows, up when negative, and resumes following the newest on
reaching the end. -/
def scrollBy (rows : ℤ) : Chat Input :=
  let bottom : ℤ := screen.measured.1
  let offset := max 0 (min bottom (screen.scroll.getD screen.measured.1 + rows))
  { screen with scroll := if offset < bottom then some offset.toNat else none }

/-- How many rows the last draw fitted. -/
def page : ℤ :=
  screen.measured.2

/-- `Chat::open`: selects a room, stopping at the last one.  It does nothing at the ends of the
list, and while a call is pending. -/
def select (index : ℕ) (pending : Bool) : Chat Input × Option Intent :=
  let index := min index (screen.rooms.length - 1)
  -- refused before the selection moves: a move with no call on its way empties the pane
  if index = screen.selected ∨ pending then (screen, none)
  else ({ screen with open_ := some index, messages := [] }.changed, some .open_)

/-- The newest `seq` the user has seen in a room.  A room that was never opened, or never listed,
is read from the start. -/
def readTo (room : RoomId) : Seq :=
  (screen.lastRead room).getD Seq.START

/-- Whether a room holds anything the user has not seen.  Never a count: `seq` is server-wide. -/
def unread (room : Room) : Bool :=
  if screen.watched = some room.id then false
  else decide (screen.readTo room.id < room.latestSeq)

/-- Takes what was typed, leaving the line empty.  `pending` refuses the two that reach a server,
and a refused line stays where it was typed. -/
def submit (pending : Bool) : Chat Input × Option Intent :=
  let typed := trimmed (kit.value screen.input)
  let word := splitWord typed
  let taken := { screen with input := kit.empty }
  if typed = "" then (taken, none)
  else if word.1 = HELP then ({ taken with notices := help, scroll := none }.changed, none)
  else if word.1 ≠ CREATE then
    if pending then (screen, none)
    else ({ taken with notices := [] }.changed, some (.send typed))
  else
    let name := trimmed word.2
    if name = "" ∨ name.toList.any isWhitespace then
      (taken.warn s!"a room name is one word: {CREATE} scion", none)
    else if ROOM_NAME_MAX < kit.width name then
      (taken.warn s!"room name is too long - {ROOM_NAME_MAX} characters max", none)
    else if pending then (screen, none)
    else ({ taken with notices := [] }.changed, some (.create name))

/-- Claims the keys that mean something here and leaves the rest to the input. -/
def handleKey (key : KeyEvent) (pending : Bool) : Chat Input × Option Intent :=
  match key.code with
  | .enter => screen.submit kit pending
  | .backTab => screen.select (screen.selected - 1) pending
  | .tab => screen.select (screen.selected + 1) pending
  | .up => (screen.scrollBy (-1), none)
  | .down => (screen.scrollBy 1, none)
  | .pageUp => (screen.scrollBy (-screen.page), none)
  | .pageDown => (screen.scrollBy screen.page, none)
  | _ => ({ screen with input := kit.handleEvent screen.input key }, none)

/-! ### What the keys do -/

variable {kit screen} {key : KeyEvent} {pending : Bool}

variable (kit) in
/-- The line is edited and the pane moved about, and something may be asked to be sent or
created, while no call is pending. -/
def Edits (screen : Chat Input) (pending : Bool) (did : Chat Input × Option Intent) : Prop :=
  (∃ input notices scroll revision, did.1
    = { screen with
        input := input, notices := notices, scroll := scroll, revision := revision }) ∧
    (did.2 = none ∨ pending = false ∧
      (did.2 = some (.send (trimmed (kit.value screen.input))) ∨
        did.2 = some (.create (trimmed (splitWord (trimmed (kit.value screen.input))).2))))

/-- Another room is moved to, with the pane empty, and asked for, while no call is pending. -/
def Moves (screen : Chat Input) (pending : Bool) (did : Chat Input × Option Intent) : Prop :=
  pending = false ∧ ∃ index, index ≤ screen.rooms.length - 1 ∧
    did = ({ screen with open_ := some index, messages := [] }.changed, some .open_)

/-- **What Enter can do**: the line is taken, or stays where it was typed.  A line that asks for
something while a call is pending stays where it is. -/
theorem submit_edits (screen : Chat Input) (pending : Bool) :
    Edits kit screen pending (screen.submit kit pending) := by
  unfold submit
  dsimp only
  split_ifs with empty help word busy bad long busy
  · exact ⟨⟨_, _, _, _, rfl⟩, Or.inl rfl⟩
  · exact ⟨⟨_, _, _, _, rfl⟩, Or.inl rfl⟩
  · exact ⟨⟨_, _, _, _, rfl⟩, Or.inl rfl⟩
  · exact ⟨⟨_, _, _, _, rfl⟩, Or.inr ⟨Bool.not_eq_true _ ▸ busy, Or.inl rfl⟩⟩
  · exact ⟨⟨_, _, _, _, rfl⟩, Or.inl rfl⟩
  · exact ⟨⟨_, _, _, _, rfl⟩, Or.inl rfl⟩
  · exact ⟨⟨_, _, _, _, rfl⟩, Or.inl rfl⟩
  · exact ⟨⟨_, _, _, _, rfl⟩, Or.inr ⟨Bool.not_eq_true _ ▸ busy, Or.inr rfl⟩⟩

/-- **What moving to a room can do**: nothing, when it is refused.  Otherwise the other room is
selected, and asked to be opened. -/
theorem select_cases (screen : Chat Input) (index : ℕ) (pending : Bool) :
    Edits kit screen pending (screen.select index pending) ∨
      Moves screen pending (screen.select index pending) := by
  unfold select
  dsimp only
  split_ifs with refused
  · exact Or.inl ⟨⟨_, _, _, _, rfl⟩, Or.inl rfl⟩
  · refine Or.inr ⟨?_, _, min_le_right _ _, rfl⟩
    rw [not_or, Bool.not_eq_true] at refused
    exact refused.2

variable (kit) in
/-- **What a key can do.** It edits the line, scrolls or says something, and the rooms and messages
stay; or it moves the selection. -/
theorem handleKey_cases (screen : Chat Input) (key : KeyEvent) (pending : Bool) :
    Edits kit screen pending (screen.handleKey kit key pending) ∨
      Moves screen pending (screen.handleKey kit key pending) := by
  unfold handleKey
  split
  · exact Or.inl (submit_edits screen pending)
  · exact select_cases screen _ pending
  · exact select_cases screen _ pending
  all_goals exact Or.inl ⟨⟨_, _, _, _, rfl⟩, Or.inl rfl⟩

/-- **While a call is pending the screen asks for nothing.** So the loop never has to refuse a call
that a key has asked for. -/
theorem handleKey_pending : (screen.handleKey kit key true).2 = none := by
  rcases handleKey_cases kit screen key true with ⟨-, none | ⟨idle, -⟩⟩ | ⟨idle, -⟩
  · exact none
  · cases idle
  · cases idle

/-! ### The open room -/

variable (screen) in
/-- A room is selected that is in the sidebar. -/
def Selected : Prop :=
  ∃ index, screen.open_ = some index ∧ index < screen.rooms.length

theorem Moves.selected {did : Chat Input × Option Intent} (moves : Moves screen pending did)
    (selected : screen.Selected) : did.1.Selected := by
  obtain ⟨-, index, bound, rfl⟩ := moves
  obtain ⟨old, -, old_bound⟩ := selected
  exact ⟨index, rfl, lt_of_le_of_lt bound (Nat.sub_lt (Nat.zero_lt_of_lt old_bound) Nat.one_pos)⟩

theorem Selected.openRoom (selected : screen.Selected) : ∃ room, screen.openRoom = some room := by
  obtain ⟨index, at_, bound⟩ := selected
  refine ⟨screen.rooms[index], ?_⟩
  rw [Chat.openRoom, Chat.selected, at_]
  exact List.getElem?_eq_getElem bound

theorem mem_of_openRoom {room : Room} (open_ : screen.openRoom = some room) : room ∈ screen.rooms :=
  List.mem_of_getElem? open_

theorem selected_new {rooms : List Room} (some_ : rooms ≠ []) (me : String) :
    (new kit rooms me).Selected :=
  ⟨0, rfl, List.length_pos_iff.mpr some_⟩

/-- A list of rooms that a server gives which keeps its rooms: every room that has been listed
before is on it. -/
def Grown (before after : List Room) : Prop :=
  ∀ room ∈ before, ∃ other ∈ after, other.id = room.id

instance (before after : List Room) : Decidable (Grown before after) :=
  inferInstanceAs (Decidable (∀ room ∈ before, _))

/-- A new list of rooms always has one of them selected. -/
theorem showRooms_selected {rooms : List Room} (some_ : rooms ≠ []) :
    (screen.showRooms rooms).Selected := by
  refine ⟨_, rfl, ?_⟩
  cases index : screen.openRoom.bind fun open_ => rooms.findIdx? fun room => room.id = open_.id with
  | none => exact List.length_pos_iff.mpr some_
  | some index =>
      obtain ⟨room, -, found⟩ := Option.bind_eq_some_iff.mp index
      obtain ⟨bound, -⟩ := List.findIdx?_eq_some_iff_getElem.mp found
      exact bound

/-- **A new list of rooms keeps the open room open**, if that room is listed.  It may have another
place in the list by then, and is found by its id. -/
theorem showRooms_openRoom {rooms : List Room} {room : Room} (open_ : screen.openRoom = some room)
    (listed : ∃ other ∈ rooms, other.id = room.id) :
    (screen.showRooms rooms).openRoom.map Room.id = some room.id := by
  obtain ⟨other, mem, same⟩ := listed
  obtain ⟨index, found⟩ : ∃ index, rooms.findIdx? (fun r => r.id = room.id) = some index := by
    refine Option.isSome_iff_exists.mp ?_
    rw [List.findIdx?_isSome, List.any_eq_true]
    exact ⟨other, mem, decide_eq_true same⟩
  obtain ⟨bound, at_, -⟩ := List.findIdx?_eq_some_iff_getElem.mp found
  have index_eq : (screen.showRooms rooms).open_ = some index := by
    rw [showRooms, open_, Option.bind_some, found]
    rfl
  rw [openRoom, selected, index_eq]
  change (rooms[index]?).map Room.id = some room.id
  rw [List.getElem?_eq_getElem bound]
  exact congrArg some (of_decide_eq_true at_)

end Chat

end ScionChat
