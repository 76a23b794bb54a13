import ScionChat.Lib.Cached
import ScionChat.Lib.TransitionSystem
import ScionChat.Terminal.Chat

/-!
# Drawing the message pane

`screens/chat/view.rs`: the open room's messages, wrapped and scrolled, in a pane of their own.
Drawing wraps every message twice, so what was drawn last is kept, under the area, the offset and a
count of the changes, `revision`.

What draws it is `ratatui`, and what tells the time is `time`; both are parameters.  Everything
between the screen's state and them is here: the lines that are drawn, the offset they are drawn
at, and what is kept of it.

* `kept_pane_fresh` — a kept pane that still stands is the pane that would be drawn now.  Every
  operation of the screen is `Cached.Honest` about what the pane shows.
* `follows_newest_iff` — following the newest shows the newest, and scrolling stays within what
  does not fit, exactly as long as the number of rows fits the `u16` it is cast to.

### design decisions

* **Rectangles are ratatui's.**  What a panel's border leaves of its area, and what a margin leaves
  of that, are fields of `Ratatui`; `Bordered` asks for the height of the first, and only where
  rows are counted.
* **Wrapping is the library's.** How many rows the lines wrap to is a field as well, and is taken
  for what is drawn.  What the source adds is a cast of that number to a `u16`, which is where it
  goes wrong.
* **Scrolling is counted from the start.**  An offset of `none` follows the newest, and a screen
  that is scrolled to its end gives its offset up (`scrollBy_gives_up`).

### What is load-bearing

`content`: the pane's drawing is a function of it, and so an operation that leaves it alone need
not count up.  That a new sidebar is such an operation (`honest_showRooms`) is the one case with an
argument: the open room stays open, under the name it had.
-/

namespace ScionChat

open TransitionSystem

/-! ### Colours, lines and areas -/

/-- An RGB colour. -/
structure Color where
  red : UInt8
  green : UInt8
  blue : UInt8
  deriving DecidableEq, Repr

namespace Theme

def BORDER : Color := ⟨0x4f, 0x47, 0x4d⟩

def FOCUS : Color := ⟨0x7a, 0xae, 0xdc⟩

def TEXT : Color := ⟨0xfe, 0xcd, 0xb2⟩

def DIM : Color := ⟨0xab, 0x8a, 0x79⟩

def TIMESTAMP : Color := ⟨0x7d, 0x77, 0x7b⟩

def ERROR : Color := ⟨0xe0, 0x6b, 0x75⟩

/-- Whoever is logged in. -/
def OWN_NICKNAME : Color := ⟨0xf5, 0xd7, 0x6e⟩

/-- What everyone else's name is drawn in. -/
def NICKNAMES : Vector Color 9 :=
  #v[⟨0xf6, 0xb6, 0xc9⟩, ⟨0x9c, 0xd1, 0xbb⟩, ⟨0xb1, 0xb6, 0x95⟩, ⟨0xd7, 0xbd, 0xe2⟩,
    ⟨0x4a, 0x90, 0xe2⟩, ⟨0xd2, 0x53, 0xd8⟩, ⟨0xaf, 0x8d, 0x9f⟩, ⟨0xb4, 0xa7, 0xd6⟩,
    ⟨0xff, 0xa0, 0x7a⟩]

/-- FNV-1a, in the `u64` that wraps.  It has to be the same on every run, since a colour is how a
reader knows a name. -/
def fnv1a (bytes : List UInt8) : UInt64 :=
  bytes.foldl (fun hash byte => (hash ^^^ byte.toUInt64) * 0x00000100000001b3) 0xcbf29ce484222325

/-- The colour a name is drawn in. -/
def nickname (name : String) : Color :=
  NICKNAMES.get (Fin.ofNat 9 (fnv1a name.toUTF8.toList).toNat)

end Theme

/-- A piece of text in one style. -/
structure Span where
  text : String
  fg : Color
  deriving DecidableEq, Repr

/-- A line before it is wrapped. -/
structure Line where
  spans : List Span
  centered : Bool := false
  deriving DecidableEq, Repr

/-- Part of the terminal, in cells. -/
structure Rect where
  x : UInt16
  y : UInt16
  width : UInt16
  height : UInt16
  deriving DecidableEq, Repr

/-- A date of the calendar: its year, month and day. -/
structure Date where
  year : ℤ
  month : ℕ
  day : ℕ
  deriving DecidableEq, Repr

/-- A moment on the reader's clock. -/
structure LocalTime where
  date : Date
  hour : ℕ
  minute : ℕ
  deriving DecidableEq, Repr

/-- The libraries the pane is drawn with: `unicode_width` for a character, `time` for an instant
at an offset from UTC, and `ratatui` — what a panel's border leaves of its area, what a margin of
one row above and below leaves of one, how many rows lines wrap to in a panel of a width, its
border's two included, the cells of a titled panel with its lines from a row on, a scrollbar over
them, and cells over other cells. -/
structure Ratatui (Buffer : Type) where
  charWidth (c : Char) : Option ℕ
  localTime (nanos here : ℤ) : Option LocalTime
  /-- `Block::inner`, of a block with all its borders. -/
  blockInner (area : Rect) : Rect
  /-- `Rect::inner`, under `Margin::new(0, 1)`. -/
  inset (area : Rect) : Rect
  lineCount (lines : List Line) (width : ℕ) : ℕ
  panel (title : String) (lines : List Line) (scroll : ℕ) (area : Rect) : Buffer
  scrollbar (positions position visible : ℕ) (track thumb : Color) (area : Rect)
    (buffer : Buffer) : Buffer
  merge (frame buffer : Buffer) : Buffer

/-- A border takes a row above and a row below, where the area has them. -/
def Ratatui.Bordered {Buffer : Type} (tui : Ratatui Buffer) : Prop :=
  ∀ area, (tui.blockInner area).height.toNat = area.height.toNat - 2

/-! ### The lines of the pane -/

namespace Chat

variable {Input Buffer : Type} (kit : Toolkit Input) (tui : Ratatui Buffer)

/-- What stands at the end of a name too long to draw. -/
def ELLIPSIS : Char := '…'

/-- The first characters of a text, as many as fit the columns there are. -/
def fitting (columns : ℕ) : ℕ → List Char → List Char
  | _, [] => []
  | taken, c :: rest =>
      let wide := (tui.charWidth c).getD 0
      if columns < taken + wide then [] else c :: fitting columns (taken + wide) rest

/-- `ui::clip`: text in some columns or fewer.  The characters are counted one by one, and the
ellipsis is put behind what fits. -/
def clip (text : String) (width : ℕ) : String :=
  if kit.width text ≤ width then text
  else
    let room := width - (tui.charWidth ELLIPSIS).getD 1
    String.ofList (fitting tui room 0 text.toList ++ [ELLIPSIS])

/-- `ui::right_align`: cut when it is wider, padded on the left when narrower. -/
def rightAlign (text : String) (width : ℕ) : String :=
  let text := clip kit tui text width
  String.ofList (List.replicate (width - kit.width text) ' ') ++ text

/-- A number in two digits. -/
def twoDigits (n : ℕ) : String :=
  if n < 10 then s!"0{n}" else s!"{n}"

/-- The day a run of messages was posted on, as a line of its own. -/
def separator (on : Date) : Line where
  spans := [⟨s!"-- {twoDigits on.day}/{twoDigits on.month} --", Theme.TIMESTAMP⟩]
  centered := true

/-- What time a message was posted.  It is the reader's time of day, at the offset that is in use
when the pane is drawn. -/
def clock : Option LocalTime → String
  | some at_ => s!" {twoDigits at_.hour}:{twoDigits at_.minute}"
  | none => ""

/-- The colour a name is drawn in. -/
def colour (me username : String) : Color :=
  if username = me then Theme.OWN_NICKNAME else Theme.nickname username

/-- A server timestamp on the reader's own clock, or nothing when it cannot be represented. -/
def localAt (here : ℤ) (postedAt : UnixMillis) : Option LocalTime :=
  tui.localTime (postedAt.get * 1000000) here

/-- A message as a line. -/
def messageLine (here : ℤ) (me : String) (message : Message) : Line where
  spans :=
    [⟨rightAlign kit tui message.username NAME_WIDTH ++ " ", colour me message.username⟩,
      ⟨message.body, Theme.TEXT⟩,
      ⟨clock (localAt tui here message.postedAt), Theme.TIMESTAMP⟩]

/-- The messages as lines, the last day that was written out being `day`.  A day is written out
before the first message of it, and not again before the next. -/
def messageLines (here : ℤ) (me : String) : Option Date → List Message → List Line
  | _, [] => []
  | day, message :: rest =>
      let at_ := localAt tui here message.postedAt
      -- a timestamp that will not convert carries no day, so it cuts no run
      match (at_.map LocalTime.date).filter fun date => some date ≠ day with
      | some date =>
          separator date :: messageLine kit tui here me message ::
            messageLines here me (some date) rest
      | none => messageLine kit tui here me message :: messageLines here me day rest

/-- A line this client wrote itself: a complaint, or a line of the help. -/
def noticeLine (notice : String) : Line where
  spans := [⟨notice, if notice.startsWith "⚠ " then Theme.ERROR else Theme.DIM⟩]

/-- What the pane shows. -/
structure Content where
  title : String
  lines : List Line
  deriving DecidableEq

/-- **What the pane shows of a screen**: the title of the open room, its messages, and the notices.
Neither the line that is typed nor the other rooms are in it, so that typing does not draw the pane
anew. -/
def content (here : ℤ) (screen : Chat Input) : Content where
  title := match screen.openRoom with
    | some room => s!" #{room.name} "
    | none => " no rooms "
  lines := messageLines kit tui here screen.me none screen.messages ++
    screen.notices.map noticeLine

/-! ### The pane -/

/-- How many rows lie above the last screenful: in rows counted as a `u16`. -/
def bottom (rows : ℕ) (area : Rect) : ℕ :=
  rows % 65536 - area.height.toNat

/-- The offset that is drawn: following the newest until the reader says otherwise, and never
past the end. -/
def offset (scroll : Option ℕ) (bottom : ℕ) : ℕ :=
  min (scroll.getD bottom) bottom

/-- Draws how far down the pane is, on its own right border. -/
def drawScrollbar (buffer : Buffer) (area : Rect) (visible offset bottom : ℕ) : Buffer :=
  if bottom = 0 then buffer
  else tui.scrollbar (bottom + 1) offset visible Theme.BORDER Theme.FOCUS (tui.inset area)
    buffer

/-- **The pane, drawn afresh**: its cells, and what was measured.  It is a function of the content,
the area and the offset alone, which is what makes keeping it right. -/
def drawPane (content : Content) (area : Rect) (scroll : Option ℕ) : Buffer × (ℕ × ℕ) :=
  let inner := tui.blockInner area
  let bottom := bottom (tui.lineCount content.lines inner.width.toNat) area
  let offset := offset scroll bottom
  let cells := tui.panel content.title content.lines offset area
  (drawScrollbar tui cells area inner.height.toNat offset bottom, (bottom, inner.height.toNat))

/-- The message pane as it was last drawn. -/
structure Pane (Buffer : Type) where
  area : Rect
  scroll : Option ℕ
  revision : ℕ
  buffer : Buffer
  measured : ℕ × ℕ

/-- Whether these cells still stand for what would be drawn now.  All three have to be the same,
and nothing else is looked at. -/
def Pane.stillStands (pane : Pane Buffer) (area : Rect) (scroll : Option ℕ) (revision : ℕ) :
    Prop :=
  pane.area = area ∧ pane.scroll = scroll ∧ pane.revision = revision

instance (pane : Pane Buffer) (area : Rect) (scroll : Option ℕ) (revision : ℕ) :
    Decidable (pane.stillStands area scroll revision) :=
  inferInstanceAs (Decidable (_ ∧ _ ∧ _))

end Chat

/-- The chat screen, and the pane it has kept. -/
structure DrawnChat (Input Buffer : Type) where
  chat : Chat Input
  pane : Option (Chat.Pane Buffer)

namespace DrawnChat

open Chat

variable {Input Buffer : Type} (kit : Toolkit Input) (tui : Ratatui Buffer) (here : ℤ)

/-- A new screen has kept nothing. -/
def new (rooms : List Room) (me : String) : DrawnChat Input Buffer :=
  ⟨Chat.new kit rooms me, none⟩

/-- `Chat::draw_messages`: the screen afterwards, the frame, and what was measured.  A pane that
still stands is taken as it is, and its measure with it. -/
def drawMessages (screen : DrawnChat Input Buffer) (frame : Buffer) (area : Rect) :
    DrawnChat Input Buffer × Buffer × (ℕ × ℕ) :=
  let chat := screen.chat
  match screen.pane.filter fun pane => pane.stillStands area chat.scroll chat.revision with
  | some pane => (screen, tui.merge frame pane.buffer, pane.measured)
  | none =>
      let drawn := drawPane tui (content kit tui here chat) area chat.scroll
      ({ screen with pane := some ⟨area, chat.scroll, chat.revision, drawn.1, drawn.2⟩ },
        tui.merge frame drawn.1, drawn.2)

/-- `Chat::draw`, as far as the message pane goes: it keeps what was measured. -/
def draw (screen : DrawnChat Input Buffer) (frame : Buffer) (area : Rect) :
    DrawnChat Input Buffer :=
  let drawn := drawMessages kit tui here screen frame area
  { drawn.1 with chat := { drawn.1.chat with measured := drawn.2.2 } }

/-- What is done with a screen. -/
inductive Op (Buffer : Type)
  | showRooms (rooms : List Room)
  | append (messages : List Message)
  | clear
  | watching (room : RoomId)
  | restore (body : String)
  | warn (message : String)
  /-- Why a call failed, or that one worked. -/
  | report (error : Option String)
  | handleKey (key : KeyEvent) (pending : Bool)
  | draw (frame : Buffer) (area : Rect)

/-- One operation. -/
def step (screen : DrawnChat Input Buffer) : Op Buffer → Option (DrawnChat Input Buffer)
  | .showRooms rooms => some { screen with chat := screen.chat.showRooms rooms }
  | .append messages => some { screen with chat := screen.chat.append messages }
  | .clear => some { screen with chat := screen.chat.clear }
  | .watching room => some { screen with chat := screen.chat.watching room }
  | .restore body => some { screen with chat := screen.chat.restore kit body }
  | .warn message => some { screen with chat := screen.chat.warn message }
  | .report error => some { screen with chat := { screen.chat with error := error } }
  | .handleKey key pending =>
      some { screen with chat := (screen.chat.handleKey kit key pending).1 }
  | .draw frame area => some (draw kit tui here screen frame area)

/-! ### A kept pane is fresh -/

/-- What a kept pane is checked against: what it shows, by the count of the changes to it. -/
def source : Cached.Source (Chat Input) Content where
  content := content kit tui here
  revision := Chat.revision

/-- A kept pane as an entry: drawn for an area and an offset, at a revision. -/
def entry (pane : Pane Buffer) : Cached.Entry (Rect × Option ℕ) (Buffer × (ℕ × ℕ)) :=
  ⟨(pane.area, pane.scroll), pane.revision, (pane.buffer, pane.measured)⟩

/-- The screen's kept pane, if it has one, is faithful to the screen. -/
def Faithful (screen : DrawnChat Input Buffer) : Prop :=
  Cached.Faithful (source kit tui here) (fun content key => drawPane tui content key.1 key.2)
    screen.chat (screen.pane.map entry)

variable {kit tui here}

section Honest

variable (chat : Chat Input)

/-- An operation that counts up the revision is honest. -/
theorem honest_of_changed (s : Chat Input) (same : s.revision = chat.revision) :
    Cached.Honest (source kit tui here) chat s.changed :=
  Or.inl (show chat.revision < s.revision + 1 from same ▸ Nat.lt_succ_self _)

theorem honest_append (messages : List Message) :
    Cached.Honest (source kit tui here) chat (chat.append messages) :=
  honest_of_changed chat _ rfl

theorem honest_clear : Cached.Honest (source kit tui here) chat chat.clear :=
  honest_of_changed chat _ rfl

theorem honest_warn (message : String) :
    Cached.Honest (source kit tui here) chat (chat.warn message) :=
  honest_of_changed chat _ rfl

theorem honest_watching (room : RoomId) :
    Cached.Honest (source kit tui here) chat (chat.watching room) :=
  Or.inr ⟨rfl, rfl⟩

theorem honest_restore (body : String) :
    Cached.Honest (source kit tui here) chat (chat.restore kit body) :=
  Or.inr ⟨rfl, rfl⟩

theorem honest_scrollBy (rows : ℤ) :
    Cached.Honest (source kit tui here) chat (chat.scrollBy rows) :=
  Or.inr ⟨rfl, rfl⟩

theorem honest_select (index : ℕ) (pending : Bool) :
    Cached.Honest (source kit tui here) chat (chat.select index pending).1 := by
  unfold select
  dsimp only
  split
  · exact Cached.Honest.refl chat
  · exact honest_of_changed chat _ rfl

/-- Enter counts a change for everything it does to the notices. -/
theorem honest_submit (pending : Bool) :
    Cached.Honest (source kit tui here) chat (chat.submit kit pending).1 := by
  have taken : Cached.Honest (source kit tui here) chat { chat with input := kit.empty } :=
    Or.inr ⟨rfl, rfl⟩
  unfold submit
  dsimp only
  split_ifs with empty help word busy bad long busy
  · exact taken
  · exact honest_of_changed chat _ rfl
  · exact Cached.Honest.refl chat
  · exact honest_of_changed chat _ rfl
  · exact honest_warn _ _
  · exact honest_warn _ _
  · exact Cached.Honest.refl chat
  · exact honest_of_changed chat _ rfl

theorem honest_handleKey (key : KeyEvent) (pending : Bool) :
    Cached.Honest (source kit tui here) chat (chat.handleKey kit key pending).1 := by
  unfold handleKey
  split
  · exact honest_submit chat pending
  · exact honest_select chat _ pending
  · exact honest_select chat _ pending
  · exact honest_scrollBy chat _
  · exact honest_scrollBy chat _
  · exact honest_scrollBy chat _
  · exact honest_scrollBy chat _
  · exact Or.inr ⟨rfl, rfl⟩

/-- A list of rooms in which every room of another list has its name, and is there. -/
def KeepsNames (before after : List Room) : Prop :=
  Grown before after ∧ ∀ room ∈ before, ∀ other ∈ after, other.id = room.id →
    other.name = room.name

variable {chat} in
/-- **A new sidebar does not count as a change**: the open room stays open, under its name.  It may
have another index by then, so the argument is one about its id. -/
theorem honest_showRooms {rooms : List Room} (selected : chat.Selected)
    (keeps : KeepsNames chat.rooms rooms) :
    Cached.Honest (source kit tui here) chat (chat.showRooms rooms) := by
  obtain ⟨room, open_⟩ := selected.openRoom
  have listed := mem_of_openRoom open_
  have stays := showRooms_openRoom open_ (keeps.1 room listed)
  obtain ⟨other, open_', same⟩ := Option.map_eq_some_iff.mp stays
  have named : other.name = room.name :=
    keeps.2 room listed other (mem_of_openRoom open_') same
  refine Or.inr ⟨rfl, ?_⟩
  show content kit tui here (chat.showRooms rooms) = content kit tui here chat
  simp only [content, open_, open_', named]
  rfl

end Honest

/-- A key leaves a room selected. -/
theorem handleKey_selected {chat : Chat Input} (selected : chat.Selected) (key : KeyEvent)
    (pending : Bool) : (chat.handleKey kit key pending).1.Selected := by
  rcases handleKey_cases kit chat key pending with ⟨⟨_, _, _, _, eq⟩, -⟩ | moves
  · rw [eq]
    exact selected
  · exact moves.selected selected

/-- The lists of rooms are never empty, and only grow, without renaming a room. -/
def ListsGrow (screen : DrawnChat Input Buffer) : Op Buffer → Prop
  | .showRooms rooms => rooms ≠ [] ∧ KeepsNames screen.chat.rooms rooms
  | _ => True

variable (kit tui here) in
/-- **What every operation keeps**: a room is selected, and the kept pane is faithful. -/
structure Inv (screen : DrawnChat Input Buffer) : Prop where
  selected : screen.chat.Selected
  faithful : Faithful kit tui here screen

theorem inv_new {rooms : List Room} (some_ : rooms ≠ []) (me : String) :
    Inv kit tui here (new kit rooms me) :=
  ⟨selected_new some_ me, Cached.faithful_none _⟩

/-- An honest change of the screen keeps the invariant. -/
theorem Inv.honest {screen : DrawnChat Input Buffer} (inv : Inv kit tui here screen)
    {chat : Chat Input} (change : Cached.Honest (source kit tui here) screen.chat chat)
    (selected : chat.Selected) : Inv kit tui here { screen with chat := chat } :=
  ⟨selected, inv.faithful.honest change⟩

/-- Drawing keeps the pane that stands, or the one it has just drawn. -/
theorem Inv.drawn {screen : DrawnChat Input Buffer} (inv : Inv kit tui here screen)
    (frame : Buffer) (area : Rect) :
    Inv kit tui here (drawMessages kit tui here screen frame area).1 := by
  unfold drawMessages
  dsimp only
  split
  · exact inv
  · exact ⟨inv.selected, Cached.faithful_build (source kit tui here) screen.chat
      (area, screen.chat.scroll)⟩

theorem Inv.step {s t : DrawnChat Input Buffer} {op : Op Buffer} (inv : Inv kit tui here s)
    (grow : ListsGrow s op) (h : step kit tui here s op = some t) : Inv kit tui here t := by
  cases op with
  | showRooms rooms =>
      cases h
      exact inv.honest (honest_showRooms inv.selected grow.2) (showRooms_selected grow.1)
  | append messages =>
      cases h
      exact inv.honest (honest_append _ messages) inv.selected
  | clear =>
      cases h
      exact inv.honest (honest_clear _) inv.selected
  | watching room =>
      cases h
      exact inv.honest (honest_watching _ room) inv.selected
  | restore body =>
      cases h
      exact inv.honest (honest_restore _ body) inv.selected
  | warn message =>
      cases h
      exact inv.honest (honest_warn _ message) inv.selected
  | report error =>
      cases h
      exact inv.honest (Or.inr ⟨rfl, rfl⟩) inv.selected
  | handleKey key pending =>
      cases h
      exact inv.honest (honest_handleKey _ key pending)
        (handleKey_selected inv.selected key pending)
  | draw frame area =>
      cases h
      -- what was measured is no part of what the pane shows
      exact (inv.drawn frame area).honest (Or.inr ⟨rfl, rfl⟩)
        (inv.drawn frame area).selected

/-- **A pane that still stands is the pane that would be drawn now.** Whether it stands is decided
by the area, the offset and the revision, which are compared. -/
theorem Faithful.stands {screen : DrawnChat Input Buffer}
    (faithful : Faithful kit tui here screen) {pane : Pane Buffer}
    (kept : screen.pane = some pane) {area : Rect}
    (stands : pane.stillStands area screen.chat.scroll screen.chat.revision) :
    (pane.buffer, pane.measured)
      = drawPane tui (content kit tui here screen.chat) area screen.chat.scroll := by
  obtain ⟨same_area, same_scroll, now⟩ := stands
  have mem : entry pane ∈ screen.pane.map entry := by
    rw [kept]
    rfl
  have fresh := faithful.value_eq mem now
  rw [← same_area, ← same_scroll]
  exact fresh

/-- So drawing comes to the same, whether the pane is kept or drawn afresh. -/
theorem Faithful.drawMessages_eq {screen : DrawnChat Input Buffer}
    (faithful : Faithful kit tui here screen) (frame : Buffer) (area : Rect) :
    (drawMessages kit tui here screen frame area).2 =
      let drawn := drawPane tui (content kit tui here screen.chat) area screen.chat.scroll
      (tui.merge frame drawn.1, drawn.2) := by
  unfold drawMessages
  dsimp only
  split
  next pane found =>
    obtain ⟨kept, stands⟩ := Option.filter_eq_some_iff.mp found
    rw [← faithful.stands kept (of_decide_eq_true stands)]
  next => rfl

/-- **The cached pane equals a fresh draw**, after every sequence of operations in which the lists
of rooms are never empty and only grow without renaming a room. -/
theorem kept_pane_fresh {rooms : List Room} (some_ : rooms ≠ []) {me : String}
    {ops : List (Op Buffer)} {screen : DrawnChat Input Buffer}
    (grow : Along (step kit tui here) ListsGrow (new kit rooms me) ops)
    (ran : run (step kit tui here) (new kit rooms me) ops = some screen) {area : Rect}
    {pane : Pane Buffer} (kept : screen.pane = some pane)
    (stands : pane.stillStands area screen.chat.scroll screen.chat.revision) (frame : Buffer) :
    (pane.buffer, pane.measured)
        = drawPane tui (content kit tui here screen.chat) area screen.chat.scroll ∧
      drawMessages kit tui here screen frame area =
        (screen, tui.merge frame pane.buffer, pane.measured) := by
  have inv : Inv kit tui here screen :=
    run_invariant_along (fun _ _ _ grow stepped inv => Inv.step inv grow stepped) grow ran
      (inv_new some_ me)
  refine ⟨inv.faithful.stands kept stands, ?_⟩
  have found : screen.pane.filter (fun pane => decide (pane.stillStands area screen.chat.scroll
      screen.chat.revision)) = some pane := by
    rw [kept]
    exact Option.filter_some_pos (decide_eq_true stands)
  unfold drawMessages
  simp only [found]

/-! ### Following the newest -/

/-- The key scrolls the pane. -/
def Scrolls (key : KeyEvent) : Prop :=
  key.code = .up ∨ key.code = .down ∨ key.code = .pageUp ∨ key.code = .pageDown

variable (kit) in
/-- The screen after some keys. -/
def press (pending : Bool) (chat : Chat Input) (keys : List KeyEvent) : Chat Input :=
  keys.foldl (fun chat key => (chat.handleKey kit key pending).1) chat

/-- The offset at which the pane of a screen is drawn, as it was measured. -/
def drawnOffset (chat : Chat Input) : ℕ :=
  offset chat.scroll chat.measured.1

/-- **The pane follows the newest row**, out of `wrapped` rows of which `fit` fit at a time. -/
structure FollowsNewest (kit : Toolkit Input) (chat : Chat Input) (wrapped fit : ℕ) : Prop where
  /-- Without an offset of the reader's, the rows that are drawn include the last one. -/
  newest : chat.scroll = none →
    wrapped ≤ drawnOffset chat + fit ∧ (wrapped ≠ 0 → drawnOffset chat < wrapped)
  /-- The largest offset is the number of rows that do not fit. -/
  measured : chat.measured.1 = wrapped - fit
  /-- No scrolling leaves those rows, -/
  within : ∀ pending keys, (∀ key ∈ keys, Scrolls key) →
    drawnOffset (press kit pending chat keys) ≤ wrapped - fit
  /-- and a key gives up the offset exactly when it lands on the last of them. -/
  gives_up : ∀ pending keys key, (∀ key ∈ keys, Scrolls key) → Scrolls key →
    ((press kit pending chat (keys ++ [key])).scroll = none ↔
      drawnOffset (press kit pending chat (keys ++ [key])) = wrapped - fit)

variable (kit) in
/-- A scroll key moves the pane, and does nothing else. -/
theorem handleKey_scrolls (chat : Chat Input) {key : KeyEvent} (scrolls : Scrolls key)
    (pending : Bool) : ∃ rows, (chat.handleKey kit key pending).1 = chat.scrollBy rows := by
  unfold handleKey
  rcases scrolls with up | down | pageUp | pageDown
  · rw [up]
    exact ⟨_, rfl⟩
  · rw [down]
    exact ⟨_, rfl⟩
  · rw [pageUp]
    exact ⟨_, rfl⟩
  · rw [pageDown]
    exact ⟨_, rfl⟩

/-- What was measured stays, through any scrolling. -/
theorem press_measured (pending : Bool) {keys : List KeyEvent} (scrolls : ∀ key ∈ keys, Scrolls key)
    (chat : Chat Input) : (press kit pending chat keys).measured = chat.measured := by
  induction keys generalizing chat with
  | nil => rfl
  | cons key keys ih =>
      obtain ⟨rows, moved⟩ := handleKey_scrolls kit chat
        (scrolls key List.mem_cons_self) pending
      show (press kit pending (chat.handleKey kit key pending).1 keys).measured = _
      rw [ih (fun key mem => scrolls key (List.mem_cons_of_mem _ mem)), moved]
      rfl

/-- **Scrolling gives up the offset exactly when it lands on the end.** A reader who comes back to
the end follows the newest again. -/
theorem scrollBy_gives_up (chat : Chat Input) (rows : ℤ) :
    (chat.scrollBy rows).scroll = none ↔ drawnOffset (chat.scrollBy rows) = chat.measured.1 := by
  have low : (0 : ℤ) ≤ max 0 (min (chat.measured.1 : ℤ)
      (chat.scroll.getD chat.measured.1 + rows)) := le_max_left _ _
  unfold drawnOffset offset scrollBy
  dsimp only
  split_ifs with inside
  · simp only [Option.getD_some, false_iff]
    omega
  · simp

/-- `scroll_by` in the `i32` that the source computes it in, and back in a `u16`. -/
def scrollTo (measured : ℕ) (scroll : Option ℕ) (rows : ℤ) : Option ℕ :=
  let from_ : ℤ := scroll.getD measured
  let target := max 0 (min (measured : ℤ) (max (-2147483648) (min 2147483647 (from_ + rows))))
  if target < measured then some (target.toNat % 65536) else none

/-- Neither the saturating sum nor the cast ever changes what `scroll_by` comes to. -/
theorem scrollBy_scroll (chat : Chat Input) (fits : chat.measured.1 < 65536) (rows : ℤ) :
    (chat.scrollBy rows).scroll = scrollTo chat.measured.1 chat.scroll rows := by
  unfold scrollBy scrollTo
  dsimp only
  have clamps : max 0 (min (chat.measured.1 : ℤ) (max (-2147483648) (min 2147483647
      ((chat.scroll.getD chat.measured.1 : ℤ) + rows))))
        = max 0 (min (chat.measured.1 : ℤ) (chat.scroll.getD chat.measured.1 + rows)) := by
    omega
  rw [clamps]
  split_ifs with inside
  · congr 1
    omega
  · rfl

theorem drawMessages_chat (screen : DrawnChat Input Buffer) (frame : Buffer) (area : Rect) :
    (drawMessages kit tui here screen frame area).1.chat = screen.chat := by
  unfold drawMessages
  dsimp only
  split <;> rfl

/-- What a draw measures, and what it leaves alone. -/
theorem Faithful.draw_chat {screen : DrawnChat Input Buffer}
    (faithful : Faithful kit tui here screen) (frame : Buffer) (area : Rect) :
    (draw kit tui here screen frame area).chat =
      { screen.chat with
        measured :=
          (bottom (tui.lineCount (content kit tui here screen.chat).lines
            (tui.blockInner area).width.toNat) area, (tui.blockInner area).height.toNat) } := by
  unfold draw
  dsimp only
  rw [drawMessages_chat, faithful.drawMessages_eq]
  rfl

/-- The rows that are drawn are those from the offset that was measured with them. -/
theorem Faithful.draw_frame {screen : DrawnChat Input Buffer}
    (faithful : Faithful kit tui here screen) (frame : Buffer) (area : Rect) :
    ∃ cells, (drawMessages kit tui here screen frame area).2.1 = tui.merge frame cells ∧
      cells = drawScrollbar tui
        (tui.panel (content kit tui here screen.chat).title
          (content kit tui here screen.chat).lines
          (drawnOffset (draw kit tui here screen frame area).chat) area)
        area (tui.blockInner area).height.toNat
        (drawnOffset (draw kit tui here screen frame area).chat)
        (draw kit tui here screen frame area).chat.measured.1 := by
  refine ⟨_, congrArg Prod.fst (faithful.drawMessages_eq frame area), ?_⟩
  rw [faithful.draw_chat]
  rfl

section Following

variable {screen : DrawnChat Input Buffer} {area : Rect} {wrapped : ℕ}

/-- Once the rows are too many for a `u16`, the largest offset is too small. -/
theorem count_fits_of_follows (bordered : tui.Bordered) (faithful : Faithful kit tui here screen)
    (frame : Buffer) (tall : 3 ≤ area.height.toNat)
    (exact_ : tui.lineCount (content kit tui here screen.chat).lines
      (tui.blockInner area).width.toNat = wrapped + 2)
    (follows : FollowsNewest kit (draw kit tui here screen frame area).chat wrapped
      (tui.blockInner area).height.toNat) :
    wrapped + 2 < 65536 := by
  have height : area.height.toNat < 65536 := area.height.toNat_lt
  have fit := bordered area
  rw [faithful.draw_chat, exact_] at follows
  have measured : (wrapped + 2) % 65536 - area.height.toNat
      = wrapped - (tui.blockInner area).height.toNat := follows.measured
  by_contra large
  have cut : (wrapped + 2) % 65536 < 65536 := Nat.mod_lt _ (by decide)
  omega

theorem follows_of_count_fits (bordered : tui.Bordered) (faithful : Faithful kit tui here screen)
    (frame : Buffer) (tall : 3 ≤ area.height.toNat)
    (exact_ : tui.lineCount (content kit tui here screen.chat).lines
      (tui.blockInner area).width.toNat = wrapped + 2)
    (small : wrapped + 2 < 65536) :
    FollowsNewest kit (draw kit tui here screen frame area).chat wrapped
      (tui.blockInner area).height.toNat := by
  have fit := bordered area
  have measured : bottom (wrapped + 2) area
      = wrapped - (tui.blockInner area).height.toNat := by
    unfold bottom
    rw [Nat.mod_eq_of_lt small]
    omega
  rw [faithful.draw_chat, exact_, measured]
  refine ⟨fun following => ?_, rfl, fun pending keys scrolls => ?_, ?_⟩
  · change screen.chat.scroll = none at following
    unfold drawnOffset offset
    dsimp only
    rw [following, Option.getD_none, min_self]
    omega
  · rw [drawnOffset, press_measured pending scrolls]
    exact min_le_right _ _
  · intro pending keys key scrolls scrolls'
    have last : ∀ chat : Chat Input, press kit pending chat (keys ++ [key])
        = ((press kit pending chat keys).handleKey kit key pending).1 := fun chat => by
      rw [press, List.foldl_append]
      rfl
    obtain ⟨rows, moved⟩ := handleKey_scrolls kit (press kit pending _ keys) scrolls'
      pending
    rw [last, moved, scrollBy_gives_up, press_measured pending scrolls]

/-- **Following the newest shows the newest** as long as the rows of the pane, its border's two
included, can be counted in a `u16`.  The count is exact by assumption, and is cut to sixteen bits
only when the draw measures the pane. -/
theorem follows_newest_iff (bordered : tui.Bordered) (faithful : Faithful kit tui here screen)
    (frame : Buffer) (tall : 3 ≤ area.height.toNat)
    (exact_ : tui.lineCount (content kit tui here screen.chat).lines
      (tui.blockInner area).width.toNat = wrapped + 2) :
    FollowsNewest kit (draw kit tui here screen frame area).chat wrapped
      (tui.blockInner area).height.toNat ↔ wrapped + 2 < 65536 :=
  ⟨count_fits_of_follows bordered faithful frame tall exact_,
    follows_of_count_fits bordered faithful frame tall exact_⟩

end Following

end DrawnChat

/-! ### A pane to look at -/

/-- A stand-in for the libraries, true to them on the first day of the epoch, for lines that need
no wrapping and in areas with room for a border: a buffer is the title and the texts on screen,
and where the scrollbar is. -/
def Ratatui.plain : Ratatui (List String) where
  charWidth _ := some 1
  localTime nanos here :=
    let seconds := nanos / 1000000000 + here
    if 0 ≤ seconds ∧ seconds < 86400 then
      some ⟨⟨1970, 1, 1⟩, (seconds / 3600).toNat, (seconds / 60 % 60).toNat⟩
    else none
  blockInner area := ⟨area.x + 1, area.y + 1, UInt16.ofNat (area.width.toNat - 2),
    UInt16.ofNat (area.height.toNat - 2)⟩
  inset area := { area with y := area.y + 1, height := UInt16.ofNat (area.height.toNat - 2) }
  lineCount lines _ := lines.length + 2
  panel title lines scroll area :=
    title :: ((lines.drop scroll).take (area.height.toNat - 2)).map fun line =>
      String.join (line.spans.map Span.text)
  scrollbar positions position _ _ _ _ buffer := buffer ++ [s!"{position} of {positions}"]
  merge _ buffer := buffer

theorem Ratatui.plain_bordered : Ratatui.plain.Bordered := by
  intro area
  exact UInt16.toNat_ofNat_of_lt' (lt_of_le_of_lt (Nat.sub_le _ 2) area.height.toNat_lt)

namespace DrawnChat

open Chat

/-- Messages of one instant are so many lines, and one for the day. -/
theorem length_messageLines {Input Buffer : Type} (kit : Toolkit Input) (tui : Ratatui Buffer)
    (here : ℤ) (me : String) {at_ : UnixMillis} {time : LocalTime}
    (converts : localAt tui here at_ = some time) :
    ∀ {messages : List Message}, (∀ message ∈ messages, message.postedAt = at_) →
      (messageLines kit tui here me (some time.date) messages).length = messages.length := by
  intro messages same
  induction messages with
  | nil => rfl
  | cons message rest ih =>
      have now : localAt tui here message.postedAt = some time := by
        rw [same message List.mem_cons_self]
        exact converts
      simp only [messageLines, now, Option.map_some, Option.filter_some, ne_eq, not_true_eq_false,
        decide_false, Bool.false_eq_true, if_false, List.length_cons]
      rw [ih fun other mem => same other (List.mem_cons_of_mem _ mem)]

/-- The lobby, and a room beside it. -/
def lobby : Room := ⟨⟨1⟩, "lobby", ⟨0⟩⟩

def tea : Room := ⟨⟨2⟩, "tea", ⟨0⟩⟩

/-- The part of a terminal that the pane has. -/
def area : Rect := ⟨18, 0, 62, 20⟩

/-- A message is drawn, a room is added, a character is typed: the pane that was drawn still
stands, and is what would be drawn now. -/
theorem kept_pane_fresh_typing : ∃ (screen : DrawnChat String (List String)) (pane : Pane _),
    run (step .plain .plain 0) (new .plain [lobby] "alice")
        [.append [⟨⟨1⟩, "bob", "hi", ⟨0⟩⟩], .draw [] area, .showRooms [lobby, tea],
          .handleKey ⟨.char 'x', false, 0⟩ false] = some screen ∧
      screen.pane = some pane ∧
        pane.buffer = [" #lobby ", "-- 01/01 --", "       bob hi 00:00"] ∧
          (pane.buffer, pane.measured)
            = drawPane .plain (content .plain .plain 0 screen.chat) area screen.chat.scroll := by
  obtain ⟨screen, pane, ran, kept, shows, stands⟩ :
      ∃ (screen : DrawnChat String (List String)) (pane : Pane _),
        run (step .plain .plain 0) (new .plain [lobby] "alice")
            [.append [⟨⟨1⟩, "bob", "hi", ⟨0⟩⟩], .draw [] area, .showRooms [lobby, tea],
              .handleKey ⟨.char 'x', false, 0⟩ false] = some screen ∧
          screen.pane = some pane ∧
            pane.buffer = [" #lobby ", "-- 01/01 --", "       bob hi 00:00"] ∧
              pane.stillStands area screen.chat.scroll screen.chat.revision :=
    ⟨_, _, rfl, rfl, rfl, rfl, rfl, rfl⟩
  refine ⟨screen, pane, ran, kept, shows, ?_⟩
  refine (kept_pane_fresh (by decide) ?_ ran kept stands []).1
  refine ⟨trivial, ?_⟩
  rintro _ ⟨⟩
  refine ⟨trivial, ?_⟩
  rintro _ ⟨⟩
  refine ⟨⟨by decide, by decide, by decide⟩, ?_⟩
  rintro _ ⟨⟩
  exact ⟨trivial, fun _ _ => trivial⟩

/-- A screen that has been handed some number of messages, all of them of the same minute. -/
def handed (n : ℕ) : DrawnChat String (List String) :=
  ⟨(Chat.new .plain [lobby] "alice").append
    ((List.range n).map fun i => ⟨⟨i + 1⟩, "bob", "hi", ⟨0⟩⟩), none⟩

theorem faithful_handed (n : ℕ) : Faithful .plain .plain 0 (handed n) :=
  Cached.faithful_none _

theorem handed_lines {n : ℕ} (some_ : 0 < n) :
    Ratatui.plain.lineCount (content .plain .plain 0 (handed n).chat).lines
      (Ratatui.plain.blockInner area).width.toNat = n + 1 + 2 := by
  obtain ⟨n, rfl⟩ := Nat.exists_eq_succ_of_ne_zero some_.ne'
  have converts : localAt (Ratatui.plain) 0 ⟨0⟩ = some ⟨⟨1970, 1, 1⟩, 0, 0⟩ := rfl
  refine congrArg (· + 2) ?_
  show (messageLines .plain .plain 0 "alice" none ((List.range (n + 1)).map fun i =>
    (⟨⟨i + 1⟩, "bob", "hi", ⟨0⟩⟩ : Message)) ++ []).length = n + 2
  rw [List.append_nil, List.range_succ_eq_map, List.map_cons]
  simp only [messageLines, converts, Option.map_some, Option.filter_some]
  show (messageLines .plain .plain 0 "alice" (some ⟨1970, 1, 1⟩) _).length + 1 + 1 = n + 2
  rw [length_messageLines .plain .plain 0 "alice" converts (by simp)]
  simp

/-- A thousand messages: the pane follows the newest. -/
theorem follows_newest_iff_thousand :
    FollowsNewest .plain (draw .plain .plain 0 (handed 1000) [] area).chat 1001
      (Ratatui.plain.blockInner area).height.toNat ↔ 1001 + 2 < 65536 :=
  follows_newest_iff Ratatui.plain_bordered (faithful_handed 1000) [] (by decide)
    (handed_lines (by decide))

/-- With 65533 messages the rows of the pane are counted as none at all: it follows the oldest. -/
theorem not_follows_newest :
    (draw .plain .plain 0 (handed 65533) [] area).chat.measured.1 = 0 ∧
      ¬ FollowsNewest .plain (draw .plain .plain 0 (handed 65533) [] area).chat 65534
        (Ratatui.plain.blockInner area).height.toNat := by
  have counted := handed_lines (n := 65533) (by decide)
  constructor
  · rw [(faithful_handed 65533).draw_chat, counted]
    exact Nat.sub_eq_zero_of_le (by decide)
  · intro follows
    exact absurd (count_fits_of_follows Ratatui.plain_bordered (faithful_handed 65533) []
      (by decide) counted follows) (by decide)

end DrawnChat

end ScionChat
