import ScionChat.Client.Feed
import ScionChat.Lib.Gapless

/-!
# The open room of the Android and iOS apps

Both apps read the open room in pages of `PAGE` messages, on from a message that they hold or from
the newest page, and merge each page with what they hold.  `NoHoles` is what a reader of the screen
expects of it, and `Held` is the same, stated so that a merge keeps it (`Held.merged_iff`).

A page comes from the server's log as it was when the read was answered, which may be some time ago
when the page arrives: `Replied`.

### design decisions

* **Shared where the apps agree.**  What a page is, what a merge makes of it, and when it leaves a
  hole are the same on both phones.  When a read is begun and whether its page is taken are not,
  and stay with either app.
* **Holes are the log theory's.**  A room's messages on the screen are gapless in the room's log,
  so everything about merging is an instance of `KeyedLog.Gapless`, at messages and positions.

### What is load-bearing

That `Held` is about which messages are held, and not about their order: a merge sorts, so the
order takes care of itself, and the invariant of a run is one about sets.  `Replied.joins` is the
harmless case, a read that goes on from a message that is still held.
-/

namespace ScionChat

open KeyedLog

namespace Mobile

/-! ### Reading -/

/-- How many messages a page holds.  The server would give more, so a page of this length may not
be the whole of what there is. -/
def PAGE : ℕ := 50

/-- What a read asks for: what lies after a position, or the newest page. -/
def cursor : Option Seq → ChatClient.Cursor
  | none => .newest
  | some newest => .after newest

/-- The page that the server answers a read of the room with. -/
def pageOf (log : List (RoomId × Message)) (room : RoomId) (after : Option Seq) :
    Except ChatError (List Message) :=
  served (roomLog room log) PAGE (cursor after)

/-- The page that comes of a read, with the log as it was at some time. -/
def Replied (log : List (RoomId × Message)) (room : RoomId) (after : Option Seq)
    (page : List Message) : Prop :=
  ∃ view, view <+: log ∧ pageOf view room after = .ok page

theorem pageOf_newest {log : List (RoomId × Message)} {room : RoomId} {page : List Message}
    (answered : pageOf log room none = .ok page) : page = pageNewest PAGE (roomLog room log) :=
  page_of_served answered

theorem pageOf_after {log : List (RoomId × Message)} {room : RoomId} {after : Seq}
    {page : List Message} (answered : pageOf log room (some after) = .ok page) :
    page = pageAfter Message.seq after PAGE (roomLog room log) :=
  page_of_served answered

theorem roomLog_sorted {log : List (RoomId × Message)} (posted : Posted log) (room : RoomId) :
    Ascending Message.seq (roomLog room log) :=
  roomLog_ascending posted.ascending room

namespace Replied

variable {log later : List (RoomId × Message)} {room : RoomId} {after : Option Seq}
  {page messages : List Message}

theorem grow (replied : Replied log room after page) (grows : log <+: later) :
    Replied later room after page := by
  obtain ⟨view, early, answered⟩ := replied
  exact ⟨view, early.trans grows, answered⟩

/-- A page has no holes. -/
theorem gapless (replied : Replied log room after page) (posted : Posted log) :
    Gapless Message.seq (roomLog room log) page := by
  obtain ⟨view, early, answered⟩ := replied
  have sorted := roomLog_sorted posted room
  cases after with
  | none =>
      rw [pageOf_newest answered]
      exact gapless_pageNewest sorted (roomLog_grows early room) PAGE
  | some after =>
      rw [pageOf_after answered]
      exact gapless_pageAfter sorted (roomLog_grows early room) after PAGE

/-- A page is in order. -/
theorem sorted (replied : Replied log room after page) (posted : Posted log) :
    Ascending Message.seq page := by
  obtain ⟨view, early, answered⟩ := replied
  have sorted := (roomLog_sorted posted room).sublist (roomLog_grows early room).sublist
  cases after with
  | none =>
      rw [pageOf_newest answered]
      exact sorted.sublist (pageNewest_suffix PAGE _).sublist
  | some after =>
      rw [pageOf_after answered]
      exact (sorted.filter _).sublist (List.take_sublist PAGE _)

/-- **A read that goes on from a message held joins up with it**, however late its page.  What has
been posted since can only be behind the page. -/
theorem joins {c : Seq} (replied : Replied log room (some c) page) (posted : Posted log)
    (from_ : ∃ a ∈ messages, a.seq = c) :
    Joins Message.seq (roomLog room log) messages page := by
  obtain ⟨view, early, answered⟩ := replied
  rw [pageOf_after answered]
  exact joins_pageAfter (roomLog_sorted posted room) (roomLog_grows early room) from_ PAGE

end Replied

/-! ### What is held -/

/-- **No holes**: the messages on the screen are in order, each once, and a contiguous segment of
the open room's log. -/
structure NoHoles (log : List (RoomId × Message)) (openRoomId : Option RoomId)
    (messages : List Message) : Prop where
  sorted : messages.Pairwise fun a b => a.seq < b.seq
  segment : ∀ room, openRoomId = some room → messages <:+: roomLog room log
  whole : ∀ room, openRoomId = some room → ∀ a ∈ messages, ∀ b ∈ messages,
    ∀ m ∈ roomLog room log, a.seq < m.seq → m.seq < b.seq → m ∈ messages
  closed : openRoomId = none → messages = []

/-- The same, of which messages are held.  Their order is left out, since every merge sorts. -/
structure Held (log : List (RoomId × Message)) (openRoomId : Option RoomId)
    (messages : List Message) : Prop where
  sorted : Ascending Message.seq messages
  gapless : ∀ room, openRoomId = some room → Gapless Message.seq (roomLog room log) messages
  closed : openRoomId = none → messages = []

namespace Held

variable {log later : List (RoomId × Message)} {openRoomId : Option RoomId} {room : RoomId}
  {messages page got : List Message}

theorem empty (log : List (RoomId × Message)) (openRoomId : Option RoomId) :
    Held log openRoomId [] :=
  ⟨List.Pairwise.nil, fun _ _ => Gapless.nil _, fun _ => rfl⟩

theorem grow (held : Held log openRoomId messages) (grows : log <+: later)
    (posted : Posted later) : Held later openRoomId messages where
  sorted := held.sorted
  gapless := fun room opened =>
    (held.gapless room opened).grow (roomLog_grows grows room) (roomLog_sorted posted room)
  closed := held.closed

theorem noHoles (held : Held log openRoomId messages) (posted : Posted log) :
    NoHoles log openRoomId messages where
  sorted := held.sorted
  segment := fun room opened =>
    (held.gapless room opened).isInfix (roomLog_sorted posted room) held.sorted
  whole := fun room opened => (held.gapless room opened).between
  closed := held.closed

/-- What is held is what the screen expects, no less. -/
theorem of_noHoles (shown : NoHoles log openRoomId messages) : Held log openRoomId messages where
  sorted := shown.sorted
  gapless := fun room opened => ⟨(shown.segment room opened).subset, shown.whole room opened⟩
  closed := shown.closed

/-- **A page leaves no hole if and only if it joins up with what is held.** The page is a stretch
of the log, and so is what is held: the two are one stretch, or there is something between them. -/
theorem merged_iff (held : Held log (some room) messages) (posted : Posted log)
    (page_gapless : Gapless Message.seq (roomLog room log) page)
    (merged : Merged Message.seq messages page got) :
    Held log (some room) got ↔ Joins Message.seq (roomLog room log) messages page := by
  have gapless_iff := merged.gapless_iff (roomLog_sorted posted room)
    (held.gapless room rfl) page_gapless
  constructor
  · intro held
    exact gapless_iff.mp (held.gapless room rfl)
  · intro joins
    refine ⟨merged.ascending, fun there opened => ?_, nofun⟩
    cases opened
    exact gapless_iff.mpr joins

end Held

end Mobile

end ScionChat
