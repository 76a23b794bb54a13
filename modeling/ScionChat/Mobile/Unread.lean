import Mathlib.Order.MinMax
import ScionChat.Mobile.Sending
import ScionChat.Server.Store.Readers

/-!
# Which rooms a phone marks as unread

Both phones keep the newest position that the reader has seen in each room: as the list of rooms
shows it at the login, and then as far as batches of the room on screen are taken.  A room of the
list is marked if it is not on screen and its latest position is past that.

The marks are redrawn by most events, and each phone leaves some of them out: the one for iOS does
not redraw them at the login.  `marks_exact` says that this does no harm, as long as no read that
was under way lands after the session has ended: what is marked, at any time that the chat is on
screen, are the rooms with a message that the reader has not been shown.

### design decisions

* **Redrawing is where each phone does it.**  The marks are part of the state, and an event that
  does not redraw them leaves the old ones, right or wrong.  That they are right is the theorem.
* **What was shown is kept beside the model.**  `Reader` has the list of the login and the batches
  that were taken.  The phone keeps one position for a room, and the result is about the messages.
* **Late reads are events.**  A read that was under way may land at any time that the chat is on
  screen, also for a room that has been left.

### What is load-bearing

`Inv`: what has been seen is all that was shown, and the marks are up to date.  The second half is
what each phone's omissions have to leave true, and the login is the case with an argument: the
positions it takes over are those of the list, so no room has to be marked, and none is, since the
end of a session has cleared the marks.
-/

namespace ScionChat.Unread

open TransitionSystem Sending

/-! ### What has been seen -/

/-- `Unread.lastSeen`, `seen`: the newest position that the reader has seen in each room. -/
abbrev LastSeen := RoomId → Option Seq

namespace LastSeen

/-- The position of a room, the start if there is none. -/
def upTo (lastSeen : LastSeen) (room : RoomId) : Seq :=
  (lastSeen room).getD Seq.START

/-- `seed`: every room is read as it stands.  So nothing is marked after a login until something
new is there. -/
def seed (rooms : List Room) : LastSeen :=
  rooms.foldl (fun lastSeen room => Function.update lastSeen room.id (some room.latestSeq))
    fun _ => none

/-- `advance`.  A position never goes back. -/
def advance (lastSeen : LastSeen) (room : RoomId) (seq : Seq) : LastSeen :=
  if lastSeen.upTo room < seq then Function.update lastSeen room (some seq) else lastSeen

/-- `Unread.of`, `unreadRooms`: which rooms hold something unseen. -/
def unread (lastSeen : LastSeen) (rooms : List Room) (openRoomId : Option RoomId) : List RoomId :=
  (rooms.filter fun room =>
    some room.id ≠ openRoomId ∧ lastSeen.upTo room.id < room.latestSeq).map Room.id

theorem mem_unread {lastSeen : LastSeen} {rooms : List Room} {openRoomId : Option RoomId}
    {room : RoomId} : room ∈ lastSeen.unread rooms openRoomId ↔ openRoomId ≠ some room ∧
      ∃ listed ∈ rooms, listed.id = room ∧ lastSeen.upTo room < listed.latestSeq := by
  simp only [unread, List.mem_map, List.mem_filter, decide_eq_true_eq]
  constructor
  · rintro ⟨listed, ⟨mem, other, later⟩, rfl⟩
    exact ⟨other.symm, listed, mem, rfl, later⟩
  · rintro ⟨other, listed, mem, rfl, later⟩
    exact ⟨listed, ⟨mem, other.symm, later⟩, rfl⟩

@[simp] theorem upTo_update (lastSeen : LastSeen) (room room' : RoomId) (seq : Seq) :
    upTo (Function.update lastSeen room (some seq)) room'
      = if room' = room then seq else lastSeen.upTo room' := by
  unfold upTo
  rw [Function.update_apply]
  split <;> rfl

/-- A room that is advanced is at the later of the two positions, and the others stay. -/
theorem upTo_advance (lastSeen : LastSeen) (room room' : RoomId) (seq : Seq) :
    (lastSeen.advance room seq).upTo room'
      = if room' = room then max (lastSeen.upTo room) seq else lastSeen.upTo room' := by
  unfold advance
  by_cases later : lastSeen.upTo room < seq
  · rw [if_pos later, upTo_update, max_eq_right later.le]
  · rw [if_neg later, max_eq_left (not_lt.mp later)]
    split
    next same => rw [same]
    next => rfl

/-- A list of distinct rooms is seeded room by room. -/
theorem seed_concat (rooms : List Room) (room : Room) :
    seed (rooms ++ [room]) = Function.update (seed rooms) room.id (some room.latestSeq) := by
  rw [seed, List.foldl_append]
  rfl

/-- What is past the seed of a room is past all that the list shows of it. -/
theorem upTo_seed {rooms : List Room} (distinct : (rooms.map Room.id).Nodup) (room : RoomId)
    (p : Seq) : (seed rooms).upTo room < p ↔ Seq.START < p ∧
      ∀ listed ∈ rooms, listed.id = room → listed.latestSeq < p := by
  induction rooms using List.reverseRecOn with
  | nil =>
      show Seq.START < p ↔ _
      simp
  | append_singleton rooms last ih =>
      rw [List.map_append, List.nodup_append] at distinct
      obtain ⟨distinct, -, apart⟩ := distinct
      rw [seed_concat, upTo_update]
      split
      next here =>
        subst here
        constructor
        · intro later
          refine ⟨lt_of_le_of_lt (Seq.START_le _) later, fun listed mem same => ?_⟩
          rcases List.mem_append.mp mem with before | at_last
          · exact absurd same (apart _ (List.mem_map_of_mem before) _ (List.mem_singleton_self _))
          · rwa [List.mem_singleton.mp at_last]
        · rintro ⟨-, all⟩
          exact all last (List.mem_append_right _ (List.mem_singleton_self _)) rfl
      next elsewhere =>
        rw [ih distinct]
        refine and_congr_right fun _ => ⟨fun all listed mem same => ?_, fun all listed mem same =>
          all listed (List.mem_append_left _ mem) same⟩
        rcases List.mem_append.mp mem with before | at_last
        · exact all listed before same
        · rw [List.mem_singleton.mp at_last] at same
          exact absurd same.symm elsewhere

end LastSeen

/-! ### The view model -/

/-- What the view model of a phone keeps about the marks. -/
structure ChatViewModel where
  /-- The chat is on screen: somebody is logged in. -/
  chat : Bool
  rooms : List Room
  openRoomId : Option RoomId
  unread : List RoomId
  lastSeen : LastSeen

/-- What happens to it.  The two reads land only while the chat is on screen. -/
inductive Event
  /-- A login has succeeded, and so has the list of rooms that follows it. -/
  | logIn (rooms : List Room)
  | openRoom (room : RoomId)
  /-- The list of rooms is read. -/
  | listing (rooms : List Room)
  /-- A batch of a room is read. -/
  | batch (room : RoomId) (messages : List Message)
  /-- The session has ended. -/
  | signedOut

/-- All but a login happens while the chat is on screen. -/
def Event.onChat : Event → Bool
  | logIn _ => false
  | _ => true

namespace Android

/-- `ChatViewModel.logIn`, once the rooms are there. -/
def logIn (rooms : List Room) (_ : ChatViewModel) : ChatViewModel :=
  let lastSeen := LastSeen.seed rooms
  let opened := rooms.head?.map Room.id
  { chat := true, rooms := rooms, openRoomId := opened
    unread := lastSeen.unread rooms opened, lastSeen := lastSeen }

/-- `ChatViewModel.openRoom`. -/
def openRoom (room : RoomId) (model : ChatViewModel) : ChatViewModel :=
  { model with
    openRoomId := some room
    unread := model.lastSeen.unread model.rooms (some room) }

/-- What `ChatViewModel.watchRooms` makes of a list. -/
def listing (rooms : List Room) (model : ChatViewModel) : ChatViewModel :=
  { model with rooms := rooms, unread := model.lastSeen.unread rooms model.openRoomId }

/-- `ChatViewModel.applyBatch`.  A batch of another room is dropped whole. -/
def applyBatch (room : RoomId) (batch : List Message) (model : ChatViewModel) : ChatViewModel :=
  if some room ≠ model.openRoomId then model
  else
    let lastSeen := match (batch.map Message.seq).max? with
      | some newest => model.lastSeen.advance room newest
      | none => model.lastSeen
    { model with lastSeen := lastSeen, unread := lastSeen.unread model.rooms (some room) }

/-- `ChatViewModel.signedOut`. -/
def signedOut (model : ChatViewModel) : ChatViewModel :=
  { model with chat := false, unread := [] }

end Android

namespace Ios

/-- `ChatViewModel.logIn`, once the rooms are there: the marks are not drawn.  They are those of
the last sign-out, which has cleared them. -/
def logIn (rooms : List Room) (model : ChatViewModel) : ChatViewModel :=
  { model with
    chat := true
    rooms := rooms
    openRoomId := rooms.head?.map Room.id
    lastSeen := LastSeen.seed rooms }

/-- `ChatViewModel.openRoom`. -/
def openRoom (room : RoomId) (model : ChatViewModel) : ChatViewModel :=
  if some room = model.openRoomId then model
  else
    { model with
      openRoomId := some room
      unread := model.lastSeen.unread model.rooms (some room) }

/-- What `ChatViewModel.readRooms` makes of a list. -/
def readRooms (listing : List Room) (model : ChatViewModel) : ChatViewModel :=
  { model with rooms := listing, unread := model.lastSeen.unread listing model.openRoomId }

/-- What `ChatViewModel.readMessages` makes of a batch. -/
def readMessages (room : RoomId) (batch : List Message) (model : ChatViewModel) : ChatViewModel :=
  if batch ≠ [] ∧ some room = model.openRoomId then
    let lastSeen := model.lastSeen.advance room ((batch.map Message.seq).max?.getD Seq.START)
    { model with lastSeen := lastSeen, unread := lastSeen.unread model.rooms (some room) }
  else model

/-- `ChatViewModel.signedOut`. -/
def signedOut (model : ChatViewModel) : ChatViewModel :=
  { model with chat := false, unread := [] }

end Ios

/-- One event, at a phone. -/
def react : Phone → Event → ChatViewModel → ChatViewModel
  | .android, .logIn rooms => Android.logIn rooms
  | .android, .openRoom room => Android.openRoom room
  | .android, .listing rooms => Android.listing rooms
  | .android, .batch room messages => Android.applyBatch room messages
  | .android, .signedOut => Android.signedOut
  | .ios, .logIn rooms => Ios.logIn rooms
  | .ios, .openRoom room => Ios.openRoom room
  | .ios, .listing rooms => Ios.readRooms rooms
  | .ios, .batch room messages => Ios.readMessages room messages
  | .ios, .signedOut => Ios.signedOut

/-- A view model, and what the reader has been shown since the login: what the list of rooms said
then, and the batches that were taken. -/
structure Reader where
  model : ChatViewModel
  shown : List (RoomId × Seq)

namespace Reader

/-- Before the first login. -/
def fresh : Reader := ⟨⟨false, [], none, [], fun _ => none⟩, []⟩

/-- What the reader has been shown after an event.  What was dropped was not shown. -/
def shownAfter (s : Reader) : Event → List (RoomId × Seq)
  | .logIn rooms => rooms.map fun room => (room.id, room.latestSeq)
  | .batch room messages =>
      if some room = s.model.openRoomId then
        s.shown ++ messages.map fun message => (room, message.seq)
      else s.shown
  | _ => s.shown

/-- One event: a login happens on the other screens, and all else on the chat's. -/
def step (phone : Phone) (s : Reader) (event : Event) : Option Reader :=
  if s.model.chat = event.onChat then
    some ⟨react phone event s.model, s.shownAfter event⟩
  else none

/-- **The invariant**: what has been seen is all that was shown, and the marks are up to date. -/
structure Inv (s : Reader) : Prop where
  seen : ∀ room p, s.model.lastSeen.upTo room < p ↔
    Seq.START < p ∧ ∀ q, (room, q) ∈ s.shown → q < p
  marks : s.model.chat = true → ∀ room, room ∈ s.model.unread ↔
    room ∈ s.model.lastSeen.unread s.model.rooms s.model.openRoomId
  /-- Nothing is marked while nobody is logged in. -/
  quiet : s.model.chat = false → s.model.unread = []

variable {phone : Phone} {s t : Reader}

theorem inv_fresh : Inv fresh where
  seen := fun room p => by
    show Seq.START < p ↔ _
    simp [fresh]
  marks := fun chat => by cases chat
  quiet := fun _ => rfl

/-- After a login, what has been seen is what the list shows. -/
theorem seen_logIn {rooms : List Room} (distinct : (rooms.map Room.id).Nodup) (room : RoomId)
    (p : Seq) : (LastSeen.seed rooms).upTo room < p ↔ Seq.START < p ∧
      ∀ q, (room, q) ∈ (rooms.map fun room => (room.id, room.latestSeq)) → q < p := by
  rw [LastSeen.upTo_seed distinct]
  refine and_congr_right fun _ => ⟨fun all q mem => ?_, fun all listed mem same => ?_⟩
  · obtain ⟨listed, there, same⟩ := List.mem_map.mp mem
    obtain ⟨here, rfl⟩ := Prod.mk.inj same
    exact all listed there here
  · exact all _ (List.mem_map.mpr ⟨listed, mem, by rw [same]⟩)

/-- Nothing is unread as a session opens. -/
theorem unread_seed {rooms : List Room} (distinct : (rooms.map Room.id).Nodup)
    (openRoomId : Option RoomId) (room : RoomId) :
    room ∉ (LastSeen.seed rooms).unread rooms openRoomId := by
  intro marked
  obtain ⟨-, listed, mem, here, later⟩ := LastSeen.mem_unread.mp marked
  exact lt_irrefl _ (((LastSeen.upTo_seed distinct room _).mp later).2 listed mem here)

/-- After a batch has been taken, what has been seen is past that, too. -/
theorem seen_batch (inv : Inv s) {room : RoomId} {messages : List Message} {newest : Seq}
    (top : (messages.map Message.seq).max? = some newest) (room' : RoomId) (p : Seq) :
    (s.model.lastSeen.advance room newest).upTo room' < p ↔ Seq.START < p ∧
      ∀ q, (room', q) ∈ (s.shown ++ messages.map fun message => (room, message.seq)) → q < p := by
  obtain ⟨attained, largest⟩ := List.max?_eq_some_iff.mp top
  have shown : (∀ q, (room', q) ∈ (s.shown ++ messages.map fun message => (room, message.seq)) →
      q < p) ↔ (∀ q, (room', q) ∈ s.shown → q < p) ∧ (room' = room → newest < p) := by
    refine ⟨fun all => ⟨fun q mem => all q (List.mem_append_left _ mem), ?_⟩, ?_⟩
    · rintro rfl
      obtain ⟨message, mem, rfl⟩ := List.mem_map.mp attained
      exact all _ (List.mem_append_right _ (List.mem_map_of_mem mem))
    · rintro ⟨before, top⟩ q mem
      rcases List.mem_append.mp mem with old | new
      · exact before q old
      · obtain ⟨message, there, same⟩ := List.mem_map.mp new
        obtain ⟨rfl, rfl⟩ := Prod.mk.inj same
        exact lt_of_le_of_lt (largest _ (List.mem_map_of_mem there)) (top rfl)
  rw [LastSeen.upTo_advance, shown, ← and_assoc, ← inv.seen room' p]
  split
  next here =>
    subst here
    rw [max_lt_iff]
    simp
  next elsewhere => simp [elsewhere]

/-- What has been seen stays when nothing is shown. -/
theorem seen_stays (inv : Inv s) {messages : List Message} (none_yet : messages = [])
    (room room' : RoomId) (p : Seq) : s.model.lastSeen.upTo room' < p ↔ Seq.START < p ∧
      ∀ q, (room', q) ∈ (s.shown ++ messages.map fun message => (room, message.seq)) → q < p := by
  subst none_yet
  rw [List.map_nil, List.append_nil]
  exact inv.seen room' p

theorem Inv.android {event : Event} (inv : Inv s)
    (distinct : ∀ rooms, event = .logIn rooms → (rooms.map Room.id).Nodup)
    (h : s.step .android event = some t) : Inv t := by
  unfold step at h
  split at h
  next screen =>
    cases h
    cases event with
    | logIn rooms =>
        exact ⟨seen_logIn (distinct rooms rfl), fun _ _ => Iff.rfl, fun out => by cases out⟩
    | openRoom room =>
        exact ⟨inv.seen, fun _ _ => Iff.rfl, fun out => by cases screen.symm.trans out⟩
    | listing rooms =>
        exact ⟨inv.seen, fun _ _ => Iff.rfl, fun out => by cases screen.symm.trans out⟩
    | signedOut => exact ⟨inv.seen, (fun chat => by cases chat), fun _ => rfl⟩
    | batch room messages =>
        simp only [react, Android.applyBatch, shownAfter]
        by_cases here : some room = s.model.openRoomId
        · rw [if_neg (not_not.mpr here), if_pos here]
          refine ⟨fun room' p => ?_, fun _ room' => ?_, fun out => by cases screen.symm.trans out⟩
          · cases top : (messages.map Message.seq).max? with
            | none =>
                exact seen_stays inv (List.map_eq_nil_iff.mp (List.max?_eq_none_iff.mp top)) room
                  room' p
            | some newest => exact seen_batch inv top room' p
          · rw [← here]
        · rw [if_pos here, if_neg here]
          exact inv
  next => cases h

theorem Inv.ios {event : Event} (inv : Inv s)
    (distinct : ∀ rooms, event = .logIn rooms → (rooms.map Room.id).Nodup)
    (h : s.step .ios event = some t) : Inv t := by
  unfold step at h
  split at h
  next screen =>
    cases h
    cases event with
    | logIn rooms =>
        refine ⟨seen_logIn (distinct rooms rfl), fun _ room => ?_, fun out => by cases out⟩
        -- the marks are the ones of the other screens: none
        simp only [react, Ios.logIn, inv.quiet screen]
        exact ⟨(fun mem => by cases mem), fun mem =>
          absurd mem (unread_seed (distinct rooms rfl) _ room)⟩
    | openRoom room =>
        simp only [react, Ios.openRoom]
        split
        next => exact ⟨inv.seen, inv.marks, inv.quiet⟩
        next => exact ⟨inv.seen, fun _ _ => Iff.rfl, fun out => by cases screen.symm.trans out⟩
    | listing rooms =>
        exact ⟨inv.seen, fun _ _ => Iff.rfl, fun out => by cases screen.symm.trans out⟩
    | signedOut => exact ⟨inv.seen, (fun chat => by cases chat), fun _ => rfl⟩
    | batch room messages =>
        simp only [react, Ios.readMessages, shownAfter]
        by_cases here : some room = s.model.openRoomId
        · rw [if_pos here]
          by_cases empty : messages = []
          · rw [if_neg fun both => both.1 empty]
            exact ⟨seen_stays inv empty room, inv.marks, inv.quiet⟩
          · rw [if_pos ⟨empty, here⟩]
            refine ⟨fun room' p => ?_, fun _ room' => ?_,
              fun out => by cases screen.symm.trans out⟩
            · cases top : (messages.map Message.seq).max? with
              | none =>
                  exact absurd (List.map_eq_nil_iff.mp (List.max?_eq_none_iff.mp top)) empty
              | some newest => exact seen_batch inv top room' p
            · rw [← here]
        · rw [if_neg here, if_neg fun both => here both.2]
          exact inv
  next => cases h

/-- **Every event keeps the invariant**, at either phone.  A login takes over the positions of its
list, a batch moves the one of its room, and what redraws the marks redraws them from these. -/
theorem Inv.step {event : Event} (inv : Inv s)
    (distinct : ∀ rooms, event = .logIn rooms → (rooms.map Room.id).Nodup)
    (h : s.step phone event = some t) : Inv t := by
  cases phone with
  | android => exact inv.android distinct h
  | ios => exact inv.ios distinct h

/-- **Every run keeps the invariant.** -/
theorem run_inv {events : List Event}
    (distinct : ∀ rooms, .logIn rooms ∈ events → (rooms.map Room.id).Nodup)
    (ran : run (step phone) fresh events = some s) : Inv s :=
  run_invariant_of (L := fun event => ∀ rooms, event = .logIn rooms → (rooms.map Room.id).Nodup)
    (P := Inv) (fun _ _ _ distinct stepped inv => inv.step distinct stepped)
    (fun event mem rooms same => distinct rooms (by rwa [← same])) ran inv_fresh

end Reader

/-! ### The messages behind the marks -/

/-- A room's latest position, where it has one, is that of a message. -/
theorem latestSeq_attained {db : Db} {row : RoomRow} {room : RoomId} (here : row.id = room.get)
    (some_yet : Seq.START < db.latestSeq row) :
    ∃ message ∈ db.log room, message.seq = db.latestSeq row := by
  cases newest : ((db.messages.filter fun m => m.roomId = row.id).map MessageRow.seq).max? with
  | none =>
      have start : db.latestSeq row = Seq.START := by
        rw [Db.latestSeq, Sql.maxSeq, newest]
        rfl
      rw [start] at some_yet
      exact absurd some_yet (lt_irrefl _)
  | some top =>
      obtain ⟨m, mem, rfl⟩ := List.mem_map.mp (List.max?_mem newest)
      obtain ⟨stored, home⟩ := List.mem_filter.mp mem
      refine ⟨m.message, List.mem_map_of_mem (List.mem_filter.mpr ⟨stored, ?_⟩), ?_⟩
      · rw [← here]
        exact home
      · simp [Db.latestSeq, Sql.maxSeq, newest, MessageRow.message]

/-- **The rooms that are marked are those with a message that the reader has not been shown**, at
either phone and after any events: what the list of rooms said at the login has been shown, and so
have the batches of the rooms on screen. -/
theorem marks_exact {phone : Phone} {events : List Event} {s : Reader}
    (distinct : ∀ rooms, .logIn rooms ∈ events → (rooms.map Room.id).Nodup)
    (ran : run (Reader.step phone) .fresh events = some s) (chat : s.model.chat = true) {db : Db}
    (valid : db.Valid) (listed : s.model.rooms = db.roomList) (room : RoomId) :
    room ∈ s.model.unread ↔ s.model.openRoomId ≠ some room ∧
      ∃ message ∈ db.log room, ∀ p, (room, p) ∈ s.shown → p < message.seq := by
  have inv := Reader.run_inv distinct ran
  rw [inv.marks chat, LastSeen.mem_unread, listed]
  refine and_congr_right fun _ => ⟨?_, ?_⟩
  · rintro ⟨shown, mem, here, later⟩
    obtain ⟨row, row_mem, rfl⟩ := List.mem_map.mp mem
    have home : row.id = room.get := by
      have positive := valid.id_pos row_mem
      rw [← here]
      exact (Int.toNat_of_nonneg (by omega)).symm
    obtain ⟨past_start, past_shown⟩ := (inv.seen room _).mp later
    obtain ⟨message, there, at_latest⟩ := latestSeq_attained home past_start
    exact ⟨message, there, fun p mem => at_latest ▸ past_shown p mem⟩
  · rintro ⟨message, there, unseen⟩
    obtain ⟨m, m_mem, rfl⟩ := List.mem_map.mp there
    obtain ⟨stored, home⟩ := List.mem_filter.mp m_mem
    obtain ⟨row, row_mem, same⟩ := valid.homes m stored
    have here : row.id = room.get := same.trans (of_decide_eq_true home)
    refine ⟨db.room row, List.mem_map_of_mem row_mem, ?_, ?_⟩
    · rw [Db.room, here, Int.toNat_natCast]
    · have positive : Seq.START < m.message.seq := log_seq_pos valid there
      exact lt_of_lt_of_le ((inv.seen room _).mpr ⟨positive, unseen⟩)
        (Db.log_le_latestSeq here there)

namespace Sample

def lobby : Room := ⟨⟨1⟩, "lobby", Seq.START⟩

/-- A second room, in which one message has been posted. -/
def db : Db := ⟨[], [⟨1, "lobby", 0⟩, ⟨2, "attic", 0⟩], [⟨1, 2, "ada", "hi", 0⟩]⟩

theorem db_valid : db.Valid where
  users := List.Pairwise.nil
  rooms := by decide
  ids := rfl
  seqs := rfl
  roomsFit := by decide
  messagesFit := by decide
  postedAt := by decide
  homes := by decide

/-- A login, and then a list with the second room. -/
def created : List Event := [.logIn [lobby], .listing db.roomList]

end Sample

/-- The new room is marked, for its message. -/
theorem marks_exact_attic : ∃ s, run (Reader.step .ios) .fresh Sample.created = some s ∧
    (⟨2⟩ ∈ s.model.unread ↔ s.model.openRoomId ≠ some ⟨2⟩ ∧
      ∃ message ∈ Sample.db.log ⟨2⟩, ∀ p, (⟨2⟩, p) ∈ s.shown → p < message.seq) := by
  have distinct : ∀ rooms, .logIn rooms ∈ Sample.created → (rooms.map Room.id).Nodup := by
    intro rooms mem
    rcases List.mem_cons.mp mem with same | rest
    · cases same
      exact List.nodup_singleton _
    · cases List.mem_singleton.mp rest
  have ran : ∃ s, run (Reader.step .ios) .fresh Sample.created = some s ∧
      s.model.chat = true ∧ s.model.rooms = Sample.db.roomList := ⟨_, rfl, rfl, rfl⟩
  obtain ⟨s, ran, chat, listed⟩ := ran
  exact ⟨s, ran, marks_exact distinct ran chat Sample.db_valid listed ⟨2⟩⟩

end ScionChat.Unread
