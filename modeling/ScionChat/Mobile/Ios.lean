import ScionChat.Mobile.Room

/-!
# The open room on iOS

`ChatViewModel.swift` reads the open room in a task of its own, round by round: `readMessages`
chooses the position to go on from before it awaits the page, and merges the page after it, if the
room it read is the open one by then.  A task that is cancelled does not begin another round, but a
read that it has begun may still complete.  So any number of reads may be out at a time, of any
room, and each from what was held when it was begun.

`no_holes_iff_joined` says when there is no hole between the messages held: as long as the pages
that are not known to go on from them join up with them.  `hole_after_return` is a run where one
does not: a read that was out when the reader left the room completes after they have returned.

### design decisions

* **Cancelling does not stop a read.**  A task that is cancelled stays in the list, with its read.
  Whether its page is taken is decided by the room it names, as in the source, and not by whose
  read it was.
* **Counting resets.**  `begun` records how often the messages had been reset when a read was
  begun.  No function depends on it; it tells a stray page from one that goes on from what is held.
* **`Joined` is about positions.**  It compares the page with the messages held and the log, so the
  condition is one on a step, and says nothing of what the step leaves.

### What is load-bearing

`Reads`: as long as nothing has been reset since a read was begun, it goes on from a message that
is held.  Such a page always joins up, however late it is, and the others are what the condition is
about.
-/

namespace ScionChat

open TransitionSystem KeyedLog Mobile

namespace Ios

/-! ### The view model -/

/-- A `readMessages` that awaits its page.  It remembers the room and the position, as they were
when it was begun. -/
structure Reading where
  room : RoomId
  /-- The position it goes on from. -/
  newest : Option Seq
  /-- How often the messages had been reset when it was begun.  Nothing depends on it. -/
  begun : ℕ
  /-- The page, once the server has answered. -/
  reply : Option (List Message)
  deriving DecidableEq

/-- Where a task that watches the messages is suspended. -/
inductive Stage
  /-- Before its next round: not started yet, or asleep. -/
  | waiting
  | reading (out : Reading)
  /-- It has left its loop. -/
  | ended
  deriving DecidableEq

/-- A task that watches the messages. -/
structure FeedTask where
  isCancelled : Bool
  stage : Stage
  deriving DecidableEq

/-- What the view model keeps of the open room, and whether it has a client. -/
structure ChatViewModel where
  client : Bool
  openRoomId : Option RoomId
  messages : List Message
  /-- The tasks so far, the newest last. -/
  tasks : List FeedTask
  /-- Which of them is the feed. -/
  messagesFeed : Option ℕ
  /-- How often the messages have been reset.  Nothing depends on it. -/
  resets : ℕ
  deriving DecidableEq

namespace ChatViewModel

variable (model : ChatViewModel)

/-- Held messages first, so a drawn row is not replaced. -/
def merge (batch : List Message) : ChatViewModel :=
  let known := model.messages.map Message.seq
  let held := model.messages ++ batch.filter fun message => !known.contains message.seq
  { model with messages := held.insertionSort fun a b => a.seq ≤ b.seq }

/-- The feed is cancelled.  The task goes on to its next check, and a read that it awaits may still
complete. -/
def cancel : ChatViewModel :=
  match model.messagesFeed with
  | some k =>
      { model with tasks := model.tasks.modify k fun task => { task with isCancelled := true } }
  | none => model

/-- Watches the open room, from the newest message it holds. -/
def watchMessages : ChatViewModel :=
  let model := model.cancel
  if model.openRoomId = none then model
  else
    { model with
      tasks := model.tasks ++ [⟨false, .waiting⟩]
      messagesFeed := some model.tasks.length }

def startPolling : ChatViewModel := model.watchMessages

def stopPolling : ChatViewModel := { model.cancel with messagesFeed := none }

/-- The messages are dropped, and the room is another one.  Reads that are under way know nothing
of it. -/
def reset (openRoomId : Option RoomId) : ChatViewModel :=
  { model with openRoomId := openRoomId, messages := [], resets := model.resets + 1 }

/-- `open`, once the server has proved to be there. -/
def opened : ChatViewModel := { model with client := true }

/-- `logIn`, once the rooms are listed. -/
def logIn (rooms : List Room) : ChatViewModel :=
  (model.reset (rooms.head?.map Room.id)).startPolling

def openRoom (room : Room) : ChatViewModel :=
  if model.openRoomId = some room.id then model
  else (model.reset (some room.id)).watchMessages

def signedOut : ChatViewModel := model.stopPolling.reset model.openRoomId

/-- The first part of `readMessages`: the read that it awaits, if any. -/
def readMessages : Option Reading :=
  match model.client, model.openRoomId with
  | true, some room => some ⟨room, model.messages.getLast?.map Message.seq, model.resets, none⟩
  | _, _ => none

/-- The rest of it.  The room is checked, not assumed.  A page of another room is dropped, and any
other is merged. -/
def received (room : RoomId) (batch : List Message) : ChatViewModel :=
  if batch ≠ [] ∧ model.openRoomId = some room then model.merge batch else model

/-- A task goes on to its next round, unless it has been cancelled.  It begins a read, or waits
where there is nothing to read. -/
def nextRound (isCancelled : Bool) : Stage :=
  if isCancelled then .ended else model.readMessages.elim .waiting .reading

end ChatViewModel

/-! ### The app and the server -/

/-- The server's log, and the app. -/
structure RoomRun where
  log : List (RoomId × Message)
  model : ChatViewModel
  deriving DecidableEq

/-- What happens next.  A task is known by its place among all of them. -/
inductive RoomEvent
  /-- Somebody posts to some room. -/
  | post (room : RoomId) (message : Message)
  | opened
  | loggedIn (rooms : List Room)
  | openRoom (room : Room)
  | startPolling
  | stopPolling
  /-- A task starts, or its sleep is over. -/
  | resume (k : ℕ)
  /-- The server answers a task's read. -/
  | answer (k : ℕ)
  | arrive (k : ℕ)
  /-- A task's read fails, perhaps because the session has ended. -/
  | fail (k : ℕ) (sessionExpired : Bool)
  /-- The session has ended for the other feed, or for a call the reader asked for. -/
  | signedOut
  deriving DecidableEq

/-- The task whose page arrives. -/
def RoomEvent.arrives : RoomEvent → Option ℕ
  | arrive k => some k
  | _ => none

namespace RoomRun

/-- The app before it has connected. -/
def fresh : RoomRun := ⟨[], ⟨false, none, [], [], none, 0⟩⟩

variable (s : RoomRun)

/-- The read that a task awaits. -/
def readOf (k : ℕ) : Option Reading :=
  s.model.tasks[k]?.bind fun task =>
    match task.stage with
    | .reading read => some read
    | _ => none

/-- A task goes on from here. -/
def suspend (model : ChatViewModel) (k : ℕ) (stage : Stage) : RoomRun :=
  { s with
    model :=
      { model with tasks := model.tasks.modify k fun task => { task with stage := stage } } }

/-- One step. -/
def step : RoomEvent → Option RoomRun
  | .post room message =>
      if Newest s.log message then some { s with log := s.log ++ [(room, message)] } else none
  | .opened => some { s with model := s.model.opened }
  | .loggedIn rooms =>
      if s.model.client then some { s with model := s.model.logIn rooms } else none
  | .openRoom room => some { s with model := s.model.openRoom room }
  | .startPolling => some { s with model := s.model.startPolling }
  | .stopPolling => some { s with model := s.model.stopPolling }
  | .resume k =>
      s.model.tasks[k]?.bind fun task =>
        if task.stage = .waiting then
          some (s.suspend s.model k (s.model.nextRound task.isCancelled))
        else none
  | .answer k =>
      (s.readOf k).bind fun read =>
        match read.reply, pageOf s.log read.room read.newest with
        | none, .ok page => some (s.suspend s.model k (.reading { read with reply := some page }))
        | _, _ => none
  | .arrive k =>
      (s.readOf k).bind fun read =>
        read.reply.map fun page => s.suspend (s.model.received read.room page) k .waiting
  | .fail k sessionExpired =>
      (s.readOf k).map fun _ =>
        s.suspend (if sessionExpired then s.model.signedOut else s.model) k .waiting
  | .signedOut => some { s with model := s.model.signedOut }

/-- A page that arrives in the open room and is not known to go on from the messages held: it is
the newest one, or its read was begun before the messages were last reset. -/
def stray (k : ℕ) : Option (RoomId × List Message) :=
  (s.readOf k).bind fun read =>
    if s.model.openRoomId = some read.room ∧
        (read.newest = none ∨ read.begun ≠ s.model.resets) then
      read.reply.map fun page => (read.room, page)
    else none

/-- **Such a page joins up with the messages held**: no message of the room lies behind all of the
one and ahead of all of the other. -/
def Joined (s : RoomRun) (event : RoomEvent) : Prop :=
  ∀ k ∈ event.arrives, ∀ page ∈ s.stray k,
    Joins Message.seq (roomLog page.1 s.log) s.model.messages page.2

instance decidableJoined (event : RoomEvent) : Decidable (Joined s event) :=
  inferInstanceAs (Decidable (∀ _ ∈ _, ∀ _ ∈ _, _))

end RoomRun

/-! ### Merging -/

/-- **A merge has all of the messages held and of the batch, in order.** Of two with one position
the one that is held stays, which is the same message. -/
theorem ChatViewModel.merge_merged {log : List Message} (ascending : Ascending Message.seq log)
    {model : ChatViewModel} {batch : List Message} (held : ∀ a ∈ model.messages, a ∈ log)
    (held_sorted : Ascending Message.seq model.messages) (posted : ∀ a ∈ batch, a ∈ log)
    (batch_sorted : Ascending Message.seq batch) :
    Merged Message.seq model.messages batch (model.merge batch).messages := by
  have unknown : ∀ a,
      a ∈ batch.filter (fun message => !(model.messages.map Message.seq).contains message.seq)
        ↔ a ∈ batch ∧ ∀ b ∈ model.messages, b.seq ≠ a.seq := by
    intro a
    rw [List.mem_filter, Bool.not_eq_true', ← Bool.not_eq_true, List.contains_iff_mem, List.mem_map]
    exact and_congr_right fun _ => ⟨fun new b mem same => new ⟨b, mem, same⟩,
      fun new ⟨b, mem, same⟩ => new b mem same⟩
  constructor
  · refine ascending_insertionSort (List.pairwise_append.mpr ⟨?_, ?_, fun a old b new => ?_⟩)
    · exact held_sorted.imp fun lt => ne_of_lt lt
    · exact (batch_sorted.filter _).imp fun lt => ne_of_lt lt
    · exact ((unknown b).mp new).2 a old
  · intro a
    change a ∈ List.insertionSort _ _ ↔ _
    rw [List.mem_insertionSort, List.mem_append, unknown]
    constructor
    · exact fun got => got.imp_right And.left
    · rintro (old | new)
      · exact Or.inl old
      · -- a message at a position that is held is the message that is held
        by_cases known : ∃ b ∈ model.messages, b.seq = a.seq
        · obtain ⟨b, old, same⟩ := known
          rw [← ascending.eq_of_key_eq (held b old) (posted a new) same]
          exact Or.inl old
        · exact Or.inr ⟨new, fun b old same => known ⟨b, old, same⟩⟩

/-! ### What every run keeps -/

/-- **A read that is out**: as long as the messages have not been reset since it was begun, it is
of the open room and goes on from one of them. -/
structure Reads (log : List (RoomId × Message)) (openRoomId : Option RoomId)
    (messages : List Message) (resets : ℕ) (read : Reading) : Prop where
  begun : read.begun ≤ resets
  room : read.begun = resets → openRoomId = some read.room
  newest : read.begun = resets → ∀ seq, read.newest = some seq → ∃ a ∈ messages, a.seq = seq
  reply : ∀ page, read.reply = some page → Replied log read.room read.newest page

namespace Reads

variable {log later : List (RoomId × Message)} {openRoomId : Option RoomId}
  {messages got : List Message} {resets : ℕ} {read : Reading}

theorem grow (reads : Reads log openRoomId messages resets read) (grows : log <+: later) :
    Reads later openRoomId messages resets read :=
  ⟨reads.begun, reads.room, reads.newest, fun page here => (reads.reply page here).grow grows⟩

/-- More messages do it no harm. -/
theorem more (reads : Reads log openRoomId messages resets read)
    (kept : ∀ a ∈ messages, a ∈ got) : Reads log openRoomId got resets read where
  begun := reads.begun
  room := reads.room
  newest := by
    intro same seq from_
    obtain ⟨a, mem, eq⟩ := reads.newest same seq from_
    exact ⟨a, kept a mem, eq⟩
  reply := reads.reply

/-- Once the messages are reset, it was begun before. -/
theorem reset (reads : Reads log openRoomId messages resets read) (there : Option RoomId) :
    Reads log there [] (resets + 1) read :=
  have before : read.begun ≠ resets + 1 := (Nat.lt_succ_of_le reads.begun).ne
  ⟨Nat.le_succ_of_le reads.begun, fun same => absurd same before, fun same => absurd same before,
    reads.reply⟩

end Reads

theorem mem_modify {α : Type} {f : α → α} {a : α} {l : List α} {k : ℕ} (mem : a ∈ l.modify k f) :
    a ∈ l ∨ ∃ old ∈ l, a = f old := by
  obtain ⟨j, at_j⟩ := List.mem_iff_getElem?.mp mem
  rw [List.getElem?_modify] at at_j
  obtain ⟨old, there, eq⟩ := Option.map_eq_some_iff.mp at_j
  split at eq
  · exact Or.inr ⟨old, List.mem_of_getElem? there, eq.symm⟩
  · exact Or.inl (eq ▸ List.mem_of_getElem? there)

namespace ChatViewModel

/-- The same is on the screen, and no read has been begun. -/
structure Shows (model next : ChatViewModel) : Prop where
  openRoomId : next.openRoomId = model.openRoomId
  messages : next.messages = model.messages
  resets : next.resets = model.resets
  reads : ∀ task ∈ next.tasks, ∀ read, task.stage = .reading read →
    ∃ old ∈ model.tasks, old.stage = .reading read

variable (model : ChatViewModel)

theorem shows_cancel : model.Shows model.cancel := by
  unfold cancel
  split
  · refine ⟨rfl, rfl, rfl, fun task mem read here => ?_⟩
    rcases mem_modify mem with same | ⟨old, same, rfl⟩
    · exact ⟨task, same, here⟩
    · exact ⟨old, same, here⟩
  · exact ⟨rfl, rfl, rfl, fun task mem read here => ⟨task, mem, here⟩⟩

theorem shows_watchMessages : model.Shows model.watchMessages := by
  have cancelled := model.shows_cancel
  unfold watchMessages
  simp only
  split
  · exact cancelled
  · refine ⟨cancelled.openRoomId, cancelled.messages, cancelled.resets,
      fun task mem read here => ?_⟩
    rcases List.mem_append.mp mem with old | new
    · exact cancelled.reads task old read here
    · rw [List.mem_singleton.mp new] at here
      cases here

theorem shows_stopPolling : model.Shows model.stopPolling :=
  have cancelled := model.shows_cancel
  ⟨cancelled.openRoomId, cancelled.messages, cancelled.resets, cancelled.reads⟩

end ChatViewModel

namespace RoomRun

/-- **The invariant of the app.** What everybody has posted is in order, the messages held have no
hole, and each read that is out goes on from them, unless they have been reset in the meantime. -/
structure Inv (s : RoomRun) : Prop where
  posted : Posted s.log
  held : Held s.log s.model.openRoomId s.model.messages
  reads : ∀ task ∈ s.model.tasks, ∀ read, task.stage = .reading read →
    Reads s.log s.model.openRoomId s.model.messages s.model.resets read

variable {s t : RoomRun} {event : RoomEvent} {k : ℕ}

theorem inv_fresh : Inv fresh where
  posted := ⟨List.Pairwise.nil, nofun⟩
  held := Held.empty [] none
  reads := nofun

/-- A read that is out is that of a task. -/
theorem mem_of_readOf {read : Reading} (out : s.readOf k = some read) :
    ∃ task ∈ s.model.tasks, task.stage = .reading read := by
  obtain ⟨task, here, stage⟩ := Option.bind_eq_some_iff.mp out
  split at stage
  · rename_i same
    cases stage
    exact ⟨task, List.mem_of_getElem? here, same⟩
  · cases stage

/-- **A read is begun** from the newest message held.  A task that has been cancelled begins
none. -/
theorem reads_nextRound {isCancelled : Bool} {read : Reading}
    (begun : s.model.nextRound isCancelled = .reading read) :
    Reads s.log s.model.openRoomId s.model.messages s.model.resets read := by
  unfold ChatViewModel.nextRound at begun
  split at begun
  · cases begun
  · cases asks : s.model.readMessages with
    | none =>
        rw [asks] at begun
        cases begun
    | some asked =>
        rw [asks] at begun
        cases begun
        unfold ChatViewModel.readMessages at asks
        split at asks
        · rename_i room _ opened
          cases asks
          refine ⟨le_rfl, fun _ => opened, fun _ seq from_ => ?_, nofun⟩
          obtain ⟨a, last, eq⟩ := Option.map_eq_some_iff.mp from_
          exact ⟨a, List.mem_of_getLast? last, eq⟩
        · cases asks

namespace Inv

theorem post (inv : Inv s) {room : RoomId} {message : Message} (newest : Newest s.log message) :
    Inv { s with log := s.log ++ [(room, message)] } :=
  have grows : s.log <+: s.log ++ [(room, message)] := List.prefix_append _ _
  have posted := inv.posted.post newest
  ⟨posted, inv.held.grow grows posted, fun task mem read here =>
    (inv.reads task mem read here).grow grows⟩

theorem shows (inv : Inv s) {model : ChatViewModel} (shows_ : s.model.Shows model) :
    Inv { s with model := model } where
  posted := inv.posted
  held := by
    change Held s.log model.openRoomId model.messages
    rw [shows_.openRoomId, shows_.messages]
    exact inv.held
  reads := by
    intro task mem read here
    obtain ⟨old, there, same⟩ := shows_.reads task mem read here
    change Reads s.log model.openRoomId model.messages model.resets read
    rw [shows_.openRoomId, shows_.messages, shows_.resets]
    exact inv.reads old there read same

theorem reset (inv : Inv s) (openRoomId : Option RoomId) :
    Inv { s with model := s.model.reset openRoomId } where
  posted := inv.posted
  held := Held.empty s.log openRoomId
  reads := fun task mem read here => (inv.reads task mem read here).reset openRoomId

theorem signedOut (inv : Inv s) : Inv { s with model := s.model.signedOut } :=
  (inv.shows s.model.shows_stopPolling).reset s.model.openRoomId

theorem openRoom (inv : Inv s) (room : Room) : Inv { s with model := s.model.openRoom room } := by
  unfold ChatViewModel.openRoom
  split
  · exact inv
  · exact (inv.reset (some room.id)).shows (ChatViewModel.shows_watchMessages _)

/-- A task goes on, with a read that is known. -/
theorem suspend {model : ChatViewModel} (inv : Inv { s with model := model }) {stage : Stage}
    (reads : ∀ read, stage = .reading read →
      Reads s.log model.openRoomId model.messages model.resets read) :
    Inv (s.suspend model k stage) where
  posted := inv.posted
  held := inv.held
  reads := by
    intro task mem read here
    rcases mem_modify mem with same | ⟨old, same, rfl⟩
    · exact inv.reads task same read here
    · exact reads read here

/-! ### A page arrives -/

variable {read : Reading} {page : List Message}

/-- **A page joins up with the messages held, or is a stray one.** A page that goes on from a
message held always joins up, so that only stray ones are asked about. -/
theorem joins_iff (inv : Inv s) (out : s.readOf k = some read) (reply : read.reply = some page)
    (opened : s.model.openRoomId = some read.room) :
    Joins Message.seq (roomLog read.room s.log) s.model.messages page ↔ Joined s (.arrive k) := by
  obtain ⟨task, mem, here⟩ := mem_of_readOf out
  have reads := inv.reads task mem read here
  have stray : s.stray k = if read.newest = none ∨ read.begun ≠ s.model.resets then
      some (read.room, page) else none := by
    simp only [RoomRun.stray, out, Option.bind_some, opened, true_and, reply, Option.map_some]
  constructor
  · intro joins k' same found mem
    cases same
    rw [stray] at mem
    split at mem
    · cases mem
      exact joins
    · cases mem
  · intro joined
    by_cases loose : read.newest = none ∨ read.begun ≠ s.model.resets
    · -- nothing is known of it but that it joins up
      exact joined k rfl (read.room, page) (by rw [stray, if_pos loose]; rfl)
    · -- it goes on from a message that is still held
      obtain ⟨asked, current⟩ := not_or.mp loose
      obtain ⟨seq, from_⟩ := Option.ne_none_iff_exists'.mp asked
      have replied := reads.reply page reply
      rw [from_] at replied
      exact replied.joins inv.posted (reads.newest (not_not.mp current) seq from_)

/-- What a merge leaves of the invariant. -/
theorem merged (inv : Inv s) (out : s.readOf k = some read) (reply : read.reply = some page)
    (opened : s.model.openRoomId = some read.room) :
    Merged Message.seq s.model.messages page (s.model.merge page).messages ∧
      (Held s.log (some read.room) (s.model.merge page).messages ↔ Joined s (.arrive k)) := by
  obtain ⟨task, mem, here⟩ := mem_of_readOf out
  have replied := (inv.reads task mem read here).reply page reply
  have held := inv.held
  rw [opened] at held
  have gapless := replied.gapless inv.posted
  have merged := ChatViewModel.merge_merged (roomLog_sorted inv.posted read.room)
    (held.gapless _ rfl).subset held.sorted gapless.subset (replied.sorted inv.posted)
  refine ⟨merged, ?_⟩
  rw [held.merged_iff inv.posted gapless merged, inv.joins_iff out reply opened]

/-- **A page that arrives keeps the invariant** as long as it joins up with the messages held.  A
page of a room that is not the open one any more is dropped. -/
theorem received (inv : Inv s) (out : s.readOf k = some read) (reply : read.reply = some page)
    (joined : Joined s (.arrive k)) : Inv { s with model := s.model.received read.room page } := by
  unfold ChatViewModel.received
  split
  · rename_i here
    obtain ⟨-, opened⟩ := here
    -- the other reads that are out go on from messages that stay
    obtain ⟨merged, held⟩ := inv.merged out reply opened
    refine ⟨inv.posted, ?_, fun task mem there reading => ?_⟩
    · change Held s.log s.model.openRoomId (s.model.merge page).messages
      rw [opened]
      exact held.mpr joined
    · exact (inv.reads task mem there reading).more fun a old => (merged.mem a).mpr (Or.inl old)
  · exact inv

/-- **And breaks it otherwise.** So the condition is not just enough: a hole is there as soon as it
fails. -/
theorem joined_of_received (inv : Inv s) (out : s.readOf k = some read)
    (reply : read.reply = some page)
    (held : Held s.log (s.model.received read.room page).openRoomId
      (s.model.received read.room page).messages) : Joined s (.arrive k) := by
  by_cases opened : s.model.openRoomId = some read.room
  · by_cases nil : page = []
    · rw [← inv.joins_iff out reply opened, nil]
      exact joins_nil_right _ _
    · have merges : s.model.received read.room page = s.model.merge page :=
        if_pos ⟨nil, opened⟩
      have same : (s.model.merge page).openRoomId = some read.room := opened
      rw [merges, same] at held
      exact (inv.merged out reply opened).2.mp held
  · intro k' same found mem
    cases same
    simp only [RoomRun.stray, out, Option.bind_some, opened, false_and, if_false,
      Option.mem_def, reduceCtorEq] at mem

end Inv

/-! ### Every run -/

/-- What a page that arrives does. -/
theorem step_arrive (stepped : step s (.arrive k) = some t) : ∃ read page,
    s.readOf k = some read ∧ read.reply = some page ∧
      t = s.suspend (s.model.received read.room page) k .waiting := by
  simp only [step] at stepped
  obtain ⟨read, out, stepped⟩ := Option.bind_eq_some_iff.mp stepped
  obtain ⟨page, reply, rfl⟩ := Option.map_eq_some_iff.mp stepped
  exact ⟨read, page, out, reply, rfl⟩

/-- **One step keeps the invariant** as long as a page that arrives joins up with the messages
held.  Reads begin and end, tasks are cancelled and started, and none of it moves the messages
held. -/
theorem inv_step (stepped : step s event = some t) (inv : Inv s) (joined : Joined s event) :
    Inv t := by
  cases event with
  | post room message =>
      simp only [step] at stepped
      split at stepped
      · rename_i newest
        cases stepped
        exact inv.post newest
      · cases stepped
  | opened =>
      cases stepped
      exact ⟨inv.posted, inv.held, inv.reads⟩
  | loggedIn rooms =>
      simp only [step] at stepped
      split at stepped
      · cases stepped
        exact (inv.reset _).shows (ChatViewModel.shows_watchMessages _)
      · cases stepped
  | openRoom room =>
      cases stepped
      exact inv.openRoom room
  | startPolling =>
      cases stepped
      exact inv.shows s.model.shows_watchMessages
  | stopPolling =>
      cases stepped
      exact inv.shows s.model.shows_stopPolling
  | resume k =>
      simp only [step] at stepped
      obtain ⟨task, -, stepped⟩ := Option.bind_eq_some_iff.mp stepped
      split at stepped
      · cases stepped
        exact inv.suspend fun read => reads_nextRound
      · cases stepped
  | answer k =>
      simp only [step] at stepped
      obtain ⟨read, out, stepped⟩ := Option.bind_eq_some_iff.mp stepped
      obtain ⟨task, mem, here⟩ := mem_of_readOf out
      have reads := inv.reads task mem read here
      split at stepped
      · rename_i page _ answered
        cases stepped
        refine inv.suspend fun read' same => ?_
        cases same
        refine ⟨reads.begun, reads.room, reads.newest, fun page' same => ?_⟩
        cases same
        exact ⟨s.log, List.prefix_rfl, answered⟩
      · cases stepped
  | arrive k =>
      obtain ⟨read, page, out, reply, rfl⟩ := step_arrive stepped
      exact (inv.received out reply joined).suspend nofun
  | fail k sessionExpired =>
      simp only [step] at stepped
      obtain ⟨read, -, rfl⟩ := Option.map_eq_some_iff.mp stepped
      split
      · exact inv.signedOut.suspend nofun
      · exact Inv.suspend (s := s) inv nofun
  | signedOut =>
      cases stepped
      exact inv.signedOut

/-- A page after which there are no holes joined up with the messages held. -/
theorem joined_of_step (stepped : step s event = some t) (inv : Inv s)
    (shown : NoHoles t.log t.model.openRoomId t.model.messages) : Joined s event := by
  cases event with
  | arrive k =>
      obtain ⟨read, page, out, reply, rfl⟩ := step_arrive stepped
      exact inv.joined_of_received out reply (Held.of_noHoles shown)
  | _ => exact fun _ arrives => nomatch arrives

/-- **No holes, exactly as long as stray pages join up with the messages held.**  In a run of the
app, everybody's posts, reads that complete late and everything else in any order, the messages of
the open room are without holes in every state if and only if every page that arrives joins up
with them, where it is a newest page or of a read begun before the messages were last reset. -/
theorem no_holes_iff_joined {events : List RoomEvent} (ran : run step fresh events = some s) :
    (∀ early reached, early <+: events → run step fresh early = some reached →
        NoHoles reached.log reached.model.openRoomId reached.model.messages) ↔
      Along step Joined fresh events :=
  along_iff_reached ran inv_fresh (fun _ inv => inv.held.noHoles inv.posted)
    (fun _ _ _ => inv_step) (fun _ _ _ => joined_of_step)

/-! ### Two runs -/

namespace Sample

/-- The two rooms there are. -/
def lobby : Room := ⟨⟨1⟩, "lobby", ⟨0⟩⟩

def attic : Room := ⟨⟨2⟩, "attic", ⟨0⟩⟩

/-- A message of the lobby. -/
def line (seq : ℕ) : Message := ⟨⟨seq⟩, "ada", "", ⟨0⟩⟩

/-- `n` messages are posted after the first `seq`. -/
def posts (seq n : ℕ) : List RoomEvent :=
  (List.range' (seq + 1) n).map fun seq => .post lobby.id (line seq)

/-- The reader leaves the lobby while a read of it is out that has been answered with the second
message, and returns.  `n` messages are posted before the new feed begins, and the old read
completes after its first page. -/
def returned (n : ℕ) : List RoomEvent :=
  [.opened, .loggedIn [lobby, attic]] ++ posts 0 1 ++ [.resume 0, .answer 0, .arrive 0, .resume 0]
    ++ posts 1 1 ++ [.answer 0, .openRoom attic, .openRoom lobby] ++ posts 2 n
    ++ [.resume 2, .answer 2, .arrive 2, .arrive 0]

end Sample

/-- Fifty messages may be posted while the reader is away. -/
theorem no_holes_returned : ∃ s, run step fresh (Sample.returned 50) = some s ∧
    NoHoles s.log s.model.openRoomId s.model.messages := by
  obtain ⟨s, ran⟩ : ∃ s, run step fresh (Sample.returned 50) = some s :=
    Option.isSome_iff_exists.mp (by decide +kernel)
  have shown := (no_holes_iff_joined ran).mpr (by decide +kernel)
  exact ⟨s, ran, shown _ s List.prefix_rfl ran⟩

/-- **With the fifty-first the third message is never read.** A read that was begun before the
reader left the room completes after they have come back, and between its page and the newest one
there is a message. -/
theorem hole_after_return : ¬ ∀ events s, run step fresh events = some s →
    NoHoles s.log s.model.openRoomId s.model.messages := by
  intro holds
  obtain ⟨s, ran⟩ : ∃ s, run step fresh (Sample.returned 51) = some s :=
    Option.isSome_iff_exists.mp (by decide +kernel)
  have reached : ∀ s ∈ run step fresh (Sample.returned 51),
      s.model.openRoomId = some Sample.lobby.id ∧ Sample.line 2 ∈ s.model.messages ∧
        Sample.line 4 ∈ s.model.messages ∧ Sample.line 3 ∈ roomLog Sample.lobby.id s.log ∧
        Sample.line 3 ∉ s.model.messages := by decide +kernel
  obtain ⟨opened, second, fourth, posted, missed⟩ := reached s ran
  have shown := holds _ s ran
  exact missed (shown.whole _ opened _ second _ fourth _ posted (by decide) (by decide))

end RoomRun

end Ios

end ScionChat
