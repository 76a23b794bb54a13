import ScionChat.Terminal.App

/-!
# The terminal client among everybody else

`Terminal` is the app together with the calls it has started and the server's log.  Its runs are
every order of keys, answers, batches of messages and lists of rooms: a call runs until it is
answered, through the channel it was started with, and the answer waits there until the loop takes
it.  Where the session has ended in the meantime that channel is gone, and the answer with it, but
the call runs on, and the server may still insert the message of a send.

`one_at_a_time` is the law of the calls: at most one is out in a session, its answer is taken once
or is never taken, and what is sent during one sign-in is in the log in the order in which it was
submitted.

### design decisions

* **Tasks are not forgotten.**  The list of tasks keeps every call that has been started, with the
  channel it answers through.  A call of an ended session can thereby still do something at the
  server, and nothing in the app.
* **The log is everybody's.**  Somebody else may post at any time, to any room, and what calls
  insert lands among it.  `landed` remembers which of the posts were the app's own.
* **The order needs a prompt server.**  Where the server is done with a call before it answers, and
  only there, is the order of submission the order of the log; so that part is stated apart.

### What is load-bearing

`Calls`: of the channel in use, none is out, or one runs, or its answer waits.  `Background` knows
which, by `pending`, and `ask` looks at it; every clause of the law comes from that agreement.
-/

namespace ScionChat

open TransitionSystem

/-! ### The system -/

/-- A call that has been started, and the channel it answers through.  A task is never taken off
the list, so that one is known by its number. -/
structure Task where
  channel : ℕ
  call : AppCall
  /-- Whether it is still to be answered. -/
  running : Bool
  /-- Whether the server has inserted its message. -/
  landed : Bool
  deriving DecidableEq, Repr

/-- What a call comes to. -/
inductive Outcome
  | failed (error : ChatError)
  | connected (client : ChatClient)
  | done
  | listed (rooms : List Room)
  /-- The newest page, from the first `n` posts. -/
  | page (n : ℕ)

/-- The app, the calls it has started, oldest first, what has been posted to all rooms, the
calls' messages that have been inserted, in their order, each with the number of its call, and
the page the open room was last opened with. -/
structure Terminal (Input : Type) where
  app : App Input
  tasks : List Task
  log : List (RoomId × Message)
  landed : List (ℕ × RoomId × Message)
  page : List Message

/-- What happens next. -/
inductive TerminalEvent
  | key (key : KeyEvent)
  /-- The terminal is closed. -/
  | closed
  /-- The loop polls the open room's stream. -/
  | poll (now : ℕ)
  /-- The server answers the stream's fetch, from the first `n` posts. -/
  | reply (n : ℕ)
  | arrive (now : ℕ)
  | fetchFails (error : ChatError) (now : ℕ)
  /-- The sidebar's stream delivers a list, or fails. -/
  | rooms (list : Except ChatError (List Room))
  /-- Somebody else posts. -/
  | post (room : RoomId) (message : Message)
  /-- The server inserts the message of a call. -/
  | land (id : ℕ) (message : Message)
  /-- A call is answered. -/
  | finish (id : ℕ) (outcome : Outcome)
  /-- The loop takes an answer. -/
  | answer

/-- The answer that a call gives, once it has come to something.  No server lists no room. -/
def answerTo (log : List (RoomId × Message)) : AppCall → Outcome → Option Answer
  | .connect _, .connected client => some (.connected (.ok client))
  | .connect _, .failed e => some (.connected (.error e))
  | .register _ _, .done => some (.registered (.ok ()))
  | .register _ _, .failed e => some (.registered (.error e))
  | .logIn username _, .listed rooms =>
      if rooms = [] then none else some (.loggedIn username (.ok rooms))
  | .logIn username _, .failed e => some (.loggedIn username (.error e))
  | .openRoom room, .page n =>
      match served (roomLog room (log.take n)) terminalPoll.pageSize .newest with
      | .ok page => some (.roomOpened (.ok (.opened terminalPoll room .newest page)))
      | .error _ => none
  | .openRoom _, .failed e => some (.roomOpened (.error e))
  | .send _ body, .done => some (.messageSent body (.ok ()))
  | .send _ body, .failed e => some (.messageSent body (.error e))
  | .createRoom _, .done => some (.roomCreated (.ok ()))
  | .createRoom _, .failed e => some (.roomCreated (.error e))
  | _, _ => none

/-- The page that an answer brings, if it opens the room. -/
def Answer.page (before : List Message) : Answer → List Message
  | roomOpened (.ok feed) => feed.holding
  | _ => before

namespace Terminal

variable {Input : Type} (kit : Toolkit Input) (s : Terminal Input)

/-- The app as it is started. -/
def launched (form : ConnectionForm) : Terminal Input := ⟨.new kit form, [], [], [], []⟩

/-- The app after an event, and the call it has started.  If it has started one, that is the newest
task, on the channel that is in use. -/
def acted : App Input × Option AppCall → Terminal Input
  | (app, none) => { s with app := app }
  | (app, some call) =>
      { s with app := app, tasks := s.tasks ++ [⟨app.background.channel, call, true, false⟩] }

/-- A poll of the open room's stream has come to this. -/
def polled : MessagesFeed × Polled → Terminal Input
  | (feed, .pending awaits) =>
      { s with app := { s.app with messages := some ⟨feed, some awaits⟩ } }
  | (feed, .ready batch) =>
      { s with app := { s.app with messages := some ⟨feed, none⟩ }.applyMessages kit batch }

/-- The rooms in the sidebar. -/
def sidebar : List Room :=
  match s.app.screen with
  | .chat screen => screen.rooms
  | _ => []

/-- One step.  The loop acts as long as it has not been asked to stop. -/
def step : TerminalEvent → Option (Terminal Input)
  | .key key => if s.app.exit then none else some (s.acted (s.app.handleKey kit key))
  | .closed => some { s with app := { s.app with exit := true } }
  | .poll now =>
      match s.app.exit, s.app.messages with
      | false, some ⟨feed, none⟩ => some (s.polled kit (feed.next terminalPoll now))
      | false, some ⟨feed, some .deadline⟩ => some (s.polled kit (feed.wake now))
      | _, _ => none
  | .reply n =>
      match s.app.messages with
      | some ⟨feed, some (.reply none)⟩ =>
          if n ≤ s.log.length then
            let fetched := served (roomLog feed.room (s.log.take n)) terminalPoll.pageSize
              (.after feed.cursor)
            some { s with
              app := { s.app with messages := some ⟨feed, some (.reply (some fetched))⟩ } }
          else none
      | _ => none
  | .arrive now =>
      match s.app.exit, s.app.messages with
      | false, some ⟨feed, some (.reply (some fetched))⟩ =>
          some (s.polled kit (feed.settle terminalPoll now fetched))
      | _, _ => none
  | .fetchFails error now =>
      match s.app.exit, s.app.messages with
      | false, some ⟨feed, some (.reply _)⟩ =>
          some (s.polled kit (feed.settle terminalPoll now (.error error)))
      | _, _ => none
  | .rooms list =>
      if s.app.exit = false ∧ s.app.rooms ∧ list.toOption.all fun rooms => rooms ≠ [] then
        some (s.acted (s.app.applyRooms kit list))
      else none
  | .post room message =>
      if Newest s.log message then some { s with log := s.log ++ [(room, message)] } else none
  | .land id message =>
      match s.tasks[id]? with
      | some task =>
          match task.call with
          | .send room body =>
              if task.landed = false ∧ message.body = body ∧ Newest s.log message then
                some { s with
                  log := s.log ++ [(room, message)]
                  tasks := s.tasks.set id { task with landed := true }
                  landed := s.landed ++ [(id, room, message)] }
              else none
          | _ => none
      | none => none
  | .finish id outcome =>
      match s.tasks[id]? with
      | some task =>
          match answerTo s.log task.call outcome with
          | some answer =>
              if task.running = false ∨
                  Background.MAX_ANSWERS ≤ s.app.background.answers.length then none
              else
                let answered := { s with tasks := s.tasks.set id { task with running := false } }
                -- the channel of a session that has ended is gone
                if task.channel ≠ s.app.background.channel then some answered
                else
                  let background := { s.app.background with
                    answers := s.app.background.answers ++ [(id, answer)] }
                  some { answered with app := { s.app with background := background } }
          | none => none
      | none => none
  | .answer =>
      match s.app.exit, s.app.background.answers with
      | false, (_, answer) :: rest =>
          let app := { s.app with background := { s.app.background with answers := rest } }
          some ({ s with page := answer.page s.page }.acted (app.answer kit answer))
      | _, _ => none

/-- What the open room's stream hands to the loop when the event happens. -/
def handed : TerminalEvent → List Message
  | .poll now =>
      match s.app.messages with
      | some ⟨feed, none⟩ => (feed.next terminalPoll now).2.batch
      | some ⟨feed, some .deadline⟩ => (feed.wake now).2.batch
      | _ => []
  | .arrive now =>
      match s.app.messages with
      | some ⟨feed, some (.reply (some fetched))⟩ => (feed.settle terminalPoll now fetched).2.batch
      | _ => []
  | _ => []

/-! ### What every run keeps -/

variable {kit s} {kept : Prop} {t : Terminal Input} {event : TerminalEvent}

/-- A call that runs is the last of its channel.  An earlier one of the same channel has been
answered. -/
def LastRuns (tasks : List Task) : Prop :=
  ∀ (id : ℕ) (task : Task), tasks[id]? = some task → task.running = true →
    ∀ (other : ℕ) (task' : Task), tasks[other]? = some task' → task'.channel = task.channel →
      other ≤ id

/-- A call is started while none of its channel runs. -/
theorem LastRuns.append {tasks : List Task} (last : LastRuns tasks) {started : Task}
    (free : ∀ task ∈ tasks, task.channel = started.channel → task.running = false) :
    LastRuns (tasks ++ [started]) := by
  intro id task at_ running other task' at_' same
  have bound := (List.getElem?_eq_some_iff.mp at_').1
  rw [List.length_append, List.length_singleton] at bound
  rcases Nat.lt_or_ge id tasks.length with old | new
  · rw [List.getElem?_append_left old] at at_
    rcases Nat.lt_or_ge other tasks.length with old' | new'
    · rw [List.getElem?_append_left old'] at at_'
      exact last id task at_ running other task' at_' same
    · obtain rfl : other = tasks.length := by omega
      rw [List.getElem?_concat_length] at at_'
      obtain rfl := Option.some.inj at_'
      have ended := free task (List.mem_of_getElem? at_) same.symm
      rw [running] at ended
      cases ended
  · omega

/-- A call is answered, or its message inserted. -/
theorem LastRuns.set {tasks : List Task} (last : LastRuns tasks) {id : ℕ} {before after : Task}
    (at_ : tasks[id]? = some before) (channel : after.channel = before.channel)
    (running : after.running = true → before.running = true) : LastRuns (tasks.set id after) := by
  have old : ∀ (other : ℕ) (task : Task), (tasks.set id after)[other]? = some task →
      ∃ was : Task, tasks[other]? = some was ∧ task.channel = was.channel ∧
        (task.running = true → was.running = true) := by
    intro other task is
    rw [List.getElem?_set] at is
    split at is
    · rename_i same
      subst same
      split at is
      · obtain rfl := Option.some.inj is
        exact ⟨before, at_, channel, running⟩
      · cases is
    · exact ⟨task, is, rfl, fun runs => runs⟩
  intro one task at_one runs other task' at_other same
  obtain ⟨was, at_was, channel_was, ran⟩ := old one task at_one
  obtain ⟨was', at_was', channel_was', -⟩ := old other task' at_other
  exact last one was at_was (ran runs) other was' at_was'
    (channel_was'.symm.trans (same.trans channel_was))

/-- Once the call that runs has been answered, none of its channel runs. -/
theorem LastRuns.ended {tasks : List Task} (last : LastRuns tasks) {id : ℕ} {task : Task}
    (at_ : tasks[id]? = some task) (running : task.running = true) :
    ∀ other ∈ tasks.set id { task with running := false }, other.channel = task.channel →
      other.running = false := by
  intro other mem same
  obtain ⟨k, is⟩ := List.getElem?_of_mem mem
  rcases eq_or_ne id k with rfl | apart
  · rw [List.getElem?_set_self (List.getElem?_eq_some_iff.mp at_).1] at is
    rw [← Option.some.inj is]
  · rw [List.getElem?_set_ne apart] at is
    cases runs : other.running with
    | false => rfl
    | true =>
        have before := last id task at_ running k other is same
        exact absurd (le_antisymm (last k other is runs id task at_ same.symm) before) apart

/-- **The calls of the channel**: none is out, or one runs, or its answer waits to be read.  The
three cases are told apart by what `Background` knows, so the app never has to guess. -/
inductive Calls (kept : Prop) (s : Terminal Input) : Prop
  | idle (idle : s.app.background.pending = false) (none_ : s.app.background.answers = [])
      (ended : ∀ task ∈ s.tasks, task.channel = s.app.background.channel → task.running = false)
  | out (id : ℕ) (call : AppCall) (landed : Bool) (busy : s.app.background.pending = true)
      (none_ : s.app.background.answers = [])
      (at_ : s.tasks[id]? = some ⟨s.app.background.channel, call, true, landed⟩)
      (fits : s.app.Fits kept call)
  | waits (id : ℕ) (call : AppCall) (landed : Bool) (answer : Answer)
      (busy : s.app.background.pending = true) (one : s.app.background.answers = [(id, answer)])
      (at_ : s.tasks[id]? = some ⟨s.app.background.channel, call, false, landed⟩)
      (ended : ∀ task ∈ s.tasks, task.channel = s.app.background.channel → task.running = false)
      (fits : s.app.Fits kept call)
      (answered : ∃ log outcome, log <+: s.log ∧ answerTo log call outcome = some answer)

/-- **The invariant of the calls.** The app is in order, its calls are as their channel has them,
no task is on a later channel, and a stream that awaits something has handed over what it held. -/
structure Inv (kept : Prop) (s : Terminal Input) : Prop where
  sound : s.app.Sound
  calls : Calls kept s
  channels : ∀ task ∈ s.tasks, task.channel ≤ s.app.background.channel
  last : LastRuns s.tasks
  /-- A stream that awaits something has handed over what it held. -/
  emptied : ∀ stream ∈ s.app.messages, stream.awaits.isSome → stream.feed.holding = []

theorem inv_launched (form : ConnectionForm) : Inv kept (launched kit form) where
  sound := ⟨Or.inr ⟨_, rfl⟩, nofun, fun _ => ⟨rfl, rfl⟩⟩
  calls := .idle rfl rfl fun _ mem => absurd mem List.not_mem_nil
  channels := fun _ mem => absurd mem List.not_mem_nil
  last := fun _ _ at_ => by cases at_
  emptied := fun _ mem => by cases mem

/-- A change that leaves the calls as they are, and does not disturb the one that is out. -/
theorem Inv.over (inv : Inv kept s) {app : App Input} {log : List (RoomId × Message)}
    (sound : app.Sound) (same : app.background = s.app.background) (grows : s.log <+: log)
    (fits : s.app.background.pending = true → ∀ call, s.app.Fits kept call → app.Fits kept call)
    (emptied : ∀ stream ∈ app.messages, stream.awaits.isSome → stream.feed.holding = [])
    (landed : List (ℕ × RoomId × Message)) (page : List Message) :
    Inv kept ⟨app, s.tasks, log, landed, page⟩ where
  sound := sound
  calls := by
    cases inv.calls with
    | idle idle none_ ended =>
        exact .idle (by rw [same]; exact idle) (by rw [same]; exact none_)
          (by rw [same]; exact ended)
    | out id call landed busy none_ at_ fit =>
        exact .out id call landed (by rw [same]; exact busy) (by rw [same]; exact none_)
          (by rw [same]; exact at_) (fits busy call fit)
    | waits id call landed answer busy one at_ ended fit answered =>
        obtain ⟨seen, outcome, early, answers⟩ := answered
        exact .waits id call landed answer (by rw [same]; exact busy) (by rw [same]; exact one)
          (by rw [same]; exact at_) (by rw [same]; exact ended) (fits busy call fit)
          ⟨seen, outcome, early.trans grows, answers⟩
  channels := by
    rw [same]
    exact inv.channels
  last := inv.last
  emptied := emptied

/-- While no call is pending, no call of the channel is out. -/
theorem Calls.of_idle (calls : Calls kept s) (idle : s.app.background.pending = false) :
    s.app.background.answers = [] ∧
      ∀ task ∈ s.tasks, task.channel = s.app.background.channel → task.running = false := by
  cases calls with
  | idle _ none_ ended => exact ⟨none_, ended⟩
  | out _ _ _ busy => exact absurd (idle.symm.trans busy) Bool.false_ne_true
  | waits _ _ _ _ busy => exact absurd (idle.symm.trans busy) Bool.false_ne_true

/-- What a function of the app does to the open room's stream: it goes on, or is gone. -/
theorem stream_of_does {app : App Input} {did : App Input × Option AppCall} (sound : app.Sound)
    (does : App.Does kept app did) {stream : MessagesStream} (held : did.1.messages = some stream) :
    app.messages = some stream := by
  cases does with
  | keeps _ _ same _ => exact same.messages.symm.trans held
  | opens _ _ fits _ =>
      rw [fits.1] at held
      cases held
  | signIn after shows _ kept =>
      obtain ⟨screen, at_⟩ := shows
      have gone := ((kept sound).away fun other no => by rw [at_] at no; cases no).1
      rw [gone] at held
      cases held

/-- **A function of the app keeps the invariant.** The function may start a call, end the session,
or do neither, and the pane may change as it says. -/
theorem Inv.acted (inv : Inv kept s) {did : App Input × Option AppCall} (acts : App.Acts s.app did)
    (does : App.Does kept s.app did) : Inv kept (s.acted did) := by
  have sound := does.sound inv.sound
  have fit := does.fits
  have emptied : ∀ stream ∈ did.1.messages, stream.awaits.isSome → stream.feed.holding = [] :=
    fun stream held => inv.emptied stream (stream_of_does inv.sound does held)
  cases acts with
  | quiet after same =>
      refine inv.over sound same List.prefix_rfl (fun busy call fits => ?_) emptied _ _
      cases does with
      | keeps _ _ kept _ => exact kept.fits fits
      | signIn _ _ idle _ =>
          rw [same, busy] at idle
          cases idle
  | starts after call idle busy =>
      -- nothing is out, so the new call is the only one that runs
      obtain ⟨none_, free⟩ := inv.calls.of_idle idle
      have channel : after.background.channel = s.app.background.channel := by rw [busy]
      refine ⟨sound, ?_, ?_, ?_, emptied⟩
      · refine .out s.tasks.length call false ?_ ?_ List.getElem?_concat_length (fit call rfl)
        · exact congrArg Background.pending busy
        · exact (congrArg Background.answers busy).trans none_
      · intro task mem
        change task.channel ≤ after.background.channel
        rw [channel]
        rcases List.mem_append.mp mem with old | new
        · exact inv.channels task old
        · rw [List.mem_singleton.mp new]
          exact channel.le
      · exact inv.last.append (by rw [channel]; exact free)
  | ends after other =>
      -- the next channel is a new one, so no call answers through it
      refine ⟨sound, ?_, ?_, inv.last, emptied⟩
      · refine .idle (congrArg Background.pending other) (congrArg Background.answers other) ?_
        intro task mem same
        have channel := inv.channels task mem
        have next : task.channel = s.app.background.channel + 1 :=
          same.trans (congrArg Background.channel other)
        omega
      · intro task mem
        have channel := inv.channels task mem
        have next : after.background.channel = s.app.background.channel + 1 := by rw [other]; rfl
        change task.channel ≤ after.background.channel
        omega

/-! ### What one step does -/

variable (s) in
/-- The loop has taken the answer that waited. -/
def freed : Terminal Input :=
  { s with
    app :=
      { s.app with background := { s.app.background with answers := [], pending := false } } }

variable (s) in
/-- The feed of the room that was to be opened is watched. -/
def watched (screen : Chat Input) (feed : MessagesFeed) : Terminal Input where
  app := { s.freed.app with
    screen := .chat (screen.watching feed.room)
    messages := some ⟨feed, none⟩
    reopen := false }
  tasks := s.tasks
  log := s.log
  landed := s.landed
  page := feed.holding

variable (s) in
/-- The stream of the open room, and nothing else, has gone on. -/
def streaming (stream : MessagesStream) : Terminal Input :=
  { s with app := { s.app with messages := some stream } }

variable (s) in
/-- The server has answered the fetch of the stream. -/
def replied (n : ℕ) (feed : MessagesFeed) : Terminal Input :=
  let fetched :=
    served (roomLog feed.room (s.log.take n)) terminalPoll.pageSize (.after feed.cursor)
  s.streaming ⟨feed, some (.reply (some fetched))⟩

variable (s) in
/-- The server has inserted the message of a call.  It lands behind whatever has been posted by
then. -/
def inserted (id : ℕ) (task : Task) (room : RoomId) (message : Message) : Terminal Input where
  app := s.app
  tasks := s.tasks.set id { task with landed := true }
  log := s.log ++ [(room, message)]
  landed := s.landed ++ [(id, room, message)]
  page := s.page

variable (s) in
/-- A call has been answered: through the channel it was started with, unless that is gone. -/
def finished (id : ℕ) (task : Task) (answer : Answer) : Terminal Input where
  app := if task.channel = s.app.background.channel then
      { s.app with background :=
        { s.app.background with answers := s.app.background.answers ++ [(id, answer)] } }
    else s.app
  tasks := s.tasks.set id { task with running := false }
  log := s.log
  landed := s.landed
  page := s.page

variable (s) in
/-- The server keeps the rooms it has listed.  It may add rooms to the list, and move them about in
it. -/
def Keeping : TerminalEvent → Prop
  | .rooms (.ok rooms) => Chat.Grown s.sidebar rooms
  | _ => True

instance : DecidablePred s.Keeping
  | .rooms (.ok rooms) => inferInstanceAs (Decidable (Chat.Grown s.sidebar rooms))
  | .rooms (.error _) | .key _ | .closed | .poll _ | .reply _ | .arrive _ | .fetchFails _ _
  | .post _ _ | .land _ _ | .finish _ _ | .answer => isTrue trivial

variable (kit s) in
/-- What makes the app act, an answer apart. -/
inductive Acted : TerminalEvent → App Input × Option AppCall → Prop
  | key (key : KeyEvent) : Acted (.key key) (s.app.handleKey kit key)
  | closed : Acted .closed ({ s.app with exit := true }, none)
  | rooms (list : Except ChatError (List Room)) (watched : s.app.rooms = true) :
      Acted (.rooms list) (s.app.applyRooms kit list)

variable (kit s kept) in
/-- **What a step can do.** The app has acted on something, and has perhaps started a call; the
stream has been polled; or something has happened outside: a post, a message that is inserted, a
reply on its way. -/
inductive Did : TerminalEvent → Terminal Input → Prop
  /-- A function of the app acts. -/
  | acts (event : TerminalEvent) (did : App Input × Option AppCall) (cause : Acted kit s event did)
      (acts : App.Acts s.app did) (does : App.Does kept s.app did) : Did event (s.acted did)
  /-- The stream of the open room is polled, and may find a page that has come back. -/
  | polls (event : TerminalEvent) (stream : MessagesStream) (held : s.app.messages = some stream)
      (page : List Message) (feed : MessagesFeed) (polled : Polled)
      (goes : PollStep stream.feed page feed polled)
      (reply : page = [] ∨ stream.awaits = some (.reply (some (.ok page))))
      (noKey : ∀ key, event ≠ .key key) : Did event (s.polled kit (feed, polled))
  /-- The server answers the fetch of the stream. -/
  | replies (n : ℕ) (feed : MessagesFeed) (held : s.app.messages = some ⟨feed, some (.reply none)⟩)
      (bound : n ≤ s.log.length) : Did (.reply n) (s.replied n feed)
  | posts (room : RoomId) (message : Message) (newest : Newest s.log message) :
      Did (.post room message) { s with log := s.log ++ [(room, message)] }
  | lands (id : ℕ) (task : Task) (room : RoomId) (message : Message)
    (at_ : s.tasks[id]? = some task)
      (sends : task.call = .send room message.body) (fresh : task.landed = false)
      (newest : Newest s.log message) : Did (.land id message) (s.inserted id task room message)
  | finishes (id : ℕ) (task : Task) (outcome : Outcome) (answer : Answer)
      (at_ : s.tasks[id]? = some task) (running : task.running = true)
      (answers : answerTo s.log task.call outcome = some answer) :
      Did (.finish id outcome) (s.finished id task answer)
  /-- The loop takes an answer, and acts on it. -/
  | takes (id : ℕ) (answer : Answer) (one : s.app.background.answers = [(id, answer)])
      (did : App Input × Option AppCall) (acts : App.Acts s.freed.app did)
      (does : App.Does kept s.freed.app did) : Did .answer (s.freed.acted did)
  /-- The loop takes the feed of the room that was to be opened. -/
  | opens (id : ℕ) (room : RoomId) (screen : Chat Input) (n : ℕ) (page : List Message)
      (bound : n ≤ s.log.length)
      (got : served (roomLog room (s.log.take n)) terminalPoll.pageSize .newest = .ok page)
      (at_ : s.app.screen = .chat screen) (fits : s.app.Fits kept (.openRoom room))
      (one : s.app.background.answers
        = [(id, .roomOpened (.ok (.opened terminalPoll room .newest page)))]) :
      Did .answer (s.watched screen (.opened terminalPoll room .newest page))

/-- What a connect is answered with. -/
theorem call_of_connected {log : List (RoomId × Message)} {call : AppCall} {outcome : Outcome}
    {result : Except ChatError ChatClient}
    (answers : answerTo log call outcome = some (.connected result)) :
    ∃ form, call = .connect form := by
  unfold answerTo at answers
  split at answers
  case h_1 form client => exact ⟨form, rfl⟩
  case h_2 form error => exact ⟨form, rfl⟩
  all_goals first | cases answers | (split at answers <;> cases answers)

/-- What a login is answered with: a list that is not empty. -/
theorem call_of_loggedIn {log : List (RoomId × Message)} {call : AppCall} {outcome : Outcome}
    {username : String} {rooms : List Room}
    (answers : answerTo log call outcome = some (.loggedIn username (.ok rooms))) :
    outcome = .listed rooms ∧ rooms ≠ [] ∧ ∃ password, call = .logIn username password := by
  unfold answerTo at answers
  split at answers
  case h_5 name password listed =>
    split at answers
    · cases answers
    · rename_i some_
      cases answers
      exact ⟨rfl, some_, password, rfl⟩
  all_goals cases answers

/-- What opening a room is answered with: a feed of that room, opened on the newest page. -/
theorem call_of_roomOpened {log : List (RoomId × Message)} {call : AppCall} {outcome : Outcome}
    {feed : MessagesFeed} (answers : answerTo log call outcome = some (.roomOpened (.ok feed))) :
    ∃ room n page, call = .openRoom room ∧ outcome = .page n ∧
      served (roomLog room (log.take n)) terminalPoll.pageSize .newest = .ok page ∧
      feed = .opened terminalPoll room .newest page := by
  unfold answerTo at answers
  split at answers
  case h_7 room n =>
    split at answers
    · rename_i page got
      cases answers
      exact ⟨room, n, page, rfl, rfl, got, rfl⟩
    · cases answers
  all_goals first | cases answers | (split at answers <;> cases answers)

/-- The page that an answer brings is the one of the feed in it. -/
theorem page_of_not_opened {answer : Answer} (before : List Message)
    (other : ∀ feed, answer ≠ .roomOpened (.ok feed)) : answer.page before = before := by
  unfold Answer.page
  split
  · rename_i feed
    exact absurd rfl (other feed)
  · rfl

variable (kit) in
/-- **What an answer that is not a feed does to the pane.** The call it answers was started by this
screen, which shows still. -/
theorem answer_does (inv : Inv kept s) {answer : Answer} {call : AppCall}
    (fits : s.app.Fits kept call)
    (answered : ∃ log outcome, log <+: s.log ∧ answerTo log call outcome = some answer)
    (other : ∀ feed, answer ≠ .roomOpened (.ok feed)) :
    App.Does kept s.freed.app (s.freed.app.answer kit answer) := by
  obtain ⟨log, outcome, -, answers⟩ := answered
  have sound : s.freed.app.Sound := ⟨inv.sound.client, inv.sound.selected, inv.sound.away⟩
  refine App.answer_does sound other ?_ ?_
  · rintro result rfl
    obtain ⟨form, rfl⟩ := call_of_connected answers
    exact fits
  · rintro username rooms rfl
    obtain ⟨-, some_, password, rfl⟩ := call_of_loggedIn answers
    exact ⟨some_, fits⟩

/-- **What taking the answer does.** The answer is taken out of the channel first, and the app acts
without it. -/
theorem answer_did (inv : Inv kept s) {id : ℕ} {answer : Answer} {call : AppCall}
    (one : s.app.background.answers = [(id, answer)]) (fits : s.app.Fits kept call)
    (answered : ∃ log outcome, log <+: s.log ∧ answerTo log call outcome = some answer) :
    Did kit s kept .answer ({ s with page := answer.page s.page }.acted
      ({ s.app with background := { s.app.background with answers := [] } }.answer
        kit answer)) := by
  by_cases opened : ∃ feed, answer = .roomOpened (.ok feed)
  · obtain ⟨feed, rfl⟩ := opened
    obtain ⟨log, outcome, early, answers⟩ := answered
    obtain ⟨room, n, page, rfl, -, got, rfl⟩ := call_of_roomOpened answers
    have shows : ∃ screen, s.app.screen = .chat screen := fits.2.imp fun _ shows => shows.1
    obtain ⟨screen, at_⟩ := shows
    have acts : s.freed.app.answer kit (.roomOpened (.ok (.opened terminalPoll room .newest page)))
        = ((s.watched screen (.opened terminalPoll room .newest page)).app, none) :=
      App.answer_roomOpened at_
    have seen : log.take n = s.log.take (min n log.length) := by
      rw [List.prefix_iff_eq_take.mp early, List.take_take, List.length_take,
        min_eq_left early.length_le]
    rw [seen] at got
    change Did kit s kept .answer (Terminal.acted { s with page := page }
      (s.freed.app.answer kit (.roomOpened (.ok (.opened terminalPoll room .newest page)))))
    rw [acts]
    exact .opens id room screen _ page ((min_le_right _ _).trans early.length_le) got at_ fits one
  · have other : ∀ feed, answer ≠ .roomOpened (.ok feed) := fun feed same => opened ⟨feed, same⟩
    rw [page_of_not_opened s.page other]
    change Did kit s kept .answer (s.freed.acted (s.freed.app.answer kit answer))
    exact .takes id answer one _ (App.answer_acts s.freed.app answer)
      (answer_does kit inv fits answered other)

/-- **What taking an answer is**: the one that waits is taken, and nothing waits any more.  It
answers a call that this screen has asked for, from a log that has been there. -/
theorem step_answer (inv : Inv kept s) (stepped : s.step kit .answer = some t) :
    ∃ id answer call, s.app.exit = false ∧ s.app.background.answers = [(id, answer)] ∧
      s.app.Fits kept call ∧
      (∃ log outcome, log <+: s.log ∧ answerTo log call outcome = some answer) ∧
      t = { s with page := answer.page s.page }.acted
        ({ s.app with background := { s.app.background with answers := [] } }.answer
          kit answer) := by
  simp only [step] at stepped
  split at stepped
  · rename_i id answer rest stays waiting
    cases stepped
    cases inv.calls with
    | idle _ none_ _ =>
        rw [none_] at waiting
        cases waiting
    | out _ _ _ _ none_ _ _ =>
        rw [none_] at waiting
        cases waiting
    | waits _ call _ _ _ one _ _ fits answered =>
        rw [one] at waiting
        cases waiting
        exact ⟨_, _, call, stays, one, fits, answered, rfl⟩
  · cases stepped

variable (kit s) in
/-- The stream of the open room has been polled, and what came of it is what the event hands to
the loop. -/
def Polls (event : TerminalEvent) (t : Terminal Input) : Prop :=
  ∃ stream page feed polled, s.app.messages = some stream ∧ t = s.polled kit (feed, polled) ∧
    PollStep stream.feed page feed polled ∧
      (page = [] ∨ stream.awaits = some (.reply (some (.ok page)))) ∧
        s.handed event = polled.batch

theorem step_poll (inv : Inv kept s) {now : ℕ} (stepped : s.step kit (.poll now) = some t) :
    Polls kit s (.poll now) t := by
  simp only [step] at stepped
  split at stepped
  · rename_i feed _ held
    cases stepped
    refine ⟨_, [], (feed.next terminalPoll now).1, (feed.next terminalPoll now).2, held, rfl,
      MessagesFeed.next_step, Or.inl rfl, ?_⟩
    rw [handed, held]
  · rename_i feed _ held
    cases stepped
    refine ⟨_, [], (feed.wake now).1, (feed.wake now).2, held, rfl,
      MessagesFeed.wake_step (inv.emptied _ held rfl), Or.inl rfl, ?_⟩
    rw [handed, held]
  · cases stepped

theorem step_arrive (inv : Inv kept s) {now : ℕ} (stepped : s.step kit (.arrive now) = some t) :
    Polls kit s (.arrive now) t := by
  simp only [step] at stepped
  split at stepped
  · rename_i feed fetched _ held
    cases stepped
    have empty := inv.emptied _ held rfl
    have hands : s.handed (.arrive now) = (feed.settle terminalPoll now fetched).2.batch := by
      rw [handed, held]
    cases fetched with
    | ok page =>
        exact ⟨_, page, _, _, held, rfl, MessagesFeed.settle_step empty page, Or.inr rfl, hands⟩
    | error error =>
        exact ⟨_, [], _, _, held, rfl, MessagesFeed.fail_step terminalPoll now empty error,
          Or.inl rfl, hands⟩
  · cases stepped

theorem step_fetchFails (inv : Inv kept s) {error : ChatError} {now : ℕ}
    (stepped : s.step kit (.fetchFails error now) = some t) :
    Polls kit s (.fetchFails error now) t := by
  simp only [step] at stepped
  split at stepped
  · rename_i feed fetched _ held
    cases stepped
    have empty := inv.emptied _ held rfl
    exact ⟨_, [], _, _, held, rfl, MessagesFeed.fail_step terminalPoll now empty error, Or.inl rfl,
      rfl⟩
  · cases stepped

theorem step_key {key : KeyEvent} (stepped : s.step kit (.key key) = some t) :
    t = s.acted (s.app.handleKey kit key) := by
  simp only [step] at stepped
  split at stepped
  · cases stepped
  · exact (Option.some.inj stepped).symm

theorem step_reply {n : ℕ} (stepped : s.step kit (.reply n) = some t) :
    ∃ feed, s.app.messages = some ⟨feed, some (.reply none)⟩ ∧ n ≤ s.log.length ∧
      t = s.replied n feed := by
  simp only [step] at stepped
  split at stepped
  · rename_i feed held
    split at stepped
    · rename_i bound
      exact ⟨feed, held, bound, (Option.some.inj stepped).symm⟩
    · cases stepped
  · cases stepped

/-- The sidebar's stream delivers while it is open, and what it delivers is never empty. -/
theorem step_rooms (inv : Inv kept s) {list : Except ChatError (List Room)}
    (keeping : kept → Keeping s (.rooms list)) (stepped : s.step kit (.rooms list) = some t) :
    s.app.rooms = true ∧ t = s.acted (s.app.applyRooms kit list) ∧
      App.Does kept s.app (s.app.applyRooms kit list) := by
  simp only [step] at stepped
  split at stepped
  · rename_i listed
    refine ⟨listed.2.1, (Option.some.inj stepped).symm, App.applyRooms_does inv.sound list ?_ ?_⟩
    · rintro rooms rfl
      simpa [Except.toOption] using listed.2.2
    · rintro all screen rooms at_ rfl
      have grown : Chat.Grown s.sidebar rooms := keeping all
      rwa [sidebar, at_] at grown
  · cases stepped

theorem step_post {room : RoomId} {message : Message}
    (stepped : s.step kit (.post room message) = some t) :
    Newest s.log message ∧ t = { s with log := s.log ++ [(room, message)] } := by
  simp only [step] at stepped
  split at stepped
  · rename_i newest
    exact ⟨newest, (Option.some.inj stepped).symm⟩
  · cases stepped

theorem step_land {id : ℕ} {message : Message} (stepped : s.step kit (.land id message) = some t) :
    ∃ task room, s.tasks[id]? = some task ∧ task.call = .send room message.body ∧
      task.landed = false ∧ Newest s.log message ∧ t = s.inserted id task room message := by
  simp only [step] at stepped
  split at stepped
  · rename_i task at_
    split at stepped
    · rename_i room body sends
      split at stepped
      · rename_i lands
        obtain ⟨fresh, rfl, newest⟩ := lands
        exact ⟨task, room, at_, sends, fresh, newest, (Option.some.inj stepped).symm⟩
      · cases stepped
    · cases stepped
  · cases stepped

theorem step_finish {id : ℕ} {outcome : Outcome}
    (stepped : s.step kit (.finish id outcome) = some t) :
    ∃ task answer, s.tasks[id]? = some task ∧ task.running = true ∧
      answerTo s.log task.call outcome = some answer ∧ t = s.finished id task answer := by
  simp only [step] at stepped
  split at stepped
  · rename_i task at_
    split at stepped
    · rename_i answer answers
      split at stepped
      · cases stepped
      · rename_i going
        rw [not_or, Bool.not_eq_false] at going
        refine ⟨task, answer, at_, going.1, answers, ?_⟩
        split at stepped
        · rename_i gone
          rw [finished, if_neg gone]
          exact (Option.some.inj stepped).symm
        · rename_i same
          rw [finished, if_pos (not_not.mp same)]
          exact (Option.some.inj stepped).symm
    · cases stepped
  · cases stepped

/-- **What one step does**, in a state that runs lead to.  Everything the later modules prove about
a step, they prove by these cases. -/
theorem step_did (inv : Inv kept s) (keeping : kept → Keeping s event)
    (stepped : s.step kit event = some t) : Did kit s kept event t := by
  cases event with
  | key key =>
      obtain rfl := step_key stepped
      exact .acts _ _ (.key key) (App.handleKey_acts kit s.app key)
        (App.handleKey_does inv.sound key)
  | closed =>
      cases stepped
      exact .acts _ _ .closed (.quiet _ rfl)
        (.keeps _ none ⟨.refl _, rfl, rfl, rfl⟩ nofun)
  | poll now =>
      obtain ⟨stream, page, feed, polled, held, rfl, goes, reply, -⟩ := step_poll inv stepped
      exact .polls _ stream held page feed polled goes reply nofun
  | reply n =>
      obtain ⟨feed, held, bound, rfl⟩ := step_reply stepped
      exact .replies n feed held bound
  | arrive now =>
      obtain ⟨stream, page, feed, polled, held, rfl, goes, reply, -⟩ := step_arrive inv stepped
      exact .polls _ stream held page feed polled goes reply nofun
  | fetchFails error now =>
      obtain ⟨stream, page, feed, polled, held, rfl, goes, reply, -⟩ := step_fetchFails inv stepped
      exact .polls _ stream held page feed polled goes reply nofun
  | rooms list =>
      obtain ⟨watched, rfl, does⟩ := step_rooms inv keeping stepped
      exact .acts _ _ (.rooms list watched) (App.applyRooms_acts s.app list) does
  | post room message =>
      obtain ⟨newest, rfl⟩ := step_post stepped
      exact .posts room message newest
  | land id message =>
      obtain ⟨task, room, at_, sends, fresh, newest, rfl⟩ := step_land stepped
      exact .lands id task room message at_ sends fresh newest
  | finish id outcome =>
      obtain ⟨task, answer, at_, running, answers, rfl⟩ := step_finish stepped
      exact .finishes id task outcome answer at_ running answers
  | answer =>
      obtain ⟨id, answer, call, -, one, fits, answered, rfl⟩ := step_answer inv stepped
      exact answer_did inv one fits answered

/-! ### One step keeps the invariant -/

theorem Inv.freed (inv : Inv kept s) {id : ℕ} {answer : Answer}
    (one : s.app.background.answers = [(id, answer)]) : Inv kept s.freed where
  sound := ⟨inv.sound.client, inv.sound.selected, inv.sound.away⟩
  calls := by
    cases inv.calls with
    | idle _ none_ _ =>
        rw [none_] at one
        cases one
    | out _ _ _ _ none_ _ _ =>
        rw [none_] at one
        cases one
    | waits _ _ _ _ _ _ _ ended _ _ => exact .idle rfl rfl ended
  channels := inv.channels
  last := inv.last
  emptied := inv.emptied

/-- The open room's stream goes on. -/
theorem Inv.feeds (inv : Inv kept s) {app : App Input} (feeds : App.Feeds s.app app)
    (same : app.background = s.app.background)
    (emptied : ∀ stream ∈ app.messages, stream.awaits.isSome → stream.feed.holding = []) :
    Inv kept { s with app := app } :=
  inv.over (feeds.sound inv.sound) same List.prefix_rfl (fun _ _ => feeds.fits) emptied _ _

theorem Inv.streaming (inv : Inv kept s) {stream next : MessagesStream}
    (held : s.app.messages = some stream) (emptied : next.awaits.isSome → next.feed.holding = []) :
    Inv kept (s.streaming next) := by
  obtain ⟨screen, at_⟩ := inv.sound.shows_chat held
  have feeds : App.Feeds s.app (s.streaming next).app :=
    ⟨⟨stream, held⟩, ⟨screen, screen, at_, at_, rfl, rfl⟩, rfl⟩
  refine inv.feeds feeds rfl ?_
  rintro other ⟨⟩
  exact emptied

/-- **A poll of the open room's stream keeps the invariant.** Only the stream and the messages of
the pane have changed by it. -/
theorem Inv.polled (inv : Inv kept s) {stream : MessagesStream}
    (held : s.app.messages = some stream)
    {page : List Message} {feed : MessagesFeed} {polled : Polled}
    (goes : PollStep stream.feed page feed polled) : Inv kept (s.polled kit (feed, polled)) := by
  cases polled with
  | pending awaits => exact inv.streaming held fun _ => goes.holding
  | ready result =>
      have passed_on : Inv kept (s.streaming ⟨feed, none⟩) := inv.streaming held nofun
      cases result with
      | error error =>
          exact passed_on.acted (App.applyMessages_acts _ _) (App.applyMessages_does _ error)
      | ok batch =>
          obtain ⟨screen, at_⟩ := passed_on.sound.shows_chat rfl
          change Inv kept
            { s with app := (s.streaming ⟨feed, none⟩).app.applyMessages kit (.ok batch) }
          rw [App.applyMessages_of_chat kit at_]
          exact passed_on.feeds ⟨⟨_, rfl⟩, ⟨screen, _, at_, rfl, rfl, rfl⟩, rfl⟩ rfl
            passed_on.emptied

/-- What holds of every call, and of the one that takes another's place, holds afterwards. -/
theorem forall_mem_set {tasks : List Task} {P : Task → Prop} (all : ∀ task ∈ tasks, P task)
    (id : ℕ) {task : Task} (new : P task) : ∀ other ∈ tasks.set id task, P other := by
  intro other mem
  rcases List.mem_or_eq_of_mem_set mem with old | rfl
  · exact all other old
  · exact new

/-- A message is inserted. -/
theorem Inv.inserted (inv : Inv kept s) {id : ℕ} {task : Task} (at_ : s.tasks[id]? = some task)
    (room : RoomId) (message : Message) : Inv kept (s.inserted id task room message) where
  sound := inv.sound
  calls := by
    have mem := List.mem_of_getElem? at_
    -- every call keeps what it is about, and whether it runs
    have moved (other : ℕ) {call : AppCall} {running landed : Bool}
        (is : s.tasks[other]? = some ⟨s.app.background.channel, call, running, landed⟩) :
        ∃ landed, (s.tasks.set id { task with landed := true })[other]?
          = some ⟨s.app.background.channel, call, running, landed⟩ := by
      rw [List.getElem?_set]
      split
      · rename_i same
        subst same
        obtain rfl := Option.some.inj (at_.symm.trans is)
        exact ⟨true, if_pos (List.getElem?_eq_some_iff.mp at_).1⟩
      · exact ⟨landed, is⟩
    cases inv.calls with
    | idle idle none_ ended => exact .idle idle none_ (forall_mem_set ended id (ended task mem))
    | out other call landed busy none_ is fits =>
        obtain ⟨landed, is⟩ := moved other is
        exact .out other call landed busy none_ is fits
    | waits other call landed answer busy one is ended fits answered =>
        obtain ⟨landed, is⟩ := moved other is
        obtain ⟨log, outcome, early, answers⟩ := answered
        exact .waits other call landed answer busy one is (forall_mem_set ended id (ended task mem))
          fits ⟨log, outcome, early.trans (List.prefix_append _ _), answers⟩
  channels := forall_mem_set inv.channels id (inv.channels task (List.mem_of_getElem? at_))
  last := inv.last.set at_ rfl fun runs => runs
  emptied := inv.emptied

/-- A call of the channel that runs is the one that is out. -/
theorem Inv.running (inv : Inv kept s) {id : ℕ} {task : Task} (at_ : s.tasks[id]? = some task)
    (running : task.running = true) (same : task.channel = s.app.background.channel) :
    s.app.background.pending = true ∧ s.app.background.answers = [] ∧
      s.app.Fits kept task.call := by
  have mem := List.mem_of_getElem? at_
  cases inv.calls with
  | idle _ _ ended => exact absurd (running.symm.trans (ended task mem same)) nofun
  | out other call landed busy none_ is fits =>
      -- both run, so each is the last of the channel
      obtain rfl : other = id := by
        have before := inv.last id task at_ running other _ is same.symm
        exact le_antisymm before (inv.last other _ is rfl id task at_ same)
      obtain rfl := Option.some.inj (at_.symm.trans is)
      exact ⟨busy, none_, fits⟩
  | waits _ _ _ _ _ _ _ ended _ _ =>
      exact absurd (running.symm.trans (ended task mem same)) nofun

/-- **A call is answered.** If its channel is the one in use the answer waits there, and otherwise
nobody is told. -/
theorem Inv.finished (inv : Inv kept s) {id : ℕ} {task : Task} {outcome : Outcome} {answer : Answer}
    (at_ : s.tasks[id]? = some task) (running : task.running = true)
    (answers : answerTo s.log task.call outcome = some answer) :
      Inv kept (s.finished id task answer) := by
  have last : LastRuns (s.tasks.set id { task with running := false }) :=
    inv.last.set at_ rfl nofun
  have mem := List.mem_of_getElem? at_
  have channels : ∀ other ∈ s.tasks.set id { task with running := false },
      other.channel ≤ s.app.background.channel :=
    forall_mem_set inv.channels id (inv.channels task mem)
  unfold Terminal.finished
  split
  · rename_i same
    obtain ⟨busy, none_, fits⟩ := inv.running at_ running same
    refine ⟨⟨inv.sound.client, inv.sound.selected, inv.sound.away⟩, ?_, channels, last, inv.emptied⟩
    refine .waits id task.call task.landed answer busy ?_ ?_ ?_ fits
      ⟨s.log, outcome, List.prefix_rfl, answers⟩
    · rw [none_]
      rfl
    · rw [← same]
      exact List.getElem?_set_self (List.getElem?_eq_some_iff.mp at_).1
    · intro other mem here
      exact inv.last.ended at_ running other mem (here.trans same.symm)
  · rename_i gone
    -- the call is of a session that has ended: the call that is out is another one
    refine ⟨inv.sound, ?_, channels, last, inv.emptied⟩
    have elsewhere (other : ℕ) {call : AppCall} {running landed : Bool}
        (is : s.tasks[other]? = some ⟨s.app.background.channel, call, running, landed⟩) :
        (s.tasks.set id { task with running := false })[other]?
          = some ⟨s.app.background.channel, call, running, landed⟩ := by
      rw [List.getElem?_set_ne, is]
      rintro rfl
      obtain rfl := Option.some.inj (at_.symm.trans is)
      exact gone rfl
    cases inv.calls with
    | idle idle none_ ended => exact .idle idle none_ (forall_mem_set ended id fun _ => rfl)
    | out other call landed busy none_ is fits =>
        exact .out other call landed busy none_ (elsewhere other is) fits
    | waits other call landed answer busy one is ended fits answered =>
        exact .waits other call landed answer busy one (elsewhere other is)
          (forall_mem_set ended id fun _ => rfl) fits answered

/-- **One step keeps the invariant.** One case for each kind of event, and for what the app does of
itself. -/
theorem inv_step (keeping : kept → Keeping s event) (stepped : s.step kit event = some t)
    (inv : Inv kept s) : Inv kept t := by
  cases step_did inv keeping stepped with
  | acts _ did cause acts does => exact inv.acted acts does
  | polls _ stream held page feed polled goes reply noKey => exact inv.polled held goes
  | replies n feed held bound => 
      exact inv.streaming held fun _ => inv.emptied ⟨feed, some (.reply none)⟩ held rfl
  | posts room message newest =>
      exact inv.over inv.sound rfl (List.prefix_append _ _) (fun _ _ fits => fits) inv.emptied _ _
  | lands id task room message at_ sends fresh newest => exact inv.inserted at_ room message
  | finishes id task outcome answer at_ running answers => exact inv.finished at_ running answers
  | takes id answer one did acts does => exact (inv.freed one).acted acts does
  | opens id room screen n page bound got at_ fits one =>
      have sound : (s.watched screen (.opened terminalPoll room .newest page)).app.Sound := by
        have built := inv.sound.built (by rw [at_]; nofun)
        refine ⟨Or.inl built, ?_, fun elsewhere => absurd rfl (elsewhere _)⟩
        rintro shown ⟨⟩
        exact inv.sound.selected screen at_
      refine (inv.freed one).over sound rfl List.prefix_rfl nofun ?_ _ _
      rintro stream ⟨⟩ awaits
      cases awaits

/-- **Every run keeps the invariant.** It starts on the connect screen, with nothing out and
nothing posted. -/
theorem run_inv {form : ConnectionForm} {events : List TerminalEvent}
    (ran : run (step kit) (launched kit form) events = some s) : Inv False s :=
  run_invariant (fun _ _ _ stepped inv => inv_step nofun stepped inv) ran (inv_launched form)

/-! ### One call at a time -/

variable (s) in
/-- A call that was started through the current channel has not been answered: it runs, or the
loop has not taken its answer yet. -/
def Out (id : ℕ) : Prop :=
  ∃ task, s.tasks[id]? = some task ∧ task.channel = s.app.background.channel ∧
    (task.running = true ∨ ∃ answer, (id, answer) ∈ s.app.background.answers)

variable (kit s) in
/-- **One call at a time**, and none lost or stale. -/
structure OneAtATime : Prop where
  pending : s.app.background.pending = true ↔ ∃ id, s.Out id
  one : ∀ id other, s.Out id → s.Out other → id = other
  waiting : s.app.background.answers.length ≤ 1
  intends : ∀ key, s.app.intends kit key = true → s.app.background.pending = false
  /-- Every intent starts the call it asks for, and a key without one starts none. -/
  starts : ∀ key t, s.step kit (.key key) = some t → App.quits key = false →
    if s.app.intends kit key then ∃ call, s.app.asked kit key = some call ∧
      t.tasks = s.tasks ++ [⟨s.app.background.channel, call, true, false⟩]
    else t.tasks = s.tasks
  /-- An answer that waits is one to a call of this channel. -/
  current : ∀ id answer, (id, answer) ∈ s.app.background.answers →
    ∃ task, s.tasks[id]? = some task ∧ task.channel = s.app.background.channel
  /-- The answer to a call of another one changes nothing. -/
  ignored : ∀ id task outcome t, s.tasks[id]? = some task →
    task.channel ≠ s.app.background.channel → s.step kit (.finish id outcome) = some t →
      t.app = s.app

theorem Inv.none_out (inv : Inv kept s) (idle : s.app.background.pending = false) (id : ℕ) :
    ¬ s.Out id := by
  rintro ⟨task, at_, same, running | ⟨answer, waits⟩⟩
  · have ended := (inv.calls.of_idle idle).2 task (List.mem_of_getElem? at_) same
    exact absurd (running.symm.trans ended) nofun
  · rw [(inv.calls.of_idle idle).1] at waits
    cases waits

/-- The call that is out is the only one. -/
theorem Inv.one_out (inv : Inv kept s) (busy : s.app.background.pending = true) :
    ∃ id, s.Out id ∧ ∀ other, s.Out other → other = id := by
  cases inv.calls with
  | idle idle _ _ => exact absurd (busy.symm.trans idle) nofun
  | out id call landed _ none_ at_ fits =>
      refine ⟨id, ⟨_, at_, rfl, Or.inl rfl⟩, ?_⟩
      rintro other ⟨task, is, same, running | ⟨answer, waits⟩⟩
      · have before := inv.last other task is running id _ at_ same.symm
        exact le_antisymm (inv.last id _ at_ rfl other task is same) before
      · rw [none_] at waits
        cases waits
  | waits id call landed answer _ one at_ ended fits answered =>
      refine ⟨id, ⟨_, at_, rfl, Or.inr ⟨answer, by rw [one]; exact List.mem_singleton_self _⟩⟩, ?_⟩
      rintro other ⟨task, is, same, running | ⟨answer, waits⟩⟩
      · exact absurd (running.symm.trans (ended task (List.mem_of_getElem? is) same)) nofun
      · rw [one, List.mem_singleton] at waits
        exact (Prod.mk.inj waits).1

/-- **Every intent starts the call it asks for**, and a key without one starts none.  The call is
the newest task, on the channel in use, and nothing of it has reached the server. -/
theorem Inv.starts (inv : Inv kept s) {key : KeyEvent} (stepped : s.step kit (.key key) = some t)
    (stays : App.quits key = false) :
    if s.app.intends kit key then ∃ call, s.app.asked kit key = some call ∧
      t.tasks = s.tasks ++ [⟨s.app.background.channel, call, true, false⟩]
    else t.tasks = s.tasks := by
  obtain ⟨started, asks⟩ := App.handleKey_starts kit inv.sound stays
  simp only [step] at stepped
  split at stepped
  · cases stepped
  · cases stepped
    have acts := App.handleKey_acts kit s.app key
    cases did : s.app.handleKey kit key with
    | mk after call =>
        rw [did] at acts started
        cases acts with
        | quiet _ _ =>
            rw [← started] at asks
            rw [← asks]
            rfl
        | starts _ call idle busy =>
            rw [← started] at asks ⊢
            rw [← asks]
            refine ⟨call, rfl, ?_⟩
            -- a call is started through the channel that there is, and leaves it
            have channel : after.background.channel = s.app.background.channel := by rw [busy]
            rw [← channel]
            rfl
        | ends _ _ =>
            rw [← started] at asks
            rw [← asks]
            rfl

theorem Inv.oneAtATime (inv : Inv kept s) : OneAtATime kit s where
  pending := by
    constructor
    · exact fun busy => (inv.one_out busy).imp fun id out => out.1
    · rintro ⟨id, out⟩
      cases pending : s.app.background.pending with
      | true => rfl
      | false => exact absurd out (inv.none_out pending id)
  one := by
    intro one other out out'
    cases pending : s.app.background.pending with
    | true =>
        obtain ⟨id, -, only⟩ := inv.one_out pending
        rw [only one out, only other out']
    | false => exact absurd out (inv.none_out pending one)
  waiting := by
    cases inv.calls with
    | idle _ none_ _ => exact none_ ▸ Nat.zero_le 1
    | out _ _ _ _ none_ _ _ => exact none_ ▸ Nat.zero_le 1
    | waits _ _ _ _ _ one _ _ _ _ => exact one ▸ Nat.le_refl 1
  intends := fun key => App.idle_of_intends
  starts := fun key t stepped stays => inv.starts stepped stays
  current := by
    intro id answer waits
    cases inv.calls with
    | idle _ none_ _ =>
        rw [none_] at waits
        cases waits
    | out _ _ _ _ none_ _ _ =>
        rw [none_] at waits
        cases waits
    | waits _ _ _ _ _ one at_ _ _ _ =>
        rw [one, List.mem_singleton] at waits
        obtain ⟨rfl, -⟩ := Prod.mk.inj waits
        exact ⟨_, at_, rfl⟩
  ignored := by
    intro id task outcome t at_ other stepped
    simp only [step, at_] at stepped
    split at stepped
    · split at stepped
      · cases stepped
      · cases stepped
        rfl
    · cases stepped

/-! ### In the order of submission -/

variable (s) in
/-- The server is done with a call before it is answered.  A message that a call has been answered
about is in the log by then, or will never be. -/
def Prompt : TerminalEvent → Prop
  | .land id _ => s.tasks[id]?.any Task.running
  | _ => True

instance : DecidablePred s.Prompt
  | .land id _ => inferInstanceAs (Decidable (s.tasks[id]?.any Task.running = true))
  | .key _ | .closed | .poll _ | .reply _ | .arrive _ | .fetchFails _ _ | .rooms _ | .post _ _
  | .finish _ _ | .answer => isTrue trivial

variable (s) in
/-- **The bodies of one sign-in are in the log in the order of their submission**: the messages
the calls have inserted are in the log in the order they were inserted in; each has the room and
the body its call was started with; and of one channel the calls come in the order they were
started in. -/
structure InOrder : Prop where
  inserted : (s.landed.map Prod.snd).Sublist s.log
  submitted : ∀ id room message, (id, room, message) ∈ s.landed →
    ∃ task, s.tasks[id]? = some task ∧ task.call = .send room message.body
  ascending : s.landed.Pairwise fun earlier later => ∀ first second,
    s.tasks[earlier.1]? = some first → s.tasks[later.1]? = some second →
      first.channel = second.channel → earlier.1 < later.1

/-- What a step does to the calls: none is lost, and none changes what it is about. -/
theorem tasks_step (inv : Inv False s) (stepped : s.step kit event = some t) {id : ℕ} {task : Task}
    (at_ : s.tasks[id]? = some task) : ∃ later, t.tasks[id]? = some later ∧
      later.channel = task.channel ∧ later.call = task.call ∧
        (task.landed = true → later.landed = true) := by
  have bound := (List.getElem?_eq_some_iff.mp at_).1
  have acted (s : Terminal Input) (did : App Input × Option AppCall)
    (at_ : s.tasks[id]? = some task)
      (bound : id < s.tasks.length) : (s.acted did).tasks[id]? = some task := by
    obtain ⟨app, call⟩ := did
    cases call with
    | none => exact at_
    | some call => exact (List.getElem?_append_left bound).trans at_
  have set (other : ℕ) (was now : Task) (is : s.tasks[other]? = some was)
      (channel : now.channel = was.channel) (call : now.call = was.call)
      (landed : was.landed = true → now.landed = true) : ∃ later,
        (s.tasks.set other now)[id]? = some later ∧ later.channel = task.channel ∧
          later.call = task.call ∧ (task.landed = true → later.landed = true) := by
    rcases eq_or_ne other id with rfl | apart
    · obtain rfl := Option.some.inj (at_.symm.trans is)
      exact ⟨now, List.getElem?_set_self bound, channel, call, landed⟩
    · exact ⟨task, (List.getElem?_set_ne apart).trans at_, rfl, rfl, fun landed => landed⟩
  cases step_did inv nofun stepped with
  | acts _ did cause acts does =>
      exact ⟨task, acted s did at_ bound, rfl, rfl, fun landed => landed⟩
  | polls _ stream held page feed polled goes reply noKey =>
      refine ⟨task, ?_, rfl, rfl, fun landed => landed⟩
      cases polled <;> exact at_
  | replies n feed held bound => exact ⟨task, at_, rfl, rfl, fun landed => landed⟩
  | posts room message newest => exact ⟨task, at_, rfl, rfl, fun landed => landed⟩
  | lands other was room message is sends fresh newest =>
      exact set other was _ is rfl rfl fun _ => rfl
  | finishes other was outcome answer is running answers =>
      exact set other was _ is rfl rfl fun landed => landed
  | takes id answer one did acts does =>
      exact ⟨task, acted s.freed did at_ bound, rfl, rfl, fun landed => landed⟩
  | opens id room screen n page _ got shows fits one =>
      exact ⟨task, at_, rfl, rfl, fun landed => landed⟩

/-- What is kept of the messages that calls have inserted. -/
structure Landed (s : Terminal Input) : Prop where
  inOrder : InOrder s
  landed : ∀ entry ∈ s.landed, ∃ task, s.tasks[entry.1]? = some task ∧ task.landed = true

/-- A step that inserts no message of a call. -/
theorem Landed.over (landed : Landed s) (grows : s.log <+: t.log) (same : t.landed = s.landed)
    (tasks : ∀ (id : ℕ) (task : Task), s.tasks[id]? = some task → ∃ later,
      t.tasks[id]? = some later ∧
      later.channel = task.channel ∧ later.call = task.call ∧
        (task.landed = true → later.landed = true)) : Landed t where
  inOrder := by
    refine ⟨?_, ?_, ?_⟩
    · rw [same]
      exact landed.inOrder.inserted.trans grows.sublist
    · intro id room message mem
      rw [same] at mem
      obtain ⟨task, at_, sends⟩ := landed.inOrder.submitted id room message mem
      obtain ⟨later, at_later, -, call, -⟩ := tasks id task at_
      exact ⟨later, at_later, call.trans sends⟩
    · rw [same]
      refine landed.inOrder.ascending.imp_of_mem ?_
      intro _ _ mem mem' before first second at_ at_' channel
      obtain ⟨one, at_one, -⟩ := landed.landed _ mem
      obtain ⟨two, at_two, -⟩ := landed.landed _ mem'
      obtain ⟨later, at_later, channel_one, -⟩ := tasks _ one at_one
      obtain ⟨later', at_later', channel_two, -⟩ := tasks _ two at_two
      obtain rfl := Option.some.inj (at_.symm.trans at_later)
      obtain rfl := Option.some.inj (at_'.symm.trans at_later')
      exact before one two at_one at_two (channel_one.symm.trans (channel.trans channel_two))
  landed := by
    intro entry mem
    rw [same] at mem
    obtain ⟨task, at_, landed⟩ := landed.landed entry mem
    obtain ⟨later, at_later, -, -, still⟩ := tasks entry.1 task at_
    exact ⟨later, at_later, still landed⟩

theorem acted_app (did : App Input × Option AppCall) : (s.acted did).app = did.1 := by
  obtain ⟨app, call⟩ := did
  cases call <;> rfl

theorem acted_log (did : App Input × Option AppCall) : (s.acted did).log = s.log := by
  obtain ⟨app, call⟩ := did
  cases call <;> rfl

theorem acted_landed (did : App Input × Option AppCall) : (s.acted did).landed = s.landed := by
  obtain ⟨app, call⟩ := did
  cases call <;> rfl

theorem acted_page (did : App Input × Option AppCall) : (s.acted did).page = s.page := by
  obtain ⟨app, call⟩ := did
  cases call <;> rfl

theorem polled_page (did : MessagesFeed × Polled) : (s.polled kit did).page = s.page := by
  obtain ⟨feed, polled⟩ := did
  cases polled <;> rfl

theorem polled_log (did : MessagesFeed × Polled) : (s.polled kit did).log = s.log := by
  obtain ⟨feed, polled⟩ := did
  cases polled <;> rfl

theorem polled_landed (did : MessagesFeed × Polled) : (s.polled kit did).landed = s.landed := by
  obtain ⟨feed, polled⟩ := did
  cases polled <;> rfl

/-- A message is inserted of a call that runs: it is the last one of its channel. -/
theorem Landed.inserted (landed : Landed s) (inv : Inv False s) {id : ℕ} {task : Task}
    {room : RoomId} {message : Message} (at_ : s.tasks[id]? = some task)
    (sends : task.call = .send room message.body)
    (fresh : task.landed = false) (running : task.running = true)
    (tasks : ∀ (other : ℕ) (was : Task), s.tasks[other]? = some was → ∃ later,
      (s.inserted id task room message).tasks[other]? = some later ∧
        later.channel = was.channel ∧ later.call = was.call ∧
          (was.landed = true → later.landed = true)) :
    Landed (s.inserted id task room message) := by
  have entries : Landed { s.inserted id task room message with landed := s.landed } :=
    landed.over (List.prefix_append _ _) rfl tasks
  have now : (s.inserted id task room message).tasks[id]? = some { task with landed := true } :=
    List.getElem?_set_self (List.getElem?_eq_some_iff.mp at_).1
  refine ⟨⟨?_, ?_, ?_⟩, ?_⟩
  · change ((s.landed ++ [(id, room, message)]).map Prod.snd).Sublist (s.log ++ [(room, message)])
    rw [List.map_append]
    exact landed.inOrder.inserted.append (List.Sublist.refl _)
  · intro other there posted mem
    rcases List.mem_append.mp mem with old | new
    · exact entries.inOrder.submitted other there posted old
    · cases List.mem_singleton.mp new
      exact ⟨_, now, sends⟩
  · -- the call is still running, so it is the last of its channel
    refine List.pairwise_append.mpr ⟨entries.inOrder.ascending, List.pairwise_singleton _ _, ?_⟩
    intro earlier mem later new first second at_first at_second channel
    cases List.mem_singleton.mp new
    obtain ⟨was, at_was, landed⟩ := landed.landed earlier mem
    obtain ⟨is, at_is, channel_is, -⟩ := tasks earlier.1 was at_was
    obtain rfl := Option.some.inj (at_first.symm.trans at_is)
    obtain rfl := Option.some.inj (at_second.symm.trans now)
    have before := inv.last id task at_ running earlier.1 was at_was (channel_is.symm.trans channel)
    refine lt_of_le_of_ne before ?_
    rintro rfl
    obtain rfl := Option.some.inj (at_was.symm.trans at_)
    rw [landed] at fresh
    cases fresh
  · intro entry mem
    rcases List.mem_append.mp mem with old | new
    · exact entries.landed entry old
    · rw [List.mem_singleton.mp new]
      exact ⟨_, now, rfl⟩

/-- **One step keeps the order.** Where a call has been answered the server is done with it, so the
next one can only land behind. -/
theorem landed_step (inv : Inv False s) (prompt : Prompt s event)
    (stepped : s.step kit event = some t)
    (landed : Landed s) : Landed t := by
  have tasks := fun (id : ℕ) (task : Task) (at_ : s.tasks[id]? = some task) =>
    tasks_step inv stepped at_
  cases step_did inv nofun stepped with
  | acts _ did cause acts does => exact landed.over (by simp [acted_log]) (acted_landed did) tasks
  | polls _ stream held page feed polled goes reply noKey =>
      exact landed.over (by simp [polled_log]) (polled_landed _) tasks
  | replies n feed held bound => exact landed.over List.prefix_rfl rfl tasks
  | posts room message newest => exact landed.over (List.prefix_append _ _) rfl tasks
  | lands id task room message at_ sends fresh newest =>
      have running : s.tasks[id]?.any Task.running = true := prompt
      rw [at_, Option.any_some] at running
      exact landed.inserted inv at_ sends fresh running tasks
  | finishes other was outcome answer is running answers =>
      exact landed.over List.prefix_rfl rfl tasks
  | takes id answer one did acts does => 
      exact landed.over (by simp [acted_log, freed]) (acted_landed did) tasks
  | opens id room screen n page _ got shows fits one => exact landed.over List.prefix_rfl rfl tasks

/-- **One call at a time**, in every state that a run leads to; and where the server is done with
each call before it is answered, what is sent during one sign-in is in the log in the order of
its submission. -/
theorem one_at_a_time {form : ConnectionForm} {events : List TerminalEvent}
    (ran : run (step kit) (launched kit form) events = some s) : OneAtATime kit s ∧
      (Along (step kit) Prompt (launched kit form) events → InOrder s) := by
  refine ⟨(run_inv ran).oneAtATime, fun prompt => ?_⟩
  have start : Inv False (launched kit form) ∧ Landed (launched kit form) :=
    ⟨inv_launched form, ⟨List.Sublist.refl _, nofun, List.Pairwise.nil⟩, nofun⟩
  have keeps : ∀ (s : Terminal Input) event t, Prompt s event → s.step kit event = some t →
      Inv False s ∧ Landed s → Inv False t ∧ Landed t := fun s event t prompt stepped both =>
    ⟨inv_step nofun stepped both.1, landed_step both.1 prompt stepped both.2⟩
  exact (run_invariant_along keeps prompt ran start).2.inOrder

namespace Sample

def typed (c : Char) : TerminalEvent := .key { code := .char c }

def enter : TerminalEvent := .key { code := .enter }

/-- Connecting, which leads to the sign-in screen. -/
def connecting : List TerminalEvent :=
  [enter, .finish 0 (.connected ⟨"http://localhost:8080", fun _ => none⟩), .answer]

/-- Two rooms, none with a message yet. -/
def twoRooms : List Room := [⟨⟨1⟩, "lobby", Seq.START⟩, ⟨⟨2⟩, "scion", Seq.START⟩]

/-- Logging in, which leads to the first room. -/
def entering : List TerminalEvent :=
  connecting ++ [enter, .finish 1 (.listed twoRooms), .answer, .finish 2 (.page 0), .answer]

/-- Two lines are sent, and while the first one is out nothing else is. -/
def talking : List TerminalEvent :=
  entering ++ [typed 'a', enter, typed 'b', enter, .land 3 ⟨⟨1⟩, "ada", "a", ⟨0⟩⟩, .finish 3 .done,
    enter, .answer, enter, .land 4 ⟨⟨2⟩, "ada", "b", ⟨0⟩⟩]

end Sample

/-- Both lines are stored, in the order in which they were typed. -/
theorem one_at_a_time_talking : ∃ s, run (step Toolkit.plain)
    (launched Toolkit.plain ConnectionForm.Sample.answered) Sample.talking = some s ∧
      s.landed = [(3, ⟨1⟩, ⟨⟨1⟩, "ada", "a", ⟨0⟩⟩), (4, ⟨1⟩, ⟨⟨2⟩, "ada", "b", ⟨0⟩⟩)] ∧
        OneAtATime Toolkit.plain s ∧ InOrder s := by
  obtain ⟨s, ran, landed⟩ : ∃ s, run (step Toolkit.plain)
      (launched Toolkit.plain ConnectionForm.Sample.answered) Sample.talking = some s ∧
        s.landed = [(3, ⟨1⟩, ⟨⟨1⟩, "ada", "a", ⟨0⟩⟩), (4, ⟨1⟩, ⟨⟨2⟩, "ada", "b", ⟨0⟩⟩)] :=
    ⟨_, rfl, rfl⟩
  have law := one_at_a_time ran
  exact ⟨s, ran, landed, law.1, law.2 (by decide +kernel)⟩

end Terminal

end ScionChat
