import ScionChat.Client.Feed
import ScionChat.Terminal.Chat
import ScionChat.Terminal.Connection

/-!
# The terminal client's loop

`app.rs`: which screen is showing, and every call to the chat client.  The loop acts on one event
at a time, a key, an answer, a batch of messages or a list of rooms, and it makes every call away
from itself, through `Background`, one at a time.

A function of `App` that may start a call gives it along with the app it leaves: `ask` is the only
one that does.

### design decisions

* **A call is a value that is given back.**  In the source `ask` spawns a task.  Here it returns
  the call, and a system around the app decides when it is answered; so a function of the loop
  stays a function, and which calls are out is a matter of runs.
* **The screens are cases.**  `Screen` has the three of them, each with its own record, and a key
  goes to the one that shows.  What the chat screen alone has, its streams, is kept beside it in
  `App`, as in the source.
* **Two inversions.**  `Acts` is what any function of the app can do to the calls, and `Does` what
  it can do to the pane.  Both are proved once for each function, and no invariant opens one again.

### What is load-bearing

`Sound`: a room of the sidebar is selected, a client is there once the connect screen has been
left, and only the chat screen has streams.  Without it an answer could reach a screen that has no
place for it.
-/

namespace ScionChat

/-! ### Calls and their answers -/

/-- A call that is made away from the loop.  Each of them is one call of the chat client, or a few
in a row. -/
inductive AppCall
  | connect (form : ConnectionForm)
  | register (username password : String)
  | logIn (username password : String)
  | openRoom (room : RoomId)
  | send (room : RoomId) (body : String)
  | createRoom (name : String)
  deriving DecidableEq, Repr

/-- What a call made away from the loop came back with.  It carries along what the loop needs to
know of the call, such as the body that was sent. -/
inductive Answer
  | connected (result : Except ChatError ChatClient)
  | registered (result : Except ChatError Unit)
  /-- With the feed on the rooms, and the first list it has delivered. -/
  | loggedIn (username : String) (result : Except ChatError (List Room))
  | roomOpened (result : Except ChatError MessagesFeed)
  | messageSent (body : String) (result : Except ChatError Unit)
  | roomCreated (result : Except ChatError Unit)

/-- The calls that run away from the loop, so it keeps drawing while one is out. -/
structure Background where
  /-- Which channel this is: another one is made each time a session ends. -/
  channel : ℕ
  /-- The answers that wait to be read, each with the number of the call it answers. -/
  answers : List (ℕ × Answer)
  /-- Whether a call the user asked for is still out. -/
  pending : Bool

namespace Background

/-- The most answers that may wait to be read. -/
def MAX_ANSWERS : ℕ := 8

/-- `Background::default`, with a channel of its own.  The channel of the sign-in before is another
one, and nobody reads it any more. -/
def default (channel : ℕ) : Background := ⟨channel, [], false⟩

/-- Starts a call, and answers whether it took it.  A call already out is refused. -/
def ask (background : Background) (call : AppCall) : Background × Option AppCall :=
  if background.pending then (background, none)
  else ({ background with pending := true }, some call)

end Background

/-! ### The app -/

/-- How the open room is kept up to date: it is re-read every second. -/
def terminalPoll : PollConfig := ⟨1000, 2000, 50⟩

/-- Which screen is showing. -/
inductive Screen (Input : Type)
  | connection (screen : Connection Input)
  | signIn (screen : SignIn Input)
  | chat (screen : Chat Input)

/-- A feed as a stream: where its `next` awaits, if one is in progress. -/
structure MessagesStream where
  feed : MessagesFeed
  awaits : Option Awaits

/-- The whole app: a screen, and the client once one has been built. -/
structure App (Input : Type) where
  screen : Screen Input
  client : Option ChatClient
  /-- The open room's messages. -/
  messages : Option MessagesStream
  /-- Whether the sidebar's stream is open. -/
  rooms : Bool
  /-- Whether opening the room failed. -/
  reopen : Bool
  background : Background
  exit : Bool

/-- Whether an error means that the session has ended. -/
def ChatError.gone : ChatError → Bool
  | sessionExpired | notLoggedIn => true
  | _ => false

namespace App

variable {Input : Type} (kit : Toolkit Input) (app : App Input)

/-- The app on its first screen, showing the form the command line filled in. -/
def new (form : ConnectionForm) : App Input where
  screen := .connection (.new kit form)
  client := none
  messages := none
  rooms := false
  reopen := false
  background := .default 0
  exit := false

/-! ### Calls -/

/-- A call that needs a client, which goes through `Background`.  Before there is a client nothing
is started, and nothing is said. -/
def ask (call : AppCall) : App Input × Option AppCall :=
  if app.client.isSome then
    let (background, started) := app.background.ask call
    ({ app with background := background }, started)
  else (app, none)

/-- Builds the client, then proves the server is there. -/
def connect (form : ConnectionForm) : App Input × Option AppCall :=
  let (background, started) := app.background.ask (.connect form)
  ({ app with background := background }, started)

/-- Creates the account.  Signing in follows when the answer comes back.  The screen keeps both
texts, since that call is made with what it holds then. -/
def register (username password : String) : App Input × Option AppCall :=
  app.ask (.register username password)

/-- Signs in and opens a feed on the rooms the server lists.  The first room of that list is opened
next. -/
def logIn (username password : String) : App Input × Option AppCall :=
  app.ask (.logIn username password)

/-- The room the sidebar has selected, on the chat screen. -/
def openedRoom : Option RoomId :=
  match app.screen with
  | .chat screen => screen.openRoom.map Room.id
  | _ => none

/-- Empties the pane of the chat screen.  Its notices go with the messages, and it shows no room as
watched. -/
def cleared : App Input :=
  match app.screen with
  | .chat screen => { app with screen := .chat screen.clear }
  | _ => app

/-- Watches the open room, dropping whatever was being watched before.  The pane is emptied only
once the call is under way. -/
def openRoom : App Input × Option AppCall :=
  match app.openedRoom with
  | none => (app, none)
  | some room =>
      -- asked for before the old room is let go, so a refusal leaves the pane filled
      match app.ask (.openRoom room) with
      | (app, none) => (app, none)
      | (app, some call) => ({ app.cleared with messages := none }, some call)

/-- Posts a message.  It goes to the room that is selected, which need not be the one that is
watched yet. -/
def send (body : String) : App Input × Option AppCall :=
  match app.openedRoom with
  | none => (app, none)
  | some room => app.ask (.send room body)

/-- Creates a room and lets the sidebar pick it up. -/
def createRoom (name : String) : App Input × Option AppCall :=
  app.ask (.createRoom name)

/-! ### Failures -/

/-- Sends an ended session back to signing in, and says whether it did.  The streams are dropped
and a new channel is opened, so that nothing of the old session comes back. -/
def signedOut (error : ChatError) : Option (App Input) :=
  match error.gone, app.screen with
  | true, .signIn _ | true, .chat _ =>
      some { app with
        screen := .signIn { SignIn.default kit with error := some error.display }
        messages := none
        rooms := false
        reopen := false
        background := .default (app.background.channel + 1) }
  | _, _ => none

/-- The failure, on the screen the user is on. -/
def reported (message : String) : Screen Input :=
  match app.screen with
  | .connection screen => .connection { screen with error := some message }
  | .signIn screen => .signIn { screen with error := some message }
  | .chat screen => .chat { screen with error := some message }

/-- Shows the failure on the screen the user is on, and sends an ended session back to signing
in. -/
def failed (error : ChatError) : App Input :=
  match app.signedOut kit error with
  | some app => app
  | none => { app with screen := app.reported error.display }

/-- Shows why a call the user asked for failed.  On the chat screen it is a notice in the pane, and
elsewhere the error that the screen shows. -/
def refused (error : ChatError) : App Input :=
  match app.signedOut kit error with
  | some app => app
  | none =>
      match app.screen with
      | .chat screen => { app with screen := .chat (screen.warn error.display) }
      | _ => { app with screen := app.reported error.display }

/-! ### Events -/

/-- Whether a key ends the app. -/
def quits (key : KeyEvent) : Bool :=
  key.code = .esc || (key.code = .char 'c' && key.control)

/-- What a key does. -/
def handleKey (key : KeyEvent) : App Input × Option AppCall :=
  if quits key then ({ app with exit := true }, none)
  else
    let pending := app.background.pending
    match app.screen with
    | .connection screen =>
        let (screen, form) := screen.handleKey kit key pending
        let app := { app with screen := .connection screen }
        match form with
        | none => (app, none)
        | some form => app.connect form
    | .signIn screen =>
        let (screen, intent) := screen.handleKey kit key pending
        let app := { app with screen := .signIn screen }
        match intent with
        | none => (app, none)
        | some .register => app.register (screen.credentials kit).1 (screen.credentials kit).2
        | some .logIn => app.logIn (screen.credentials kit).1 (screen.credentials kit).2
    | .chat screen =>
        let (screen, intent) := screen.handleKey kit key pending
        let app := { app with screen := .chat screen }
        match intent with
        | none => (app, none)
        | some (.send body) => app.send body
        | some (.create name) => app.createRoom name
        | some .open_ => app.openRoom

/-- Shows what the sidebar's stream delivered, or reports why it could not. -/
def applyRooms : Except ChatError (List Room) → App Input × Option AppCall
  | .error error => (app.failed kit error, none)
  | .ok rooms =>
      let shown := match app.screen with
        | .chat screen => { app with screen := .chat { screen.showRooms rooms with error := none } }
        | _ => app
      if shown.reopen then shown.openRoom else (shown, none)

/-- Appends what the open room's stream delivered, or reports why it could not. -/
def applyMessages : Except ChatError (List Message) → App Input
  | .error error => app.failed kit error
  | .ok messages =>
      match app.screen with
      | .chat screen => { app with screen := .chat { screen.append messages with error := none } }
      | _ => app

/-- The pane records which room a feed is now watching.  From then on a batch is one of that
room. -/
def watching (room : RoomId) : App Input :=
  match app.screen with
  | .chat screen => { app with screen := .chat (screen.watching room) }
  | _ => app

/-- The composer gets back what was not delivered.  Whatever was typed in the meantime is
replaced. -/
def restored (body : String) : App Input :=
  match app.screen with
  | .chat screen => { app with screen := .chat (screen.restore kit body) }
  | _ => app

/-- Acts on a call that came back, and starts the next one where a call leads to another. -/
def answer (answer : Answer) : App Input × Option AppCall :=
  let app := { app with background := { app.background with pending := false } }
  match answer with
  | .connected (.ok client) =>
      ({ app with client := some client, screen := .signIn (.default kit) }, none)
  -- read from the screen: a password is not something to put on a queue
  | .registered (.ok ()) =>
      match app.screen with
      | .signIn screen => app.logIn (screen.credentials kit).1 (screen.credentials kit).2
      | _ => (app, none)
  | .loggedIn username (.ok listed) =>
      { app with rooms := true, screen := .chat (.new kit listed username) }.openRoom
  | .roomOpened (.ok feed) =>
      ({ { app with reopen := false }.watching feed.room with messages := some ⟨feed, none⟩ }, none)
  | .messageSent body (.error error) => ((app.restored kit body).refused kit error, none)
  | .roomCreated (.ok ()) => (app, none)
  | .messageSent _ (.ok ()) => (app, none)
  | .roomOpened (.error error) => ({ app with reopen := true }.refused kit error, none)
  | .connected (.error error) | .registered (.error error) | .loggedIn _ (.error error)
  | .roomCreated (.error error) => (app.refused kit error, none)

/-! ### What each function does to the calls -/

variable {kit app}

/-- **What a function of the app can do to the calls**: leave them alone; start one, while none is
pending; or end the session, and with it the channel that calls are answered through. -/
inductive Acts (before : App Input) : App Input × Option AppCall → Prop
  | quiet (after : App Input) (same : after.background = before.background) :
      Acts before (after, none)
  | starts (after : App Input) (call : AppCall) (idle : before.background.pending = false)
      (busy : after.background = { before.background with pending := true }) :
      Acts before (after, some call)
  | ends (after : App Input)
      (other : after.background = .default (before.background.channel + 1)) :
      Acts before (after, none)

/-- What is done over another screen, over the same calls. -/
theorem Acts.over {before changed : App Input} {did : App Input × Option AppCall}
    (acts : Acts changed did) (same : changed.background = before.background) :
    Acts before did := by
  cases acts with
  | quiet after quiet => exact .quiet after (quiet.trans same)
  | starts after call idle busy => exact .starts after call (same ▸ idle) (same ▸ busy)
  | ends after other => exact .ends after (same ▸ other)

/-- **What asking can do**: the call is refused, and nothing changes, or it is started.  It is
refused while another one is pending, and before there is a client. -/
theorem ask_cases (app : App Input) (call : AppCall) :
    app.ask call = (app, none) ∨ app.background.pending = false ∧ app.ask call
      = ({ app with background := { app.background with pending := true } }, some call) := by
  unfold ask Background.ask
  split
  · cases pending : app.background.pending with
    | true => exact Or.inl rfl
    | false => exact Or.inr ⟨rfl, rfl⟩
  · exact Or.inl rfl

theorem ask_acts (app : App Input) (call : AppCall) : Acts app (app.ask call) := by
  rcases ask_cases app call with refused | ⟨idle, started⟩
  · rw [refused]
    exact .quiet app rfl
  · rw [started]
    exact .starts _ call idle rfl

/-- Connecting needs no client. -/
theorem connect_cases (app : App Input) (form : ConnectionForm) :
    app.connect form = (app, none) ∨ app.background.pending = false ∧ app.connect form
      = ({ app with background := { app.background with pending := true } },
        some (.connect form)) := by
  unfold connect Background.ask
  cases pending : app.background.pending with
  | true => exact Or.inl rfl
  | false => exact Or.inr ⟨rfl, rfl⟩

theorem connect_acts (app : App Input) (form : ConnectionForm) : Acts app (app.connect form) := by
  rcases connect_cases app form with refused | ⟨idle, started⟩
  · rw [refused]
    exact .quiet app rfl
  · rw [started]
    exact .starts _ _ idle rfl

theorem cleared_background (app : App Input) : app.cleared.background = app.background := by
  unfold cleared
  split <;> rfl

theorem openRoom_acts (app : App Input) : Acts app app.openRoom := by
  unfold openRoom
  split
  · exact .quiet app rfl
  · rename_i room _
    have asked := app.ask_acts (.openRoom room)
    split
    · rename_i after refused
      rw [refused] at asked
      exact asked
    · rename_i after call started
      rw [started] at asked
      cases asked with
      | starts _ _ idle busy => exact .starts _ _ idle ((cleared_background after).trans busy)

theorem send_acts (app : App Input) (body : String) : Acts app (app.send body) := by
  unfold send
  split
  · exact .quiet app rfl
  · exact app.ask_acts _

theorem failed_acts (app : App Input) (error : ChatError) :
    Acts app (app.failed kit error, none) := by
  unfold failed signedOut
  split
  · rename_i ended
    split at ended
    · cases ended
      exact .ends _ rfl
    · cases ended
      exact .ends _ rfl
    · cases ended
  · exact .quiet _ rfl

theorem refused_acts (app : App Input) (error : ChatError) :
    Acts app (app.refused kit error, none) := by
  unfold refused signedOut
  split
  · rename_i ended
    split at ended
    · cases ended
      exact .ends _ rfl
    · cases ended
      exact .ends _ rfl
    · cases ended
  · split <;> exact .quiet _ rfl

variable (kit) in
theorem handleKey_acts (app : App Input) (key : KeyEvent) : Acts app (app.handleKey kit key) := by
  unfold handleKey
  split
  · exact .quiet _ rfl
  · dsimp only
    split
    · split
      · exact .quiet _ rfl
      · exact (connect_acts _ _).over rfl
    · split
      · exact .quiet _ rfl
      · exact (ask_acts _ _).over rfl
      · exact (ask_acts _ _).over rfl
    · split
      · exact .quiet _ rfl
      · exact (send_acts _ _).over rfl
      · exact (ask_acts _ _).over rfl
      · exact (openRoom_acts _).over rfl

theorem applyRooms_acts (app : App Input) (list : Except ChatError (List Room)) :
    Acts app (app.applyRooms kit list) := by
  unfold applyRooms
  split
  · exact failed_acts app _
  · dsimp only
    split
    · split
      · exact (openRoom_acts _).over rfl
      · exact .quiet _ rfl
    · split
      · exact openRoom_acts _
      · exact .quiet _ rfl

theorem applyMessages_acts (app : App Input) (batch : Except ChatError (List Message)) :
    Acts app (app.applyMessages kit batch, none) := by
  unfold applyMessages
  split
  · exact failed_acts app _
  · split <;> exact .quiet _ rfl

theorem answer_acts (app : App Input) (answer : Answer) :
    Acts { app with background := { app.background with pending := false } }
      (app.answer kit answer) := by
  unfold App.answer
  dsimp only
  split
  · exact .quiet _ rfl
  · split
    · exact ask_acts _ _
    · exact .quiet _ rfl
  · exact (openRoom_acts _).over rfl
  · refine .quiet _ ?_
    unfold watching
    split <;> rfl
  · refine (refused_acts _ _).over ?_
    unfold restored
    split <;> rfl
  · exact .quiet _ rfl
  · exact .quiet _ rfl
  · exact (refused_acts _ _).over rfl
  all_goals exact refused_acts _ _

/-! ### What each function does to the pane -/

end App

/-- The pane shows the same messages, and, where rooms once listed are `kept` in the sidebar, the
same room. -/
structure Chat.SamePane {Input : Type} (kept : Prop) (before after : Chat Input) : Prop where
  selected : before.Selected → after.Selected
  openRoom : kept → after.openRoom.map Room.id = before.openRoom.map Room.id
  messages : after.messages = before.messages
  watched : after.watched = before.watched

section

variable {kept : Prop}

theorem Chat.SamePane.refl {Input : Type} (screen : Chat Input) : screen.SamePane kept screen :=
  ⟨id, fun _ => rfl, rfl, rfl⟩

theorem Chat.SamePane.trans {Input : Type} {first second third : Chat Input}
    (one : first.SamePane kept second) (two : second.SamePane kept third) :
    first.SamePane kept third where
  selected := two.selected ∘ one.selected
  openRoom listed := (two.openRoom listed).trans (one.openRoom listed)
  messages := two.messages.trans one.messages
  watched := two.watched.trans one.watched

theorem Chat.Edits.samePane {Input : Type} {kit : Toolkit Input} {screen : Chat Input}
    {pending : Bool} {did : Chat Input × Option Chat.Intent}
    (edits : Chat.Edits kit screen pending did) : screen.SamePane kept did.1 := by
  obtain ⟨⟨input, notices, scroll, revision, same⟩, -⟩ := edits
  rw [same]
  exact ⟨id, fun _ => rfl, rfl, rfl⟩

end

/-- The same screen shows, and, if it is the chat, the same pane. -/
inductive Screen.Same {Input : Type} (kept : Prop) : Screen Input → Screen Input → Prop
  | connection (before after : Connection Input) :
      Same kept (.connection before) (.connection after)
  | signIn (before after : SignIn Input) : Same kept (.signIn before) (.signIn after)
  | chat (before after : Chat Input) (same : before.SamePane kept after) :
      Same kept (.chat before) (.chat after)

namespace Screen.Same

variable {Input : Type} {kept : Prop} {before after first second third : Screen Input}

theorem refl (screen : Screen Input) : screen.Same kept screen := by
  cases screen with
  | connection screen => exact .connection screen screen
  | signIn screen => exact .signIn screen screen
  | chat screen => exact .chat screen screen (.refl screen)

theorem trans (one : first.Same kept second) (two : second.Same kept third) :
    first.Same kept third := by
  cases one with
  | connection first second =>
      cases two with
      | connection second third => exact .connection first third
  | signIn first second =>
      cases two with
      | signIn second third => exact .signIn first third
  | chat first second one =>
      cases two with
      | chat second third two => exact .chat first third (one.trans two)

/-- The chat screen shows after as before. -/
theorem chat_left (same : before.Same kept after) {screen : Chat Input}
    (at_ : after = .chat screen) :
    ∃ shown, before = .chat shown ∧ shown.SamePane kept screen := by
  cases same with
  | connection before after => cases at_
  | signIn before after => cases at_
  | chat shown _ pane =>
      cases at_
      exact ⟨shown, rfl, pane⟩

/-- The chat screen shows before as after. -/
theorem chat_right (same : before.Same kept after) {screen : Chat Input}
    (at_ : before = .chat screen) :
    ∃ shown, after = .chat shown ∧ screen.SamePane kept shown := by
  cases same with
  | connection before after => cases at_
  | signIn before after => cases at_
  | chat _ shown pane =>
      cases at_
      exact ⟨shown, rfl, pane⟩

theorem signIn_right (same : before.Same kept after) {screen : SignIn Input}
    (at_ : before = .signIn screen) : ∃ shown, after = .signIn shown := by
  cases same with
  | connection before after => cases at_
  | signIn before after => exact ⟨after, rfl⟩
  | chat before after pane => cases at_

theorem connection_right (same : before.Same kept after) {screen : Connection Input}
    (at_ : before = .connection screen) : ∃ shown, after = .connection shown := by
  cases same with
  | connection before after => exact ⟨after, rfl⟩
  | signIn before after => cases at_
  | chat before after pane => cases at_

end Screen.Same

namespace App

variable {Input : Type} {kit : Toolkit Input} {kept : Prop} {app before after : App Input}

/-- **The app is in order**: there is a client once the connect screen has been left, a room of
the sidebar is selected, and only the chat screen has streams. -/
structure Sound (app : App Input) : Prop where
  client : app.client.isSome ∨ ∃ screen, app.screen = .connection screen
  selected : ∀ screen, app.screen = .chat screen → screen.Selected
  away : (∀ screen, app.screen ≠ .chat screen) → app.messages = none ∧ app.rooms = false

/-- There is a client once the connect screen has been left. -/
theorem Sound.built (sound : app.Sound) (left : ∀ screen, app.screen ≠ .connection screen) :
    app.client.isSome := by
  rcases sound.client with built | ⟨screen, at_⟩
  · exact built
  · exact absurd at_ (left screen)

/-- A call that is out fits what shows: it was asked for on this screen, and a room that is
being opened is the selected one, with an empty pane and nothing watched. -/
def Fits (kept : Prop) (app : App Input) : AppCall → Prop
  | .connect _ => ∃ screen, app.screen = .connection screen
  | .register _ _ | .logIn _ _ => ∃ screen, app.screen = .signIn screen
  | .openRoom room => app.messages = none ∧ ∃ screen, app.screen = .chat screen ∧
      (kept → screen.openRoom.map Room.id = some room) ∧ screen.messages = [] ∧
        screen.watched = none
  | .send _ _ | .createRoom _ => ∃ screen, app.screen = .chat screen

/-- The screen, the streams and the client are what they were. -/
structure Keeps (kept : Prop) (before after : App Input) : Prop where
  screen : before.screen.Same kept after.screen
  messages : after.messages = before.messages
  rooms : after.rooms = before.rooms
  client : after.client = before.client

/-- The session has ended, and the user is back at signing in. -/
structure Ends (before after : App Input) : Prop where
  screen : ∃ screen, after.screen = .signIn screen
  messages : after.messages = none
  rooms : after.rooms = false
  client : after.client = before.client
  idle : after.background.pending = false
  /-- It has not ended on the connect screen. -/
  connected : ∀ screen, before.screen ≠ .connection screen

/-- **What a function of the app can do to the pane**, and what it starts. -/
inductive Does (kept : Prop) (before : App Input) : App Input × Option AppCall → Prop
  | keeps (after : App Input) (started : Option AppCall) (same : Keeps kept before after)
      (fits : ∀ call ∈ started, after.Fits kept call) : Does kept before (after, started)
  | opens (after : App Input) (room : RoomId) (fits : after.Fits kept (.openRoom room))
      (sound : after.Sound) : Does kept before (after, some (.openRoom room))
  | signIn (after : App Input) (shows : ∃ screen, after.screen = .signIn screen)
      (idle : after.background.pending = false) (sound : before.Sound → after.Sound) :
      Does kept before (after, none)

theorem Keeps.refl (app : App Input) : Keeps kept app app :=
  ⟨.refl _, rfl, rfl, rfl⟩

theorem Keeps.fits (same : Keeps kept before after) {call : AppCall}
    (fits : before.Fits kept call) :
    after.Fits kept call := by
  cases call with
  | connect form => exact same.screen.connection_right fits.choose_spec
  | register username password => exact same.screen.signIn_right fits.choose_spec
  | logIn username password => exact same.screen.signIn_right fits.choose_spec
  | openRoom room =>
      obtain ⟨none, screen, at_, open_, messages, watched⟩ := fits
      obtain ⟨shown, shows, pane⟩ := same.screen.chat_right at_
      exact ⟨same.messages.trans none, shown, shows,
        fun listed => (pane.openRoom listed).trans (open_ listed), pane.messages.trans messages,
          pane.watched.trans watched⟩
  | send room body =>
      obtain ⟨shown, shows, -⟩ := same.screen.chat_right fits.choose_spec
      exact ⟨shown, shows⟩
  | createRoom name =>
      obtain ⟨shown, shows, -⟩ := same.screen.chat_right fits.choose_spec
      exact ⟨shown, shows⟩

theorem Keeps.sound (same : Keeps kept before after) (sound : before.Sound) : after.Sound where
  client := by
    rcases sound.client with built | ⟨screen, at_⟩
    · exact Or.inl (same.client ▸ built)
    · exact Or.inr (same.screen.connection_right at_)
  selected := by
    intro screen at_
    obtain ⟨shown, shows, pane⟩ := same.screen.chat_left at_
    exact pane.selected (sound.selected shown shows)
  away := by
    intro elsewhere
    rw [same.messages, same.rooms]
    refine sound.away fun screen at_ => ?_
    obtain ⟨shown, shows, -⟩ := same.screen.chat_right at_
    exact elsewhere shown shows

theorem Ends.sound (ends : Ends before after) (sound : before.Sound) : after.Sound where
  client := by
    rw [ends.client]
    exact Or.inl (sound.built ends.connected)
  selected := by
    intro screen at_
    obtain ⟨shown, shows⟩ := ends.screen
    rw [shows] at at_
    cases at_
  away := fun _ => ⟨ends.messages, ends.rooms⟩

theorem Ends.does (ends : Ends before after) : Does kept before (after, none) :=
  .signIn after ends.screen ends.idle ends.sound

/-- **Whatever a function does, the app stays in order.** Being in order is a matter of the screen,
the streams and the client, and each case of `Does` says what becomes of them. -/
theorem Does.sound {did : App Input × Option AppCall} (does : Does kept before did)
    (sound : before.Sound) : did.1.Sound := by
  cases does with
  | keeps after started same fits => exact same.sound sound
  | opens after room fits opened => exact opened
  | signIn after shows idle still => exact still sound

/-- A call that has just been started fits what shows. -/
theorem Does.fits {did : App Input × Option AppCall} (does : Does kept before did) :
    ∀ call ∈ did.2, did.1.Fits kept call := by
  cases does with
  | keeps after started same fits => exact fits
  | opens after room fits opened =>
      rintro call ⟨⟩
      exact fits
  | signIn after shows idle still => exact fun _ none => by cases none

/-- What is done after a change that leaves the pane alone. -/
theorem Does.over {changed : App Input} {did : App Input × Option AppCall}
    (does : Does kept changed did) (same : Keeps kept before changed) : Does kept before did := by
  cases does with
  | keeps after started kept fits =>
      refine .keeps after started ⟨same.screen.trans kept.screen, ?_, ?_, ?_⟩ fits
      · exact kept.messages.trans same.messages
      · exact kept.rooms.trans same.rooms
      · exact kept.client.trans same.client
  | opens after room fits opened => exact .opens after room fits opened
  | signIn after shows idle still =>
      exact .signIn after shows idle fun sound => still (same.sound sound)

/-- A call that is started leaves the pane alone. -/
theorem starts_does {call : AppCall} (fits : app.Fits kept call) : Does kept app
    ({ app with background := { app.background with pending := true } }, some call) := by
  have same : Keeps kept app { app with background := { app.background with pending := true } } :=
    ⟨.refl _, rfl, rfl, rfl⟩
  refine .keeps _ _ same fun other mem => ?_
  obtain rfl := Option.some.inj mem
  exact same.fits fits

theorem ask_does {call : AppCall} (fits : app.Fits kept call) : Does kept app (app.ask call) := by
  rcases ask_cases app call with refused | ⟨-, started⟩
  · rw [refused]
    exact .keeps _ _ (.refl app) nofun
  · rw [started]
    exact starts_does fits

theorem connect_does {screen : Connection Input} (at_ : app.screen = .connection screen)
    (form : ConnectionForm) : Does kept app (app.connect form) := by
  rcases connect_cases app form with refused | ⟨-, started⟩
  · rw [refused]
    exact .keeps _ _ (.refl app) nofun
  · rw [started]
    exact starts_does ⟨screen, at_⟩

/-- `ask` takes a call while none is pending. -/
theorem ask_of_idle (built : app.client.isSome) (idle : app.background.pending = false)
    (call : AppCall) : app.ask call
      = ({ app with background := { app.background with pending := true } }, some call) := by
  simp only [ask, built, if_true, Background.ask, idle, Bool.false_eq_true, if_false]

theorem openedRoom_of_chat {screen : Chat Input} (at_ : app.screen = .chat screen) :
    app.openedRoom = screen.openRoom.map Room.id := by
  rw [openedRoom, at_]

/-- **Opening the selected room**, with no call pending: its pane is emptied, and the call started.
The stream of the room before is dropped in the same step. -/
theorem openRoom_of_idle {screen : Chat Input} (at_ : app.screen = .chat screen)
    (selected : screen.Selected) (built : app.client.isSome)
    (idle : app.background.pending = false) :
    ∃ room, screen.openRoom.map Room.id = some room ∧ app.openRoom
      = ({ app with
            screen := .chat screen.clear
            background := { app.background with pending := true }
            messages := none }, some (.openRoom room)) := by
  obtain ⟨room, open_⟩ := selected.openRoom
  refine ⟨room.id, by rw [open_, Option.map_some], ?_⟩
  unfold openRoom
  rw [openedRoom_of_chat at_, open_, Option.map_some]
  simp only [ask_of_idle built idle, cleared, at_]

theorem openRoom_opens {screen : Chat Input} (at_ : app.screen = .chat screen)
    (selected : screen.Selected) (built : app.client.isSome)
    (idle : app.background.pending = false) : Does kept before app.openRoom := by
  obtain ⟨room, open_, opened⟩ := openRoom_of_idle at_ selected built idle
  rw [opened]
  refine .opens _ room ⟨rfl, screen.clear, rfl, fun _ => open_, rfl, rfl⟩ ⟨Or.inl built, ?_, ?_⟩
  · rintro shown ⟨⟩
    exact selected
  · exact fun elsewhere => absurd rfl (elsewhere screen.clear)

/-- **Opening the selected room**, whatever is pending: a refusal leaves the pane as it is.  The
source asks before it lets the old room go, so that a refusal does not empty the pane. -/
theorem openRoom_does (sound : app.Sound) : Does kept app app.openRoom := by
  cases at_ : app.screen with
  | chat screen =>
      have built := sound.built (by rw [at_]; nofun)
      cases pending : app.background.pending with
      | false => exact openRoom_opens at_ (sound.selected screen at_) built pending
      | true =>
          have refused (room : RoomId) : app.ask (.openRoom room) = (app, none) := by
            rcases ask_cases app (.openRoom room) with refused | ⟨idle, -⟩
            · exact refused
            · rw [pending] at idle
              cases idle
          simp only [openRoom, openedRoom_of_chat at_, refused]
          split <;> exact .keeps _ _ (.refl app) nofun
  | connection screen =>
      simp only [openRoom, openedRoom, at_]
      exact .keeps _ _ (.refl app) nofun
  | signIn screen =>
      simp only [openRoom, openedRoom, at_]
      exact .keeps _ _ (.refl app) nofun

theorem send_does {screen : Chat Input} (at_ : app.screen = .chat screen) (body : String) :
    Does kept app (app.send body) := by
  unfold send
  split
  · exact .keeps _ _ (.refl app) nofun
  · exact ask_does ⟨screen, at_⟩

/-- The session has ended, or the failure is only shown. -/
theorem signedOut_ends (error : ChatError) {ended : App Input}
    (out : app.signedOut kit error = some ended) : Ends app ended := by
  unfold signedOut at out
  split at out
  · rename_i at_
    cases out
    exact ⟨⟨_, rfl⟩, rfl, rfl, rfl, rfl, fun screen no => by rw [at_] at no; cases no⟩
  · rename_i at_
    cases out
    exact ⟨⟨_, rfl⟩, rfl, rfl, rfl, rfl, fun screen no => by rw [at_] at no; cases no⟩
  · cases out

theorem reported_same (app : App Input) (message : String) :
    app.screen.Same kept (app.reported message) := by
  unfold reported
  split
  · rename_i screen at_
    rw [at_]
    exact .connection screen _
  · rename_i screen at_
    rw [at_]
    exact .signIn screen _
  · rename_i screen at_
    rw [at_]
    exact .chat screen _ ⟨id, fun _ => rfl, rfl, rfl⟩

theorem failed_does (app : App Input) (error : ChatError) :
    Does kept app (app.failed kit error, none) := by
  unfold failed
  split
  · rename_i ended out
    exact (signedOut_ends error out).does
  · exact .keeps _ _ ⟨reported_same app _, rfl, rfl, rfl⟩ nofun

theorem refused_does (app : App Input) (error : ChatError) :
    Does kept app (app.refused kit error, none) := by
  unfold refused
  split
  · rename_i ended out
    exact (signedOut_ends error out).does
  · split
    · rename_i screen at_
      refine .keeps _ _ ⟨?_, rfl, rfl, rfl⟩ nofun
      rw [at_]
      exact .chat screen _ ⟨id, fun _ => rfl, rfl, rfl⟩
    · exact .keeps _ _ ⟨reported_same app _, rfl, rfl, rfl⟩ nofun

/-- The chat screen with another pane that shows the same. -/
theorem keeps_chat {screen shown : Chat Input} (at_ : app.screen = .chat screen)
    (same : screen.SamePane kept shown) : Keeps kept app { app with screen := .chat shown } := by
  refine ⟨?_, rfl, rfl, rfl⟩
  rw [at_]
  exact .chat screen shown same

/-- **A key moves to another room, or leaves the pane alone.** Typing, scrolling and notices are on
the screen, and not in the pane's messages. -/
theorem handleKey_does (sound : app.Sound) (key : KeyEvent) :
    Does kept app (app.handleKey kit key) := by
  unfold handleKey
  split
  · exact .keeps _ _ ⟨.refl _, rfl, rfl, rfl⟩ nofun
  · dsimp only
    split
    · rename_i screen at_
      have same : Keeps kept app { app with
          screen := .connection (screen.handleKey kit key app.background.pending).1 } :=
        ⟨by rw [at_]; exact .connection _ _, rfl, rfl, rfl⟩
      split
      · exact .keeps _ _ same nofun
      · exact (connect_does rfl _).over same
    · rename_i screen at_
      have same : Keeps kept app { app with
          screen := .signIn (screen.handleKey kit key app.background.pending).1 } :=
        ⟨by rw [at_]; exact .signIn _ _, rfl, rfl, rfl⟩
      split
      · exact .keeps _ _ same nofun
      · refine Does.over ?_ same
        exact ask_does ⟨_, rfl⟩
      · refine Does.over ?_ same
        exact ask_does ⟨_, rfl⟩
    · rename_i screen at_
      -- a key of the chat screen edits what is typed, or moves to another room
      rcases Chat.handleKey_cases kit screen key app.background.pending with edits | moves
      · have pane : screen.SamePane kept _ := edits.samePane
        have same := keeps_chat at_ pane
        obtain ⟨-, none | ⟨-, send | create⟩⟩ := edits
        · rw [none]
          exact .keeps _ _ same nofun
        · rw [send]
          exact (send_does rfl _).over same
        · rw [create]
          refine Does.over ?_ same
          exact ask_does ⟨_, rfl⟩
      · have selected := moves.selected (sound.selected screen at_)
        have built := sound.built (by rw [at_]; nofun)
        obtain ⟨idle, index, bound, did⟩ := moves
        rw [did] at selected ⊢
        exact openRoom_opens rfl selected built idle

/-- **A list of rooms leaves the pane alone**, unless the open room has to be opened again.  It has
to be where opening it has failed before, which `reopen` remembers. -/
theorem applyRooms_does (sound : app.Sound) (list : Except ChatError (List Room))
    (some_ : ∀ rooms, list = .ok rooms → rooms ≠ [])
    (grown : kept → ∀ screen rooms, app.screen = .chat screen → list = .ok rooms →
      Chat.Grown screen.rooms rooms) :
    Does kept app (app.applyRooms kit list) := by
  cases list with
  | error error => exact failed_does app error
  | ok rooms =>
      simp only [applyRooms]
      split
      · rename_i screen at_
        obtain ⟨room, open_⟩ := (sound.selected screen at_).openRoom
        -- the open room is listed again, and stays the selected one
        have pane : screen.SamePane kept { screen.showRooms rooms with error := none } := by
          refine ⟨fun _ => Chat.showRooms_selected (some_ rooms rfl), fun all => ?_, rfl, rfl⟩
          rw [open_]
          exact Chat.showRooms_openRoom open_ (grown all screen rooms at_ rfl room
            (Chat.mem_of_openRoom open_))
        have same := keeps_chat at_ pane
        split
        · exact (openRoom_does (same.sound sound)).over same
        · exact .keeps _ _ same nofun
      · split
        · exact openRoom_does sound
        · exact .keeps _ _ (.refl app) nofun

/-- A batch that could not be had, or one that comes where no chat shows. -/
theorem applyMessages_does (app : App Input) (error : ChatError) :
    Does kept app (app.applyMessages kit (.error error), none) :=
  failed_does app error

variable (kit) in
theorem applyMessages_of_chat {screen : Chat Input} (at_ : app.screen = .chat screen)
    (messages : List Message) : app.applyMessages kit (.ok messages)
      = { app with screen := .chat { screen.append messages with error := none } } := by
  simp only [applyMessages, at_]

/-- **An answer that is not a feed** leaves the pane alone, unless it opens a room, or leads to
the sign-in screen. -/
theorem answer_does (sound : app.Sound) {answer : Answer}
    (other : ∀ feed, answer ≠ .roomOpened (.ok feed))
    (connects : ∀ result, answer = .connected result → ∃ screen, app.screen = .connection screen)
    (signsIn : ∀ username rooms, answer = .loggedIn username (.ok rooms) →
      rooms ≠ [] ∧ ∃ screen, app.screen = .signIn screen) :
    Does kept app (app.answer kit answer) := by
  have same : Keeps kept app { app with background := { app.background with pending := false } } :=
    ⟨.refl _, rfl, rfl, rfl⟩
  unfold App.answer
  dsimp only
  split
  · -- connected, which leads to the sign-in screen
    rename_i client
    obtain ⟨screen, at_⟩ := connects _ rfl
    refine .signIn _ ⟨_, rfl⟩ rfl fun sound => ⟨Or.inl rfl, nofun, fun _ => sound.away ?_⟩
    intro shown no
    rw [at_] at no
    cases no
  · -- registered, and the login follows
    split
    · rename_i screen at_
      refine Does.over ?_ same
      exact ask_does ⟨screen, at_⟩
    · exact .keeps _ _ same nofun
  · -- logged in, and the first room is opened
    rename_i username rooms
    obtain ⟨some_, screen, at_⟩ := signsIn _ _ rfl
    have built := sound.built (by rw [at_]; nofun)
    exact openRoom_opens rfl (Chat.selected_new some_ username) built rfl
  · rename_i feed
    exact absurd rfl (other feed)
  · -- a line that was refused is put back, which leaves the pane alone
    rename_i body error
    refine (refused_does _ error).over ?_
    unfold restored
    dsimp only
    split
    · rename_i screen at_
      refine ⟨?_, rfl, rfl, rfl⟩
      rw [at_]
      exact .chat screen _ ⟨id, fun _ => rfl, rfl, rfl⟩
    · exact same
  · exact .keeps _ _ same nofun
  · exact .keeps _ _ same nofun
  · exact (refused_does _ _).over ⟨.refl _, rfl, rfl, rfl⟩
  all_goals exact (refused_does _ _).over same

/-- **The feed of the room that was to be opened** is watched.  The pane was emptied when the call
was started, so its first batch is the first thing in it. -/
theorem answer_roomOpened {feed : MessagesFeed} {screen : Chat Input}
    (at_ : app.screen = .chat screen) :
    app.answer kit (.roomOpened (.ok feed)) = ({ app with
      screen := .chat (screen.watching feed.room)
      messages := some ⟨feed, none⟩
      reopen := false
      background := { app.background with pending := false } }, none) := by
  simp only [App.answer, watching, at_]

/-! ### While the open room is watched -/

/-- Only the chat screen has a stream. -/
theorem Sound.shows_chat (sound : app.Sound) {stream : MessagesStream}
    (held : app.messages = some stream) : ∃ screen, app.screen = .chat screen := by
  cases at_ : app.screen with
  | chat screen => exact ⟨screen, rfl⟩
  | connection screen =>
      have gone := (sound.away fun shown no => by rw [at_] at no; cases no).1
      rw [held] at gone
      cases gone
  | signIn screen =>
      have gone := (sound.away fun shown no => by rw [at_] at no; cases no).1
      rw [held] at gone
      cases gone

/-- The open room's stream goes on, and the chat screen with it. -/
structure Feeds (before after : App Input) : Prop where
  held : ∃ stream, before.messages = some stream
  screen : ∃ screen shown, before.screen = .chat screen ∧ after.screen = .chat shown ∧
    shown.rooms = screen.rooms ∧ shown.open_ = screen.open_
  client : after.client = before.client

theorem Feeds.sound (feeds : Feeds before after) (sound : before.Sound) : after.Sound := by
  obtain ⟨screen, shown, at_, shows, rooms, open_⟩ := feeds.screen
  refine ⟨?_, ?_, fun elsewhere => absurd shows (elsewhere shown)⟩
  · rw [feeds.client]
    exact Or.inl (sound.built (by rw [at_]; nofun))
  · intro other is
    obtain rfl := Screen.chat.inj (shows.symm.trans is)
    obtain ⟨index, opened, bound⟩ := sound.selected screen at_
    exact ⟨index, open_.trans opened, rooms ▸ bound⟩

/-- A call that is out while a room is watched fits what shows then. -/
theorem Feeds.fits (feeds : Feeds before after) {call : AppCall} (fits : before.Fits kept call) :
    after.Fits kept call := by
  obtain ⟨stream, held⟩ := feeds.held
  obtain ⟨screen, shown, at_, shows, -, -⟩ := feeds.screen
  cases call with
  | connect form =>
      obtain ⟨other, no⟩ := fits
      rw [at_] at no
      cases no
  | register username password =>
      obtain ⟨other, no⟩ := fits
      rw [at_] at no
      cases no
  | logIn username password =>
      obtain ⟨other, no⟩ := fits
      rw [at_] at no
      cases no
  | openRoom room =>
      have gone := fits.1
      rw [held] at gone
      cases gone
  | send room body => exact ⟨shown, shows⟩
  | createRoom name => exact ⟨shown, shows⟩

/-! ### What a key asks for -/

variable (kit app) in
/-- Whether the screen returns an intent, or a form, for a key. -/
def intends (key : KeyEvent) : Bool :=
  match app.screen with
  | .connection screen => (screen.handleKey kit key app.background.pending).2.isSome
  | .signIn screen => (screen.handleKey kit key app.background.pending).2.isSome
  | .chat screen => (screen.handleKey kit key app.background.pending).2.isSome

variable (kit app) in
/-- The call that is asked for by the intent of a key, with what is typed and the room that is
selected at that moment. -/
def asked (key : KeyEvent) : Option AppCall :=
  match app.screen with
  | .connection screen =>
      (screen.handleKey kit key app.background.pending).2.map fun _ => .connect (screen.form kit)
  | .signIn screen =>
      (screen.handleKey kit key app.background.pending).2.map fun
        | .register => .register (screen.credentials kit).1 (screen.credentials kit).2
        | .logIn => .logIn (screen.credentials kit).1 (screen.credentials kit).2
  | .chat screen =>
      let typed := trimmed (kit.value screen.input)
      let after := (screen.handleKey kit key app.background.pending).1
      (screen.handleKey kit key app.background.pending).2.bind fun
        | .send _ => screen.openRoom.map fun room => .send room.id typed
        | .create _ => some (.createRoom (trimmed (splitWord typed).2))
        | .open_ => after.openRoom.map fun room => .openRoom room.id

/-- **A screen returns an intent, or a form, only while no call is pending.** The screen is told
whether one is, with each key. -/
theorem idle_of_intends {key : KeyEvent} (intends : app.intends kit key = true) :
    app.background.pending = false := by
  cases pending : app.background.pending with
  | false => rfl
  | true =>
      unfold App.intends at intends
      rw [pending] at intends
      split at intends
      · rw [Connection.handleKey_pending] at intends
        cases intends
      · rw [SignIn.handleKey_pending] at intends
        cases intends
      · rw [Chat.handleKey_pending] at intends
        cases intends

theorem connect_of_idle (idle : app.background.pending = false) (form : ConnectionForm) :
    (app.connect form).2 = some (.connect form) := by
  simp only [connect, Background.ask, idle, Bool.false_eq_true, if_false]

variable (kit) in
/-- **A key starts the call its intent asks for**, and no other.  A key that quits is the
exception, and so starts nothing. -/
theorem handleKey_starts (sound : app.Sound) {key : KeyEvent} (stays : quits key = false) :
    (app.handleKey kit key).2 = app.asked kit key ∧
      (app.asked kit key).isSome = app.intends kit key := by
  have idle : app.intends kit key = true → app.background.pending = false := idle_of_intends
  cases at_ : app.screen with
  | connection screen =>
      simp only [handleKey, asked, intends, stays, at_, Bool.false_eq_true, if_false] at idle ⊢
      cases asks : (screen.handleKey kit key app.background.pending).2 with
      | none => exact ⟨rfl, rfl⟩
      | some form =>
          rw [asks] at idle
          refine ⟨(connect_of_idle (idle rfl) form).trans ?_, rfl⟩
          rw [Connection.handleKey_form asks, Option.map_some]
  | signIn screen =>
      have built := sound.built (by rw [at_]; nofun)
      simp only [handleKey, asked, intends, stays, at_, Bool.false_eq_true, if_false] at idle ⊢
      cases did : screen.handleKey kit key app.background.pending with
      | mk after intent =>
          rw [did] at idle
          cases intent with
          | none => exact ⟨rfl, rfl⟩
          | some intent =>
              -- the call is made with what the fields hold, which the key leaves alone
              have same := SignIn.handleKey_credentials did
              cases intent with
              | register =>
                  refine ⟨?_, rfl⟩
                  simp only [register, ask, built, if_true, Background.ask, idle rfl, same,
                    Bool.false_eq_true, if_false, Option.map_some]
              | logIn =>
                  refine ⟨?_, rfl⟩
                  simp only [logIn, ask, built, if_true, Background.ask, idle rfl, same,
                    Bool.false_eq_true, if_false, Option.map_some]
  | chat screen =>
      have built := sound.built (by rw [at_]; nofun)
      obtain ⟨room, open_⟩ := (sound.selected screen at_).openRoom
      simp only [handleKey, asked, intends, stays, at_, Bool.false_eq_true, if_false] at idle ⊢
      have moves := Chat.handleKey_cases kit screen key app.background.pending
      cases did : screen.handleKey kit key app.background.pending with
      | mk after intent =>
          rw [did] at idle moves
          rcases moves with edits | moves
          · have pane : screen.SamePane True after := edits.samePane
            have shown := pane.openRoom trivial
            rw [open_, Option.map_some] at shown
            obtain ⟨-, nothing | ⟨free, send | create⟩⟩ := edits
            · obtain rfl : intent = none := nothing
              exact ⟨rfl, rfl⟩
            · -- the message goes to the room that is selected after the key, which is the same
              obtain rfl : intent = _ := send
              have sends := openedRoom_of_chat
                (rfl : ({ app with screen := .chat after } : App Input).screen = .chat after)
              rw [shown] at sends
              refine ⟨?_, by rw [open_]; rfl⟩
              simp only [App.send, sends, ask, built, if_true, Background.ask, free,
                Bool.false_eq_true, if_false, open_, Option.bind_some, Option.map_some]
            · obtain rfl : intent = _ := create
              refine ⟨?_, rfl⟩
              simp only [createRoom, ask, built, if_true, Background.ask, free,
                Bool.false_eq_true, if_false, Option.bind_some]
          · -- another room is selected, and that is the one that is opened
            have selected := moves.selected (sound.selected screen at_)
            obtain ⟨free, index, bound, same⟩ := moves
            obtain ⟨rfl, rfl⟩ := Prod.mk.inj same
            obtain ⟨next, open_next, opened⟩ := openRoom_of_idle
              (rfl : ({ app with screen := .chat _ } : App Input).screen = _) selected built free
            rw [Option.map_eq_some_iff] at open_next
            obtain ⟨moved, open_moved, rfl⟩ := open_next
            refine ⟨?_, by rw [Option.bind_some, open_moved]; rfl⟩
            rw [Option.bind_some, open_moved]
            exact congrArg Prod.snd opened

end App

end ScionChat
