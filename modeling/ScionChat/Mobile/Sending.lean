import Mathlib.Data.List.DropRight
import ScionChat.Client.Mobile

/-!
# What is typed, and what becomes of it

`send` in `ChatViewModel.kt` and `ChatViewModel.swift`, and `ask`, by which both run every call
that the reader asks for, one at a time.  The composer clears its draft when it passes the text to
`send`, so a text that is not posted has to be handed back: as `restoredDraft`, which the composer
takes and acknowledges.

`texts_survive_iff` says when that is so: a text is lost if no room is open, and if its call ends
because the session has, which signs the reader out without handing anything back.

The model keeps what these functions read and write.  A call is out from when `ask` takes it until
it ends, and meanwhile the server may accept the message that it carries.

### design decisions

* **One run for two phones.** Each app has its own `send`, `message` and `signedOut`, as Kotlin and
  Swift have them, and a `Phone` chooses between them.  The events, the invariant and every result
  are for either.
* **Accepting is the server's.**  Whether a message was accepted is an event of its own while its
  call is out, so a call may fail after its message has landed, and the text has survived all the
  same.
* **Blank is the phone's.**  `Survives` is about the texts that are not, and what is white space
  each platform says for itself.

### What is load-bearing

`OneCall`: at most one call is out, and `pending` says whether one is.  So the call that ends is
the one that was taken, and what is handed back is its text.
-/

namespace ScionChat

open TransitionSystem

namespace Sending

/-! ### Text -/

/-- The characters that Kotlin's `isWhitespace` holds of. -/
def kotlinWhitespace (c : Char) : Bool :=
  let n := c.toNat
  (9 ≤ n && n ≤ 13) || (28 ≤ n && n ≤ 32) || n = 160 || n = 5760 || (8192 ≤ n && n ≤ 8202) ||
    n = 8232 || n = 8233 || n = 8239 || n = 8287 || n = 12288

/-- The characters of Foundation's `whitespacesAndNewlines`. -/
def foundationWhitespace (c : Char) : Bool :=
  let n := c.toNat
  (9 ≤ n && n ≤ 13) || n = 32 || n = 133 || n = 160 || n = 5760 || (8192 ≤ n && n ≤ 8202) ||
    n = 8232 || n = 8233 || n = 8239 || n = 8287 || n = 12288

/-- Kotlin's `trim`.  It takes white space from both ends, as `isWhitespace` has it. -/
def trim (text : String) : String :=
  String.ofList ((text.toList.dropWhile kotlinWhitespace).rdropWhile kotlinWhitespace)

/-- What is dropped from the front of a text is all whitespace. -/
theorem mem_dropWhile {p : Char → Bool} {text : List Char} {c : Char} (letter : ¬ p c) :
    c ∈ text.dropWhile p ↔ c ∈ text := by
  constructor
  · exact fun mem => (List.dropWhile_sublist p).subset mem
  · intro mem
    rw [← List.takeWhile_append_dropWhile (p := p) (l := text)] at mem
    rcases List.mem_append.mp mem with dropped | stays
    · exact absurd (List.mem_takeWhile_imp dropped) letter
    · exact stays

/-- Trimming keeps the letters of a text. -/
theorem mem_trim {text : String} {c : Char} (letter : ¬ kotlinWhitespace c) :
    c ∈ (trim text).toList ↔ c ∈ text.toList := by
  unfold trim
  rw [String.toList_ofList, List.rdropWhile, List.mem_reverse, mem_dropWhile letter,
    List.mem_reverse, mem_dropWhile letter]

/-! ### State -/

/-- Which screen is showing. -/
inductive Screen
  | connect
  | manual
  | signIn
  | chat
  deriving DecidableEq, Repr

/-- What the calls read and write of the state that the screens draw.  It is the part that these
functions touch; the rest of the state is left out. -/
structure UiState where
  screen : Screen
  openRoomId : Option ℤ
  username : Option String
  pending : Bool
  /-- Why the last thing the reader asked for failed. -/
  actionError : Option String
  /-- Text a refused send is handing back to the composer. -/
  restoredDraft : Option String
  notice : Option String
  deriving DecidableEq, Repr

/-- What a call is asked for. -/
inductive Work
  | connect
  | register (username : String)
  | logIn (username : String)
  | createRoom (name : String)
  | send (room : ℤ) (body : String)
  deriving DecidableEq, Repr

/-- Everything a call can fail with. -/
inductive Failure
  | config (detail : String)
  | client (error : MobileError)
  /-- What the platform throws, as when the view model is cleared. -/
  | other (why : String)
  deriving DecidableEq, Repr

/-- The session is over: the failure that means the reader must sign in again. -/
def Failure.sessionExpired : Failure := .client .sessionExpired

/-- A call that is out, and whether the server has accepted the message that it carries. -/
structure Job where
  work : Work
  accepted : Bool
  deriving DecidableEq, Repr

/-- The app: its state, and the calls that are out. -/
structure App where
  state : UiState
  jobs : List Job
  deriving DecidableEq, Repr

namespace App

variable (app : App)

/-- Nothing has been asked for. -/
def fresh : App := ⟨⟨.connect, none, none, false, none, none, none⟩, []⟩

/-- Runs a call the reader asked for, refusing a second while one is out.  Answers whether it was
taken. -/
def ask (work : Work) : App × Bool :=
  if app.state.pending then (app, false)
  else (⟨{ app.state with pending := true, actionError := none }, app.jobs ++ [⟨work, false⟩]⟩,
    true)

end App

/-- Hands text back to the composer.  What was being handed back before is replaced. -/
def UiState.restore (state : UiState) (body : String) : UiState :=
  { state with restoredDraft := some body }

/-- What `ask` was given to do when the call is refused. -/
def Work.refused (why : String) (state : UiState) : Work → UiState
  | register username =>
      { state with notice := some ("Could not register " ++ username ++ ": " ++ why) }
  | send _ body => state.restore body
  | _ => state

/-! ### The two apps -/

/-- The kinds of failure by name. -/
def kindName : TransportFailure → String
  | .connectivity => "Connectivity"
  | .resolution => "Resolution"
  | .connect => "Connect"
  | .tls => "Tls"
  | .streamReset => "StreamReset"
  | .protocol => "Protocol"
  | .bodyTooLarge => "BodyTooLarge"
  | .timeout => "Timeout"
  | .closed => "Closed"

namespace Android

/-- Posts what was typed. -/
def send (body : String) (app : App) : App :=
  let typed := trim body
  if typed = "" then app
  else match app.state.openRoomId with
    | none => app
    | some room =>
        let (asked, taken) := app.ask (.send room typed)
        if taken then asked else { app with state := app.state.restore typed }

/-- The message of an error. -/
def message : Failure → String
  | .config detail => detail
  | .client (.transport failure) => kindName failure.kind ++ ": " ++ failure.detail
  | .client (.api status code message) => code ++ " (" ++ toString status ++ "): " ++ message
  | .client (.protocol detail) => detail
  | .client .notLoggedIn => "not logged in"
  | .client .sessionExpired => "the session has expired"
  | .other why => why

/-- Sends the reader back to signing in. -/
def signedOut (state : UiState) : UiState :=
  { state with screen := .signIn, actionError := some (message .sessionExpired) }

end Android

namespace Ios

/-- Posts what was typed. -/
def send (body : String) (app : App) : App :=
  match app.state.openRoomId with
  | none => app
  | some room =>
      if body = "" then app
      else
        let (asked, taken) := app.ask (.send room body)
        if taken then asked else { app with state := app.state.restore body }

/-- The description of an error. -/
def message : Failure → String
  | .config detail => detail
  | .client (.transport failure) => failure.detail
  | .client (.api status code message) => code ++ " (" ++ toString status ++ "): " ++ message
  | .client (.protocol detail) => detail
  | .client .notLoggedIn => "not logged in"
  | .client .sessionExpired => "the session has ended"
  | .other why => why

/-- Sends the reader back to signing in. -/
def signedOut (state : UiState) : UiState :=
  { state with
    username := none
    screen := .signIn
    actionError := some "the session has ended; sign in again" }

end Ios

/-- One of the two apps.  They differ in what they trim, in what they show, and in what a sign-out
clears. -/
inductive Phone
  | android
  | ios
  deriving DecidableEq, Repr

namespace Phone

def send : Phone → String → App → App
  | android => Android.send
  | ios => Ios.send

def message : Phone → Failure → String
  | android => Android.message
  | ios => Ios.message

def signedOut : Phone → UiState → UiState
  | android => Android.signedOut
  | ios => Ios.signedOut

/-- What is posted of a text.  Kotlin trims it first, and Swift sends it as it is. -/
def typed : Phone → String → String
  | android => trim
  | ios => id

/-- Nothing but whitespace. -/
def blank (phone : Phone) (text : String) : Bool :=
  text.toList.all (match phone with
    | android => kotlinWhitespace
    | ios => foundationWhitespace)

/-- What is posted of a text is blank if the text is. -/
theorem blank_typed (phone : Phone) (body : String) :
    phone.blank (phone.typed body) = phone.blank body := by
  cases phone with
  | android =>
      rw [Bool.eq_iff_iff]
      show (trim body).toList.all kotlinWhitespace = true
        ↔ body.toList.all kotlinWhitespace = true
      simp only [List.all_eq_true]
      constructor
      · intro blank c mem
        by_contra letter
        exact letter (blank c ((mem_trim letter).mpr mem))
      · intro blank c mem
        by_contra letter
        exact letter (blank c ((mem_trim letter).mp mem))
  | ios => rfl

/-- An empty text is blank. -/
theorem typed_ne_empty {phone : Phone} {body : String} (some_ : ¬ phone.blank body) :
    phone.typed body ≠ "" := by
  intro empty
  rw [← blank_typed, empty] at some_
  exact some_ rfl

variable (phone : Phone)

/-- What a call does that ends well, with the rooms that come of it.  The iOS app opens the room
that it has created. -/
def completed (work : Work) (rooms : List ℤ) (state : UiState) : UiState :=
  match work with
  | .connect => { state with screen := .signIn }
  | .register username =>
      { state with notice := some ("Registered " ++ username ++ ". Log in to continue.") }
  | .logIn username =>
      { state with screen := .chat, username := some username, openRoomId := rooms.head? }
  | .createRoom _ =>
      match phone with
      | android => state
      | ios => { state with openRoomId := rooms.head?.or state.openRoomId }
  | .send _ _ => state

/-- What `ask` does about a failure. -/
def failed (work : Work) (failure : Failure) (state : UiState) : UiState :=
  if failure = .sessionExpired then phone.signedOut state
  else
    let why := phone.message failure
    work.refused why { state with actionError := some why }

end Phone

/-! ### Runs -/

/-- How a call ends.  The end of the session is a failure as well, and `ask` tells it from the
others. -/
inductive Ending
  | done (rooms : List ℤ)
  | failed (failure : Failure)
  deriving DecidableEq, Repr

/-- What happens next.  A call is known by its place among those that are out. -/
inductive Event
  /-- The composer passes its text to `send`, and clears its draft. -/
  | send (body : String)
  | connect
  | register (username : String)
  | logIn (username : String)
  | createRoom (name : String)
  /-- A name for a room that is refused before any call is made. -/
  | nameRefused (problem : String)
  | openRoom (room : ℤ)
  | showConnect (screen : Screen)
  | draftRestored
  | noticeShown
  /-- A read of a feed finds that the session has ended. -/
  | feedExpired
  /-- The server accepts the message of a call. -/
  | accept (i : ℕ)
  | finish (i : ℕ) (ending : Ending)
  deriving DecidableEq, Repr

/-- Whether a call may end so: a send does not succeed unless the server has accepted the
message. -/
def Job.mayEnd (job : Job) : Ending → Bool
  | .done _ =>
      match job.work with
      | .send _ _ => job.accepted
      | _ => true
  | .failed _ => true

namespace App

variable (app : App)

/-- A call has ended: nothing is pending any more. -/
def finished (i : ℕ) (state : UiState) : App :=
  ⟨{ state with pending := false }, app.jobs.eraseIdx i⟩

/-- What a call does when it ends. -/
def conclude (phone : Phone) (job : Job) : Ending → UiState
  | .done rooms => phone.completed job.work rooms app.state
  | .failed failure => phone.failed job.work failure app.state

end App

/-- One step. -/
def step (phone : Phone) (app : App) : Event → Option App
  | .send body => some (phone.send body app)
  | .connect => some (app.ask .connect).1
  | .register username => some (app.ask (.register username)).1
  | .logIn username => some (app.ask (.logIn username)).1
  | .createRoom name => some (app.ask (.createRoom name)).1
  | .nameRefused problem =>
      some { app with state := { app.state with actionError := some problem } }
  | .openRoom room => some { app with state := { app.state with openRoomId := some room } }
  | .showConnect screen =>
      some { app with state := { app.state with screen := screen, actionError := none } }
  | .draftRestored => some { app with state := { app.state with restoredDraft := none } }
  | .noticeShown => some { app with state := { app.state with notice := none } }
  | .feedExpired => some { app with state := phone.signedOut app.state }
  | .accept i =>
      if i < app.jobs.length then
        some { app with jobs := app.jobs.modify i fun job => { job with accepted := true } }
      else none
  | .finish i ending =>
      match app.jobs[i]? with
      | none => none
      | some job =>
          if job.mayEnd ending then some (app.finished i (app.conclude phone job ending))
          else none

/-! ### One call at a time -/

/-- **At most one call is out**, and `pending` says whether one is.  The list of calls is there to
say so; neither app has one. -/
def OneCall (app : App) : Prop :=
  app.jobs.length = if app.state.pending then 1 else 0

theorem OneCall.ask {app : App} (one : OneCall app) (work : Work) : OneCall (app.ask work).1 := by
  unfold OneCall App.ask at *
  cases pending : app.state.pending with
  | true => simpa [pending] using one
  | false => simpa [pending] using one

/-- What `send` does, on either phone. -/
theorem send_cases (phone : Phone) (body : String) (app : App) :
    phone.send body app = app
        ∧ (phone.typed body = "" ∨ app.state.openRoomId = none)
      ∨ ∃ room, app.state.openRoomId = some room ∧
          (app.state.pending = true ∧
              phone.send body app = { app with state := app.state.restore (phone.typed body) }
            ∨ app.state.pending = false ∧
              phone.send body app = (app.ask (.send room (phone.typed body))).1) := by
  cases phone with
  | android =>
      simp only [Phone.send, Android.send, Phone.typed]
      by_cases empty : trim body = ""
      · rw [if_pos empty]
        exact Or.inl ⟨rfl, Or.inl empty⟩
      · rw [if_neg empty]
        cases opened : app.state.openRoomId with
        | none => exact Or.inl ⟨rfl, Or.inr rfl⟩
        | some room =>
            refine Or.inr ⟨room, rfl, ?_⟩
            cases pending : app.state.pending with
            | true => exact Or.inl ⟨rfl, by simp [App.ask, pending]⟩
            | false => exact Or.inr ⟨rfl, by simp [App.ask, pending]⟩
  | ios =>
      simp only [Phone.send, Ios.send, Phone.typed, id_eq]
      cases opened : app.state.openRoomId with
      | none => exact Or.inl ⟨rfl, Or.inr rfl⟩
      | some room =>
          by_cases empty : body = ""
          · simp only [if_pos empty]
            exact Or.inl ⟨trivial, Or.inl empty⟩
          · simp only [if_neg empty]
            refine Or.inr ⟨room, rfl, ?_⟩
            cases pending : app.state.pending with
            | true => exact Or.inl ⟨rfl, by simp [App.ask, pending]⟩
            | false => exact Or.inr ⟨rfl, by simp [App.ask, pending]⟩

/-- A step leaves at most one call out. -/
theorem OneCall.step {phone : Phone} {app next : App} {event : Event} (one : OneCall app)
    (stepped : Sending.step phone app event = some next) : OneCall next := by
  cases event with
  | send body =>
      cases stepped
      rcases send_cases phone body app with ⟨same, -⟩ | ⟨room, -, ⟨-, eq⟩ | ⟨-, eq⟩⟩
      · rw [same]
        exact one
      · rw [eq]
        exact one
      · rw [eq]
        exact one.ask _
  | connect => cases stepped; exact one.ask _
  | register username => cases stepped; exact one.ask _
  | logIn username => cases stepped; exact one.ask _
  | createRoom name => cases stepped; exact one.ask _
  | nameRefused problem => cases stepped; exact one
  | openRoom room => cases stepped; exact one
  | showConnect screen => cases stepped; exact one
  | draftRestored => cases stepped; exact one
  | noticeShown => cases stepped; exact one
  | feedExpired =>
      cases stepped
      cases phone <;> exact one
  | accept i =>
      simp only [Sending.step] at stepped
      split at stepped
      · cases stepped
        exact (List.length_modify _ _ _).trans one
      · cases stepped
  | finish i ending =>
      simp only [Sending.step] at stepped
      split at stepped
      · cases stepped
      · next job out =>
          split at stepped
          · cases stepped
            have inside := (List.getElem?_eq_some_iff.mp out).1
            have only : app.jobs.length ≤ 1 := by
              rw [one]
              split <;> omega
            show (app.jobs.eraseIdx i).length = 0
            rw [List.length_eraseIdx_of_lt inside]
            omega
          · cases stepped

/-- **In every state of a run at most one call is out.** `ask` refuses a call while one is pending,
and whichever way a call ends it clears the flag. -/
theorem oneCall_of_run {phone : Phone} {events : List Event} {app : App}
    (ran : run (step phone) .fresh events = some app) : OneCall app :=
  run_invariant (fun _ _ _ stepped one => one.step stepped) ran rfl

/-! ### What becomes of a text -/

/-- A step ends the `send` of a text: at once, as no call was taken, or with its call, of which
the server may have accepted the message. -/
inductive Ends (phone : Phone) (app next : App) : Event → String → Bool → Prop
  | atOnce {body : String} (none_taken : next.jobs = app.jobs) :
      Ends phone app next (.send body) (phone.typed body) false
  | called {i : ℕ} {ending : Ending} {room : ℤ} {text : String} {accepted : Bool}
      (out : app.jobs[i]? = some ⟨.send room text, accepted⟩) :
      Ends phone app next (.finish i ending) text accepted

/-- **The text survives**: a text that is not blank has been accepted by the server when its
`send` ends, or it is handed back. -/
def Survives (phone : Phone) (app : App) (event : Event) (next : App) : Prop :=
  ∀ text accepted, Ends phone app next event text accepted → phone.blank text = false →
    accepted = true ∨ next.state.restoredDraft = some text

/-- A call to post a text that is not blank does not end because the session has, unless the
server has accepted it; or the text is being handed back already. -/
def MeetsEnd (phone : Phone) (state : UiState) (ending : Ending) : Option Job → Prop
  | some ⟨.send _ text, false⟩ => phone.blank text = false →
      ending ≠ .failed .sessionExpired ∨ state.restoredDraft = some text
  | _ => True

/-- So does the call of a step, and a room is open when a text that is not blank is passed to
`send`; or the text is being handed back already. -/
def Meets (phone : Phone) (app : App) : Event → Prop
  | .send body => phone.blank body = false →
      app.state.openRoomId ≠ none ∨ app.state.restoredDraft = some (phone.typed body)
  | .finish i ending => MeetsEnd phone app.state ending app.jobs[i]?
  | _ => True

instance (phone : Phone) (state : UiState) (ending : Ending) :
    ∀ job, Decidable (MeetsEnd phone state ending job)
  | some ⟨.send _ _, false⟩ => inferInstanceAs (Decidable (_ → _ ∨ _))
  | some ⟨.send _ _, true⟩ => isTrue trivial
  | some ⟨.connect, _⟩ => isTrue trivial
  | some ⟨.register _, _⟩ => isTrue trivial
  | some ⟨.logIn _, _⟩ => isTrue trivial
  | some ⟨.createRoom _, _⟩ => isTrue trivial
  | none => isTrue trivial

instance (phone : Phone) (app : App) : ∀ event, Decidable (Meets phone app event)
  | .send _ => inferInstanceAs (Decidable (_ → _ ∨ _))
  | .finish i _ => inferInstanceAs (Decidable (MeetsEnd _ _ _ app.jobs[i]?))
  | .connect => isTrue trivial
  | .register _ => isTrue trivial
  | .logIn _ => isTrue trivial
  | .createRoom _ => isTrue trivial
  | .nameRefused _ => isTrue trivial
  | .openRoom _ => isTrue trivial
  | .showConnect _ => isTrue trivial
  | .draftRestored => isTrue trivial
  | .noticeShown => isTrue trivial
  | .feedExpired => isTrue trivial
  | .accept _ => isTrue trivial

section Survives

variable {phone : Phone} {app next : App} {event : Event}

/-- **What is typed, when it is passed on.** It ends at once if no call is taken: because there is
nothing in it, no room is open, or another call is out. -/
theorem survives_send {body : String} :
    Survives phone app (.send body) (phone.send body app) ↔ Meets phone app (.send body) := by
  have ends : Survives phone app (.send body) (phone.send body app)
      ↔ ((phone.send body app).jobs = app.jobs → phone.blank body = false →
          (phone.send body app).state.restoredDraft = some (phone.typed body)) := by
    constructor
    · intro survives same letters
      have kept := survives _ _ (.atOnce same) (by rwa [Phone.blank_typed])
      exact kept.resolve_left Bool.false_ne_true
    · rintro kept _ _ ⟨same⟩ letters
      exact Or.inr (kept same (by rwa [Phone.blank_typed] at letters))
  rw [ends]
  rcases send_cases phone body app with ⟨same, closed⟩ | ⟨room, opened, ⟨pending, eq⟩ | ⟨free, eq⟩⟩
  · -- `send` has returned, and so all depends on what was there
    rw [same]
    constructor
    · intro kept letters
      exact Or.inr (kept rfl letters)
    · intro meets _ letters
      have closed := closed.resolve_left (Phone.typed_ne_empty (by rw [letters]; exact nofun))
      exact (meets letters).resolve_left fun opened => opened closed
  · rw [eq]
    refine ⟨fun _ _ => Or.inl ?_, fun _ _ _ => rfl⟩
    rw [opened]
    exact nofun
  · rw [eq]
    refine ⟨fun _ _ => Or.inl ?_, fun _ same => ?_⟩
    · rw [opened]
      exact nofun
    · -- the call has been taken
      have longer := congrArg List.length same
      simp [App.ask, free] at longer

/-- **What is typed, when its call ends.** A call that has failed hands its text back, unless the
session is what it has failed of. -/
theorem survives_finish {i : ℕ} {ending : Ending} {job : Job} (out : app.jobs[i]? = some job)
    (may : job.mayEnd ending = true) :
    Survives phone app (.finish i ending) (app.finished i (app.conclude phone job ending))
      ↔ Meets phone app (.finish i ending) := by
  show _ ↔ MeetsEnd phone app.state ending app.jobs[i]?
  rw [out]
  constructor
  · intro survives
    unfold MeetsEnd
    split
    · next room text eq =>
        cases eq
        intro letters
        by_cases expired : ending = .failed .sessionExpired
        · -- signing out leaves what is handed back as it is
          subst expired
          have kept := survives text false (.called out) letters
          refine Or.inr (Eq.trans ?_ (kept.resolve_left Bool.false_ne_true))
          cases phone <;> rfl
        · exact Or.inl expired
    · trivial
  · intro meets text accepted ends letters
    cases ends with
    | called out' =>
        cases out.symm.trans out'
        cases accepted with
        | true => exact Or.inl rfl
        | false =>
            refine Or.inr ?_
            cases ending with
            | done rooms => cases may
            | failed failure =>
                by_cases expired : failure = .sessionExpired
                · subst expired
                  refine Eq.trans ?_ ((meets letters).resolve_left fun other => other rfl)
                  cases phone <;> rfl
                · show (phone.failed _ failure app.state).restoredDraft = some text
                  unfold Phone.failed
                  rw [if_neg expired]
                  rfl

/-- **What a step does to a text**: it survives exactly if the step meets the condition.  Both
directions are needed, since the result is an equivalence over whole runs. -/
theorem survives_iff (stepped : step phone app event = some next) :
    Survives phone app event next ↔ Meets phone app event := by
  cases event with
  | send body =>
      cases stepped
      exact survives_send
  | finish i ending =>
      simp only [step] at stepped
      split at stepped
      · cases stepped
      · next job out =>
          split at stepped
          · next may =>
              cases stepped
              exact survives_finish out may
          · cases stepped
  | _ => exact ⟨fun _ => trivial, nofun⟩

end Survives

/-- **The text survives exactly when a room is open and the session lasts**: in a run of either
app, every text that is not blank is accepted or handed back when its `send` ends, if and only if
every step meets the condition. -/
theorem texts_survive_iff {phone : Phone} {events : List Event} {app : App}
    (ran : run (step phone) .fresh events = some app) :
    EveryStep (step phone) (fun _ => Survives phone) .fresh events
      ↔ Along (step phone) (Meets phone) .fresh events := by
  have each : ∀ app event next, step phone app event = some next →
      (Survives phone app event next ↔ Meets phone app event) := fun _ _ _ => survives_iff
  exact everyStep_iff_along each ran

namespace Sample

/-- The reader connects and logs in, where there is one room. -/
def loggedIn : List Event :=
  [.connect, .finish 0 (.done []), .logIn "ada", .finish 0 (.done [1])]

/-- A text is posted, another one is refused as a call is out, and a third fails to arrive. -/
def plain : List Event :=
  loggedIn ++ [.send " hi ", .accept 0, .send "there", .draftRestored, .finish 0 (.done []),
    .send "there", .finish 0 (.failed (.client (.transport ⟨.timeout, "no reply"⟩)))]

/-- The session has ended when a text is posted. -/
def expired : List Event :=
  loggedIn ++ [.send "hi", .finish 0 (.failed .sessionExpired)]

/-- There are no rooms when the reader logs in. -/
def closed : List Event :=
  [.connect, .finish 0 (.done []), .logIn "ada", .finish 0 (.done []), .send "hi"]

end Sample

/-- In a run with a refusal and a failure all texts survive. -/
theorem texts_survive_plain :
    EveryStep (step .android) (fun _ => Survives .android) .fresh Sample.plain ∧
      EveryStep (step .ios) (fun _ => Survives .ios) .fresh Sample.plain := by
  obtain ⟨android, ran⟩ : ∃ app, run (step .android) .fresh Sample.plain = some app :=
    Option.isSome_iff_exists.mp (by decide +kernel)
  obtain ⟨ios, ran'⟩ : ∃ app, run (step .ios) .fresh Sample.plain = some app :=
    Option.isSome_iff_exists.mp (by decide +kernel)
  exact ⟨(texts_survive_iff ran).mpr (by decide +kernel),
    (texts_survive_iff ran').mpr (by decide +kernel)⟩

/-- A run in which a step does not meet the condition loses a text. -/
theorem not_survive {phone : Phone} {events : List Event} {app : App}
    (ran : run (step phone) .fresh events = some app)
    (breaks : ¬ Along (step phone) (Meets phone) .fresh events) :
    ¬ EveryStep (step phone) (fun _ => Survives phone) .fresh events := by
  intro every
  have each : ∀ app event next, step phone app event = some next →
      (Survives phone app event next ↔ Meets phone app event) := fun _ _ _ => survives_iff
  exact breaks ((everyStep_iff_along each ran).mp every)

/-- **A text is lost** when its call finds that the session has ended, and when no room is open,
on either phone. -/
theorem text_lost :
    (¬ EveryStep (step .android) (fun _ => Survives .android) .fresh Sample.expired ∧
      ¬ EveryStep (step .android) (fun _ => Survives .android) .fresh Sample.closed) ∧
    ¬ EveryStep (step .ios) (fun _ => Survives .ios) .fresh Sample.expired ∧
      ¬ EveryStep (step .ios) (fun _ => Survives .ios) .fresh Sample.closed := by
  have ends : ∀ (phone : Phone), ∀ events ∈ [Sample.expired, Sample.closed],
      ∃ app, run (step phone) .fresh events = some app := by
    intro phone events mem
    refine Option.isSome_iff_exists.mp ?_
    revert events
    cases phone <;> decide +kernel
  refine ⟨⟨?_, ?_⟩, ?_, ?_⟩
  · obtain ⟨app, ran⟩ := ends .android Sample.expired (by simp)
    exact not_survive ran (by decide +kernel)
  · obtain ⟨app, ran⟩ := ends .android Sample.closed (by simp)
    exact not_survive ran (by decide +kernel)
  · obtain ⟨app, ran⟩ := ends .ios Sample.expired (by simp)
    exact not_survive ran (by decide +kernel)
  · obtain ⟨app, ran⟩ := ends .ios Sample.closed (by simp)
    exact not_survive ran (by decide +kernel)

end Sending

end ScionChat
