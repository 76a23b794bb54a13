import ScionChat.Terminal.Input

/-!
# The sign-in screen

`screens/sign_in.rs`: who is signing in.  Registering and logging in are separate, as the API is.

The screen holds two lines, which one the keys go to, and why the last attempt failed.  It asks for
a login or a registration with the two texts as they are at that moment, and it keeps both while
the call is out: the login that follows a registration reads them again.

### design decisions

* **An intent without its texts.**  `Intent` says which of the two calls is wanted.  What it is
  made with is read off the screen by the loop, as in the source, and at two different times for
  the two calls of a registration.
* **Keys while a call is out are keys.**  `handleKey_pending` has the screen ask for nothing then,
  and it is all that the guard does: letters still go into the line that has the focus.

### What is load-bearing

That nothing here remembers what was submitted.  The screen has one copy of the name and of the
password, and that is where the loop's two reads of it can differ.
-/

namespace ScionChat

/-- How much room a name is given, and the longest this client registers. -/
def NAME_WIDTH : ℕ := 10

namespace SignIn

/-- What the screen is asking for.  The two are separate keys, and neither leads to the other on
this screen. -/
inductive Intent
  | register
  | logIn
  deriving DecidableEq, Repr

/-- Which field the keys are going to. -/
inductive Focus
  | username
  | password
  deriving DecidableEq, Repr

end SignIn

/-- The credentials being typed, and why the last attempt failed. -/
structure SignIn (Input : Type) where
  username : Input
  password : Input
  focus : SignIn.Focus
  error : Option String

namespace SignIn

variable {Input : Type} (kit : Toolkit Input) (screen : SignIn Input)

/-- `SignIn::default`. -/
def default : SignIn Input := ⟨kit.empty, kit.empty, .username, none⟩

/-- The username and password as typed.  They are not trimmed: a blank is part of a name or of a
password. -/
def credentials : String × String :=
  (kit.value screen.username, kit.value screen.password)

/-- Asks for the account, unless the name is longer than the chat pane gives a name. -/
def register : SignIn Input × Option Intent :=
  if NAME_WIDTH < kit.width (kit.value screen.username) then
    ({ screen with error := some s!"username is too long - {NAME_WIDTH} characters max" }, none)
  else ({ screen with error := none }, some .register)

/-- A key goes to the field in focus. -/
def edit (key : KeyEvent) : SignIn Input :=
  match screen.focus with
  | .username => { screen with username := kit.handleEvent screen.username key }
  | .password => { screen with password := kit.handleEvent screen.password key }

/-- `pending` refuses the two keys that reach the server. -/
def handleKey (key : KeyEvent) (pending : Bool) : SignIn Input × Option Intent :=
  if key.code = .char 'r' ∧ key.control then
    if pending then (screen, none) else screen.register kit
  else
    match key.code with
    | .enter => if pending then (screen, none) else ({ screen with error := none }, some .logIn)
    | .tab | .down => ({ screen with focus := .password }, none)
    | .backTab | .up => ({ screen with focus := .username }, none)
    | _ => (screen.edit kit key, none)

variable {kit screen} {key : KeyEvent}

/-- **While a call is pending the screen asks for nothing.** -/
theorem handleKey_pending : (screen.handleKey kit key true).2 = none := by
  unfold handleKey
  split
  · rfl
  · split <;> rfl

/-- Asking for something changes neither field. -/
theorem handleKey_credentials {after : SignIn Input} {intent : Intent} {pending : Bool}
    (asks : screen.handleKey kit key pending = (after, some intent)) :
    after.credentials kit = screen.credentials kit := by
  unfold handleKey register at asks
  split at asks
  · split at asks
    · cases asks
    · split at asks
      · cases asks
      · cases asks
        rfl
  · split at asks
    · split at asks
      · cases asks
      · cases asks
        rfl
    all_goals cases asks

end SignIn

end ScionChat
