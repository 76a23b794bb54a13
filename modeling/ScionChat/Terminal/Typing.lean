import ScionChat.Terminal.Calls

/-!
# What is typed while a call is out

The screens take keys while a call is out, and two answers meet what was typed meanwhile.  A
registration is followed by a login with whatever the two fields hold by then, and a message that
could not be sent is put back over whatever the composer holds.

* `login_uses_registered_iff` — the login after a registration is made with the registered
  credentials exactly when the keys in between leave what the two fields hold;
* `typed_kept_iff` — a failed send loses nothing that was typed exactly when the composer is empty
  as its answer comes, having been emptied when the line was sent; and the body that is put back is
  the line that was submitted.

### design decisions

* **Whole runs in between.**  From the key that starts a call to the answer that ends it anything
  may happen: keys, batches, lists of rooms, posts of others.  The theorems quantify over that run,
  and the condition reads the keys in it only.
* **The answer is the call's.**  `Terminal.Awaits` follows one call from its start: as long as its
  session lasts it is the one that is out, and the answer that the loop takes next is its own.  So
  what is put back can be named by what was typed, and not by what the answer says.

### What is load-bearing

`chat_run`, `signIn_run`: while a call is out, the line is changed by keys alone.  It is `ask`
refusing every further call that makes it so, since an Enter would otherwise empty the line again.
-/

namespace ScionChat

open TransitionSystem

namespace Terminal

variable {Input : Type} {kit : Toolkit Input} {s t u : Terminal Input} {event : TerminalEvent}

/-! ### A registration, and the login that follows -/

variable (kit) in
/-- The sign-in screen after something that happens while a call is out: a key may edit it. -/
def retyped (screen : SignIn Input) : TerminalEvent → SignIn Input
  | .key key => if App.quits key then screen else (screen.handleKey kit key true).1
  | _ => screen

variable (kit) in
/-- A key leaves the sign-in screen showing, and a call that is out out. -/
theorem handleKey_signIn {app : App Input} {screen : SignIn Input}
    (at_ : app.screen = .signIn screen)
    (key : KeyEvent) : (app.handleKey kit key).1.screen = .signIn (if App.quits key then screen
        else (screen.handleKey kit key app.background.pending).1) ∧
      (app.background.pending = true → (app.handleKey kit key).1.background.pending = true) := by
  have asked (app : App Input) (call : AppCall) : (app.ask call).1.screen = app.screen ∧
      (app.background.pending = true → (app.ask call).1.background.pending = true) := by
    rcases App.ask_cases app call with refused | ⟨-, started⟩
    · rw [refused]
      exact ⟨rfl, fun busy => busy⟩
    · rw [started]
      exact ⟨rfl, fun _ => rfl⟩
  simp only [App.handleKey, at_]
  split
  · exact ⟨rfl, fun busy => busy⟩
  · split
    · exact ⟨rfl, fun busy => busy⟩
    · exact asked _ _
    · exact asked _ _

/-- **The sign-in screen only takes keys**, until an answer is taken.  Posts, polls and what the
server does of calls are not for this screen. -/
theorem signIn_step (inv : Inv False s) {screen : SignIn Input}
    (at_ : s.app.screen = .signIn screen)
    (waits : event ≠ .answer) (stepped : s.step kit event = some t) :
    (∃ shown, t.app.screen = .signIn shown) ∧ (s.app.background.pending = true →
      t.app.screen = .signIn (retyped kit screen event) ∧ t.app.background.pending = true) := by
  have elsewhere : ∀ shown, s.app.screen ≠ .chat shown := by
    rw [at_]
    nofun
  -- no stream runs before a login, so only keys and answers reach this screen
  obtain ⟨unwatched, unlisted⟩ := inv.sound.away elsewhere
  cases step_did inv nofun stepped with
  | acts _ did cause acts does =>
      cases cause with
      | key key =>
          obtain ⟨shows, still⟩ := handleKey_signIn kit at_ key
          rw [acted_app]
          refine ⟨⟨_, shows⟩, fun busy => ⟨?_, still busy⟩⟩
          rw [shows, busy]
          rfl
      | closed => exact ⟨⟨screen, at_⟩, fun busy => ⟨at_, busy⟩⟩
      | rooms list watched =>
          rw [unlisted] at watched
          cases watched
  | polls event stream held page feed polled goes reply noKey =>
      rw [unwatched] at held
      cases held
  | replies n feed held bound =>
      rw [unwatched] at held
      cases held
  | posts room message newest => exact ⟨⟨screen, at_⟩, fun busy => ⟨at_, busy⟩⟩
  | lands id task room message is sends fresh newest =>
      exact ⟨⟨screen, at_⟩, fun busy => ⟨at_, busy⟩⟩
  | finishes id task outcome answer is running answers =>
      unfold finished
      split <;> exact ⟨⟨screen, at_⟩, fun busy => ⟨at_, busy⟩⟩
  | takes id answer one did acts does => exact absurd rfl waits
  | opens id room shown n page bound got shows fits one => exact absurd rfl waits

/-- **While a call is out the sign-in screen only takes keys**, whatever happens.  The two lines
are what the keys of the run have made of them, in their order. -/
theorem signIn_run (events : List TerminalEvent) : ∀ {s : Terminal Input} {screen : SignIn Input},
    Inv False s → s.app.screen = .signIn screen → s.app.background.pending = true →
      TerminalEvent.answer ∉ events → run (step kit) s events = some t →
        Inv False t ∧ t.app.screen = .signIn (events.foldl (retyped kit) screen) := by
  induction events with
  | nil =>
      intro s screen inv at_ _ _ ran
      cases ran
      exact ⟨inv, at_⟩
  | cons event events ih =>
      intro s screen inv at_ busy waits ran
      rw [run_cons] at ran
      obtain ⟨next, stepped, rest⟩ := Option.bind_eq_some_iff.mp ran
      obtain ⟨other, later⟩ := not_or.mp (mt List.mem_cons.mpr waits)
      -- the call stays out until its answer is taken, so the screen stays too
      obtain ⟨shows, still⟩ := (signIn_step inv at_ (Ne.symm other) stepped).2 busy
      exact ih (inv_step nofun stepped inv) shows still later rest

variable (kit s) in
/-- The loop takes the answer that waits, and starts a login with these credentials. -/
def LogsInWith (username password : String) : Prop :=
  ∃ t, s.step kit .answer = some t ∧
    t.tasks = s.tasks ++ [⟨s.app.background.channel, .logIn username password, true, false⟩]

/-- The login that follows a registration has the credentials of the screen. -/
theorem logsInWith_iff (inv : Inv False s) {screen : SignIn Input}
    (at_ : s.app.screen = .signIn screen)
    (going : s.app.exit = false) {id : ℕ}
    (answered : s.app.background.answers = [(id, .registered (.ok ()))])
    (username password : String) :
    LogsInWith kit s username password ↔ screen.credentials kit = (username, password) := by
  have built := inv.sound.built (by rw [at_]; nofun)
  have stepped : s.step kit .answer = some { s.freed with
      app := { s.freed.app with background := { s.freed.app.background with pending := true } }
      tasks := s.tasks ++ [⟨s.app.background.channel, .logIn (screen.credentials kit).1
        (screen.credentials kit).2, true, false⟩] } := by
    simp only [step, going, answered, App.answer, at_, App.logIn, App.ask, built, if_true,
      Background.ask, Bool.false_eq_true, if_false, acted, freed, Answer.page]
  unfold LogsInWith
  rw [stepped]
  constructor
  · rintro ⟨t, same, tasks⟩
    cases same
    obtain ⟨-, login⟩ := List.append_inj' tasks rfl
    cases login
    rfl
  · intro same
    rw [same]
    exact ⟨_, rfl, rfl⟩

/-- A key that asks for something does not end the app. -/
theorem stays_of_intent {screen : SignIn Input} {key : KeyEvent} {pending : Bool}
    {intent : SignIn.Intent} (asks : (screen.handleKey kit key pending).2 = some intent) :
    App.quits key = false := by
  unfold SignIn.handleKey at asks
  split at asks
  · rename_i register
    simp [App.quits, register.1]
  · split at asks
    · rename_i enter
      simp [App.quits, enter]
    all_goals cases asks

/-- Asking for the account leaves it on the screen, with the call out. -/
theorem register_step (inv : Inv False s) {key : KeyEvent} {username password : String}
    (asks : s.app.asked kit key = some (.register username password))
    (pressed : s.step kit (.key key) = some t) : ∃ screen, t.app.screen = .signIn screen ∧
      screen.credentials kit = (username, password) ∧ t.app.background.pending = true := by
  unfold App.asked at asks
  split at asks
  · rw [Option.map_eq_some_iff] at asks
    obtain ⟨form, -, other⟩ := asks
    cases other
  · rename_i screen at_
    have built := inv.sound.built (by rw [at_]; nofun)
    rw [Option.map_eq_some_iff] at asks
    obtain ⟨intent, asks, call⟩ := asks
    have stays := stays_of_intent asks
    -- a screen asks for nothing while a call is out
    have idle : s.app.background.pending = false := by
      cases busy : s.app.background.pending with
      | false => rfl
      | true =>
          rw [busy, SignIn.handleKey_pending] at asks
          cases asks
    cases intent with
    | logIn => cases call
    | register =>
        obtain ⟨name, word⟩ := AppCall.register.inj call
        rw [idle] at asks
        cases did : screen.handleKey kit key false with
        | mk after intent =>
            rw [did] at asks
            obtain rfl : intent = some .register := asks
            have same := SignIn.handleKey_credentials did
            simp only [step] at pressed
            split at pressed
            · cases pressed
            · cases pressed
              simp only [App.handleKey, stays, at_, did, App.register, App.ask, built, if_true,
                Background.ask, idle, Bool.false_eq_true, if_false, acted]
              exact ⟨after, rfl, same.trans (Prod.ext name word), trivial⟩
  · rw [Option.bind_eq_some_iff] at asks
    obtain ⟨intent, -, other⟩ := asks
    cases intent with
    | send body =>
        rw [Option.map_eq_some_iff] at other
        obtain ⟨room, -, other⟩ := other
        cases other
    | create name => cases other
    | open_ =>
        rw [Option.map_eq_some_iff] at other
        obtain ⟨room, -, other⟩ := other
        cases other

/-- **When the login after a registration is made with the registered credentials**: when the keys
pressed in between leave what the two fields hold.  They are free to be edited while the
registration is out, and what they hold when its answer comes is what is sent. -/
theorem login_uses_registered_iff {form : ConnectionForm} {before between : List TerminalEvent}
    {key : KeyEvent} {username password : String} {screen : SignIn Input} {id : ℕ}
    (ran : run (step kit) (launched kit form) before = some s)
    (asks : s.app.asked kit key = some (.register username password))
    (pressed : s.step kit (.key key) = some t) (shows : t.app.screen = .signIn screen)
    (waits : TerminalEvent.answer ∉ between) (goes : run (step kit) t between = some u)
    (going : u.app.exit = false)
    (answered : u.app.background.answers = [(id, .registered (.ok ()))]) :
    LogsInWith kit u username password ↔
      (between.foldl (retyped kit) screen).credentials kit = screen.credentials kit := by
  have inv := run_inv ran
  obtain ⟨shown, at_, typed, busy⟩ := register_step inv asks pressed
  obtain rfl := Screen.signIn.inj (at_.symm.trans shows)
  obtain ⟨later, now⟩ := signIn_run between (inv_step nofun pressed inv) at_ busy waits goes
  rw [logsInWith_iff later now going answered, typed]

namespace Sample

/-- Ctrl+R. -/
def signUp : KeyEvent := { code := .char 'r', control := true }

/-- A name is typed. -/
def named : List TerminalEvent := connecting ++ [typed 'a']

end Sample

/-- Nothing is typed before the answer, and the login is the account's. -/
theorem login_uses_registered_untouched : ∃ s t u,
    run (step Toolkit.plain) (launched Toolkit.plain ConnectionForm.Sample.answered) Sample.named
      = some s ∧ s.app.asked Toolkit.plain Sample.signUp = some (.register "a" "") ∧
      s.step Toolkit.plain (.key Sample.signUp) = some t ∧
      run (step Toolkit.plain) t [.finish 1 .done] = some u ∧
      LogsInWith Toolkit.plain u "a" "" := by
  obtain ⟨s, t, u, screen, ran, asks, pressed, shows, goes, going, answered, same⟩ : ∃ s t u screen,
      run (step Toolkit.plain) (launched Toolkit.plain ConnectionForm.Sample.answered) Sample.named
        = some s ∧ s.app.asked Toolkit.plain Sample.signUp = some (.register "a" "") ∧
        s.step Toolkit.plain (.key Sample.signUp) = some t ∧ t.app.screen = .signIn screen ∧
        run (step Toolkit.plain) t [.finish 1 .done] = some u ∧ u.app.exit = false ∧
        u.app.background.answers = [(1, .registered (.ok ()))] ∧
        ([TerminalEvent.finish 1 .done].foldl (retyped Toolkit.plain) screen).credentials
          Toolkit.plain
          = screen.credentials Toolkit.plain :=
    ⟨_, _, _, _, rfl, rfl, rfl, rfl, rfl, rfl, rfl, rfl⟩
  exact ⟨s, t, u, ran, asks, pressed, goes,
    (login_uses_registered_iff ran asks pressed shows (by simp) goes going answered).mpr same⟩

/-- **A letter is typed before the answer**, and the login is another account's. -/
theorem login_uses_retyped : ∃ s t u,
    run (step Toolkit.plain) (launched Toolkit.plain ConnectionForm.Sample.answered) Sample.named
      = some s ∧ s.app.asked Toolkit.plain Sample.signUp = some (.register "a" "") ∧
      s.step Toolkit.plain (.key Sample.signUp) = some t ∧
      run (step Toolkit.plain) t [Sample.typed 'b', .finish 1 .done] = some u ∧
      u.app.background.answers = [(1, .registered (.ok ()))] ∧
      ¬ LogsInWith Toolkit.plain u "a" "" := by
  obtain ⟨s, t, u, v, ran, asks, pressed, goes, answered, taken, tasks⟩ : ∃ s t u v,
      run (step Toolkit.plain) (launched Toolkit.plain ConnectionForm.Sample.answered) Sample.named
        = some s ∧ s.app.asked Toolkit.plain Sample.signUp = some (.register "a" "") ∧
        s.step Toolkit.plain (.key Sample.signUp) = some t ∧
        run (step Toolkit.plain) t [Sample.typed 'b', .finish 1 .done] = some u ∧
        u.app.background.answers = [(1, .registered (.ok ()))] ∧
        u.step Toolkit.plain .answer = some v ∧
        v.tasks = u.tasks ++ [⟨u.app.background.channel, .logIn "ab" "", true, false⟩] :=
    ⟨_, _, _, _, rfl, rfl, rfl, rfl, rfl, rfl, rfl⟩
  refine ⟨s, t, u, ran, asks, pressed, goes, answered, ?_⟩
  rintro ⟨other, took, others⟩
  obtain rfl := Option.some.inj (took.symm.trans taken)
  have same := List.append_cancel_left (others.symm.trans tasks)
  have calls : [AppCall.logIn "a" ""] = [AppCall.logIn "ab" ""] :=
    congrArg (List.map Task.call) same
  exact absurd calls (by decide)

/-! ### A message that could not be sent, and the line that is put back -/

/-- What a key does to the composer depends on what is in it, and on nothing else of the screen. -/
theorem handleKey_input {one other : Chat Input} (same : one.input = other.input) (key : KeyEvent) :
    (one.handleKey kit key true).1.input = (other.handleKey kit key true).1.input := by
  unfold Chat.handleKey Chat.submit Chat.select
  simp only [same, or_true, if_true]
  split
  · split_ifs <;> simp [Chat.changed, Chat.warn, same]
  all_goals first | exact same | rfl

variable (kit) in
/-- The composer after something that happens while a call is out, on a screen that only shows
it: a key may edit it. -/
def recomposed (screen : Chat Input) : TerminalEvent → Chat Input
  | .key key => if App.quits key then screen else (screen.handleKey kit key true).1
  | _ => screen

/-- A call is out and the composer holds this line, or the session has ended. -/
def Composes (app : App Input) (input : Input) : Prop :=
  (∃ shown, app.screen = .chat shown ∧ shown.input = input ∧ app.background.pending = true) ∨
    ∃ shown, app.screen = .signIn shown

section

variable {app : App Input} {screen : Chat Input}

theorem failed_composes (at_ : app.screen = .chat screen) (busy : app.background.pending = true)
    (error : ChatError) : Composes (app.failed kit error) screen.input := by
  unfold App.failed App.signedOut
  rw [at_]
  cases error.gone with
  | true => exact Or.inr ⟨_, rfl⟩
  | false =>
      refine Or.inl ⟨{ screen with error := some error.display }, ?_, rfl, busy⟩
      simp only [App.reported, at_]

/-- No room is opened while a call is out. -/
theorem openRoom_of_busy (busy : app.background.pending = true) : app.openRoom.1 = app := by
  unfold App.openRoom
  split
  · rfl
  · rename_i room _
    rcases App.ask_cases app (.openRoom room) with refused | ⟨idle, -⟩
    · rw [refused]
    · rw [busy] at idle
      cases idle

theorem applyRooms_composes (at_ : app.screen = .chat screen)
    (busy : app.background.pending = true) (list : Except ChatError (List Room)) :
    Composes (app.applyRooms kit list).1 screen.input := by
  cases list with
  | error error => exact failed_composes at_ busy error
  | ok rooms =>
      simp only [App.applyRooms, at_]
      split
      · rw [openRoom_of_busy (by exact busy)]
        exact Or.inl ⟨_, rfl, rfl, busy⟩
      · exact Or.inl ⟨_, rfl, rfl, busy⟩

theorem applyMessages_composes (at_ : app.screen = .chat screen)
    (busy : app.background.pending = true) (batch : Except ChatError (List Message)) :
    Composes (app.applyMessages kit batch) screen.input := by
  cases batch with
  | error error => exact failed_composes at_ busy error
  | ok messages =>
      rw [App.applyMessages_of_chat kit at_]
      exact Or.inl ⟨_, rfl, rfl, busy⟩

end

/-- **While a call is out the composer only takes keys.** What else happens, a batch or a list of
rooms, leaves the line as it is. -/
theorem chat_step (inv : Inv False s) {screen shown : Chat Input}
    (at_ : s.app.screen = .chat screen)
    (same : screen.input = shown.input) (busy : s.app.background.pending = true)
    (waits : event ≠ .answer) (stepped : s.step kit event = some t) :
    Composes t.app (recomposed kit shown event).input := by
  cases step_did inv nofun stepped with
  | acts _ did cause acts does =>
      cases cause with
      | key key =>
          simp only [App.handleKey, recomposed, at_, busy]
          split
          · exact Or.inl ⟨screen, rfl, same, busy⟩
          · rw [Chat.handleKey_pending]
            exact Or.inl ⟨_, rfl, handleKey_input same key, busy⟩
      | closed => exact Or.inl ⟨screen, at_, same, busy⟩
      | rooms list watched =>
          change Composes _ shown.input
          rw [acted_app, ← same]
          exact applyRooms_composes at_ busy list
  | polls event stream held page feed polled goes reply noKey =>
      have untyped : recomposed kit shown event = shown := by
        unfold recomposed
        split
        · exact absurd rfl (noKey _)
        · rfl
      rw [untyped, ← same]
      cases polled with
      | pending awaits => exact Or.inl ⟨screen, at_, rfl, busy⟩
      | ready batch =>
          have shows : (s.streaming ⟨feed, none⟩).app.screen = .chat screen := at_
          exact applyMessages_composes shows busy batch
  | replies n feed held bound => exact Or.inl ⟨screen, at_, same, busy⟩
  | posts room message newest => exact Or.inl ⟨screen, at_, same, busy⟩
  | lands id task room message is sends fresh newest => exact Or.inl ⟨screen, at_, same, busy⟩
  | finishes id task outcome answer is running answers =>
      unfold finished
      split <;> exact Or.inl ⟨screen, at_, same, busy⟩
  | takes id answer one did acts does => exact absurd rfl waits
  | opens id room next n page bound got shows fits one => exact absurd rfl waits

variable (s) in
/-- The call with this number is out, and this is what it asks for. -/
def Awaits (id : ℕ) (call : AppCall) : Prop :=
  s.Out id ∧ ∃ task, s.tasks[id]? = some task ∧ task.call = call

/-- A function of the app that finds a call out, and leaves one out, leaves the calls alone. -/
theorem quiet_of_busy {app : App Input} {did : App Input × Option AppCall}
    (acts : App.Acts app did) (busy : app.background.pending = true)
    (still : did.1.background.pending = true) :
    did.1.background = app.background ∧ did.2 = none := by
  cases acts with
  | quiet after same => exact ⟨same, rfl⟩
  | starts after call idle now =>
      rw [idle] at busy
      cases busy
  | ends after other =>
      change after.background.pending = true at still
      rw [other] at still
      cases still

/-- **A call that is out stays out**, until its answer is taken or its session ends.  Nobody can
start another one meanwhile, and an answer that is not taken still waits. -/
theorem awaits_step (inv : Inv False s) {id : ℕ} {call : AppCall} (awaits : s.Awaits id call)
    (waits : event ≠ .answer) (stepped : s.step kit event = some t)
    (still : t.app.background.pending = true) : t.Awaits id call := by
  have busy := (inv.oneAtATime : OneAtATime kit s).pending.mpr ⟨id, awaits.1⟩
  obtain ⟨⟨task, at_, channel, out⟩, other, is, asks⟩ := awaits
  obtain rfl := Option.some.inj (at_.symm.trans is)
  have bound := (List.getElem?_eq_some_iff.mp at_).1
  -- where the channel and the answers in it are the same, so is what is out
  have same {t : Terminal Input} (tasks : t.tasks = s.tasks)
      (channels : t.app.background = s.app.background) : t.Awaits id call := by
    unfold Awaits Out
    rw [tasks, channels]
    exact ⟨⟨task, at_, channel, out⟩, task, at_, asks⟩
  cases step_did inv nofun stepped with
  | acts _ did cause acts does =>
      rw [acted_app] at still
      obtain ⟨background, none_⟩ := quiet_of_busy acts busy still
      obtain ⟨after, started⟩ := did
      obtain rfl : started = none := none_
      exact same rfl background
  | polls _ stream held page feed polled goes reply noKey =>
      cases polled with
      | pending awaits => exact same rfl rfl
      | ready batch =>
          have streaming : (s.streaming ⟨feed, none⟩).app.background.pending = true := busy
          exact same rfl (quiet_of_busy (App.applyMessages_acts _ batch) streaming still).1
  | replies n feed held bound => exact same rfl rfl
  | posts room message newest => exact same rfl rfl
  | lands other was room message at_other sends fresh newest =>
      rcases eq_or_ne other id with rfl | apart
      · obtain rfl := Option.some.inj (at_.symm.trans at_other)
        have now := List.getElem?_set_self (a := { task with landed := true }) bound
        exact ⟨⟨_, now, channel, out⟩, _, now, asks⟩
      · have now := (List.getElem?_set_ne (a := { was with landed := true }) apart).trans at_
        exact ⟨⟨task, now, channel, out⟩, task, now, asks⟩
  | finishes other was outcome answer at_other running answers =>
      rcases eq_or_ne other id with rfl | apart
      · obtain rfl := Option.some.inj (at_.symm.trans at_other)
        have now := List.getElem?_set_self (a := { task with running := false }) bound
        unfold finished
        rw [if_pos channel]
        exact ⟨⟨_, now, channel, Or.inr ⟨answer, List.mem_append_right _
          (List.mem_singleton_self _)⟩⟩, _, now, asks⟩
      · have now := (List.getElem?_set_ne (a := { was with running := false }) apart).trans at_
        unfold finished
        split
        · exact ⟨⟨task, now, channel, out.imp_right fun ⟨answer, waits⟩ =>
            ⟨answer, List.mem_append_left _ waits⟩⟩, task, now, asks⟩
        · exact ⟨⟨task, now, channel, out⟩, task, now, asks⟩
  | takes _ answer one did acts does => exact absurd rfl waits
  | opens _ room shown n page bound got shows fits one => exact absurd rfl waits

/-- **While a call is out the composer only takes keys**, whatever happens, and while the session
lasts the call that is out is the same one. -/
theorem chat_run (events : List TerminalEvent) {id : ℕ} {call : AppCall} :
    ∀ {s : Terminal Input} {shown : Chat Input}, Inv False s → Composes s.app shown.input →
      (∀ screen, s.app.screen = .chat screen → s.Awaits id call) →
        TerminalEvent.answer ∉ events → run (step kit) s events = some t →
          Inv False t ∧ Composes t.app (events.foldl (recomposed kit) shown).input ∧
            ∀ screen, t.app.screen = .chat screen → t.Awaits id call := by
  induction events with
  | nil =>
      intro s shown inv composes awaits _ ran
      cases ran
      exact ⟨inv, composes, awaits⟩
  | cons event events ih =>
      intro s shown inv composes awaits waits ran
      rw [run_cons] at ran
      obtain ⟨next, stepped, rest⟩ := Option.bind_eq_some_iff.mp ran
      obtain ⟨other, later⟩ := not_or.mp (mt List.mem_cons.mpr waits)
      have goes : Composes next.app (recomposed kit shown event).input ∧
          ∀ screen, next.app.screen = .chat screen → next.Awaits id call := by
        rcases composes with ⟨screen, at_, same, busy⟩ | ⟨screen, at_⟩
        · have composes := chat_step inv at_ same busy (Ne.symm other) stepped
          refine ⟨composes, fun screen' at' => ?_⟩
          -- the screen is still the chat, so the call is still out
          rcases composes with ⟨-, -, -, still⟩ | ⟨gone, ends⟩
          · exact awaits_step inv (awaits screen at_) (Ne.symm other) stepped still
          · rw [ends] at at'
            cases at'
        · obtain ⟨gone, ends⟩ := (signIn_step inv at_ (Ne.symm other) stepped).1
          refine ⟨Or.inr ⟨gone, ends⟩, fun screen' at' => ?_⟩
          rw [ends] at at'
          cases at'
      exact ih (inv_step nofun stepped inv) goes.1 goes.2 later rest

/-- Moving to a room sends nothing. -/
theorem select_not_send (screen : Chat Input) (index : ℕ) (pending : Bool) (body : String) :
    (screen.select index pending).2 ≠ some (.send body) := by
  unfold Chat.select
  dsimp only
  split_ifs <;> nofun

/-- A line that is sent is taken from the composer. -/
theorem handleKey_send {screen : Chat Input} {key : KeyEvent} {pending : Bool} {body : String}
    (asks : (screen.handleKey kit key pending).2 = some (.send body)) :
    (screen.handleKey kit key pending).1.input = kit.empty ∧ App.quits key = false := by
  unfold Chat.handleKey at asks ⊢
  split at asks
  · rename_i enter
    refine ⟨?_, by simp [App.quits, enter]⟩
    simp only [Chat.submit] at asks ⊢
    split_ifs at asks ⊢
    all_goals rfl
  · exact absurd asks (select_not_send screen _ pending body)
  · exact absurd asks (select_not_send screen _ pending body)
  all_goals cases asks

variable (kit s) in
/-- **Nothing of what was typed is lost** when the loop takes the answer that waits: the refused
body is in the composer, and around it are all the characters that were typed. -/
def KeepsTyped (refused typed : String) : Prop :=
  ∃ t screen before after, s.step kit .answer = some t ∧ t.app.screen = .chat screen ∧
    kit.value screen.input = before ++ refused ++ after ∧
      typed.toList.Subperm (before ++ after).toList

theorem send_screen (app : App Input) (body : String) : (app.send body).1.screen = app.screen := by
  unfold App.send
  split
  · rfl
  · rename_i room _
    rcases App.ask_cases app (.send room body) with refused | ⟨-, started⟩
    · rw [refused]
    · rw [started]

/-- Sending a line leaves the composer empty, with the call out. -/
theorem send_step (inv : Inv False s) {key : KeyEvent} {room : RoomId} {body : String}
    {screen : Chat Input} (asks : s.app.asked kit key = some (.send room body))
    (pressed : s.step kit (.key key) = some t) (shows : t.app.screen = .chat screen) :
    kit.value screen.input = "" ∧ t.app.background.pending = true ∧
      ∃ id, t.Awaits id (.send room body) := by
  have asked := asks
  unfold App.asked at asks
  split at asks
  · rw [Option.map_eq_some_iff] at asks
    obtain ⟨form, -, other⟩ := asks
    cases other
  · rw [Option.map_eq_some_iff] at asks
    obtain ⟨intent, -, other⟩ := asks
    cases intent <;> cases other
  · rename_i shown at_
    obtain ⟨intent, asks, call⟩ := Option.bind_eq_some_iff.mp asks
    cases intent with
    | create name => cases call
    | open_ =>
        rw [Option.map_eq_some_iff] at call
        obtain ⟨there, -, other⟩ := call
        cases other
    | send line =>
        -- the line is taken out of the composer as it is submitted
        obtain ⟨taken, stays⟩ := handleKey_send asks
        have starts := (App.handleKey_starts kit inv.sound stays).1.trans asked
        have acts := App.handleKey_acts kit s.app key
        simp only [step] at pressed
        split at pressed
        · cases pressed
        · cases pressed
          rw [acted_app] at shows ⊢
          have same : (s.app.handleKey kit key).1.screen
              = .chat (shown.handleKey kit key s.app.background.pending).1 := by
            simp only [App.handleKey, stays, at_, asks, Bool.false_eq_true, if_false]
            exact send_screen _ _
          obtain rfl := Screen.chat.inj (same.symm.trans shows)
          refine ⟨by rw [taken, kit.value_empty], ?_⟩
          cases did : s.app.handleKey kit key with
          | mk after started =>
              rw [did] at acts starts
              obtain rfl : started = _ := starts
              cases acts with
              | starts _ _ idle busy =>
                  have at_ : (s.acted (after, some (.send room body))).tasks[s.tasks.length]?
                      = some ⟨after.background.channel, .send room body, true, false⟩ :=
                    List.getElem?_concat_length
                  refine ⟨?_, s.tasks.length, ⟨_, at_, rfl, Or.inl rfl⟩, _, at_, rfl⟩
                  change after.background.pending = true
                  rw [busy]

theorem call_of_messageSent {log : List (RoomId × Message)} {call : AppCall} {outcome : Outcome}
    {body : String} {result : Except ChatError Unit}
    (answers : answerTo log call outcome = some (.messageSent body result)) :
    ∃ room, call = .send room body := by
  unfold answerTo at answers
  split at answers
  case h_9 room line =>
    cases answers
    exact ⟨room, rfl⟩
  case h_10 room line error =>
    cases answers
    exact ⟨room, rfl⟩
  all_goals first | cases answers | (split at answers <;> cases answers)

/-- While the answer to a send waits, the composer shows, and the answer is about the line of
the call that is out. -/
theorem composes_of_sent (inv : Inv False s) {id sent : ℕ} {room : RoomId} {body refused : String}
    {error : ChatError} {input : Input}
    (answered : s.app.background.answers = [(id, .messageSent refused (.error error))])
    (composes : Composes s.app input)
    (awaits : ∀ screen, s.app.screen = .chat screen → s.Awaits sent (.send room body)) :
    refused = body ∧ ∃ shown, s.app.screen = .chat shown ∧ shown.input = input := by
  cases inv.calls with
  | idle _ none_ _ =>
      rw [none_] at answered
      cases answered
  | out _ _ _ _ none_ _ _ =>
      rw [none_] at answered
      cases answered
  | waits _ call _ _ busy one is _ fits answers =>
      rw [one] at answered
      cases answered
      obtain ⟨log, outcome, -, answers⟩ := answers
      obtain ⟨room', rfl⟩ := call_of_messageSent answers
      obtain ⟨there, at_⟩ := fits
      rcases composes with ⟨shown, shows, same, -⟩ | ⟨shown, shows⟩
      · refine ⟨?_, shown, shows, same⟩
        obtain ⟨out, task, at_sent, sends⟩ := awaits shown shows
        obtain ⟨only, -, unique⟩ := inv.one_out busy
        have waiting : (id, Answer.messageSent refused (.error error))
            ∈ s.app.background.answers := by
          rw [one]
          exact List.mem_singleton_self _
        obtain rfl : id = sent :=
          (unique id ⟨_, is, rfl, Or.inr ⟨_, waiting⟩⟩).trans (unique sent out).symm
        obtain rfl := Option.some.inj (at_sent.symm.trans is)
        exact (AppCall.send.inj sends).2
      · rw [at_] at shows
        cases shows

/-- The refused line is put back over what the composer holds. -/
theorem keepsTyped_iff {screen : Chat Input} (at_ : s.app.screen = .chat screen)
    (going : s.app.exit = false) {id : ℕ} {refused : String} {error : ChatError}
    (answered : s.app.background.answers = [(id, .messageSent refused (.error error))])
    (stays : error.gone = false) :
    KeepsTyped kit s refused (kit.value screen.input) ↔ kit.value screen.input = "" := by
  have stepped : s.step kit .answer = some { s.freed with app := { s.freed.app with
      screen := .chat ((screen.restore kit refused).warn error.display) } } := by
    simp only [step, going, answered, App.answer, App.restored, at_, App.refused, App.signedOut,
      stays, acted, freed, Answer.page]
  unfold KeepsTyped
  rw [stepped]
  constructor
  · rintro ⟨t, shown, before, after, same, shows, holds, typed⟩
    cases same
    cases shows
    have value : kit.value ((screen.restore kit refused).warn error.display).input = refused :=
      kit.value_new refused
    rw [value] at holds
    -- the composer holds the refused line and no more, so nothing else was typed
    have lengths := congrArg String.length holds
    have fits := typed.length_le
    rw [String.length_append, String.length_append] at lengths
    rw [String.length_toList, String.length_toList, String.length_append] at fits
    refine String.toList_eq_nil_iff.mp (List.length_eq_zero_iff.mp ?_)
    rw [String.length_toList]
    omega
  · intro empty
    refine ⟨_, _, "", "", rfl, rfl, ?_, ?_⟩
    · rw [String.append_empty, String.empty_append]
      exact kit.value_new refused
    · rw [empty]
      exact List.Subperm.refl _

/-- **When a failed send loses nothing that was typed**: when the composer, which was emptied as
the line was sent, is empty as its answer comes.  What is restored is the line that was sent, and
it replaces what has been typed since. -/
theorem typed_kept_iff {form : ConnectionForm} {before between : List TerminalEvent}
    {key : KeyEvent} {room : RoomId} {body refused : String} {screen : Chat Input} {id : ℕ}
    {error : ChatError} (ran : run (step kit) (launched kit form) before = some s)
    (asks : s.app.asked kit key = some (.send room body))
    (pressed : s.step kit (.key key) = some t) (shows : t.app.screen = .chat screen)
    (waits : TerminalEvent.answer ∉ between) (goes : run (step kit) t between = some u)
    (going : u.app.exit = false)
    (answered : u.app.background.answers = [(id, .messageSent refused (.error error))])
    (stays : error.gone = false) :
    kit.value screen.input = "" ∧ refused = body ∧
      (KeepsTyped kit u refused (kit.value (between.foldl (recomposed kit) screen).input) ↔
        kit.value (between.foldl (recomposed kit) screen).input = "") := by
  have inv := run_inv ran
  obtain ⟨empty, busy, sent, awaits⟩ := send_step inv asks pressed shows
  obtain ⟨later, composes, awaits⟩ := chat_run between (inv_step nofun pressed inv)
    (Or.inl ⟨screen, shows, rfl, busy⟩) (fun _ _ => awaits) waits goes
  obtain ⟨same_line, shown, at_, same⟩ := composes_of_sent later answered composes awaits
  rw [← same]
  exact ⟨empty, same_line, keepsTyped_iff at_ going answered stays⟩

namespace Sample

/-- A line is typed in the first room. -/
def lined : List TerminalEvent := entering ++ [typed 'a']

/-- The server does not answer. -/
def unanswered : ChatError := .transport .timeout

end Sample

/-- Nothing is typed before the refusal, and the line is put back. -/
theorem typed_kept_untouched : ∃ s t u, run (step Toolkit.plain)
    (launched Toolkit.plain ConnectionForm.Sample.answered) Sample.lined = some s ∧
      s.step Toolkit.plain Sample.enter = some t ∧
      run (step Toolkit.plain) t [.finish 3 (.failed Sample.unanswered)] = some u ∧
      KeepsTyped Toolkit.plain u "a" "" := by
  obtain ⟨s, t, u, screen, ran, asks, pressed, shows, goes, going, answered, empty⟩ :
      ∃ s t u screen, run (step Toolkit.plain)
        (launched Toolkit.plain ConnectionForm.Sample.answered) Sample.lined = some s ∧
        s.app.asked Toolkit.plain { code := .enter } = some (.send ⟨1⟩ "a") ∧
        s.step Toolkit.plain Sample.enter = some t ∧ t.app.screen = .chat screen ∧
        run (step Toolkit.plain) t [.finish 3 (.failed Sample.unanswered)] = some u ∧
        u.app.exit = false ∧
        u.app.background.answers = [(3, .messageSent "a" (.error Sample.unanswered))] ∧
        Toolkit.plain.value ([TerminalEvent.finish 3 (.failed Sample.unanswered)].foldl
          (recomposed Toolkit.plain) screen).input = "" :=
    ⟨_, _, _, _, rfl, rfl, rfl, rfl, rfl, rfl, rfl, rfl⟩
  have law := (typed_kept_iff ran asks pressed shows (by simp) goes going answered rfl).2.2
  refine ⟨s, t, u, ran, pressed, goes, ?_⟩
  have kept := law.mpr empty
  rwa [empty] at kept

/-- **A letter is typed before the refusal**, and the line that is put back takes its place. -/
theorem typed_letter_lost : ∃ s t u screen, run (step Toolkit.plain)
    (launched Toolkit.plain ConnectionForm.Sample.answered) Sample.lined = some s ∧
      s.step Toolkit.plain Sample.enter = some t ∧
      run (step Toolkit.plain) t [Sample.typed 'b', .finish 3 (.failed Sample.unanswered)]
        = some u ∧
      u.app.background.answers = [(3, .messageSent "a" (.error Sample.unanswered))] ∧
      u.app.screen = .chat screen ∧ screen.input = "b" ∧ ¬ KeepsTyped Toolkit.plain u "a" "b" := by
  obtain ⟨s, t, u, screen, ran, pressed, goes, going, answered, at_, holds⟩ : ∃ s t u screen,
      run (step Toolkit.plain) (launched Toolkit.plain ConnectionForm.Sample.answered) Sample.lined
        = some s ∧ s.step Toolkit.plain Sample.enter = some t ∧
        run (step Toolkit.plain) t [Sample.typed 'b', .finish 3 (.failed Sample.unanswered)]
          = some u ∧
        u.app.exit = false ∧
        u.app.background.answers = [(3, .messageSent "a" (.error Sample.unanswered))] ∧
        u.app.screen = .chat screen ∧ screen.input = "b" :=
    ⟨_, _, _, _, rfl, rfl, rfl, rfl, rfl, rfl, rfl⟩
  refine ⟨s, t, u, screen, ran, pressed, goes, answered, at_, holds, fun kept => ?_⟩
  have typed : Toolkit.plain.value screen.input = "b" := holds
  rw [← typed] at kept
  have empty := (keepsTyped_iff at_ going answered rfl).mp kept
  rw [typed] at empty
  exact absurd empty (by decide)

end Terminal

end ScionChat
