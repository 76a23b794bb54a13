import ScionChat.Server.Api.Sessions

/-!
# A data directory, and the servers that run over it

A server is started over a directory that holds two files: the database, and the secret that tokens
are signed under.  `ChatServer.state` opens the one and loads the other, and each has a rule of its
own for what an earlier server left there.  A database of another schema version is discarded.  The
secret is kept as it is.

`Host` is the directory together with the server that runs over it, if one does, and the ledger of
the tokens issued so far, by whatever server.  Its runs start and stop servers, serve requests step
by step, and let a build of another schema version run over the directory in between.  A server
that is stopped is stopped between two steps of the requests it is serving, and one that is killed
as it starts leaves behind what one leaves whose next step fails.

A token is good while the secret is, whatever becomes of the database: `token_origin` says which
login an accepted token goes back to, and that the account it was given for is still there unless
the database has been discarded since.

### design decisions

* **One ledger for all servers.**  The tokens are not in the directory, since the server does not
  keep them.  They belong to the host because a token that one server has handed out is shown to
  the next, and is good there as long as the secret is the same.
* **A foreign build is free.**  It may leave any database, and have issued any tokens, under the
  directory's secret as well, since it loads the same file.  So a token may go back to it, and
  `Origin` has a case for that.

### What is load-bearing

`Host.Sound`, kept by every event: the tables are valid unless another build left them, and the
requests of a server that runs are in good order.  The results over one server and over one store
reach every run of a directory through it.
-/

namespace ScionChat

open Interleaving TransitionSystem

/-! ### Starting -/

/-- The files of a data directory.  Both may be missing, and each is made by the start that misses
it. -/
structure Disk where
  database : Option DbFile
  secret : Option Secret
  deriving DecidableEq

/-- The directory with another database file. -/
def Disk.withDatabase (disk : Disk) (file : Option DbFile) : Disk :=
  { disk with database := file }

/-- The directory with another secret. -/
def Disk.withSecret (disk : Disk) (file : Option Secret) : Disk :=
  { disk with secret := file }

/-- The part of `RunError` that `state` can fail with.  A start that fails leaves behind what its
steps have written by then. -/
inductive RunError
  | store (source : StoreError)
  | auth (source : AuthError)
  deriving DecidableEq, Repr

/-- An operation on the database file of the directory. -/
def onDatabase {α : Type} (query : FileQuery α) : Fallible Moment RunError Disk α :=
  inside Disk.database (fun file disk => disk.withDatabase file) .store query

/-- An operation on the secret's file. -/
def onSecret {α : Type} (query : SecretQuery α) : Fallible Moment RunError Disk α :=
  inside Disk.secret (fun file disk => disk.withSecret file) .auth query

section

variable {α β : Type} (f : α → Fallible Moment RunError Disk β) (ω : ℕ → Moment) (disk : Disk)

theorem exec_onDatabase_bind (query : FileQuery α) :
    ∃ n, (onDatabase query >>= f).run.exec ω disk
      = (onOk f ((query.run.exec ω disk.database).1.mapError .store)).exec (fun k => ω (k + n))
          (disk.withDatabase (query.run.exec ω disk.database).2) :=
  exec_inside_bind disk.withDatabase (fun _ => rfl) (fun _ _ => rfl) _ query f ω disk.database

theorem exec_onSecret_bind (query : SecretQuery α) :
    ∃ n, (onSecret query >>= f).run.exec ω disk
      = (onOk f ((query.run.exec ω disk.secret).1.mapError .auth)).exec (fun k => ω (k + n))
          (disk.withSecret (query.run.exec ω disk.secret).2) :=
  exec_inside_bind disk.withSecret (fun _ => rfl) (fun _ _ => rfl) _ query f ω disk.secret

end

/-- `chat_server::state`: everything the handlers need, built from the configuration.  The store is
opened first, and the secret is loaded after it. -/
def ChatServer.state (crypto : Crypto) (config : Config) :
    Fallible Moment RunError Disk AppState := do
  onDatabase SqliteStore.new
  -- the store creates the data directory, so the secret can be written beside the database
  let secret ← onSecret loadOrCreateSecret
  return { crypto := crypto
           tokens := { secret := secret, validity := config.tokenValidity }
           config := config }

/-- **Starting a server** does to the database what opening it does, and it succeeds only if that
does.  Loading the secret does not touch the database, and opening the database does not touch the
secret. -/
theorem ChatServer.state_exec (crypto : Crypto) (config : Config) (ω : ℕ → Moment)
    (disk : Disk) :
    ((ChatServer.state crypto config).run.exec ω disk).2.database
        = (SqliteStore.new.run.exec ω disk.database).2 ∧
      ∀ app, ((ChatServer.state crypto config).run.exec ω disk).1 = .ok app →
        (SqliteStore.new.run.exec ω disk.database).1 = .ok () := by
  have loads : ∀ (file : Option DbFile) (ω : ℕ → Moment),
      ∃ r : Except RunError AppState × Option Secret,
        (onSecret loadOrCreateSecret >>= fun secret => pure
          ({ crypto := crypto
             tokens := { secret := secret, validity := config.tokenValidity }
             config := config } : AppState)).run.exec ω (disk.withDatabase file)
          = (r.1, (disk.withDatabase file).withSecret r.2) := by
    intro file ω
    obtain ⟨n, loading⟩ := exec_onSecret_bind (fun secret => pure
      ({ crypto := crypto
         tokens := { secret := secret, validity := config.tokenValidity }
         config := config } : AppState)) ω (disk.withDatabase file) loadOrCreateSecret
    rw [loading]
    rcases loadOrCreateSecret.run.exec ω (disk.withDatabase file).secret with ⟨e | secret, file'⟩
    · exact ⟨(.error (.auth e), file'), rfl⟩
    · exact ⟨(.ok _, file'), rfl⟩
  unfold ChatServer.state
  obtain ⟨n, opening⟩ := exec_onDatabase_bind _ ω disk SqliteStore.new
  rw [opening]
  rcases SqliteStore.new.run.exec ω disk.database with ⟨e | done, file⟩
  · exact ⟨rfl, nofun⟩
  · obtain ⟨r, eq⟩ := loads file fun k => ω (k + n)
    simp only [Except.mapError, onOk_ok, eq]
    exact ⟨rfl, fun _ _ => trivial⟩

/-! ### The host -/

/-- A data directory, the tokens that have been issued over it, and the server that runs, with
the requests it is serving. -/
structure Host where
  disk : Disk
  issued : List Issued
  running : Option (AppState × List (Thread Request Moment World Response))

/-- What happens to a host.  Only one server runs at a time, and it may be stopped in the middle of
anything. -/
inductive HostEvent
  /-- A server is started; the moments are those of its steps. -/
  | start (config : Config) (moments : ℕ → Moment)
  /-- The server is stopped, with whatever it is serving. -/
  | stop
  /-- A request arrives, or takes its next step. -/
  | request (label : Label Request Moment)
  /-- A build of another schema version has run over the directory: what it left of the
  database, and the tokens it issued. -/
  | otherBuild (file : DbFile) (tokens : List Issued)

namespace Host

/-- The directory before any server has run over it. -/
def new : Host := ⟨⟨none, none⟩, [], none⟩

/-- What a server over the directory works on. -/
def world (h : Host) : World := ⟨DbFile.db h.disk.database, h.issued⟩

/-- The host after a step of the server that runs. -/
def after (h : Host) (app : AppState) (q : ServerPool) : Host where
  disk := h.disk.withDatabase (DbFile.withDb q.state.db h.disk.database)
  issued := q.state.issued
  running := some (app, q.threads)

/-- One event.  One server runs at a time. -/
def step (crypto : Crypto) (h : Host) : HostEvent → Option Host
  | .start config ω =>
      if h.running.isSome then none
      else
        let started := (ChatServer.state crypto config).run.exec ω h.disk
        some { h with disk := started.2, running := started.1.toOption.map fun app => (app, []) }
  | .stop => some { h with running := none }
  | .request label =>
      match h.running with
      | none => none
      | some (app, threads) => (serve app ⟨h.world, threads⟩ label).map (h.after app)
  | .otherBuild file tokens =>
      if h.running.isSome ∨ ¬ Foreign (some file) then none
      else some { h with disk := h.disk.withDatabase (some file), issued := h.issued ++ tokens }

/-- **Between two events** the tables are valid, unless another build left them; the server
that runs has opened them, and its requests are in good order. -/
structure Sound (h : Host) : Prop where
  valid : ¬ Foreign h.disk.database → (DbFile.db h.disk.database).Valid
  running : ∀ app threads, h.running = some (app, threads) →
    (∃ db, h.disk.database = opened db) ∧ ServerSound app ⟨h.world, threads⟩

theorem sound_new : Sound new :=
  ⟨fun _ => Db.Valid.empty, nofun⟩

variable {crypto : Crypto} {g h : Host}

/-- **What opening the directory's database does**: the accounts of a native file are kept.  A
foreign one is discarded with everything in it, and what is there afterwards is valid. -/
theorem opening_frame (ω : ℕ → Moment) {file : Option DbFile}
    (valid : ¬ Foreign file → (DbFile.db file).Valid) :
    (¬ Foreign (SqliteStore.new.run.exec ω file).2 →
        (DbFile.db (SqliteStore.new.run.exec ω file).2).Valid) ∧
      (¬ Foreign file → (DbFile.db (SqliteStore.new.run.exec ω file).2).users
        = (DbFile.db file).users) ∧
        ((SqliteStore.new.run.exec ω file).1 = .ok () →
          ∃ db, (SqliteStore.new.run.exec ω file).2 = opened db) := by
  have left_valid : (DbFile.db (discarded file)).Valid := by
    by_cases foreign : Foreign file
    · rw [discarded, if_pos foreign]
      exact Db.Valid.empty
    · rw [discarded_of_native foreign]
      exact valid foreign
  rcases new_exec ω file with ⟨e, file', eq, left⟩ | ⟨seed, eq⟩
  · rw [eq]
    refine ⟨?_, ?_, nofun⟩
    · rcases left with rfl | ⟨same, -⟩
      · exact valid
      · exact fun _ => same ▸ left_valid
    · intro native
      rcases left with rfl | ⟨same, -⟩
      · rfl
      · rw [same, discarded_of_native native]
  · obtain ⟨seeded, users, -⟩ := seedLobby_frame seed left_valid
    rw [eq]
    refine ⟨fun _ => seeded, fun native => ?_, fun _ => ⟨_, rfl⟩⟩
    rw [db_opened, users, discarded_of_native native]

/-- A step of the server that runs, seen from the host. -/
theorem step_request {label : Label Request Moment}
    (stepped : step crypto g (.request label) = some h) :
    ∃ app threads q, g.running = some (app, threads) ∧
      serve app ⟨g.world, threads⟩ label = some q ∧ h = g.after app q := by
  simp only [step] at stepped
  split at stepped
  · cases stepped
  next app threads running =>
    obtain ⟨q, served, same⟩ := Option.map_eq_some_iff.mp stepped
    exact ⟨app, threads, q, running, served, same.symm⟩

variable (crypto) in
/-- The server that runs takes its steps as it would by itself. -/
theorem run_requests {app : AppState} {labels : List (Label Request Moment)} :
    ∀ {g : Host} {threads : List (Thread Request Moment World Response)} {q : ServerPool},
      g.running = some (app, threads) → (∃ db, g.disk.database = opened db) →
        run (serve app) ⟨g.world, threads⟩ labels = some q →
          ∃ h, run (step crypto) g (labels.map .request) = some h ∧
            h.running = some (app, q.threads) ∧ h.world = q.state := by
  induction labels with
  | nil =>
      intro g threads q running _ ran
      cases ran
      exact ⟨g, rfl, running, rfl⟩
  | cons label rest ih =>
      intro g threads q running at_file ran
      obtain ⟨db, at_file⟩ := at_file
      rw [run_cons] at ran
      obtain ⟨p, served, onward⟩ := Option.bind_eq_some_iff.mp ran
      have stepped : step crypto g (.request label) = some (g.after app p) := by
        simp only [step, running, served, Option.map_some]
      have tables : (g.after app p).disk.database = opened p.state.db :=
        congrArg (DbFile.withDb p.state.db) at_file
      have same : (g.after app p).world = p.state := by
        rw [world, tables]
        rfl
      obtain ⟨h, ran', running', ends⟩ := @ih (g.after app p) p.threads q rfl
        ⟨_, tables⟩ (by rw [same]; exact onward)
      refine ⟨h, ?_, running', ends⟩
      rw [List.map_cons, run_cons, stepped]
      exact ran'

variable (crypto) in
/-- **A request that arrives and is let alone** does to the world what serving it does.  The server
that runs may have other requests under way, and they wait. -/
theorem run_alone {app : AppState} {threads : List (Thread Request Moment World Response)}
    (sound : Sound g) (running : g.running = some (app, threads)) (req : Request)
    (ω : ℕ → Moment) : ∃ (moments : List Moment) (h : Host) (threads' : _),
      run (step crypto) g (.request (.spawn req) ::
        moments.map fun m => .request (.advance threads.length m)) = some h ∧
          h.running = some (app, threads') ∧ h.world = ((handle app req).exec ω g.world).2 := by
  obtain ⟨n, moments, ran⟩ := Pool.run_alone (handle app) ⟨g.world, threads⟩ req ω
  obtain ⟨h, ran', running', ends⟩ :=
    run_requests crypto running (sound.running app threads running).1 ran
  refine ⟨moments, h, _, ?_, running', ends⟩
  rw [List.map_cons, List.map_map] at ran'
  exact ran'

theorem Sound.step {event : HostEvent} (sound : Sound g)
    (stepped : step crypto g event = some h) : Sound h := by
  cases event with
  | start config ω =>
      simp only [Host.step] at stepped
      split at stepped
      · cases stepped
      · cases stepped
        obtain ⟨database, starts⟩ := ChatServer.state_exec crypto config ω g.disk
        obtain ⟨valid, -, native⟩ := opening_frame ω sound.valid
        rw [← database] at valid native
        refine ⟨valid, fun app threads running => ?_⟩
        obtain ⟨app', ran, same⟩ := Option.map_eq_some_iff.mp running
        cases same
        -- a server runs only if it has been started, so the database is open
        have started : ((ChatServer.state crypto config).run.exec ω g.disk).1 = .ok app := by
          revert ran
          cases ((ChatServer.state crypto config).run.exec ω g.disk).1 with
          | error e => exact nofun
          | ok app' => exact fun ran => congrArg _ (Option.some.inj ran)
        obtain ⟨db, at_file⟩ := native (starts app started)
        refine ⟨⟨db, at_file⟩, Pool.sound_idle (valid ?_)⟩
        rw [at_file]
        exact not_foreign_opened db
  | stop =>
      cases stepped
      exact ⟨sound.valid, nofun⟩
  | request label =>
      obtain ⟨app, threads, q, running, served, rfl⟩ := step_request stepped
      obtain ⟨⟨db, at_file⟩, before⟩ := sound.running app threads running
      have after : ServerSound app q := before.step served
      have tables : (g.after app q).disk.database = opened q.state.db :=
        congrArg (DbFile.withDb q.state.db) at_file
      refine ⟨fun _ => ?_, fun app' threads' running' => ?_⟩
      · rw [tables]
        exact after.inv
      · cases running'
        refine ⟨⟨_, tables⟩, ?_⟩
        have same : (g.after app q).world = q.state := by
          rw [world, tables]
          rfl
        rw [same]
        exact after
  | otherBuild file tokens =>
      simp only [Host.step] at stepped
      split at stepped
      · cases stepped
      next free =>
        cases stepped
        obtain ⟨stopped, foreign⟩ := not_or.mp free
        -- another build leaves a file of its own schema version, and no server of ours runs
        refine ⟨fun native => absurd native foreign, fun app threads running => ?_⟩
        exact absurd (by rw [running]; rfl) stopped

/-! ### Where a token comes from, and what becomes of its account -/

/-- **A token was handed out** in the event that took the host from `g` to `h`: a login was
answered with it, whose password is that of the account in the `i`-th row. -/
structure HandsOut (entry : Issued) (i : ℕ) (row : UserRow) (g h : Host) : Prop where
  issued : h.issued = g.issued ++ [entry]
  login : ∃ app threads k body, h.running = some (app, threads) ∧
    app.tokens.secret = entry.secret ∧ HasLoggedIn ⟨h.world, threads⟩ k body entry.token ∧
      body.username = entry.claims.sub ∧ NoCase row.username body.username ∧
        verifyPassword app.crypto body.password (some row.pwHash) = true
  account : h.world.db.users[i]? = some row

/-- A start that finds a database of this build's schema version, or none, keeps it. -/
def KeepsDatabase (h : Host) : HostEvent → Prop
  | .start _ _ => ¬ Foreign h.disk.database
  | _ => True

/-- **Every token is handed out by a login**, or another build has issued it.  No other event adds
to the ledger, and starting a server is none that does. -/
theorem Sound.issued {event : HostEvent} (sound : Sound g)
    (stepped : Host.step crypto g event = some h) {entry : Issued} (mem : entry ∈ h.issued) :
    entry ∈ g.issued ∨ (∃ file tokens, event = .otherBuild file tokens ∧ entry ∈ tokens) ∨
      ∃ i row, HandsOut entry i row g h := by
  cases event with
  | start config ω =>
      simp only [Host.step] at stepped
      split at stepped
      · cases stepped
      · cases stepped
        exact Or.inl mem
  | stop =>
      cases stepped
      exact Or.inl mem
  | request label =>
      obtain ⟨app, threads, q, running, served, rfl⟩ := step_request stepped
      obtain ⟨⟨db, at_file⟩, before⟩ := sound.running app threads running
      have tables : (g.after app q).world = q.state := by
        rw [world]
        exact congrArg (fun file => (⟨DbFile.db (DbFile.withDb q.state.db file), q.state.issued⟩ :
          World)) at_file
      cases label with
      | spawn req =>
          cases served
          exact Or.inl mem
      | advance k m =>
          obtain ⟨req, n, old, next, found, eq, rel, acts, -⟩ := before.advance trivial served
          -- a step of a handler issues nothing, or the token of a login that it answers
          rcases acts.issued with same | ⟨body, reply, loggingIn, answer, ⟨row, listed, named,
            opens⟩, now, adds⟩
          · have kept : q.state.issued = g.issued := same
            exact Or.inl (kept ▸ mem)
          · have added : q.state.issued = g.issued ++ [⟨app.tokens.secret,
              app.tokens.claims body.username now, reply.token⟩] := adds
            have mem' : entry ∈ q.state.issued := mem
            rw [added] at mem'
            rcases List.mem_append.mp mem' with old | new
            · exact Or.inl old
            · cases List.mem_singleton.mp new
              obtain ⟨i, at_i⟩ := List.getElem?_of_mem (rel.db.user listed)
              refine Or.inr (Or.inr ⟨i, row, added, ⟨app, q.threads, k, body, rfl, rfl, ?_, rfl,
                named, opens⟩, ?_⟩)
              · refine ⟨req, reply, ?_, loggingIn, rfl⟩
                rw [tables]
                rw [eq]
                exact Pool.returned_of_outcome found answer
              · rw [tables]
                exact at_i
  | otherBuild file tokens =>
      simp only [Host.step] at stepped
      split at stepped
      · cases stepped
      · cases stepped
        rcases List.mem_append.mp mem with old | new
        · exact Or.inl old
        · exact Or.inr (Or.inl ⟨file, tokens, rfl, new⟩)

/-- The accounts of `g` are still there in `h`, unless another build has been over it. -/
def Kept (g h : Host) : Prop :=
  ¬ Foreign h.disk.database → g.world.db.users <+: h.world.db.users

/-- An event that does not discard the database keeps the accounts. -/
theorem Kept.step {f : Host} {event : HostEvent} (sound : Sound g) (keeps : KeepsDatabase g event)
    (stepped : Host.step crypto g event = some h) (kept : Kept f g) : Kept f h := by
  cases event with
  | start config ω =>
      simp only [Host.step] at stepped
      split at stepped
      · cases stepped
      · cases stepped
        obtain ⟨database, -⟩ := ChatServer.state_exec crypto config ω g.disk
        obtain ⟨-, users, -⟩ := opening_frame ω sound.valid
        intro _
        unfold world
        dsimp only
        rw [database, users keeps]
        exact kept keeps
  | stop =>
      cases stepped
      exact kept
  | request label =>
      obtain ⟨app, threads, q, running, served, rfl⟩ := step_request stepped
      obtain ⟨⟨db, at_file⟩, before⟩ := sound.running app threads running
      have rel : World.Extends g.world q.state :=
        before.rel (by cases label <;> exact trivial) served
      intro _
      have tables : (g.after app q).world.db = q.state.db :=
        congrArg (fun file => DbFile.db (DbFile.withDb q.state.db file)) at_file
      rw [tables]
      refine (kept ?_).trans rel.db.users
      rw [at_file]
      exact not_foreign_opened db
  | otherBuild file tokens =>
      simp only [Host.step] at stepped
      split at stepped
      · cases stepped
      next free =>
        cases stepped
        exact fun native => absurd native (not_or.mp free).2

/-- **A run of a host**, from a directory that no server has run over.  The directory is empty at
its start, and no token has been issued under any secret. -/
def Ran (crypto : Crypto) (events : List HostEvent) (h : Host) : Prop :=
  run (Host.step crypto) new events = some h

theorem Ran.sound {events : List HostEvent} (ran : Ran crypto events h) : Sound h :=
  run_invariant (fun _ _ _ stepped sound => Sound.step sound stepped) ran sound_new

/-- **The origin of a token**: the event that handed it out, and the account it was handed out
for; or a build of another schema version. -/
def Origin (crypto : Crypto) (events : List HostEvent) (h : Host) (entry : Issued) : Prop :=
  (∃ file tokens, .otherBuild file tokens ∈ events ∧ entry ∈ tokens) ∨
    ∃ before event rest g g' i row, events = before ++ event :: rest ∧ Ran crypto before g ∧
      Host.step crypto g event = some g' ∧ run (Host.step crypto) g' rest = some h ∧
        HandsOut entry i row g g'

/-- Every token has one. -/
theorem Ran.origin {events : List HostEvent} (ran : Ran crypto events h) :
    ∀ entry ∈ h.issued, Origin crypto events h entry := by
  refine run_induction (motive := fun events h => ∀ entry ∈ h.issued,
    Origin crypto events h entry) (fun entry mem => absurd mem List.not_mem_nil) ?_ ran
  intro events g event h ran ih stepped entry mem
  rcases (Ran.sound ran).issued stepped mem with old | ⟨file, tokens, rfl, new⟩ | ⟨i, row, hands⟩
  · rcases ih entry old with ⟨file, tokens, other, new⟩ | ⟨before, event', rest, f, f', i, row,
      rfl, ran', stepped', onward, hands⟩
    · exact Or.inl ⟨file, tokens, List.mem_append_left _ other, new⟩
    · refine Or.inr ⟨before, event', rest ++ [event], f, f', i, row, by simp, ran', stepped',
        ?_, hands⟩
      rw [run_concat, onward]
      exact stepped
  · exact Or.inl ⟨file, tokens, List.mem_append_right _ (List.mem_singleton_self _), new⟩
  · exact Or.inr ⟨events, event, [], g, h, i, row, rfl, ran, stepped, rfl, hands⟩

/-- **The account of a token stays**, in its row, as long as the database does.  Rows are never
moved, so an account is found where it was. -/
theorem HandsOut.kept {f : Host} {entry : Issued} {i : ℕ} {row : UserRow}
    (hands : HandsOut entry i row f g) (sound : Sound g) {rest : List HostEvent}
    (keeps : Along (Host.step crypto) KeepsDatabase g rest)
    (onward : run (Host.step crypto) g rest = some h) (native : ¬ Foreign h.disk.database) :
    h.world.db.users[i]? = some row := by
  have kept := run_invariant_along (P := fun h => Sound h ∧ Kept g h)
    (fun _ _ _ keeps stepped inv => ⟨inv.1.step stepped, inv.2.step inv.1 keeps stepped⟩) keeps
    onward ⟨sound, fun _ => List.prefix_refl _⟩
  obtain ⟨tail, split⟩ := kept.2 native
  rw [← split, List.getElem?_append_left (List.getElem?_eq_some_iff.mp hands.account).1]
  exact hands.account

/-- **What an accepted token goes back to**: a login as that user, under the secret in use.  The
account it was handed out for is still in its row, unless a start has found a database of
another schema version since.  Or a build of another schema version has issued it. -/
def GoesBack (crypto : Crypto) (events : List HostEvent) (h : Host) (app : AppState)
    (authorization : Option (List UInt8)) (now : ℕ) (username : String) : Prop :=
  ∃ entry ∈ h.issued, bearerToken authorization = some entry.token ∧
    entry.secret = app.tokens.secret ∧ entry.claims.sub = username ∧
      now / 1000 ≤ entry.claims.exp ∧
        ((∃ file tokens, .otherBuild file tokens ∈ events ∧ entry ∈ tokens) ∨
          ∃ before event rest g g' i row, events = before ++ event :: rest ∧
            Ran crypto before g ∧ Host.step crypto g event = some g' ∧
              HandsOut entry i row g g' ∧
                (Along (Host.step crypto) KeepsDatabase g' rest →
                  h.world.db.users[i]? = some row))

/-- **A token lives as long as the secret does, and its account as long as the database**, in every
run of servers over one directory.  Servers may be stopped and started again, and a build of
another schema version may have run over the directory in between. -/
theorem token_origin {events : List HostEvent} (ran : Ran crypto events h) {app : AppState}
    {threads : List (Thread Request Moment World Response)}
    (running : h.running = some (app, threads)) {authorization : Option (List UInt8)} {now : ℕ}
    {username : String} (accepted : authenticate app authorization now h.issued = .ok username) :
    GoesBack crypto events h app authorization now username := by
  obtain ⟨token, sent, verified⟩ := authenticate_eq_ok app accepted
  obtain ⟨entry, mem, secret, rfl, sub, live⟩ := Tokens.verify_eq_ok verified
  refine ⟨entry, mem, sent, secret, sub, live, (ran.origin entry mem).imp id ?_⟩
  rintro ⟨before, event, rest, g, g', i, row, split, ran', stepped, onward, hands⟩
  refine ⟨before, event, rest, g, g', i, row, split, ran', stepped, hands, fun keeps => ?_⟩
  obtain ⟨⟨db, at_file⟩, -⟩ := ran.sound.running app threads running
  refine hands.kept (ran'.sound.step stepped) keeps onward ?_
  rw [at_file]
  exact not_foreign_opened db

/-- A server is started, and nothing goes wrong. -/
def starts : HostEvent :=
  .start Sample.state.config fun _ => {}

/-- Alice registers and logs in, and the server is stopped. -/
def aliceLogsIn : List HostEvent :=
  starts :: ((Sample.session "alice").take 7).map .request ++ [.stop]

/-- Alice's header. -/
def aliceHeader : Option (List UInt8) :=
  (Sample.post "alice.604800" "hi").authorization

/-- The server is started again, and Alice's account is there. -/
theorem token_origin_restart : ∃ h app,
    h.running = some (app, []) ∧ h.world.db.users = [⟨"alice", "pw", 0⟩] ∧
      GoesBack .plain (aliceLogsIn ++ [starts]) h app aliceHeader 0 "alice" := by
  obtain ⟨h, app, ran, running, users, accepted⟩ : ∃ h app,
      Ran .plain (aliceLogsIn ++ [starts]) h ∧
        h.running = some (app, []) ∧ h.world.db.users = [⟨"alice", "pw", 0⟩] ∧
          authenticate app aliceHeader 0 h.issued = .ok "alice" :=
    ⟨_, _, rfl, rfl, rfl, rfl⟩
  exact ⟨h, app, running, users, token_origin ran running accepted⟩

/-- **A token outlives its account**: a build of another schema version has run over the
directory, the database is rebuilt, and the server still acts for Alice. -/
theorem token_outlives_account : ∃ h app,
    Ran .plain (aliceLogsIn ++ [.otherBuild ⟨2, none⟩ [], starts]) h ∧
      h.running = some (app, []) ∧
      authenticate app aliceHeader 0 h.issued = .ok "alice" ∧
        ¬ ∃ row ∈ h.world.db.users, NoCase row.username "alice" := by
  refine ⟨_, _, rfl, rfl, rfl, ?_⟩
  rintro ⟨row, mem, -⟩
  exact absurd mem List.not_mem_nil

end Host

end ScionChat
