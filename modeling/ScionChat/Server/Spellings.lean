import ScionChat.Server.Host

/-!
# Names that differ in case only

`schema.sql` compares names under `NOCASE`, which folds the 26 ASCII letters.  What a name may
consist of is decided elsewhere: `Username::parse` takes any 1 to 32 characters that are not
control characters.  So two names that a reader would call equal up to case, such as `É` and `é`,
are two accounts.

The case folding of Unicode is a parameter, `CaseFolding`.  A registration *collides* when an
account of the store has its name up to that folding but not under `NOCASE`.  `names_apart` says
that as long as no step adds such an account, the names of the accounts are distinct up to case,
over every run of servers on one directory.

### design decisions

* **Any folding.** A folding is what each character becomes, one or several, and nothing else is
  asked of it.  So the result does not hang on a version of Unicode, and it says something for the
  folding of any one alphabet.
* **Only the step that adds.**  `KeepsNames` looks at the step of a registration that inserts its
  row (`Inserts`): the third one, with a name not yet taken, below the cap, while the database
  works.  One that is refused may have any name.

### What is load-bearing

`apart_append`: adding an account whose name is free under `NOCASE` leaves the names apart exactly
when it does not collide.  It is an equivalence, so the condition is the weakest one for that step.
-/

namespace ScionChat

open Interleaving TransitionSystem

/-- A case folding: what each character becomes.  A character may become several, as `ß` does under
the full folding. -/
structure CaseFolding where
  fold : Char → List Char

namespace CaseFolding

variable (folding : CaseFolding)

/-- Two names are equal up to case.  They are folded character by character, and compared as what
comes out. -/
def SameName (a b : String) : Prop :=
  a.toList.flatMap folding.fold = b.toList.flatMap folding.fold

/-- No two accounts of the store have names that are equal up to case. -/
def Apart (db : Db) : Prop :=
  db.users.Pairwise fun a b => ¬ folding.SameName a.username b.username

instance (a b : String) : Decidable (folding.SameName a b) :=
  inferInstanceAs (Decidable (_ = _))

/-- Registering the name makes an account beside one whose name is the same up to case. -/
def Collides (db : Db) (name : String) : Prop :=
  ∃ row ∈ db.users, folding.SameName row.username name ∧ ¬ NoCase row.username name

instance (db : Db) (name : String) : Decidable (folding.Collides db name) :=
  inferInstanceAs (Decidable (∃ row ∈ db.users, _))

/-- A directory without a database has no accounts to tell apart. -/
theorem apart_nil {db : Db} (none : db.users = []) : folding.Apart db := by
  unfold Apart
  rw [none]
  exact List.Pairwise.nil

variable {folding}

/-- **Adding an account** whose name is not taken under `NOCASE` leaves the names apart exactly
when it does not collide. -/
theorem apart_append {db db' : Db} {row : UserRow} (apart : folding.Apart db)
    (adds : db'.users = db.users ++ [row])
    (free : ∀ other ∈ db.users, ¬ NoCase other.username row.username) :
    folding.Apart db' ↔ ¬ folding.Collides db row.username := by
  unfold Apart
  rw [adds, List.pairwise_append]
  constructor
  · rintro ⟨-, -, across⟩ ⟨other, mem, same, -⟩
    exact across other mem row (List.mem_singleton_self row) same
  · intro clear
    refine ⟨apart, List.pairwise_singleton _ _, fun other mem new single => ?_⟩
    cases List.mem_singleton.mp single
    exact fun same => clear ⟨other, mem, same, free other mem⟩

/-! ### A server -/

/-- The registration that a request is for, if it is for one. -/
def registration (req : Request) : Option RegisterRequest :=
  if req.method = .post ∧ route req.path = some .register then req.body.register.toOption else none

theorem registration_of_registering {req : Request} {body : RegisterRequest}
    (h : Registering req body) : registration req = some body := by
  obtain ⟨method, at_route, sent⟩ := h
  rw [registration, if_pos ⟨method, at_route⟩, sent]
  rfl

/-- The step of a registration that adds its account, if the name is free: the third one, over a
database that works, while there is room for another account. -/
def Inserts (config : Config) (db : Db) (th : Thread Request Moment World Response) (m : Moment)
    (body : RegisterRequest) : Prop :=
  th.taken = 2 ∧ m.fails = false ∧ db.users.length < config.maxAccounts.toNat ∧
    ∀ row ∈ db.users, ¬ NoCase row.username body.username

instance (config : Config) (db : Db) (th : Thread Request Moment World Response) (m : Moment)
    (body : RegisterRequest) : Decidable (Inserts config db th m body) :=
  inferInstanceAs (Decidable (_ ∧ _ ∧ _ ∧ _))

variable (folding) in
/-- The step adds no account whose name collides.  (A request whose name does not parse takes no
steps: it is answered as it arrives.) -/
def KeepsNames (state : AppState) (p : ServerPool) : Label Request Moment → Prop
  | .spawn _ => True
  | .advance i m => ∀ th ∈ p.threads[i]?, ∀ body ∈ registration th.op,
      Inserts state.config p.state.db th m body → ¬ folding.Collides p.state.db body.username

instance (state : AppState) (p : ServerPool) : ∀ l, Decidable (folding.KeepsNames state p l)
  | .spawn _ => isTrue trivial
  | .advance i _ => inferInstanceAs (Decidable (∀ th ∈ p.threads[i]?, _))

/-- A step that adds no account whose name collides leaves the names apart. -/
theorem Apart.serve {state : AppState} {p q : ServerPool} {l : Label Request Moment}
    (sound : ServerSound state p) (each : ServerThreads p) (keeps : folding.KeepsNames state p l)
    (h : serve state p l = some q) (apart : folding.Apart p.state.db) :
    folding.Apart q.state.db := by
  cases l with
  | spawn req =>
      cases h
      exact apart
  | advance i m =>
      have valid : q.state.db.Valid := (sound.step h).inv
      obtain ⟨req, n, old, next, found, eq, -, acts, -⟩ := sound.advance trivial h
      obtain ⟨th, at_i, third⟩ := each.advance h
      obtain rfl : th = ⟨req, n, old⟩ := Option.some.inj (at_i.symm.trans found)
      rcases acts.users with same | ⟨body, registering, -, below, row, salt, adds, named, -⟩
      · unfold Apart
        rw [same]
        exact apart
      · -- the tables stay valid, so the store has not taken two names that `NOCASE` equates
        have free : ∀ other ∈ p.state.db.users, ¬ NoCase other.username row.username := by
          have distinct := valid.users
          rw [adds] at distinct
          exact fun other mem =>
            (List.pairwise_append.mp distinct).2.2 other mem row (List.mem_singleton_self _)
        refine (apart_append apart adds free).mpr ?_
        rw [named] at free ⊢
        rcases third (Or.inl ⟨body, registering⟩) with ⟨same, -⟩ | ⟨two, works⟩
        · rw [same] at adds
          exact absurd (congrArg List.length adds) (by simp)
        · exact keeps _ found body (registration_of_registering registering)
            ⟨two, works, below, free⟩

/-! ### A directory -/

variable (folding) in
/-- The event adds no account whose name collides. -/
def KeepsNamesOf (h : Host) : HostEvent → Prop
  | .request label =>
      ∀ running ∈ h.running, folding.KeepsNames running.1 ⟨h.world, running.2⟩ label
  | _ => True

instance (h : Host) : ∀ event, Decidable (folding.KeepsNamesOf h event)
  | .request _ => inferInstanceAs (Decidable (∀ running ∈ h.running, _))
  | .start _ _ => isTrue trivial
  | .stop => isTrue trivial
  | .otherBuild _ _ => isTrue trivial

/-- The accounts of a database of this build are apart. -/
def ApartOf (folding : CaseFolding) (h : Host) : Prop :=
  ¬ Foreign h.disk.database → folding.Apart h.world.db

/-- The threads of the server that runs, if one does. -/
def HostThreads (h : Host) : Prop :=
  ∀ running ∈ h.running, ServerThreads ⟨h.world, running.2⟩

theorem HostThreads.step {crypto : Crypto} {g h : Host} {event : HostEvent}
    (stepped : Host.step crypto g event = some h) (each : HostThreads g) : HostThreads h := by
  cases event with
  | start config ω =>
      simp only [Host.step] at stepped
      split at stepped
      · cases stepped
      · cases stepped
        rintro ⟨app, threads⟩ starts th mem
        obtain ⟨_, _, idle⟩ := Option.map_eq_some_iff.mp starts
        cases idle
        exact absurd mem List.not_mem_nil
  | stop =>
      cases stepped
      intro running none_
      cases none_
  | request label =>
      obtain ⟨app, threads, q, running, served, rfl⟩ := Host.step_request stepped
      have after : ServerThreads q :=
        Pool.EachDoes.step (handle_third app) served (each (app, threads) running)
      rintro _ ⟨⟩
      exact after
  | otherBuild file tokens =>
      simp only [Host.step] at stepped
      split at stepped
      · cases stepped
      · cases stepped
        exact each

/-- One event that keeps the names leaves the accounts apart. -/
theorem ApartOf.step {crypto : Crypto} {g h : Host} {event : HostEvent} (sound : Host.Sound g)
    (each : HostThreads g) (keeps : folding.KeepsNamesOf g event)
    (stepped : Host.step crypto g event = some h) (apart : folding.ApartOf g) :
    folding.ApartOf h := by
  cases event with
  | start config ω =>
      simp only [Host.step] at stepped
      split at stepped
      · cases stepped
      · cases stepped
        obtain ⟨database, -⟩ := ChatServer.state_exec crypto config ω g.disk
        intro native
        unfold Host.world
        dsimp only at native ⊢
        rw [database] at native ⊢
        rcases opening_tables ω sound.valid native with ⟨native', same, -⟩ | ⟨none, -⟩
        · show List.Pairwise _ _
          rw [same]
          exact apart native'
        · exact folding.apart_nil none
  | stop =>
      cases stepped
      exact apart
  | request label =>
      obtain ⟨app, threads, q, running, served, rfl⟩ := Host.step_request stepped
      obtain ⟨⟨db, at_file⟩, before⟩ := sound.running app threads running
      have tables : (g.after app q).world.db = q.state.db :=
        congrArg (fun file => DbFile.db (DbFile.withDb q.state.db file)) at_file
      have native : ¬ Foreign g.disk.database := at_file ▸ not_foreign_opened db
      intro _
      rw [tables]
      exact Apart.serve before (each (app, threads) running) (keeps (app, threads) running) served
        (apart native)
  | otherBuild file tokens =>
      simp only [Host.step] at stepped
      split at stepped
      · cases stepped
      next free =>
        cases stepped
        exact fun native => absurd native (not_or.mp free).2

/-- **The names of the accounts are distinct up to case** in every state that servers on one
directory reach, as long as no step adds an account whose name collides. -/
theorem names_apart {crypto : Crypto} {events : List HostEvent} {h : Host}
    (ran : Host.Ran crypto events h)
    (keeps : Along (Host.step crypto) folding.KeepsNamesOf Host.new events) :
    folding.ApartOf h := by
  refine (run_invariant_along
    (P := fun h => (Host.Sound h ∧ HostThreads h) ∧ folding.ApartOf h) ?_ keeps ran
    ⟨⟨Host.sound_new, nofun⟩, fun _ => folding.apart_nil rfl⟩).2
  intro g event h keeps stepped inv
  exact ⟨⟨inv.1.1.step stepped, inv.1.2.step stepped⟩,
    ApartOf.step inv.1.1 inv.1.2 keeps stepped inv.2⟩

end CaseFolding

/-! ### Two accounts of one name -/

namespace Sample

/-- Requests that register these names, one after the other. -/
def registrations (names : List String) : List (Label Request Moment) :=
  names.zipIdx.flatMap fun (name, i) =>
    [.spawn (register name "pw"), .advance i {}, .advance i {}, .advance i {}]

/-- A server is started, and the names are registered. -/
def registering (names : List String) : List HostEvent :=
  Host.starts :: (registrations names).map .request

/-- The simple case folding of the characters below U+0100. -/
def latin1 : CaseFolding where
  fold c :=
    if ('A' ≤ c ∧ c ≤ 'Z') ∨ ('À' ≤ c ∧ c ≤ 'Þ' ∧ c ≠ '×') then [Char.ofNat (c.toNat + 32)]
    else if c = 'ß' then ['s', 's']
    else [c]

/-- Two names, neither of which is the other in different letters. -/
theorem names_apart_latin1 : ∃ h, Host.Ran .plain (registering ["É", "eve"]) h ∧
    h.world.db.users.map UserRow.username = ["É", "eve"] ∧ latin1.ApartOf h := by
  obtain ⟨h, ran, names⟩ : ∃ h, Host.Ran .plain (registering ["É", "eve"]) h ∧
      h.world.db.users.map UserRow.username = ["É", "eve"] := ⟨_, rfl, rfl⟩
  exact ⟨h, ran, names, CaseFolding.names_apart ran (by decide)⟩

/-- **Two accounts of one name**: `É` and `é` are both registered, and every folding that
equates these two letters equates the names of two accounts. -/
theorem accounts_equal_up_to_case : ∃ h, Host.Ran .plain (registering ["É", "é"]) h ∧
    h.world.db.users = [⟨"É", "pw", 0⟩, ⟨"é", "pw", 0⟩] ∧
      ∀ folding : CaseFolding, folding.fold 'É' = folding.fold 'é' →
        ¬ folding.ApartOf h := by
  refine ⟨_, rfl, rfl, fun folding same apart => ?_⟩
  have distinct := apart (by decide)
  refine (List.pairwise_cons.mp distinct).1 _ (List.mem_singleton_self _) ?_
  show ['É'].flatMap folding.fold = ['é'].flatMap folding.fold
  simp only [List.flatMap_cons, same]

end Sample

end ScionChat
