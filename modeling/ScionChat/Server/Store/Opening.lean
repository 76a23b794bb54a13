import ScionChat.Server.Store.Operations

/-!
# Opening the database file

What `SqliteStore.new` does to the file.  A file stamped with another version is discarded;
whatever is left gets the tables it lacks, this build's stamp, and the lobby.  Opening fails
anywhere along the way when the file or the database does, and what it leaves behind then still
reads as the same tables, or as none.

* `exec_onFile` — an operation on an open file is the operation on its tables;
* `new_exec` — what opening does to a file, step by step: it gets as far as seeding the lobby, or
  it leaves tables that were there;
* `opening_tables` — the accounts and the messages of a file are kept, unless it is a foreign one.

### design decisions

* **A file is not yet a store.**  `DbFile` has a stamp and, once the schema has been applied,
  tables.  A file between the two is what a start that was stopped leaves behind, and the next one
  takes it from there.
* **The lobby is a room like any other.**  Seeding it is `createRoom`'s own insert, so a file that
  has a lobby is left as it is.

### What is load-bearing

That no step of opening removes a row of a file with this build's stamp.  It is what lets a run go
on over any number of restarts with the one relation `Db.Extends`.
-/

namespace ScionChat

open Interleaving Column Sql

/-- The file carries the stamp of another schema version.  A file that carries none is not one: its
schema has not been applied yet. -/
def Foreign (file : Option DbFile) : Prop :=
  ∃ f ∈ file, f.userVersion ≠ 0 ∧ f.userVersion ≠ SCHEMA_VERSION

instance (file : Option DbFile) : Decidable (Foreign file) :=
  inferInstanceAs (Decidable (∃ f ∈ file, _))

/-- What is left of the file once a foreign one has been removed.  A file that is not foreign is
left as it is. -/
def discarded (file : Option DbFile) : Option DbFile :=
  if Foreign file then none else file

theorem discarded_of_native {file : Option DbFile} (native : ¬ Foreign file) :
    discarded file = file :=
  if_neg native

/-- The tables that a file has once the schema has been applied. -/
def opened (db : Db) : Option DbFile :=
  some ⟨SCHEMA_VERSION, some db⟩

@[simp] theorem db_opened (db : Db) : DbFile.db (opened db) = db := rfl

@[simp] theorem withDb_opened (db db' : Db) : DbFile.withDb db' (opened db) = opened db' := rfl

theorem not_foreign_opened (db : Db) : ¬ Foreign (opened db) := by
  simp [Foreign, opened]

/-- **An operation on an open file is the operation on its tables.** The file stays opened, with
this build's stamp, whatever the operation does. -/
theorem exec_onFile {α : Type} (query : Query α) (ω : ℕ → Moment) (db : Db) :
    (query.onFile).run.exec ω (opened db)
      = ((query.run.exec ω db).1, opened (query.run.exec ω db).2) :=
  Prog.exec_focus db_opened withDb_opened query.run ω db

@[simp] theorem run_onFile_bind {α β : Type} (error : StoreError)
    (act : Option DbFile → α × Option DbFile) (f : α → FileQuery β) :
    (onFile error act >>= f).run
      = .step (fun m file => if m.fails then file else (act file).2) fun m file =>
          if m.fails then .ret (.error error) else (f (act file).1).run := by
  rw [onFile, run_tryAtomically_bind]
  congr 1
  · funext m file
    cases m.fails <;> rfl
  · funext m file
    cases m.fails <;> rfl

/-- The file keeps its tables and is not foreign, or it is the one there was. -/
def Left (file file' : Option DbFile) : Prop :=
  file' = file ∨ DbFile.db file' = DbFile.db (discarded file) ∧ ¬ Foreign file'

/-- What `SqliteStore.new` does after a foreign file is out of the way. -/
def createAndSeed : FileQuery Unit := do
  connectOrCreate
  applySchema
  stampVersion
  discard <| Query.onFile (createRoom LOBBY (UInt32.ofNat u32Max))

/-- The lobby, seeded below a cap of its own.  The cap is the largest there is, so a store that is
to have no rooms has this one. -/
def seedLobby : Query RoomCreation :=
  createRoom LOBBY (UInt32.ofNat u32Max)

theorem native_getD {file : Option DbFile} (native : ¬ Foreign file) :
    ¬ Foreign (some (file.getD ⟨0, none⟩)) := by
  cases file with
  | none => simp [Foreign]
  | some f => exact native

theorem createAndSeed_exec (ω : ℕ → Moment) {file : Option DbFile} (native : ¬ Foreign file) :
    (∃ e file', createAndSeed.run.exec ω file = (.error e, file') ∧
        DbFile.db file' = DbFile.db file ∧ ¬ Foreign file') ∨
      ∃ seed : ℕ → Moment, createAndSeed.run.exec ω file
        = ((seedLobby.run.exec seed (DbFile.db file)).1.map fun _ => (),
            opened (seedLobby.run.exec seed (DbFile.db file)).2) := by
  have native' := native_getD native
  have same : DbFile.db (some (file.getD ⟨0, none⟩)) = DbFile.db file := by
    cases file <;> rfl
  simp only [createAndSeed, connectOrCreate, applySchema, stampVersion, run_onFile_bind,
    Prog.exec_step]
  cases connects : (ω 0).fails with
  | true => exact Or.inl ⟨_, file, rfl, rfl, native⟩
  | false =>
      simp only [Bool.false_eq_true, if_false, Prog.exec_step]
      cases applies : (ω (0 + 1)).fails with
      | true => exact Or.inl ⟨_, some (file.getD ⟨0, none⟩), rfl, same, native'⟩
      | false =>
          simp only [Bool.false_eq_true, if_false, Prog.exec_step, Option.map_some]
          cases stamps : (ω (0 + 1 + 1)).fails with
          | true =>
              refine Or.inl ⟨_, some ⟨(file.getD ⟨0, none⟩).userVersion,
                some ((file.getD ⟨0, none⟩).tables.getD Db.empty)⟩, rfl, same, ?_⟩
              simpa [Foreign] using native'
          | false =>
              refine Or.inr ⟨fun n => ω (n + 1 + 1 + 1), ?_⟩
              simp only [Bool.false_eq_true, if_false, run_discard, Prog.exec_map]
              have at_file : (some { file.getD ⟨0, none⟩ with
                  userVersion := SCHEMA_VERSION
                  tables := some ((file.getD ⟨0, none⟩).tables.getD Db.empty) } : Option DbFile)
                    = opened (DbFile.db file) := congrArg opened same
              exact (congrArg (fun f => (Except.map _ (seedLobby.onFile.run.exec _ f).1,
                (seedLobby.onFile.run.exec _ f).2)) at_file).trans (by rw [exec_onFile])

theorem new_run :
    SqliteStore.new.run =
      .step (fun _ file => file) fun m _ =>
        if m.fails then .ret (.error (.fileError ""))
        else
          .step (fun _ file => file) fun m file =>
            if m.fails then .ret (.error (.dbError .other))
            else if Foreign file then
              .step (fun m file => if m.fails then file else none) fun m _ =>
                if m.fails then .ret (.error (.fileError "chat.db")) else createAndSeed.run
            else createAndSeed.run := by
  have stamped : ∀ file : Option DbFile,
      ((file.bind fun f => if f.userVersion ≠ 0 then some f.userVersion else none).any
        fun v => decide (v ≠ SCHEMA_VERSION)) = decide (Foreign file) := by
    rintro (_ | ⟨version, tables⟩)
    · simp [Foreign]
    · by_cases zero : version = 0 <;> simp [Foreign, zero]
  simp only [SqliteStore.new, stampedVersion, removeDatabase, run_onFile_bind, ite_self, stamped,
    decide_eq_true_eq]
  congr 1
  funext m file
  congr 2
  funext m file
  congr 1
  by_cases foreign : Foreign file
  · simp only [if_pos foreign, run_onFile_bind]
    rfl
  · simp only [if_neg foreign]
    rfl

/-- **What opening does to the file**: it fails and leaves behind tables that were there, or
it gets as far as seeding the lobby. -/
theorem new_exec (ω : ℕ → Moment) (file : Option DbFile) :
    (∃ e file', SqliteStore.new.run.exec ω file = (.error e, file') ∧ Left file file') ∨
      ∃ seed : ℕ → Moment, SqliteStore.new.run.exec ω file
        = ((seedLobby.run.exec seed (DbFile.db (discarded file))).1.map fun _ => (),
            opened (seedLobby.run.exec seed (DbFile.db (discarded file))).2) := by
  rw [new_run, Prog.exec_step]
  cases makes : (ω 0).fails with
  | true => exact Or.inl ⟨_, file, rfl, Or.inl rfl⟩
  | false =>
      simp only [Bool.false_eq_true, if_false, Prog.exec_step]
      cases reads : (ω (0 + 1)).fails with
      | true => exact Or.inl ⟨_, file, rfl, Or.inl rfl⟩
      | false =>
          simp only [Bool.false_eq_true, if_false]
          by_cases foreign : Foreign file
          · rw [if_pos foreign, Prog.exec_step]
            cases removes : (ω (0 + 1 + 1)).fails with
            | true => exact Or.inl ⟨_, file, rfl, Or.inl rfl⟩
            | false =>
                have gone : discarded file = none := if_pos foreign
                simp only [Bool.false_eq_true, if_false, gone]
                have native : ¬ Foreign none := by simp [Foreign]
                rcases createAndSeed_exec (fun n => ω (n + 1 + 1 + 1)) native with
                  ⟨e, file', eq, same, native'⟩ | seeded
                · exact Or.inl ⟨e, file', eq, Or.inr ⟨by rw [same, gone], native'⟩⟩
                · exact Or.inr seeded
          · rw [if_neg foreign, discarded_of_native foreign]
            rcases createAndSeed_exec (fun n => ω (n + 1 + 1)) foreign with
              ⟨e, file', eq, same, native⟩ | seeded
            · refine Or.inl ⟨e, file', eq, Or.inr ⟨?_, native⟩⟩
              rw [same, discarded_of_native foreign]
            · exact Or.inr seeded

/-- Seeding the lobby adds no account and no message. -/
theorem seedLobby_frame (ω : ℕ → Moment) {db : Db} (valid : db.Valid) :
    (seedLobby.run.exec ω db).2.Valid ∧ (seedLobby.run.exec ω db).2.users = db.users ∧
      (seedLobby.run.exec ω db).2.messages = db.messages := by
  have meets := createRoom_meets LOBBY (UInt32.ofNat u32Max) (fun _ => True) db
  refine ⟨(meets.exec (fun _ => trivial) valid).1, ?_⟩
  refine meets.exec_follows (R := fun s t : Db => t.users = s.users ∧ t.messages = s.messages)
    (fun s => ⟨rfl, rfl⟩) (fun s t u h h' => ⟨h'.1.trans h.1, h'.2.trans h.2⟩) ?_
    (fun _ => trivial) valid
  rintro s o t (rfl | ⟨-, -, -, _, rfl⟩) <;> exact ⟨rfl, rfl⟩

/-- **A store that is opened where there was none** has no account and no message. -/
theorem new_absent {ω : ℕ → Moment} {db : Db}
    (opens : SqliteStore.new.run.exec ω none = (.ok (), opened db)) :
    db.Valid ∧ db.users = [] ∧ db.messages = [] := by
  rcases new_exec ω none with ⟨e, file, fails, -⟩ | ⟨seed, seeds⟩
  · cases fails.symm.trans opens
  · have same : (seedLobby.run.exec seed Db.empty).2 = db := by
      have files := congrArg Prod.snd (seeds.symm.trans opens)
      exact congrArg DbFile.db files
    have frame := seedLobby_frame seed Db.Valid.empty
    rw [same] at frame
    exact frame

/-- **Opening a file** leaves the accounts and the messages it has, unless it is a foreign one:
then there are none. -/
theorem opening_tables (ω : ℕ → Moment) {file : Option DbFile}
    (valid : ¬ Foreign file → (DbFile.db file).Valid)
    (native : ¬ Foreign (SqliteStore.new.run.exec ω file).2) :
    (¬ Foreign file ∧
        (DbFile.db (SqliteStore.new.run.exec ω file).2).users = (DbFile.db file).users ∧
          (DbFile.db (SqliteStore.new.run.exec ω file).2).messages = (DbFile.db file).messages) ∨
      (DbFile.db (SqliteStore.new.run.exec ω file).2).users = [] ∧
        (DbFile.db (SqliteStore.new.run.exec ω file).2).messages = [] := by
  by_cases foreign : Foreign file
  · refine Or.inr ?_
    have gone : discarded file = none := if_pos foreign
    rcases new_exec ω file with ⟨e, file', eq, left⟩ | ⟨seed, eq⟩
    · rw [eq] at native ⊢
      rcases left with rfl | ⟨same, -⟩
      · exact absurd foreign native
      · show (DbFile.db file').users = [] ∧ (DbFile.db file').messages = []
        rw [same, gone]
        exact ⟨rfl, rfl⟩
    · rw [eq, gone]
      exact (seedLobby_frame seed Db.Valid.empty).2
  · refine Or.inl ⟨foreign, ?_⟩
    have kept : discarded file = file := discarded_of_native foreign
    rcases new_exec ω file with ⟨e, file', eq, left⟩ | ⟨seed, eq⟩
    · rw [eq]
      rcases left with rfl | ⟨same, -⟩
      · exact ⟨rfl, rfl⟩
      · show (DbFile.db file').users = _ ∧ (DbFile.db file').messages = _
        rw [same, kept]
        exact ⟨rfl, rfl⟩
    · rw [eq, kept, db_opened]
      exact (seedLobby_frame seed (valid foreign)).2

end ScionChat
