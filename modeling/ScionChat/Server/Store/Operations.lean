import ScionChat.Server.Store.Sqlite
import ScionChat.Server.Store.Valid

/-!
# What the operations do, one step at a time

Each operation of the store is unrolled into its atomic steps, and specified under the contract of
the store: every step keeps `Db.Valid` and follows `Db.Extends`, whatever other operations do
between two of them.

On top of the contract an operation *guarantees* what its own steps write — `Registers`, `Creates`,
`Posts`, or nothing — and it ends in a postcondition that other operations cannot undo.

### design decisions

* **Guarantees are per step.**  What an operation writes is said of the one step that writes it, as
  a relation between the tables before and after.  A relation of that kind is lifted to any program
  that calls the operation, which is how the handlers inherit it.
* **Postconditions are stable.**  What is known when an operation ends is only what every later
  step of anybody leaves true: a row is there, a name is taken, a count has reached its cap.

### What is load-bearing

`meets_statement`: a statement that fails changes nothing, so that a proof about an operation needs
to look at the case that succeeds alone.
-/

namespace ScionChat

open Interleaving Column Sql

/-- **The contract of the store**: the tables stay valid, and rows are only ever added.  It is the
same for every operation, and `admits` is what a result may assume of the moments. -/
def storeContract (admits : Moment → Prop) : Contract Moment Db where
  admits := admits
  inv := Db.Valid
  rel := Db.Extends
  refl := Db.Extends.refl
  trans := fun _ _ _ => Db.Extends.trans

/-! ### One statement -/

section Statements

variable {α β : Type} {sql : Moment → Db → SqlResult α} {m : Moment} {db after : Db}

theorem attempt_of_ok (works : m.fails = false) {a : α} (h : sql m db = .ok (a, after)) :
    attempt sql m db = (.ok a, after) := by
  simp [attempt, works, h]

theorem attempt_of_error (works : m.fails = false) {e : SqlxError} (h : sql m db = .error e) :
    attempt sql m db = (.error e, db) := by
  simp [attempt, works, h]

/-- A statement either succeeds, or leaves the tables alone. -/
theorem attempt_cases (sql : Moment → Db → SqlResult α) (m : Moment) (db : Db) :
    (∃ a after, m.fails = false ∧ sql m db = .ok (a, after) ∧
        attempt sql m db = (.ok a, after)) ∨
      ∃ e, attempt sql m db = (.error e, db) := by
  by_cases fails : m.fails
  · exact Or.inr ⟨.other, by simp [attempt, fails]⟩
  · have works : m.fails = false := by simpa using fails
    cases result : sql m db with
    | ok r => exact Or.inl ⟨r.1, r.2, works, rfl, attempt_of_ok works result⟩
    | error e => exact Or.inr ⟨e, attempt_of_error works result⟩

/-- What a reading statement answers.  It fails if the database does, and else answers from the
tables as they are. -/
def fetched (rows : Db → α) (m : Moment) (db : Db) : Except StoreError α :=
  if m.fails then .error (.dbError .other) else .ok (rows db)

theorem fetched_of_works (works : m.fails = false) (rows : Db → α) :
    fetched rows m db = .ok (rows db) := by
  simp [fetched, works]

theorem fetched_cases (rows : Db → α) (m : Moment) (db : Db) :
    fetched rows m db = .ok (rows db) ∨ fetched rows m db = .error (.dbError .other) := by
  by_cases fails : m.fails <;> simp [fetched, fails]

theorem fetched_eq_ok {rows : Db → α} {m : Moment} {db : Db} {a : α}
    (h : fetched rows m db = .ok a) : m.fails = false ∧ a = rows db := by
  cases fails : m.fails with
  | true => simp [fetched, fails] at h
  | false =>
      rw [fetched_of_works fails] at h
      exact ⟨rfl, (Except.ok.inj h).symm⟩

theorem attempt_read (rows : Db → α) (m : Moment) (db : Db) :
    attempt (fun _ db => .ok (rows db, db)) m db
      = (if m.fails then .error .other else .ok (rows db), db) := by
  cases fails : m.fails <;> simp [attempt, fails]

@[simp] theorem run_fetch (rows : Db → α) :
    (fetch rows).run = .step (fun _ db => db) fun m db => .ret (fetched rows m db) := by
  simp only [fetch, execute, executeOr, run_tryAtomically, attempt_read]
  congr 1
  funext m db
  cases fails : m.fails <;> simp [fetched, fails, Except.mapError]

@[simp] theorem run_fetch_bind (rows : Db → α) (f : α → Query β) :
    (fetch rows >>= f).run
      = .step (fun _ db => db) fun m db => onOk f (fetched rows m db) := by
  rw [run_bind, run_fetch]
  rfl

@[simp] theorem run_execute_bind (sql : Moment → Db → SqlResult α) (f : α → Query β) :
    (execute sql >>= f).run
      = .step (fun m db => (attempt sql m db).2) fun m db =>
          onOk f ((attempt sql m db).1.mapError .dbError) :=
  run_executeOr_bind .dbError sql f

/-- **A statement under the store's contract.**  What it may write and where it may leave
the tables is asked for only when it succeeds: an error changes nothing. -/
theorem meets_statement {admits : Moment → Prop}
    {guar : Db → Option (Except StoreError β) → Db → Prop}
    {post : Except StoreError β → Db → Prop}
    {next : Moment → Db → Prog Moment Db (Except StoreError β)} {s₀ : Db}
    (succeeds : ∀ m db a after, admits m → db.Valid → s₀.Extends db → m.fails = false →
      sql m db = .ok (a, after) → attempt sql m db = (.ok a, after) →
      after.Valid ∧ db.Extends after ∧ guar db (next m db).outcome after ∧
        (next m db).Meets (storeContract admits) guar post after)
    (fails : ∀ m db e, admits m → db.Valid → s₀.Extends db → attempt sql m db = (.error e, db) →
      guar db (next m db).outcome db ∧
        (next m db).Meets (storeContract admits) guar post db) :
    (Prog.step (fun m db => (attempt sql m db).2) next).Meets (storeContract admits) guar post
      s₀ := by
  intro m db admitted valid rel
  rcases attempt_cases sql m db with ⟨a, after, works, result, attempted⟩ | ⟨e, attempted⟩
  · simp only [attempted]
    exact succeeds m db a after admitted valid rel works result attempted
  · simp only [attempted]
    exact ⟨valid, Db.Extends.refl db, fails m db e admitted valid rel attempted⟩

/-- **A step that writes nothing under the store's contract.** Its guarantee is owed at a step that
changes nothing, and the rest of the program is met from what the step has seen. -/
theorem meets_quiet {admits : Moment → Prop}
    {guar : Db → Option (Except StoreError β) → Db → Prop}
    {post : Except StoreError β → Db → Prop}
    {next : Moment → Db → Prog Moment Db (Except StoreError β)} {s₀ : Db}
    (sees : ∀ m db, admits m → db.Valid → s₀.Extends db →
      guar db (next m db).outcome db ∧
        (next m db).Meets (storeContract admits) guar post db) :
    (Prog.step (fun _ db => db) next).Meets (storeContract admits) guar post s₀ :=
  fun m db admitted valid rel =>
    ⟨valid, Db.Extends.refl db, sees m db admitted valid rel⟩

end Statements

/-! ### Accounts -/

section Accounts

variable (username pwHash : String) (maxAccounts : UInt32)

/-- `insertUser` as the steps it takes. -/
theorem insertUser_run :
    (insertUser username pwHash maxAccounts).run =
      .step (fun _ db => db) fun m _ =>
        match toColumn "timestamp" m.now with
        | .error e => .ret (.error e)
        | .ok createdAt =>
            let sql := fun (_ : Moment) =>
              insertUserRow username pwHash createdAt maxAccounts.toNat
            .step (fun m db => (attempt sql m db).2) fun m db =>
              match (attempt sql m db).1 with
              | .error e => .ret (.error (.dbError e))
              | .ok true => .ret (.ok .created)
              | .ok false =>
                  .step (fun _ db => db) fun m db =>
                    match fetched (selectUserExists username) m db with
                    | .error e => .ret (.error e)
                    | .ok true => .ret (.ok .usernameTaken)
                    | .ok false => .ret (.error (.capExceeded "account")) := by
  simp only [insertUser, run_now_bind, run_except_bind]
  congr 1
  funext m db
  cases toColumn "timestamp" m.now with
  | error e => rfl
  | ok createdAt =>
      simp only [onOk_ok, run_execute_bind]
      congr 1
      funext m db
      cases (attempt (fun (_ : Moment) =>
        insertUserRow username pwHash createdAt maxAccounts.toNat) m db).1 with
      | error e => rfl
      | ok inserted =>
          cases inserted with
          | true => rfl
          | false =>
              simp only [Except.mapError, onOk_ok, Bool.false_eq_true, if_false, run_fetch_bind]
              congr 1
              funext m db
              cases fetched (selectUserExists username) m db with
              | error e => rfl
              | ok taken => cases taken <;> rfl

/-- What a step of `insertUser` writes: nothing, or the account while there is room for it,
and then the operation has returned `created`. -/
def Registers (s : Db) (o : Option (Except StoreError Registration)) (t : Db) : Prop :=
  (t = s ∧ o ≠ some (.ok .created)) ∨ o = some (.ok .created) ∧
    s.users.length < maxAccounts.toNat ∧
    (∀ row ∈ s.users, ¬ NoCase row.username username) ∧
      ∃ createdAt, t = { s with users := s.users ++ [⟨username, pwHash, createdAt⟩] }

/-- Where `insertUser` leaves the tables. -/
def Registered (r : Except StoreError Registration) (db : Db) : Prop :=
  match r with
  | .ok .created => ∃ row ∈ db.users, row.username = username ∧ row.pwHash = pwHash
  | .ok .usernameTaken => ∃ row ∈ db.users, NoCase row.username username
  | .error _ => True

theorem insertUser_meets (admits : Moment → Prop) (s₀ : Db) :
    (insertUser username pwHash maxAccounts).run.Meets (storeContract admits)
      (Registers username pwHash maxAccounts) (Registered username pwHash) s₀ := by
  rw [insertUser_run]
  refine meets_quiet fun m db _ _ _ => ?_
  cases toColumn "timestamp" m.now with
  | error e => exact ⟨Or.inl ⟨rfl, by simp⟩, trivial⟩
  | ok createdAt =>
      refine ⟨Or.inl ⟨rfl, by simp⟩, ?_⟩
      refine meets_statement (fun m db inserted after _ valid _ works result attempted => ?_)
        fun m db e _ _ _ attempted => ?_
      · simp only [attempted]
        rcases insertUserRow_cases result with ⟨rfl, below, fresh, rfl⟩ | ⟨rfl, -, rfl⟩
        · refine ⟨valid.addUser _ fresh, ⟨List.prefix_append _ _, List.prefix_refl _,
            List.prefix_refl _⟩, Or.inr ⟨rfl, by exact_mod_cast below, fresh, createdAt, rfl⟩, ?_⟩
          exact ⟨⟨username, pwHash, createdAt⟩, by simp, rfl, rfl⟩
        · refine ⟨valid, Db.Extends.refl _, Or.inl ⟨rfl, by simp⟩, ?_⟩
          refine meets_quiet fun m db _ _ _ => ?_
          rcases fetched_cases (selectUserExists username) m db with saw | failed
          · cases taken : selectUserExists username db with
            | true =>
                rw [saw, taken]
                exact ⟨Or.inl ⟨rfl, by simp⟩, (of_decide_eq_true taken :
                  ∃ row ∈ db.users, NoCase row.username username)⟩
            | false =>
                rw [saw, taken]
                exact ⟨Or.inl ⟨rfl, by simp⟩, trivial⟩
          · rw [failed]
            exact ⟨Or.inl ⟨rfl, by simp⟩, trivial⟩
      · simp only [attempted]
        exact ⟨Or.inl ⟨rfl, by simp⟩, trivial⟩

/-- What `passwordHash` finds is the hash of the account of that name. -/
def HashOf (r : Except StoreError (Option String)) (db : Db) : Prop :=
  match r with
  | .ok (some stored) =>
      ∃ row ∈ db.users, NoCase row.username username ∧ row.pwHash = stored
  | .ok none => True
  | .error _ => True

theorem passwordHash_meets (admits : Moment → Prop) (s₀ : Db) :
    (passwordHash username).run.Meets (storeContract admits) (fun s _ t => t = s)
      (HashOf username) s₀ := by
  rw [passwordHash, run_fetch]
  refine meets_quiet fun m db _ _ _ => ⟨rfl, ?_⟩
  rcases fetched_cases (selectPwHash username) m db with saw | failed
  · rw [Prog.meets_ret, saw]
    cases found : selectPwHash username db with
    | none => exact trivial
    | some stored =>
        obtain ⟨row, at_row, rfl⟩ := Option.map_eq_some_iff.mp found
        have same := List.find?_some at_row
        exact ⟨row, List.mem_of_find?_eq_some at_row, of_decide_eq_true same, rfl⟩
  · rw [failed]
    exact trivial

end Accounts

/-! ### Rooms -/

namespace Db

/-- The position of the newest message of a room, or `START` when it has none. -/
def latestSeq (db : Db) (row : RoomRow) : Seq :=
  ⟨(maxSeq db row.id).toNat⟩

/-- What the room list says of a room. -/
def room (db : Db) (row : RoomRow) : Room :=
  ⟨⟨row.id.toNat⟩, row.name, db.latestSeq row⟩

/-- The list of rooms, in the order they were created.  A room without messages has the position
`START`. -/
def roomList (db : Db) : List Room :=
  db.rooms.map db.room

end Db

section Rooms

theorem maxSeq_nonneg {db : Db} (valid : db.Valid) (id : ℤ) : 0 ≤ maxSeq db id := by
  cases newest : ((db.messages.filter fun row => row.roomId = id).map MessageRow.seq).max? with
  | none => simp [maxSeq, newest]
  | some s =>
      obtain ⟨row, mem, rfl⟩ := List.mem_map.mp (List.max?_mem newest)
      have := valid.seq_pos (List.mem_of_mem_filter mem)
      simp only [maxSeq, newest, Option.getD_some]
      omega

/-- The columns of a room are always those of a `Room`. -/
theorem toRoom_withLatest {db : Db} (valid : db.Valid) {row : RoomRow} (mem : row ∈ db.rooms) :
    (withLatest db row).toRoom = .ok (db.room row) := by
  have id_nonneg : 0 ≤ row.id := by
    have := valid.id_pos mem
    omega
  simp only [RoomLatest.toRoom, withLatest, Column.roomId_of_nonneg id_nonneg,
    Column.seq_of_nonneg (maxSeq_nonneg valid row.id)]
  rfl

/-- The rows come out of the room query in the order they went into the table. -/
theorem selectRooms_of_valid {db : Db} (valid : db.Valid) :
    selectRooms db = db.rooms.map (withLatest db) := by
  refine List.Pairwise.insertionSort_eq ?_
  exact List.pairwise_map.mpr (valid.rooms_ascending.imp fun lt => le_of_lt lt)

/-- A lookup by name finds the one room of that name. -/
theorem selectRoomByName_of_mem {db : Db} (valid : db.Valid) {row : RoomRow}
    (mem : row ∈ db.rooms) {name : String} (same : NoCase row.name name) :
    selectRoomByName name db = some (withLatest db row) := by
  cases found : db.rooms.find? fun row => NoCase row.name name with
  | none =>
      have := List.find?_eq_none.mp found row mem
      exact absurd (decide_eq_true same) this
  | some first =>
      have first_same : NoCase first.name name := by simpa using List.find?_some found
      have : first = row :=
        valid.room_unique (List.mem_of_find?_eq_some found) mem (first_same.trans same.symm)
      simp [selectRoomByName, found, this]

theorem selectRoomByName_cases (name : String) (db : Db) :
    (∃ row ∈ db.rooms, NoCase row.name name ∧
        selectRoomByName name db = some (withLatest db row)) ∨
      (∀ row ∈ db.rooms, ¬ NoCase row.name name) ∧ selectRoomByName name db = none := by
  cases found : db.rooms.find? fun row => NoCase row.name name with
  | none =>
      refine Or.inr ⟨fun row mem same => ?_, by simp [selectRoomByName, found]⟩
      exact absurd (decide_eq_true same) (List.find?_eq_none.mp found row mem)
  | some row =>
      refine Or.inl ⟨row, List.mem_of_find?_eq_some found, ?_, by simp [selectRoomByName, found]⟩
      simpa using List.find?_some found

variable (name : String) (maxRooms : UInt32)

/-- What `createRoom` answers about the room it finds, if it finds one. -/
def creationOf (inserted : Bool) : Option RoomLatest → Except StoreError RoomCreation
  | none => .error (.capExceeded "room")
  | some row => row.toRoom.map fun room => if inserted then .created room else .existing room

/-- `createRoom` as the steps it takes. -/
theorem createRoom_run :
    (createRoom name maxRooms).run =
      .step (fun _ db => db) fun m _ =>
        match toColumn "timestamp" m.now with
        | .error e => .ret (.error e)
        | .ok createdAt =>
            let sql := fun m : Moment => insertRoomRow m.spare name createdAt maxRooms.toNat
            .step (fun m db => (attempt sql m db).2) fun m db =>
              match (attempt sql m db).1 with
              | .error e => .ret (.error (.dbError e))
              | .ok inserted =>
                  .step (fun _ db => db) fun m db =>
                    match fetched (selectRoomByName name) m db with
                    | .error e => .ret (.error e)
                    | .ok found => .ret (creationOf inserted found) := by
  simp only [createRoom, run_now_bind, run_except_bind]
  congr 1
  funext m db
  cases toColumn "timestamp" m.now with
  | error e => rfl
  | ok createdAt =>
      simp only [onOk_ok, run_execute_bind]
      congr 1
      funext m db
      cases (attempt (fun m : Moment =>
        insertRoomRow m.spare name createdAt maxRooms.toNat) m db).1 with
      | error e => rfl
      | ok inserted =>
          simp only [Except.mapError, onOk_ok, run_fetch_bind]
          congr 1
          funext m db
          cases fetched (selectRoomByName name) m db with
          | error e => rfl
          | ok found =>
              cases found with
              | none => rfl
              | some row =>
                  simp only [onOk_ok, run_except_bind, creationOf]
                  cases row.toRoom with
                  | error e => rfl
                  | ok room => cases inserted <;> rfl

/-- What a step of `createRoom` writes: nothing, or, while there is room for it, the room
with the next id. -/
def Creates (s : Db) (o : Option (Except StoreError RoomCreation)) (t : Db) : Prop :=
  t = s ∨ o = none ∧ s.rooms.length < maxRooms.toNat ∧
    (∀ row ∈ s.rooms, ¬ NoCase row.name name) ∧
      ∃ createdAt, t = { s with rooms := s.rooms ++ [⟨s.rooms.length + 1, name, createdAt⟩] }

/-- The room that `createRoom` answers with exists under the name. -/
def Holds (r : Except StoreError RoomCreation) (db : Db) : Prop :=
  match r with
  | .ok creation => ∃ row ∈ db.rooms, NoCase row.name name ∧
      creation.room.name = row.name ∧ (creation.room.id.get : ℤ) = row.id
  | .error _ => True

theorem creationOf_of_valid {db : Db} (valid : db.Valid) (inserted : Bool) {row : RoomRow}
    (mem : row ∈ db.rooms) :
    creationOf inserted (some (withLatest db row))
      = .ok (if inserted then .created (db.room row) else .existing (db.room row)) := by
  rw [creationOf, toRoom_withLatest valid mem]
  rfl

theorem createRoom_meets (admits : Moment → Prop) (s₀ : Db) :
    (createRoom name maxRooms).run.Meets (storeContract admits) (Creates name maxRooms)
      (Holds name) s₀ := by
  rw [createRoom_run]
  refine meets_quiet fun m db _ _ _ => ⟨Or.inl rfl, ?_⟩
  cases toColumn "timestamp" m.now with
  | error e => exact trivial
  | ok createdAt =>
      have looks : ∀ (inserted : Bool) (s : Db),
          (Prog.step (fun _ db => db) fun m db =>
            match fetched (selectRoomByName name) m db with
            | .error e => .ret (.error e)
            | .ok found => .ret (creationOf inserted found)).Meets
              (storeContract admits) (Creates name maxRooms) (Holds name) s := by
        intro inserted s
        refine meets_quiet fun m db _ valid _ => ⟨Or.inl rfl, ?_⟩
        rcases fetched_cases (selectRoomByName name) m db with saw | failed
        · rcases selectRoomByName_cases name db with ⟨row, mem, same, found⟩ | ⟨-, found⟩
          · simp only [saw, found, creationOf_of_valid valid inserted mem, Prog.meets_ret]
            have id_pos := valid.id_pos mem
            refine ⟨row, mem, same, ?_⟩
            cases inserted <;> exact ⟨rfl, Int.toNat_of_nonneg (by omega)⟩
          · rw [saw, found]
            exact trivial
        · rw [failed]
          exact trivial
      refine meets_statement (fun m db inserted after _ valid _ works result attempted => ?_)
        fun m db e _ _ _ attempted => ?_
      · simp only [attempted]
        rcases insertRoomRow_cases valid result with
          ⟨rfl, below, room, fresh, rfl⟩ | ⟨rfl, -, rfl⟩
        · exact ⟨valid.addRoom _ rfl room fresh, ⟨List.prefix_refl _, List.prefix_append _ _,
            List.prefix_refl _⟩, Or.inr ⟨rfl, by exact_mod_cast below, fresh, createdAt, rfl⟩,
              looks _ _⟩
        · exact ⟨valid, Db.Extends.refl _, Or.inl rfl, looks _ _⟩
      · simp only [attempted]
        exact ⟨Or.inl rfl, trivial⟩

/-- `listRooms` is one look at the list of rooms. -/
def Lists (s : Db) (o : Option (Except StoreError (List Room))) (t : Db) : Prop :=
  t = s ∧ ∀ rooms, o = some (.ok rooms) → rooms = s.roomList

theorem mapM_toRoom {db : Db} (valid : db.Valid) {rows : List RoomRow}
    (listed : ∀ row ∈ rows, row ∈ db.rooms) :
    (rows.map (withLatest db)).mapM RoomLatest.toRoom = .ok (rows.map db.room) := by
  induction rows with
  | nil => rfl
  | cons row rows ih =>
      have rest := ih fun r mem => listed r (List.mem_cons_of_mem _ mem)
      rw [List.map_cons, List.mapM_cons, toRoom_withLatest valid (listed row List.mem_cons_self),
        rest]
      rfl

theorem listRooms_run :
    listRooms.run = .step (fun _ db => db) fun m db =>
      .ret ((fetched selectRooms m db).bind fun rows => rows.mapM RoomLatest.toRoom) := by
  simp only [listRooms, run_fetch_bind]
  congr 1
  funext m db
  cases fetched selectRooms m db <;> rfl

/-- What `listRooms` answers when the database does not fail. -/
theorem listRooms_answer {db : Db} (valid : db.Valid) {m : Moment} (works : m.fails = false) :
    ((fetched selectRooms m db).bind fun rows => rows.mapM RoomLatest.toRoom)
      = .ok db.roomList := by
  rw [fetched_of_works works, selectRooms_of_valid valid]
  exact mapM_toRoom valid fun _ mem => mem

theorem listRooms_meets (admits : Moment → Prop) (s₀ : Db) :
    listRooms.run.Meets (storeContract admits) Lists (fun _ _ => True) s₀ := by
  rw [listRooms_run]
  refine meets_quiet fun m db _ valid _ => ⟨⟨rfl, fun rooms answered => ?_⟩, trivial⟩
  cases fails : m.fails with
  | false =>
      rw [listRooms_answer valid fails] at answered
      cases answered
      rfl
  | true =>
      simp only [fetched, fails] at answered
      cases answered

/-- `roomExists` is one look at the table. -/
def Finds (room : RoomId) (s : Db) (o : Option (Except StoreError Bool)) (t : Db) : Prop :=
  t = s ∧ ∀ found, o = some (.ok found) → (found = true ↔ ∃ row ∈ s.rooms, row.id = room.get)

theorem roomExists_run (room : RoomId) :
    (roomExists room).run =
      match toColumn "room id" room.get with
      | .error e => .ret (.error e)
      | .ok id => .step (fun _ db => db) fun m db => .ret (fetched (selectRoomExists id) m db) := by
  simp only [roomExists, run_except_bind]
  cases toColumn "room id" room.get with
  | error e => rfl
  | ok id => exact run_fetch _

/-- What crosses into a column is the value itself. -/
theorem toColumn_eq {what : String} {value : ℕ} {column : ℤ}
    (h : toColumn what value = .ok column) : column = value ∧ value ≤ i64Max := by
  simp only [toColumn] at h
  split at h
  next fits => exact ⟨(Except.ok.inj h).symm, fits⟩
  next => cases h

theorem roomExists_meets (room : RoomId) (admits : Moment → Prop) (s₀ : Db) :
    (roomExists room).run.Meets (storeContract admits) (Finds room) (fun _ _ => True) s₀ := by
  rw [roomExists_run]
  cases column : toColumn "room id" room.get with
  | error e => exact trivial
  | ok id =>
      obtain ⟨rfl, -⟩ := toColumn_eq column
      refine meets_quiet fun m db _ _ _ => ⟨⟨rfl, fun found answered => ?_⟩, trivial⟩
      rcases fetched_cases (selectRoomExists room.get) m db with saw | failed
      · rw [saw] at answered
        cases answered
        exact decide_eq_true_iff
      · rw [failed] at answered
        cases answered

end Rooms

/-! ### Posting -/

section Posting

variable (room : RoomId) (username body : String)

/-- What `postMessage` makes of the row it gets back. -/
def landed (row : ℤ × ℤ) : Except StoreError PostMessageResponse := do
  return { seq := ← Column.seq row.1, postedAt := ← millis row.2 }

theorem landed_of_nonneg {s t : ℕ} : landed ((s : ℤ), (t : ℤ)) = .ok ⟨⟨s⟩, ⟨t⟩⟩ := by
  simp only [landed, Column.seq_of_nonneg (Int.natCast_nonneg s),
    millis_of_nonneg (Int.natCast_nonneg t)]
  rfl

/-- The statement `postMessage` runs. -/
def insertMessage (postedAt : ℤ) (m : Moment) : Db → SqlResult (ℤ × ℤ) :=
  insertMessageRow m.spare room.get username body postedAt

/-- `postMessage` as the steps it takes. -/
theorem postMessage_run :
    (postMessage room username body).run =
      match toColumn "room id" room.get with
      | .error e => .ret (.error e)
      | .ok _ =>
          .step (fun _ db => db) fun m _ =>
            match toColumn "timestamp" m.now with
            | .error e => .ret (.error e)
            | .ok postedAt =>
                let sql := insertMessage room username body postedAt
                .step (fun m db => (attempt sql m db).2) fun m db =>
                  match (attempt sql m db).1 with
                  | .error e => .ret (.error (postError room e))
                  | .ok row => .ret (landed row) := by
  simp only [postMessage, run_except_bind]
  cases column : toColumn "room id" room.get with
  | error e => rfl
  | ok id =>
      obtain ⟨rfl, -⟩ := toColumn_eq column
      simp only [onOk_ok, run_now_bind, run_except_bind]
      congr 1
      funext m db
      cases toColumn "timestamp" m.now with
      | error e => rfl
      | ok postedAt =>
          simp only [onOk_ok, run_executeOr_bind]
          change Prog.step (fun m db => (attempt (insertMessage room username body postedAt) m
            db).2) _ = _
          congr 1
          funext m db
          change onOk _ (Except.mapError _ (attempt (insertMessage room username body postedAt) m
            db).1) = _
          cases (attempt (insertMessage room username body postedAt) m db).1 with
          | error e => rfl
          | ok row =>
              simp only [Except.mapError, onOk_ok, landed]
              cases Column.seq row.1 with
              | error e => rfl
              | ok s => cases millis row.2 <;> rfl

/-- What a step of `postMessage` writes: nothing, or the message at the next position, and
then the operation has returned where it landed. -/
def Posts (s : Db) (o : Option (Except StoreError PostMessageResponse)) (t : Db) : Prop :=
  (t = s ∧ ∀ there, o ≠ some (.ok there)) ∨
    ∃ postedAt : ℕ, (∃ row ∈ s.rooms, row.id = room.get) ∧
      o = some (.ok ⟨⟨s.messages.length + 1⟩, ⟨postedAt⟩⟩) ∧
        t = { s with messages :=
          s.messages ++ [⟨s.messages.length + 1, room.get, username, body, postedAt⟩] }

theorem postMessage_meets (admits : Moment → Prop) (s₀ : Db) :
    (postMessage room username body).run.Meets (storeContract admits)
      (Posts room username body) (fun _ _ => True) s₀ := by
  rw [postMessage_run]
  cases toColumn "room id" room.get with
  | error e => exact trivial
  | ok id =>
      have quiet : ∀ s, Posts room username body s none s := fun s =>
        Or.inl ⟨rfl, fun there answered => by cases answered⟩
      have failing : ∀ s e, Posts room username body s (some (.error e)) s := fun s e =>
        Or.inl ⟨rfl, fun there answered => by cases answered⟩
      refine meets_quiet fun m db _ _ _ => ?_
      cases column : toColumn "timestamp" m.now with
      | error e => exact ⟨failing db e, trivial⟩
      | ok postedAt =>
          obtain ⟨rfl, -⟩ := toColumn_eq column
          refine ⟨quiet db, ?_⟩
          refine meets_statement (fun m db row after _ valid _ works result attempted => ?_)
            fun m db e _ _ _ attempted => ?_
          · simp only [attempted]
            obtain ⟨home, room_left, rfl, rfl⟩ := insertMessageRow_cases valid result
            refine ⟨valid.addMessage _ rfl room_left (Int.natCast_nonneg _) home,
              ⟨List.prefix_refl _, List.prefix_refl _, List.prefix_append _ _⟩, ?_, trivial⟩
            refine Or.inr ⟨_, home, ?_, rfl⟩
            exact congrArg some (landed_of_nonneg (s := db.messages.length + 1))
          · simp only [attempted]
            exact ⟨failing db _, trivial⟩

/-- **A post to a room that does not exist** is refused as such, when the room id and the
clock fit their columns, the database works, and there are positions left. -/
theorem postMessage_absent {db : Db} (valid : db.Valid) (fits : room.get ≤ i64Max)
    (absent : ∀ row ∈ db.rooms, row.id ≠ room.get) (left : db.messages.length < i64Max)
    {ω : ℕ → Moment} (clock : ∀ n, (ω n).now ≤ i64Max) (works : ∀ n, (ω n).fails = false) :
    (postMessage room username body).run.exec ω db
      = (.error (.notFound s!"room {room.get}"), db) := by
  have refused : ∀ postedAt : ℤ, attempt (insertMessage room username body postedAt) (ω 1) db
      = (.error .foreignKeyViolation, db) := fun postedAt =>
    attempt_of_error (works 1) (insertMessageRow_absent valid _ postedAt _ _ left absent)
  simp only [postMessage_run, toColumn_of_le "room id" fits, Prog.exec_step,
    toColumn_of_le "timestamp" (clock 0), refused]
  rfl

end Posting

end ScionChat
