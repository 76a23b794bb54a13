import ScionChat.Lib.Fallible
import ScionChat.Server.Store.Tables

/-!
# The SQLite store

The operations of the `DataStore` trait as `store/sqlite/` implements them: which statements each
one runs, in which order, and what it makes of their results.  An operation is a program of atomic
steps — a reading of the clock or a statement each — that ends in a value or a `StoreError`.

`SqliteStore.new` opens the file: it discards a database stamped with another schema version,
applies the schema, stamps it, and seeds the lobby.

Beside each operation stands its unrolling: the same program with the error plumbing worked out.
Every later fact about the operation starts from there.

### design decisions

* **No transaction where the source has none.**  `create_room` and `insert_user` run their insert
  and their look as two statements on a pool of connections, so they are two steps here, and
  anybody may run between them.
* **Ids are checked before they are bound.**  `toColumn` refuses a `u64` beyond `i64::MAX` before
  the first statement, and what it refuses is a `StoreError` of its own.
* **Replies are one type.**  `StoreOp` and `StoreReply` gather the trait's methods, so that a run
  of calls is a list, and a result about any call is one theorem.

### What is load-bearing

The order of the statements.  Whether a call looks before or after it writes is the whole
difference between a result that concurrent calls agree on and one that they do not.
-/

namespace ScionChat

open Interleaving Column Sql

/-! ### Steps of an operation -/

/-- An operation on the tables. -/
abbrev Query (α : Type) := Fallible Moment StoreError Db α

/-- One statement, run atomically: an error, the database's or its own, leaves the tables
as they were. -/
def attempt {α : Type} (sql : Moment → Db → SqlResult α) (m : Moment) (db : Db) :
    Except SqlxError α × Db :=
  if m.fails then (.error .other, db)
  else
    match sql m db with
    | .ok (a, after) => (.ok a, after)
    | .error e => (.error e, db)

/-- A statement, and what becomes of its driver error. -/
def executeOr (mapErr : SqlxError → StoreError) {α : Type} (sql : Moment → Db → SqlResult α) :
    Query α :=
  tryAtomically fun m db => ((attempt sql m db).1.mapError mapErr, (attempt sql m db).2)

/-- A statement whose driver error is passed up. -/
def execute {α : Type} (sql : Moment → Db → SqlResult α) : Query α :=
  executeOr .dbError sql

/-- A statement that only reads. -/
def fetch {α : Type} (rows : Db → α) : Query α :=
  execute fun _ db => .ok (rows db, db)

/-- Now, on the server's clock. -/
def now : Query UnixMillis :=
  ExceptT.lift <| Prog.look fun m _ => ⟨m.now⟩

@[simp] theorem run_now_bind {α : Type} (f : UnixMillis → Query α) :
    (now >>= f).run = .step (fun _ db => db) fun m _ => (f ⟨m.now⟩).run := rfl

@[simp] theorem run_executeOr_bind {α β : Type} (mapErr : SqlxError → StoreError)
    (sql : Moment → Db → SqlResult α) (f : α → Query β) :
    (executeOr mapErr sql >>= f).run
      = .step (fun m db => (attempt sql m db).2) fun m db =>
          onOk f ((attempt sql m db).1.mapError mapErr) :=
  run_tryAtomically_bind _ f

/-! ### Accounts -/

/-- The outcome of registering an account.  A cap that is reached is none of these, but an
error. -/
inductive Registration
  | created
  | usernameTaken
  deriving DecidableEq, Repr

/-- `users::insert_user`: registers an account, refusing once `maxAccounts` exist.  An insert that
has added nothing is followed by a look, which tells a name that is taken from a table that is
full. -/
def insertUser (username pwHash : String) (maxAccounts : UInt32) : Query Registration := do
  let createdAt ← toColumn "timestamp" (← now).get
  let max : ℤ := maxAccounts.toNat
  let inserted ← execute fun _ => insertUserRow username pwHash createdAt max
  if inserted then
    return .created
  -- nothing was written, for one of two reasons: the name is taken, or the cap is reached
  let taken ← fetch (selectUserExists username)
  if taken then return .usernameTaken else throw (.capExceeded "account")

/-- `users::password_hash`: the stored hash for an account.  The name is compared as the table
compares names, so that the letter case it is typed in is no matter. -/
def passwordHash (username : String) : Query (Option String) :=
  fetch (selectPwHash username)

/-! ### Rooms -/

/-- The outcome of creating a room: a taken name is a success.  The two are told apart so that a
creation can be answered by another status. -/
inductive RoomCreation
  | created (room : Room)
  | existing (room : Room)
  deriving DecidableEq, Repr

/-- The room, however it was obtained. -/
def RoomCreation.room : RoomCreation → Room
  | created room => room
  | existing room => room

/-- A row of the room queries as a `Room`. -/
def Sql.RoomLatest.toRoom (row : RoomLatest) : Except StoreError Room := do
  return { id := ← Column.roomId row.id, name := row.name,
           latestSeq := ← Column.seq row.latestSeq }

/-- `rooms::create_room`: creates a room, or returns the one already holding the name,
refusing once `maxRooms` exist. -/
def createRoom (name : String) (maxRooms : UInt32) : Query RoomCreation := do
  let createdAt ← toColumn "timestamp" (← now).get
  let max : ℤ := maxRooms.toNat
  let inserted ← execute fun m => insertRoomRow m.spare name createdAt max
  let row ← fetch (selectRoomByName name)
  -- nothing was inserted and nothing is there to return: the cap refused it
  let some row := row | throw (.capExceeded "room")
  let room ← row.toRoom
  return if inserted then .created room else .existing room

/-- `rooms::list_rooms`: every room, oldest first.  It is one statement, with the position of the
newest message joined to each room. -/
def listRooms : Query (List Room) := do
  let rows ← fetch selectRooms
  (rows.mapM RoomLatest.toRoom : Except StoreError (List Room))

/-- `rooms::room_exists`. -/
def roomExists (room : RoomId) : Query Bool := do
  let id ← toColumn "room id" room.get
  fetch (selectRoomExists id)

/-! ### Messages -/

/-- What `post_message` makes of a driver error: the foreign key is what rejects a room that
does not exist. -/
def postError (room : RoomId) : SqlxError → StoreError
  | .foreignKeyViolation => .notFound s!"room {room.get}"
  | e => .dbError e

/-- `messages::post_message`: appends a message to a room.  The clock is read before the insert,
and a room that is not there is found out by the insert itself. -/
def postMessage (room : RoomId) (username body : String) : Query PostMessageResponse := do
  let id ← toColumn "room id" room.get
  let postedAt ← toColumn "timestamp" (← now).get
  let row ← executeOr (postError room) fun m =>
    insertMessageRow m.spare id username body postedAt
  return { seq := ← seq row.1, postedAt := ← millis row.2 }

/-- The four columns of a message query as a `Message`. -/
def MessageRow.toMessage (row : MessageRow) : Except StoreError Message := do
  return { seq := ← Column.seq row.seq, username := row.username, body := row.body,
           postedAt := ← millis row.postedAt }

/-- `messages::collect`. -/
def collect (rows : List MessageRow) : Except StoreError (List Message) :=
  rows.mapM MessageRow.toMessage

/-- `messages::newest`: the newest `limit` messages in a room, oldest first.  They are read from
the newest down, and then turned round. -/
def newest (room : RoomId) (limit : ℕ) : Query (List Message) := do
  let id ← toColumn "room id" room.get
  let rows ← fetch (selectNewest id limit)
  let messages ← collect rows
  return messages.reverse

/-- `messages::after`: messages newer than `cursor`, oldest first. -/
def after (room : RoomId) (cursor : Seq) (limit : ℕ) : Query (List Message) := do
  let id ← toColumn "room id" room.get
  let cursor ← toColumn "seq" cursor.get
  let rows ← fetch (selectAfter id cursor limit)
  collect rows

/-- `messages::before`: messages older than `cursor`, oldest first. -/
def before (room : RoomId) (cursor : Seq) (limit : ℕ) : Query (List Message) := do
  let id ← toColumn "room id" room.get
  let cursor ← toColumn "seq" cursor.get
  let rows ← fetch (selectBefore id cursor limit)
  let messages ← collect rows
  return messages.reverse

/-! ### The trait -/

/-- How much a store accepts before it refuses more. -/
structure Caps where
  accounts : UInt32
  rooms : UInt32
  deriving DecidableEq

/-- The room that always exists. -/
def LOBBY : String := "lobby"

/-- A call of the `DataStore` trait.  Caps are not part of it, since they belong to the store that
is open. -/
inductive StoreOp
  | insertUser (username pwHash : String)
  | passwordHash (username : String)
  | createRoom (name : String)
  | listRooms
  | roomExists (room : RoomId)
  | postMessage (room : RoomId) (username body : String)
  | messagesNewest (room : RoomId) (limit : ℕ)
  | messagesAfter (room : RoomId) (cursor : Seq) (limit : ℕ)
  | messagesBefore (room : RoomId) (cursor : Seq) (limit : ℕ)
  deriving DecidableEq, Repr

/-- What a call answers.  An error is not a reply: it stands beside it, in an `Except`. -/
inductive StoreReply
  | registration (outcome : Registration)
  | hash (stored : Option String)
  | creation (outcome : RoomCreation)
  | rooms (list : List Room)
  | found (answer : Bool)
  | posted (landed : PostMessageResponse)
  | page (messages : List Message)
  deriving DecidableEq, Repr

/-- `impl DataStore for SqliteStore`: the dispatch to the statements of each table. -/
def StoreOp.query (caps : Caps) : StoreOp → Query StoreReply
  | insertUser username pwHash =>
      .registration <$> ScionChat.insertUser username pwHash caps.accounts
  | passwordHash username => .hash <$> ScionChat.passwordHash username
  | createRoom name => .creation <$> ScionChat.createRoom name caps.rooms
  | listRooms => .rooms <$> ScionChat.listRooms
  | roomExists room => .found <$> ScionChat.roomExists room
  | postMessage room username body => .posted <$> ScionChat.postMessage room username body
  | messagesNewest room limit => .page <$> newest room limit
  | messagesAfter room cursor limit => .page <$> after room cursor limit
  | messagesBefore room cursor limit => .page <$> before room cursor limit

/-! ### Opening the file -/

/-- A database file: the version stamped into it, and its tables once the schema has been
applied. -/
structure DbFile where
  userVersion : ℤ
  tables : Option Db
  deriving DecidableEq

/-- The version this build stamps. -/
def SCHEMA_VERSION : ℤ := 1

/-- A program over the place where the database file is, if there is one. -/
abbrev FileQuery (α : Type) := Fallible Moment StoreError (Option DbFile) α

/-- One operation on the file, which fails as `error` or answers and acts. -/
def onFile {α : Type} (error : StoreError) (act : Option DbFile → α × Option DbFile) :
    FileQuery α :=
  tryAtomically fun m file =>
    if m.fails then (.error error, file) else (.ok (act file).1, (act file).2)

/-- `stamped_version`: the version of an existing database.  `none` when there is no file,
or when it reads as `0`. -/
def stampedVersion : FileQuery (Option ℤ) :=
  onFile (.dbError .other) fun file =>
    (file.bind fun f => if f.userVersion ≠ 0 then some f.userVersion else none, file)

/-- `remove_database`. -/
def removeDatabase : FileQuery Unit :=
  onFile (.fileError "chat.db") fun _ => ((), none)

/-- `connect(path, true)`: a missing file is created, without tables and unstamped. -/
def connectOrCreate : FileQuery Unit :=
  onFile (.dbError .other) fun file => ((), some (file.getD ⟨0, none⟩))

/-- `CREATE TABLE IF NOT EXISTS …`: tables that exist stay as they are. -/
def applySchema : FileQuery Unit :=
  onFile (.dbError .other) fun file =>
    ((), file.map fun f => { f with tables := some (f.tables.getD Db.empty) })

/-- `PRAGMA user_version = …`. -/
def stampVersion : FileQuery Unit :=
  onFile (.dbError .other) fun file =>
    ((), file.map fun f => { f with userVersion := SCHEMA_VERSION })

/-- The tables a pool of connections to the file sees. -/
def DbFile.db (file : Option DbFile) : Db :=
  (file.bind DbFile.tables).getD Db.empty

/-- The file with other tables. -/
def DbFile.withDb (db : Db) (file : Option DbFile) : Option DbFile :=
  file.map fun f => { f with tables := some db }

/-- A query on the tables of an open file. -/
def Query.onFile {α : Type} (query : Query α) : FileQuery α :=
  ExceptT.mk (query.run.focus DbFile.db DbFile.withDb)

/-- `SqliteStore::new`: opens the database, creating it and its directory when absent and
discarding it when it was written by a different schema version. -/
def SqliteStore.new : FileQuery Unit := do
  onFile (.fileError "") fun file => ((), file)
  let stamped ← stampedVersion
  if stamped.any (· ≠ SCHEMA_VERSION) then
    removeDatabase
  connectOrCreate
  applySchema
  stampVersion
  -- seeded directly rather than through the store's own cap
  discard <| Query.onFile (createRoom LOBBY (UInt32.ofNat u32Max))

end ScionChat
