import Mathlib.Data.List.Sort
import Mathlib.Data.Int.Order.Basic
import ScionChat.Core.V1
import ScionChat.Lib.Interleaving

/-!
# The three tables, and the statements that touch them

`schema.sql` as row types, and every SQL statement of `store/sqlite/*.rs` as one function on the
tables.  SQLite runs a statement atomically, so a statement is one atomic step of an interleaved
program; what happens between two statements of the same operation is up to the other threads.

Three things a statement depends on lie outside the program, and each step is handed them as a
`Moment`: the clock, whether the database fails, and — only once the largest rowid is taken — which
unused rowid SQLite's random search comes up with.

A table is the list of its rows in the order they were inserted.  No query relies on that order:
each one filters, sorts by its `ORDER BY`, and cuts at its `LIMIT`.

### design decisions

* **Columns are integers.**  A rowid and every other number of a column is an `Int`, as SQLite has
  it, with 64 bits where it is given out.  The API's `u64`s become columns in the store, and not
  here.
* **Unique means `NOCASE`.**  An insert that meets the name of a row under `NoCase` is refused,
  which folds the ASCII letters and nothing else, as SQLite does.
* **A subquery belongs to its statement.**  The cap of a table is counted in the `INSERT` itself,
  so that counting and adding are one function of the tables.
-/

namespace ScionChat

open Interleaving

/-- `i64::MAX`, the largest value a column holds. -/
def i64Max : ℕ := 2 ^ 63 - 1

/-- What the outside contributes to one atomic step: the clock in milliseconds since the
epoch, whether the database or the file system fails, what SQLite's search for an unused
rowid finds once the largest is taken, the salt of a password hash, the bytes of a fresh
secret, and how many bytes a write that fails has written. -/
structure Moment where
  now : ℕ := 0
  fails : Bool := false
  spare : Option ℤ := none
  salt : ℕ := 0
  random : Vector UInt8 32 := Vector.replicate 32 0
  written : ℕ := 0
  deriving DecidableEq, Repr

/-! ### Errors -/

/-- A driver error, as far as the code tells one from another.  Only a violation of a foreign key
is told from the rest. -/
inductive SqlxError
  | foreignKeyViolation
  | other
  deriving DecidableEq, Repr

/-- Anything the store can fail with. -/
inductive StoreError
  | notFound (row : String)
  | dbError (source : SqlxError)
  | fileError (path : String)
  | capExceeded (what : String)
  | outOfRange (what : String) (value : ℤ)
  deriving DecidableEq, Repr

/-! ### Crossing between columns and the API -/

namespace Column

/-- A column on its way out: a negative value is an error.  No statement of this program stores
one, so the error is for a file that something else has written. -/
def fromColumn (what : String) (value : ℤ) : Except StoreError ℕ :=
  if 0 ≤ value then .ok value.toNat else .error (.outOfRange what value)

/-- A value on its way into a column: it fails above `i64::MAX`.  The error names what the value
was for, and the caller is told nothing but that the server failed. -/
def toColumn (what : String) (value : ℕ) : Except StoreError ℤ :=
  if value ≤ i64Max then .ok value else .error (.outOfRange what value)

def roomId (value : ℤ) : Except StoreError RoomId :=
  RoomId.mk <$> fromColumn "room id" value

def seq (value : ℤ) : Except StoreError Seq :=
  Seq.mk <$> fromColumn "seq" value

def millis (value : ℤ) : Except StoreError UnixMillis :=
  UnixMillis.mk <$> fromColumn "timestamp" value

theorem fromColumn_of_nonneg (what : String) {value : ℤ} (h : 0 ≤ value) :
    fromColumn what value = .ok value.toNat :=
  if_pos h

theorem toColumn_of_le (what : String) {value : ℕ} (h : value ≤ i64Max) :
    toColumn what value = .ok (value : ℤ) :=
  if_pos h

/-- A value fits its column, or is out of range. -/
theorem toColumn_cases (what : String) (value : ℕ) :
    (value ≤ i64Max ∧ toColumn what value = .ok (value : ℤ)) ∨
      (¬ value ≤ i64Max ∧ toColumn what value = .error (.outOfRange what value)) := by
  by_cases fits : value ≤ i64Max
  · exact Or.inl ⟨fits, if_pos fits⟩
  · exact Or.inr ⟨fits, if_neg fits⟩

theorem seq_of_nonneg {value : ℤ} (h : 0 ≤ value) : seq value = .ok ⟨value.toNat⟩ := by
  simp [seq, fromColumn_of_nonneg _ h, Functor.map, Except.map]

theorem millis_of_nonneg {value : ℤ} (h : 0 ≤ value) : millis value = .ok ⟨value.toNat⟩ := by
  simp [millis, fromColumn_of_nonneg _ h, Functor.map, Except.map]

theorem roomId_of_nonneg {value : ℤ} (h : 0 ≤ value) : roomId value = .ok ⟨value.toNat⟩ := by
  simp [roomId, fromColumn_of_nonneg _ h, Functor.map, Except.map]

end Column

/-! ### The NOCASE collation -/

/-- The folding of the `NOCASE` collation: the 26 ASCII letters, and nothing else.  A name with an
umlaut is another name in another letter case. -/
def foldCase (name : String) : List Char :=
  name.toList.map Char.toLower

/-- Two names compare equal under `COLLATE NOCASE`.

Names with a NUL inside are outside of this: SQLite compares them up to the NUL only.  None of
them gets past the API, which refuses a name with a control character in it. -/
def NoCase (a b : String) : Prop :=
  foldCase a = foldCase b

instance (a b : String) : Decidable (NoCase a b) :=
  inferInstanceAs (Decidable (foldCase a = foldCase b))

namespace NoCase

theorem refl (a : String) : NoCase a a := rfl

theorem symm {a b : String} (h : NoCase a b) : NoCase b a := Eq.symm h

theorem trans {a b c : String} (h : NoCase a b) (h' : NoCase b c) : NoCase a c := Eq.trans h h'

end NoCase

/-! ### Rows -/

/-- A row of `users`. -/
structure UserRow where
  username : String
  pwHash : String
  createdAt : ℤ
  deriving DecidableEq, Repr

/-- A row of `rooms`. -/
structure RoomRow where
  id : ℤ
  name : String
  createdAt : ℤ
  deriving DecidableEq, Repr

/-- A row of `messages`. -/
structure MessageRow where
  seq : ℤ
  roomId : ℤ
  username : String
  body : String
  postedAt : ℤ
  deriving DecidableEq, Repr

/-- The tables, each with its rows in order of insertion.  A rowid is no position in these lists;
the two agree because rows are only ever added. -/
structure Db where
  users : List UserRow
  rooms : List RoomRow
  messages : List MessageRow
  deriving DecidableEq, Repr

/-- What `schema.sql` creates. -/
def Db.empty : Db := ⟨[], [], []⟩

/-- The rowid SQLite gives the next row of an `INTEGER PRIMARY KEY` table: one more than
the largest in use.  Once the largest possible is in use, it is whatever unused one its
random search finds, if it finds any. -/
def nextRowid (spare : Option ℤ) (taken : List ℤ) : Option ℤ :=
  match taken.max? with
  | none => some 1
  | some largest =>
      if largest < i64Max then some (largest + 1)
      else spare.filter fun id => 1 ≤ id ∧ id ≤ i64Max ∧ id ∉ taken

/-! ### Statements

What a statement answers, and the tables it leaves.  An error leaves them alone. -/

namespace Sql

/-- A statement's result: an error, or rows and the tables as they are afterwards. -/
abbrev SqlResult (α : Type) := Except SqlxError (α × Db)

/-- `INSERT INTO users … SELECT ?, ?, ? WHERE (SELECT COUNT(*) FROM users) < ?
ON CONFLICT(username) DO NOTHING`, answering whether it affected a row. -/
def insertUserRow (username hash : String) (createdAt max : ℤ) (db : Db) : SqlResult Bool :=
  if (db.users.length : ℤ) < max ∧ ¬ ∃ row ∈ db.users, NoCase row.username username then
    .ok (true, { db with users := db.users ++ [⟨username, hash, createdAt⟩] })
  else .ok (false, db)

/-- `SELECT EXISTS(SELECT 1 FROM users WHERE username = ?)`. -/
def selectUserExists (username : String) (db : Db) : Bool :=
  decide (∃ row ∈ db.users, NoCase row.username username)

/-- `SELECT pw_hash FROM users WHERE username = ?`, the first row. -/
def selectPwHash (username : String) (db : Db) : Option String :=
  (db.users.find? fun row => NoCase row.username username).map UserRow.pwHash

/-- `INSERT INTO rooms … SELECT ?, ? WHERE (SELECT COUNT(*) FROM rooms) < ?
ON CONFLICT(name) DO NOTHING`, answering whether it affected a row. -/
def insertRoomRow (spare : Option ℤ) (name : String) (createdAt max : ℤ) (db : Db) :
    SqlResult Bool :=
  if (db.rooms.length : ℤ) < max then
    match nextRowid spare (db.rooms.map RoomRow.id) with
    | none => .error .other
    | some id =>
        if ∃ row ∈ db.rooms, NoCase row.name name then .ok (false, db)
        else .ok (true, { db with rooms := db.rooms ++ [⟨id, name, createdAt⟩] })
  else .ok (false, db)

/-- `COALESCE(MAX(m.seq), 0)` over the messages of one room.  It is the join of the room queries,
for one room. -/
def maxSeq (db : Db) (id : ℤ) : ℤ :=
  ((db.messages.filter fun row => row.roomId = id).map MessageRow.seq).max?.getD 0

/-- A row of the two room queries: `r.id`, `r.name` and the room's `latest_seq`. -/
structure RoomLatest where
  id : ℤ
  name : String
  latestSeq : ℤ
  deriving DecidableEq, Repr

/-- One group of `rooms r LEFT JOIN messages m … GROUP BY r.id, r.name`. -/
def withLatest (db : Db) (row : RoomRow) : RoomLatest :=
  ⟨row.id, row.name, maxSeq db row.id⟩

/-- The room query `… WHERE r.name = ?`, the first row. -/
def selectRoomByName (name : String) (db : Db) : Option RoomLatest :=
  (db.rooms.find? fun row => NoCase row.name name).map (withLatest db)

/-- The room query `… ORDER BY r.id`. -/
def selectRooms (db : Db) : List RoomLatest :=
  (db.rooms.map (withLatest db)).insertionSort fun a b => a.id ≤ b.id

/-- `SELECT EXISTS(SELECT 1 FROM rooms WHERE id = ?)`. -/
def selectRoomExists (id : ℤ) (db : Db) : Bool :=
  decide (∃ row ∈ db.rooms, row.id = id)

/-- `INSERT INTO messages … VALUES (?, ?, ?, ?) RETURNING seq, posted_at`, with foreign keys
on: the room has to exist. -/
def insertMessageRow (spare : Option ℤ) (id : ℤ) (username body : String) (postedAt : ℤ)
    (db : Db) : SqlResult (ℤ × ℤ) :=
  match nextRowid spare (db.messages.map MessageRow.seq) with
  | none => .error .other
  | some s =>
      if ∃ row ∈ db.rooms, row.id = id then
        .ok ((s, postedAt),
          { db with messages := db.messages ++ [⟨s, id, username, body, postedAt⟩] })
      else .error .foreignKeyViolation

/-- `LIMIT ?`: a negative limit is no limit.  The server never gives one, since its limits are
unsigned and small. -/
def limitRows {α : Type} (limit : ℤ) (rows : List α) : List α :=
  if limit < 0 then rows else rows.take limit.toNat

/-- `ORDER BY seq ASC`. -/
def ascending (rows : List MessageRow) : List MessageRow :=
  rows.insertionSort fun a b => a.seq ≤ b.seq

/-- `ORDER BY seq DESC`. -/
def descending (rows : List MessageRow) : List MessageRow :=
  rows.insertionSort fun a b => b.seq ≤ a.seq

/-- `SELECT … WHERE room_id = ? ORDER BY seq DESC LIMIT ?`. -/
def selectNewest (id limit : ℤ) (db : Db) : List MessageRow :=
  limitRows limit (descending (db.messages.filter fun row => row.roomId = id))

/-- `SELECT … WHERE room_id = ? AND seq > ? ORDER BY seq ASC LIMIT ?`. -/
def selectAfter (id after limit : ℤ) (db : Db) : List MessageRow :=
  limitRows limit
    (ascending (db.messages.filter fun row => row.roomId = id ∧ after < row.seq))

/-- `SELECT … WHERE room_id = ? AND seq < ? ORDER BY seq DESC LIMIT ?`. -/
def selectBefore (id before limit : ℤ) (db : Db) : List MessageRow :=
  limitRows limit
    (descending (db.messages.filter fun row => row.roomId = id ∧ row.seq < before))

end Sql

end ScionChat
