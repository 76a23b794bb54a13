import Mathlib.Data.List.Pairwise
import ScionChat.Server.Store.Tables

/-!
# What every store satisfies

`Db.Valid` is the invariant of the tables, kept by every statement the code runs: names are unique
under `NOCASE`, the rowids of `rooms` and of `messages` count up from one in the order of
insertion, and every message belongs to a room.  It bounds the two counts as well, because SQLite
has no rowid left to give past `i64::MAX`; no operation has to assume that a table stays small.

`Db.Extends` is what every statement does to the tables: rows are added at the end, and none is
changed or removed.

For each statement that writes, an inversion lemma says everything it can do.

### design decisions

* **An invariant, and a relation.**  `Db.Valid` is what is true of one state, and `Db.Extends` of
  any two of a run, one after the other.  Between them they are the contract under which every
  program over the tables is specified, and no module above proves more of a statement than this
  one.
* **Running out is a case.**  `nextRowid` has nothing to give once the largest rowid is taken,
  however long SQLite searches, since the table is then full.  The statement fails, and so does the
  call.

### What is load-bearing

`nextRowid_rowids`: the next rowid of a table that has only ever been inserted into is the next
number.  Order of insertion, order of rowids and length of the table are thereby one thing.
-/

namespace ScionChat

/-! ### Rowids -/

/-- The rowids a table has given out after `n` insertions. -/
def rowids (n : ℕ) : List ℤ :=
  (List.range n).map fun i : ℕ => (i : ℤ) + 1

@[simp] theorem rowids_zero : rowids 0 = [] := rfl

theorem rowids_succ (n : ℕ) : rowids (n + 1) = rowids n ++ [(n : ℤ) + 1] := by
  simp [rowids, List.range_succ]

@[simp] theorem mem_rowids {n : ℕ} {id : ℤ} : id ∈ rowids n ↔ 1 ≤ id ∧ id ≤ n := by
  simp only [rowids, List.mem_map, List.mem_range]
  constructor
  · rintro ⟨i, bound, rfl⟩
    omega
  · rintro ⟨low, high⟩
    exact ⟨(id - 1).toNat, by omega, by omega⟩

/-- Rowids ascend. -/
theorem rowids_ascending (n : ℕ) : (rowids n).Pairwise (· < ·) := by
  induction n with
  | zero => exact List.Pairwise.nil
  | succ n ih =>
      rw [rowids_succ]
      refine List.pairwise_append.mpr ⟨ih, List.pairwise_singleton _ _, fun a mem b hb => ?_⟩
      rw [List.mem_singleton.mp hb]
      have := (mem_rowids.mp mem).2
      omega

theorem rowids_max (n : ℕ) : (rowids (n + 1)).max? = some ((n : ℤ) + 1) := by
  refine List.max?_eq_some_iff.mpr ⟨mem_rowids.mpr ⟨by omega, by omega⟩, fun id mem => ?_⟩
  have := (mem_rowids.mp mem).2
  omega

/-- **The next rowid of a table that has only ever been inserted into** is the next number;
once the numbers are used up there is none, whatever SQLite searches for. -/
theorem nextRowid_rowids (spare : Option ℤ) {n : ℕ} (fits : n ≤ i64Max) :
    nextRowid spare (rowids n) = if n < i64Max then some ((n : ℤ) + 1) else none := by
  cases n with
  | zero => rfl
  | succ n =>
      simp only [nextRowid, rowids_max]
      by_cases room : n + 1 < i64Max
      · have room' : (n : ℤ) + 1 < (i64Max : ℤ) := by exact_mod_cast room
        rw [if_pos room', if_pos room]
        push_cast
        rfl
      · have full : n + 1 = i64Max := by omega
        have room' : ¬ (n : ℤ) + 1 < (i64Max : ℤ) := by exact_mod_cast room
        rw [if_neg room', if_neg room, Option.filter_eq_none_iff]
        intro id _
        simp only [decide_eq_true_eq, mem_rowids]
        rintro ⟨low, high, unused⟩
        rw [full] at unused
        exact unused ⟨low, high⟩

/-! ### Tables only grow -/

/-- `b` has the rows of `a` in front, and possibly more behind them. -/
structure Db.Extends (a b : Db) : Prop where
  users : a.users <+: b.users
  rooms : a.rooms <+: b.rooms
  messages : a.messages <+: b.messages

namespace Db.Extends

theorem refl (a : Db) : a.Extends a :=
  ⟨List.prefix_refl _, List.prefix_refl _, List.prefix_refl _⟩

theorem trans {a b c : Db} (h : a.Extends b) (h' : b.Extends c) : a.Extends c :=
  ⟨h.users.trans h'.users, h.rooms.trans h'.rooms, h.messages.trans h'.messages⟩

theorem user {a b : Db} (h : a.Extends b) {row : UserRow} (mem : row ∈ a.users) :
    row ∈ b.users :=
  h.users.subset mem

theorem room {a b : Db} (h : a.Extends b) {row : RoomRow} (mem : row ∈ a.rooms) :
    row ∈ b.rooms :=
  h.rooms.subset mem

theorem message {a b : Db} (h : a.Extends b) {row : MessageRow} (mem : row ∈ a.messages) :
    row ∈ b.messages :=
  h.messages.subset mem

end Db.Extends

/-! ### The invariant -/

/-- **The invariant of the tables.** Each clause is kept by each statement, and all that the
operations need is read off it. -/
structure Db.Valid (db : Db) : Prop where
  /-- No two accounts have names equal under `NOCASE`. -/
  users : db.users.Pairwise fun a b => ¬ NoCase a.username b.username
  /-- No two rooms have names equal under `NOCASE`. -/
  rooms : db.rooms.Pairwise fun a b => ¬ NoCase a.name b.name
  ids : db.rooms.map RoomRow.id = rowids db.rooms.length
  seqs : db.messages.map MessageRow.seq = rowids db.messages.length
  roomsFit : db.rooms.length ≤ i64Max
  messagesFit : db.messages.length ≤ i64Max
  postedAt : ∀ row ∈ db.messages, 0 ≤ row.postedAt
  /-- Every message is in a room that exists. -/
  homes : ∀ row ∈ db.messages, ∃ room ∈ db.rooms, room.id = row.roomId

namespace Db.Valid

variable {db : Db}

theorem empty : Db.empty.Valid where
  users := List.Pairwise.nil
  rooms := List.Pairwise.nil
  ids := rfl
  seqs := rfl
  roomsFit := Nat.zero_le _
  messagesFit := Nat.zero_le _
  postedAt := fun _ mem => absurd mem List.not_mem_nil
  homes := fun _ mem => absurd mem List.not_mem_nil

theorem id_pos (h : db.Valid) {row : RoomRow} (mem : row ∈ db.rooms) : 1 ≤ row.id := by
  have : row.id ∈ rowids db.rooms.length := h.ids ▸ List.mem_map_of_mem mem
  exact (mem_rowids.mp this).1

theorem id_le (h : db.Valid) {row : RoomRow} (mem : row ∈ db.rooms) : row.id ≤ i64Max := by
  have listed : row.id ∈ rowids db.rooms.length := h.ids ▸ List.mem_map_of_mem mem
  have bound : (db.rooms.length : ℤ) ≤ i64Max := by exact_mod_cast h.roomsFit
  exact (mem_rowids.mp listed).2.trans bound

theorem seq_pos (h : db.Valid) {row : MessageRow} (mem : row ∈ db.messages) : 1 ≤ row.seq := by
  have : row.seq ∈ rowids db.messages.length := h.seqs ▸ List.mem_map_of_mem mem
  exact (mem_rowids.mp this).1

theorem seq_le (h : db.Valid) {row : MessageRow} (mem : row ∈ db.messages) :
    row.seq ≤ db.messages.length := by
  have : row.seq ∈ rowids db.messages.length := h.seqs ▸ List.mem_map_of_mem mem
  exact (mem_rowids.mp this).2

/-- After so many rows, the positions are beyond that number. -/
theorem lt_seq_of_mem_drop (h : db.Valid) {k : ℕ} {row : MessageRow}
    (mem : row ∈ db.messages.drop k) : (k : ℤ) < row.seq := by
  obtain ⟨i, at_i⟩ := List.mem_iff_getElem?.mp mem
  rw [List.getElem?_drop] at at_i
  have listed : (rowids db.messages.length)[k + i]? = some row.seq := by
    rw [← h.seqs, List.getElem?_map, at_i, Option.map_some]
  rw [rowids, List.getElem?_map] at listed
  obtain ⟨j, at_j, seq⟩ := Option.map_eq_some_iff.mp listed
  obtain ⟨bound, rfl⟩ := List.getElem?_eq_some_iff.mp at_j
  rw [List.getElem_range] at seq
  omega

/-- Messages are in the order of their positions. -/
theorem messages_ascending (h : db.Valid) : db.messages.Pairwise fun a b => a.seq < b.seq := by
  have := rowids_ascending db.messages.length
  rw [← h.seqs] at this
  exact List.pairwise_map.mp this

/-- Rooms are in the order of their ids. -/
theorem rooms_ascending (h : db.Valid) : db.rooms.Pairwise fun a b => a.id < b.id := by
  have := rowids_ascending db.rooms.length
  rw [← h.ids] at this
  exact List.pairwise_map.mp this

/-- A name is the name of one account. -/
theorem user_unique (h : db.Valid) {a b : UserRow} (ha : a ∈ db.users) (hb : b ∈ db.users)
    (same : NoCase a.username b.username) : a = b := by
  by_contra differ
  have symm : Std.Symm fun a b : UserRow => ¬ NoCase a.username b.username :=
    ⟨fun _ _ ne eq => ne eq.symm⟩
  exact h.users.forall ha hb differ same

/-- A name is the name of one room. -/
theorem room_unique (h : db.Valid) {a b : RoomRow} (ha : a ∈ db.rooms) (hb : b ∈ db.rooms)
    (same : NoCase a.name b.name) : a = b := by
  by_contra differ
  have symm : Std.Symm fun a b : RoomRow => ¬ NoCase a.name b.name :=
    ⟨fun _ _ ne eq => ne eq.symm⟩
  exact h.rooms.forall ha hb differ same

/-! ### Rows that may be added -/

theorem addUser (h : db.Valid) (row : UserRow)
    (fresh : ∀ old ∈ db.users, ¬ NoCase old.username row.username) :
    { db with users := db.users ++ [row] }.Valid :=
  { h with
    users := by
      refine List.pairwise_append.mpr ⟨h.users, List.pairwise_singleton _ _, ?_⟩
      intro old mem new new_mem
      rw [List.mem_singleton.mp new_mem]
      exact fresh old mem }

theorem addRoom (h : db.Valid) (row : RoomRow) (next : row.id = (db.rooms.length : ℤ) + 1)
    (room : db.rooms.length < i64Max) (fresh : ∀ old ∈ db.rooms, ¬ NoCase old.name row.name) :
    { db with rooms := db.rooms ++ [row] }.Valid :=
  { h with
    rooms := by
      refine List.pairwise_append.mpr ⟨h.rooms, List.pairwise_singleton _ _, ?_⟩
      intro old mem new new_mem
      rw [List.mem_singleton.mp new_mem]
      exact fresh old mem
    ids := by simp [h.ids, rowids_succ, next]
    roomsFit := by simpa using Nat.succ_le_of_lt room
    homes := fun message mem =>
      have ⟨home, home_mem, at_home⟩ := h.homes message mem
      ⟨home, List.mem_append_left _ home_mem, at_home⟩ }

theorem addMessage (h : db.Valid) (row : MessageRow)
    (next : row.seq = (db.messages.length : ℤ) + 1) (room : db.messages.length < i64Max)
    (clock : 0 ≤ row.postedAt) (home : ∃ room ∈ db.rooms, room.id = row.roomId) :
    { db with messages := db.messages ++ [row] }.Valid :=
  { h with
    seqs := by simp [h.seqs, rowids_succ, next]
    messagesFit := by simpa using Nat.succ_le_of_lt room
    postedAt := fun message mem => by
      rcases List.mem_append.mp mem with old | new
      · exact h.postedAt message old
      · rw [List.mem_singleton.mp new]
        exact clock
    homes := fun message mem => by
      rcases List.mem_append.mp mem with old | new
      · exact h.homes message old
      · rw [List.mem_singleton.mp new]
        exact home }

end Db.Valid

/-! ### What the inserting statements can do -/

namespace Sql

variable {db after : Db}

/-- An account is inserted below the cap under a new name, or nothing happens. -/
theorem insertUserRow_cases {username hash : String} {createdAt max : ℤ} {inserted : Bool}
    (h : insertUserRow username hash createdAt max db = .ok (inserted, after)) :
    (inserted = true ∧ (db.users.length : ℤ) < max ∧
        (∀ row ∈ db.users, ¬ NoCase row.username username) ∧
          after = { db with users := db.users ++ [⟨username, hash, createdAt⟩] }) ∨
      (inserted = false ∧
        (max ≤ db.users.length ∨ ∃ row ∈ db.users, NoCase row.username username) ∧
          after = db) := by
  simp only [insertUserRow] at h
  split at h
  next grows =>
    cases h
    exact Or.inl ⟨rfl, grows.1, fun row mem same => grows.2 ⟨row, mem, same⟩, rfl⟩
  next stays =>
    cases h
    refine Or.inr ⟨rfl, ?_, rfl⟩
    by_cases cap : (db.users.length : ℤ) < max
    · exact Or.inr (not_not.mp fun absent => stays ⟨cap, absent⟩)
    · exact Or.inl (not_lt.mp cap)

theorem insertUserRow_ok (username hash : String) (createdAt max : ℤ) (db : Db) :
    ∃ inserted after,
      insertUserRow username hash createdAt max db = .ok (inserted, after) := by
  simp only [insertUserRow]
  split <;> exact ⟨_, _, rfl⟩

/-- A room is inserted below the cap under a new name and with the next id, or nothing
happens. -/
theorem insertRoomRow_cases (valid : db.Valid) {spare : Option ℤ} {name : String}
    {createdAt max : ℤ} {inserted : Bool}
    (h : insertRoomRow spare name createdAt max db = .ok (inserted, after)) :
    (inserted = true ∧ (db.rooms.length : ℤ) < max ∧ db.rooms.length < i64Max ∧
        (∀ row ∈ db.rooms, ¬ NoCase row.name name) ∧
          after = { db with rooms := db.rooms ++ [⟨db.rooms.length + 1, name, createdAt⟩] }) ∨
      (inserted = false ∧
        (max ≤ db.rooms.length ∨ ∃ row ∈ db.rooms, NoCase row.name name) ∧ after = db) := by
  rw [insertRoomRow, valid.ids, nextRowid_rowids spare valid.roomsFit] at h
  by_cases cap : (db.rooms.length : ℤ) < max
  · rw [if_pos cap] at h
    by_cases room : db.rooms.length < i64Max
    · rw [if_pos room] at h
      by_cases taken : ∃ row ∈ db.rooms, NoCase row.name name
      · simp only [if_pos taken] at h
        cases h
        exact Or.inr ⟨rfl, Or.inr taken, rfl⟩
      · simp only [if_neg taken] at h
        cases h
        exact Or.inl ⟨rfl, cap, room, fun row mem same => taken ⟨row, mem, same⟩, rfl⟩
    · rw [if_neg room] at h
      cases h
  · rw [if_neg cap] at h
    cases h
    exact Or.inr ⟨rfl, Or.inl (not_lt.mp cap), rfl⟩

/-- Below a cap that fits a `u32` the statement does not run out of ids. -/
theorem insertRoomRow_ok (valid : db.Valid) (spare : Option ℤ) (name : String)
    (createdAt : ℤ) (max : UInt32) :
    ∃ inserted after,
      insertRoomRow spare name createdAt max.toNat db = .ok (inserted, after) := by
  rw [insertRoomRow, valid.ids, nextRowid_rowids spare valid.roomsFit]
  by_cases cap : (db.rooms.length : ℤ) < max.toNat
  · have small := max.toNat_lt
    have room : db.rooms.length < i64Max := by
      simp only [i64Max]
      omega
    simp only [if_pos cap, if_pos room]
    split <;> exact ⟨_, _, rfl⟩
  · simp only [if_neg cap]
    exact ⟨_, _, rfl⟩

/-- A message is appended at the next position to a room that exists. -/
theorem insertMessageRow_cases (valid : db.Valid) {spare : Option ℤ} {id postedAt : ℤ}
    {username body : String} {row : ℤ × ℤ}
    (h : insertMessageRow spare id username body postedAt db = .ok (row, after)) :
    (∃ room ∈ db.rooms, room.id = id) ∧ db.messages.length < i64Max ∧
      row = ((db.messages.length : ℤ) + 1, postedAt) ∧
        after = { db with
          messages :=
            db.messages ++ [⟨db.messages.length + 1, id, username, body, postedAt⟩] } := by
  rw [insertMessageRow, valid.seqs, nextRowid_rowids spare valid.messagesFit] at h
  by_cases room : db.messages.length < i64Max
  · rw [if_pos room] at h
    by_cases home : ∃ room ∈ db.rooms, room.id = id
    · simp only [if_pos home] at h
      cases h
      exact ⟨home, room, rfl, rfl⟩
    · simp only [if_neg home] at h
      cases h
  · rw [if_neg room] at h
    cases h

/-- A message goes to the next position of a room that exists, while there is one. -/
theorem insertMessageRow_ok (valid : db.Valid) (spare : Option ℤ) {id : ℤ} (postedAt : ℤ)
    (username body : String) (left : db.messages.length < i64Max)
    (home : ∃ room ∈ db.rooms, room.id = id) :
    insertMessageRow spare id username body postedAt db
      = .ok (((db.messages.length : ℤ) + 1, postedAt), { db with messages := db.messages ++
          [⟨db.messages.length + 1, id, username, body, postedAt⟩] }) := by
  rw [insertMessageRow, valid.seqs, nextRowid_rowids spare valid.messagesFit, if_pos left]
  simp only [if_pos home]

/-- A room that does not exist is what violates the foreign key, while there are positions
left to give. -/
theorem insertMessageRow_absent (valid : db.Valid) (spare : Option ℤ) {id : ℤ}
    (postedAt : ℤ) (username body : String) (room : db.messages.length < i64Max)
    (absent : ∀ row ∈ db.rooms, row.id ≠ id) :
    insertMessageRow spare id username body postedAt db = .error .foreignKeyViolation := by
  have none : ¬ ∃ row ∈ db.rooms, row.id = id := fun ⟨row, mem, same⟩ => absent row mem same
  rw [insertMessageRow, valid.seqs, nextRowid_rowids spare valid.messagesFit, if_pos room]
  simp only [if_neg none]

end Sql

end ScionChat
