import ScionChat.Lib.KeyedLog
import ScionChat.Server.Store.Operations

/-!
# The three ways of paging a room

The messages of a room form a log keyed by position, `Db.log`, and each page query of the store is
a page of that log: the newest, the ones after a cursor, the ones before it.  Two of the queries
read downwards and turn the rows round; the log shows none of that.

* `log_ascending` — a room's log ascends, so that the theory of keyed logs is about it;
* `answer_of_valid` — what a page query reads off a valid store is the page of the room's log;
* `exec_of_works` — a page query answers, when what it names fits its columns and the database
  works.

### design decisions

* **One log for one room.**  Positions are given over all rooms of a table, so a room's positions
  have holes.  `Db.log` is the messages of the room alone, and nothing is said of the numbers in it
  but that they ascend.
* **`PageQuery` is the three queries.**  They differ in their `WHERE` and in the direction of their
  `ORDER BY`; as a type with three cases they have one lemma.

### What is load-bearing

`Db.Valid` has the messages in the order of their rowids.  A query that sorts by them therefore
sorts nothing, and its page is a piece of the list that is there.
-/

namespace ScionChat

open Interleaving Column Sql KeyedLog

/-- The four columns of a message, as the `Message` they are. -/
def MessageRow.message (row : MessageRow) : Message :=
  ⟨⟨row.seq.toNat⟩, row.username, row.body, ⟨row.postedAt.toNat⟩⟩

namespace Db

/-- The rows of a room's messages. -/
def logRows (db : Db) (room : RoomId) : List MessageRow :=
  db.messages.filter fun row => row.roomId = room.get

/-- **The log of a room**: its messages, in the order of their positions. -/
def log (db : Db) (room : RoomId) : List Message :=
  (db.logRows room).map MessageRow.message

theorem log_grows {a b : Db} (grows : a.Extends b) (room : RoomId) :
    a.log room <+: b.log room := by
  obtain ⟨more, eq⟩ := grows.messages
  rw [log, log, logRows, logRows, ← eq, List.filter_append, List.map_append]
  exact List.prefix_append _ _

end Db

section

variable {db : Db} (valid : db.Valid) (room : RoomId)
include valid

theorem toMessage_of_valid {row : MessageRow} (mem : row ∈ db.messages) :
    row.toMessage = .ok row.message := by
  have seq_nonneg : 0 ≤ row.seq := by
    have := valid.seq_pos mem
    omega
  simp only [MessageRow.toMessage, Column.seq_of_nonneg seq_nonneg,
    millis_of_nonneg (valid.postedAt row mem)]
  rfl

theorem collect_of_valid {rows : List MessageRow} (stored : ∀ row ∈ rows, row ∈ db.messages) :
    collect rows = .ok (rows.map MessageRow.message) := by
  induction rows with
  | nil => rfl
  | cons row rows ih =>
      have rest := ih fun r mem => stored r (List.mem_cons_of_mem _ mem)
      rw [collect] at rest ⊢
      rw [List.mapM_cons, toMessage_of_valid valid (stored row List.mem_cons_self), rest]
      rfl

theorem logRows_ascending : Ascending MessageRow.seq (db.logRows room) :=
  List.Pairwise.filter _ valid.messages_ascending

/-- **The log of a room ascends.** A valid table has its rows in the order of their positions, and
a room has some of them. -/
theorem log_ascending : Ascending Message.seq (db.log room) := by
  refine List.pairwise_map.mpr ?_
  refine List.Pairwise.imp_of_mem (fun {a b} ha _ lt => ?_) (logRows_ascending valid room)
  have := valid.seq_pos (List.mem_of_mem_filter ha)
  rw [MessageRow.message, MessageRow.message, Seq.mk_lt_mk]
  omega

theorem log_seq_pos {room : RoomId} {message : Message} (mem : message ∈ db.log room) :
    1 ≤ message.seq.get := by
  obtain ⟨row, row_mem, rfl⟩ := List.mem_map.mp mem
  have := valid.seq_pos (List.mem_of_mem_filter row_mem)
  simp only [MessageRow.message]
  omega

theorem log_seq_le {room : RoomId} {message : Message} (mem : message ∈ db.log room) :
    message.seq.get ≤ db.messages.length := by
  obtain ⟨row, row_mem, rfl⟩ := List.mem_map.mp mem
  have := valid.seq_le (List.mem_of_mem_filter row_mem)
  simp only [MessageRow.message]
  omega

/-! ### The rows of each query are the rows of a page -/

theorem selectNewest_of_valid (limit : ℕ) :
    selectNewest room.get limit db = ((db.logRows room).rtake limit).reverse := by
  have down := insertionSort_desc_of_ascending (logRows_ascending valid room)
  have nonneg : ¬ (limit : ℤ) < 0 := by omega
  rw [selectNewest, limitRows, if_neg nonneg, Int.toNat_natCast, descending, ← Db.logRows, down,
    List.rtake_eq_reverse_take_reverse, List.reverse_reverse]

theorem selectAfter_of_valid (cursor limit : ℕ) :
    selectAfter room.get cursor limit db
      = ((db.logRows room).filter fun row => (cursor : ℤ) < row.seq).take limit := by
  have rows : (db.messages.filter fun row => row.roomId = (room.get : ℤ) ∧ (cursor : ℤ) < row.seq)
      = (db.logRows room).filter fun row => (cursor : ℤ) < row.seq := by
    simp [Db.logRows, List.filter_filter, Bool.and_comm]
  have sorted := insertionSort_of_ascending ((logRows_ascending valid room).filter
    fun row => (cursor : ℤ) < row.seq)
  have nonneg : ¬ (limit : ℤ) < 0 := by omega
  rw [selectAfter, limitRows, if_neg nonneg, Int.toNat_natCast, ascending, rows, sorted]

theorem selectBefore_of_valid (cursor limit : ℕ) :
    selectBefore room.get cursor limit db
      = (((db.logRows room).filter fun row => row.seq < (cursor : ℤ)).rtake limit).reverse := by
  have rows : (db.messages.filter fun row => row.roomId = (room.get : ℤ) ∧ row.seq < (cursor : ℤ))
      = (db.logRows room).filter fun row => row.seq < (cursor : ℤ) := by
    simp [Db.logRows, List.filter_filter, Bool.and_comm]
  have down := insertionSort_desc_of_ascending ((logRows_ascending valid room).filter
    fun row => row.seq < (cursor : ℤ))
  have nonneg : ¬ (limit : ℤ) < 0 := by omega
  rw [selectBefore, limitRows, if_neg nonneg, Int.toNat_natCast, descending, rows, down,
    List.rtake_eq_reverse_take_reverse, List.reverse_reverse]

theorem above_log (cursor : Seq) :
    above Message.seq cursor (db.log room)
      = ((db.logRows room).filter fun row => (cursor.get : ℤ) < row.seq).map
          MessageRow.message := by
  rw [above, Db.log, List.filter_map]
  refine congrArg (List.map _) (List.filter_congr fun row mem => ?_)
  have := valid.seq_pos (List.mem_of_mem_filter mem)
  simp only [Function.comp, MessageRow.message, Seq.lt_iff, decide_eq_decide]
  omega

theorem below_log (cursor : Seq) :
    below Message.seq cursor (db.log room)
      = ((db.logRows room).filter fun row => row.seq < (cursor.get : ℤ)).map
          MessageRow.message := by
  rw [below, Db.log, List.filter_map]
  refine congrArg (List.map _) (List.filter_congr fun row mem => ?_)
  have := valid.seq_pos (List.mem_of_mem_filter mem)
  simp only [Function.comp, MessageRow.message, Seq.lt_iff, decide_eq_decide]
  omega

end

theorem rtake_map {α β : Type} (f : α → β) (n : ℕ) (l : List α) :
    (l.map f).rtake n = (l.rtake n).map f := by
  rw [List.rtake, List.rtake, List.length_map, List.map_drop]

/-! ### What a page query answers -/

/-- A page query of a room: what it asks for.  `api/messages.rs` takes one of the three, according
to the cursor it is given. -/
inductive PageQuery
  | newest (limit : ℕ)
  | after (cursor : Seq) (limit : ℕ)
  | before (cursor : Seq) (limit : ℕ)
  deriving DecidableEq, Repr

namespace PageQuery

/-- The store's operation. -/
def query (room : RoomId) : PageQuery → Query (List Message)
  | newest limit => ScionChat.newest room limit
  | after cursor limit => ScionChat.after room cursor limit
  | before cursor limit => ScionChat.before room cursor limit

/-- How many messages it asks for. -/
def limit : PageQuery → ℕ
  | newest limit => limit
  | after _ limit => limit
  | before _ limit => limit

/-- The page of a log it asks for.  It is a function of the log alone, and knows nothing of rows
and columns. -/
def page : PageQuery → List Message → List Message
  | newest limit => pageNewest limit
  | after cursor limit => pageAfter Message.seq cursor limit
  | before cursor limit => pageBefore Message.seq cursor limit

/-- Its cursor, when it has one, fits the column. -/
def Fits : PageQuery → Prop
  | newest _ => True
  | after cursor _ => cursor.get ≤ i64Max
  | before cursor _ => cursor.get ≤ i64Max

instance decidableFits (q : PageQuery) : Decidable q.Fits :=
  match q with
  | newest _ => isTrue trivial
  | after cursor _ => inferInstanceAs (Decidable (cursor.get ≤ i64Max))
  | before cursor _ => inferInstanceAs (Decidable (cursor.get ≤ i64Max))

/-- The statement it runs. -/
def rows (room : RoomId) : PageQuery → Db → List MessageRow
  | newest limit => selectNewest room.get limit
  | after cursor limit => selectAfter room.get cursor.get limit
  | before cursor limit => selectBefore room.get cursor.get limit

/-- What it makes of the rows. -/
def answer : PageQuery → List MessageRow → Except StoreError (List Message)
  | newest _, rows => (collect rows).map List.reverse
  | after _ _, rows => collect rows
  | before _ _, rows => (collect rows).map List.reverse

/-- A page query as the one step it takes: when the room and the cursor fit their columns. -/
theorem run_cases (q : PageQuery) (room : RoomId) :
    (room.get ≤ i64Max ∧ q.Fits ∧
        (q.query room).run = .step (fun _ db => db) fun m db =>
          .ret ((fetched (q.rows room) m db).bind q.answer)) ∨
      ¬ (room.get ≤ i64Max ∧ q.Fits) ∧ ∃ e, (q.query room).run = .ret (.error e) := by
  have unrolled : ∀ (rows : Db → List MessageRow)
      (f : List MessageRow → Except StoreError (List Message)),
      (fetch rows >>= fun r => (liftM (f r) : Query (List Message))).run
        = .step (fun _ db => db) fun m db => .ret ((fetched rows m db).bind f) := by
    intro rows f
    rw [run_fetch_bind]
    congr 1
    funext m db
    cases fetched rows m db <;> rfl
  have turned : (fun r => (liftM (collect r) : Query (List Message)) >>= fun messages =>
      pure messages.reverse) = fun r => liftM ((collect r).map List.reverse) := by
    funext r
    cases collect r <;> rfl
  rcases toColumn_cases "room id" room.get with ⟨room_fits, room_column⟩ | ⟨unfit, room_column⟩
  · cases q with
    | newest limit =>
        refine Or.inl ⟨room_fits, trivial, ?_⟩
        simp only [query, ScionChat.newest, room_column, run_except_bind, onOk_ok, turned, unrolled]
        rfl
    | after cursor limit =>
        rcases toColumn_cases "seq" cursor.get with ⟨fits, column⟩ | ⟨unfit, column⟩
        · refine Or.inl ⟨room_fits, fits, ?_⟩
          simp only [query, ScionChat.after, room_column, column, run_except_bind, onOk_ok,
            unrolled]
          rfl
        · refine Or.inr ⟨fun both => unfit both.2, .outOfRange "seq" cursor.get, ?_⟩
          simp only [query, ScionChat.after, room_column, column, run_except_bind, onOk_ok,
            onOk_error]
    | before cursor limit =>
        rcases toColumn_cases "seq" cursor.get with ⟨fits, column⟩ | ⟨unfit, column⟩
        · refine Or.inl ⟨room_fits, fits, ?_⟩
          simp only [query, ScionChat.before, room_column, column, run_except_bind, onOk_ok,
            turned, unrolled]
          rfl
        · refine Or.inr ⟨fun both => unfit both.2, .outOfRange "seq" cursor.get, ?_⟩
          simp only [query, ScionChat.before, room_column, column, run_except_bind, onOk_ok,
            onOk_error]
  · refine Or.inr ⟨fun both => unfit both.1, .outOfRange "room id" room.get, ?_⟩
    cases q <;>
      simp only [query, ScionChat.newest, ScionChat.after, ScionChat.before, room_column,
        run_except_bind, onOk_error]

/-- A page query whose cursor does not fit fails on the way in. -/
theorem run_of_unfit (q : PageQuery) {room : RoomId} (room_fits : room.get ≤ i64Max)
    (unfit : ¬ q.Fits) : ∃ value, (q.query room).run = .ret (.error (.outOfRange "seq" value)) := by
  have column : ∀ cursor : Seq, ¬ cursor.get ≤ i64Max →
      toColumn "seq" cursor.get = .error (.outOfRange "seq" cursor.get) :=
    fun _ unfit => if_neg unfit
  cases q with
  | newest limit => exact absurd trivial unfit
  | after cursor limit =>
      exact ⟨cursor.get, by
        simp only [query, ScionChat.after, toColumn_of_le _ room_fits, column cursor unfit,
          run_except_bind, onOk_ok, onOk_error]⟩
  | before cursor limit =>
      exact ⟨cursor.get, by
        simp only [query, ScionChat.before, toColumn_of_le _ room_fits, column cursor unfit,
          run_except_bind, onOk_ok, onOk_error]⟩

/-- **What a page query reads off a valid store is the page of the room's log.** -/
theorem answer_of_valid {db : Db} (valid : db.Valid) (q : PageQuery) (room : RoomId) :
    q.answer (q.rows room db) = .ok (q.page (db.log room)) := by
  have stored : ∀ {rows : List MessageRow}, rows.Sublist db.messages →
      ∀ row ∈ rows, row ∈ db.messages := fun sub row mem => sub.subset mem
  have in_log : (db.logRows room).Sublist db.messages := List.filter_sublist
  cases q with
  | newest limit =>
      have page : ((db.logRows room).rtake limit).Sublist db.messages :=
        (List.drop_sublist _ _).trans in_log
      rw [answer, rows, selectNewest_of_valid valid room,
        collect_of_valid valid fun row mem => stored page row (List.mem_reverse.mp mem)]
      simp only [Except.map, List.map_reverse, List.reverse_reverse, PageQuery.page, pageNewest,
        Db.log, rtake_map]
  | after cursor limit =>
      have page : (((db.logRows room).filter fun row => (cursor.get : ℤ) < row.seq).take
          limit).Sublist db.messages :=
        ((List.take_sublist _ _).trans List.filter_sublist).trans in_log
      rw [answer, rows, selectAfter_of_valid valid room, collect_of_valid valid (stored page),
        PageQuery.page, pageAfter, above_log valid room, List.map_take]
  | before cursor limit =>
      have page : (((db.logRows room).filter fun row => row.seq < (cursor.get : ℤ)).rtake
          limit).Sublist db.messages :=
        ((List.drop_sublist _ _).trans List.filter_sublist).trans in_log
      rw [answer, rows, selectBefore_of_valid valid room,
        collect_of_valid valid fun row mem => stored page row (List.mem_reverse.mp mem)]
      simp only [Except.map, List.map_reverse, List.reverse_reverse, PageQuery.page, pageBefore,
        below_log valid room, rtake_map]

/-- A page query is one look at the log of its room. -/
def Pages (q : PageQuery) (room : RoomId) (s : Db)
    (o : Option (Except StoreError (List Message))) (t : Db) : Prop :=
  t = s ∧ ∀ messages, o = some (.ok messages) → messages = q.page (s.log room)

theorem meets (q : PageQuery) (room : RoomId) (admits : Moment → Prop) (s₀ : Db) :
    (q.query room).run.Meets (storeContract admits) (q.Pages room) (fun _ _ => True) s₀ := by
  rcases q.run_cases room with ⟨-, -, run⟩ | ⟨-, e, run⟩
  · rw [run]
    refine meets_quiet fun m db _ valid _ => ⟨⟨rfl, fun messages answered => ?_⟩, trivial⟩
    rcases fetched_cases (q.rows room) m db with saw | failed
    · rw [saw] at answered
      have := q.answer_of_valid valid room
      simp only [Prog.outcome_ret, Option.some.injEq, Except.bind] at answered
      rw [this] at answered
      exact (Except.ok.inj answered).symm
    · rw [failed] at answered
      cases answered
  · rw [run]
    exact trivial

/-- **A page query answers**, when what it names fits its columns and the database works.  It is
one statement, so the moment that counts is the first one. -/
theorem exec_of_works {db : Db} (valid : db.Valid) (q : PageQuery) {room : RoomId}
    (room_fits : room.get ≤ i64Max) (fits : q.Fits) {ω : ℕ → Moment}
    (works : (ω 0).fails = false) :
    (q.query room).run.exec ω db = (.ok (q.page (db.log room)), db) := by
  rcases q.run_cases room with ⟨-, -, run⟩ | ⟨unfit, -⟩
  · rw [run, Prog.exec_step, Prog.exec_ret, fetched_of_works works, Except.bind,
      q.answer_of_valid valid room]
  · exact absurd ⟨room_fits, fits⟩ unfit

end PageQuery

end ScionChat
