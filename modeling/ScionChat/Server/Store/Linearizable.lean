import ScionChat.Lib.Histories
import ScionChat.Server.Store.Concurrent

/-!
# Every call on the store is one moment

Any calls on one open store run at once, the database interleaves their statements as it likes, and
any statement may fail.  Every call still takes effect at one of its statements: carried out one
after the other, in an order that real time does not contradict, the calls give the answers they
gave and leave the tables they left.

A call that writes takes effect where it writes, any other where it looks last, and a call that a
full column refuses before its first statement where it starts.  The one answer that later calls
may still touch is the position a room that has just been created is listed with: `createRoom`
reads it in a statement of its own.

### design decisions

* **The exception is written into the statement.**  `StoreReply.forgetFresh` leaves `latest_seq`
  out of a reply that says a room was created, and out of nothing else.  A run in which that number
  differs exists, so the theorem would be false without it.
* **Failing is part of the sequential story.**  A call that is carried out at once still meets one
  moment for each of its statements, and any of them may find the database failing.  So a call that
  failed has its moment as well, with the same failure.

### What is load-bearing

`StoreOp.oneMoment`, one lemma for each operation, under the contract that rows are only ever
added.  A statement that looks is repeated at the moment of the statement that decides, and finds
the same, because what it found cannot have gone.
-/

namespace ScionChat

open Interleaving TransitionSystem Column Sql

/-- The contract of a store, whatever the database does. -/
def faultyContract : Contract Moment Db :=
  storeContract fun _ => True

/-- A creation, up to the position a room that has just been created is listed with. -/
def RoomCreation.forgetFresh : RoomCreation → RoomCreation
  | .created room => .created { room with latestSeq := Seq.START }
  | .existing room => .existing room

@[simp] theorem RoomCreation.forgetFresh_id (creation : RoomCreation) :
    creation.forgetFresh.room.id = creation.room.id := by
  cases creation <;> rfl

@[simp] theorem RoomCreation.forgetFresh_name (creation : RoomCreation) :
    creation.forgetFresh.room.name = creation.room.name := by
  cases creation <;> rfl

/-- An answer, up to that position. -/
def StoreReply.forgetFresh : StoreReply → StoreReply
  | .creation outcome => .creation outcome.forgetFresh
  | reply => reply

/-- **The call, carried out at once** on the tables `s`, each statement working or failing, answers
`a` and leaves `t`.  What `StoreReply.forgetFresh` leaves out, the `latest_seq` of a room just
created, is the one thing in which the answer may differ. -/
abbrev CarriedOut (caps : Caps) (op : StoreOp) :
    Db → Except StoreError StoreReply → Db → Prop :=
  (op.query caps).run.AtOnce (Except.map StoreReply.forgetFresh)

section Moments

/-- The query is one moment, whatever the others do between its statements. -/
def Query.OneMoment {α β : Type} (forget : α → β) (query : Query α) : Prop :=
  ∀ s₀, query.run.OneMoment faultyContract (Except.map forget) s₀

/-- A query that takes one look, or none, is what it is at that look. -/
private theorem oneMoment_of_look {α : Type} {query : Query α}
    (looks : (∃ e, query.run = .ret (.error e)) ∨
      ∃ answer : Moment → Db → Except StoreError α,
        query.run = .step (fun _ db => db) fun m db => .ret (answer m db)) :
    Query.OneMoment id query := by
  intro s₀
  rcases looks with ⟨e, run⟩ | ⟨answer, run⟩
  · rw [run]
    exact Prog.oneMoment_ret ({} : Moment) _ _
  · rw [run]
    exact Prog.oneMoment_step fun m db _ _ _ => Or.inl (Prog.lands_of_ret m rfl _)

theorem passwordHash_oneMoment (username : String) : Query.OneMoment id (passwordHash username) :=
  oneMoment_of_look (Or.inr ⟨_, run_fetch _⟩)

theorem listRooms_oneMoment : Query.OneMoment id listRooms :=
  oneMoment_of_look (Or.inr ⟨_, listRooms_run⟩)

theorem roomExists_oneMoment (room : RoomId) : Query.OneMoment id (roomExists room) := by
  refine oneMoment_of_look ?_
  rw [roomExists_run]
  cases toColumn "room id" room.get with
  | error e => exact Or.inl ⟨e, rfl⟩
  | ok id => exact Or.inr ⟨_, rfl⟩

theorem PageQuery.oneMoment (q : PageQuery) (room : RoomId) :
    Query.OneMoment id (q.query room) := by
  refine oneMoment_of_look ?_
  rcases q.run_cases room with ⟨-, -, run⟩ | ⟨-, e, run⟩
  · exact Or.inr ⟨_, run⟩
  · exact Or.inl ⟨e, run⟩

/-- **A post takes effect at its insert.** The clock it has read before goes into the row, and is
part of how it is run at once. -/
theorem postMessage_oneMoment (room : RoomId) (username body : String) :
    Query.OneMoment id (postMessage room username body) := by
  intro s₀
  rw [postMessage_run room username body]
  cases toColumn "room id" room.get with
  | error e => exact Prog.oneMoment_ret ({} : Moment) _ _
  | ok id =>
      refine Prog.oneMoment_step fun m s _ _ _ => ?_
      cases toColumn "timestamp" m.now with
      | error e => exact Or.inl (Prog.lands_of_ret m rfl _)
      | ok postedAt =>
          refine Or.inr ⟨fun _ _ _ => ⟨rfl, rfl⟩, ?_⟩
          refine Prog.oneMoment_step fun m' s' _ _ _ => Or.inl ?_
          cases (attempt (insertMessage room username body postedAt) m' s').1 with
          | error e => exact Prog.lands_of_ret m' rfl _
          | ok row => exact Prog.lands_of_ret m' rfl _

/-- An insert of an account that the tables refuse is refused again as they grow. -/
theorem insertUserRow_refused {s t : Db} (grows : s.Extends t) {username pwHash : String}
    {createdAt max : ℤ} (why : max ≤ s.users.length ∨
      ∃ row ∈ s.users, NoCase row.username username) :
    insertUserRow username pwHash createdAt max t = .ok (false, t) := by
  have still : max ≤ t.users.length ∨ ∃ row ∈ t.users, NoCase row.username username := by
    rcases why with full | ⟨row, mem, named⟩
    · have longer := grows.users.length_le
      exact Or.inl (by omega)
    · exact Or.inr ⟨row, grows.user mem, named⟩
  obtain ⟨inserted, after, result⟩ := insertUserRow_ok username pwHash createdAt max t
  rcases insertUserRow_cases result with ⟨-, below, fresh, -⟩ | ⟨rfl, -, rfl⟩
  · rcases still with full | ⟨row, mem, named⟩
    · omega
    · exact absurd named (fresh row mem)
  · exact result

/-- And so is an insert of a room. -/
theorem insertRoomRow_refused {s t : Db} (valid : t.Valid) (grows : s.Extends t)
    {spare : Option ℤ} {name : String} {createdAt : ℤ} {max : UInt32}
    (why : (max.toNat : ℤ) ≤ s.rooms.length ∨ ∃ row ∈ s.rooms, NoCase row.name name) :
    insertRoomRow spare name createdAt max.toNat t = .ok (false, t) := by
  have still : (max.toNat : ℤ) ≤ t.rooms.length ∨ ∃ row ∈ t.rooms, NoCase row.name name := by
    rcases why with full | ⟨row, mem, named⟩
    · have longer := grows.rooms.length_le
      exact Or.inl (by omega)
    · exact Or.inr ⟨row, grows.room mem, named⟩
  obtain ⟨inserted, after, result⟩ := insertRoomRow_ok valid spare name createdAt max
  rcases insertRoomRow_cases valid result with ⟨-, below, -, fresh, -⟩ | ⟨rfl, -, rfl⟩
  · rcases still with full | ⟨row, mem, named⟩
    · omega
    · exact absurd named (fresh row mem)
  · exact result

/-- **Registering an account takes effect at its insert, or at the look that says why not.** That
look finds the name, or a table that is full, and both stay so. -/
theorem insertUser_oneMoment (username pwHash : String) (maxAccounts : UInt32) :
    Query.OneMoment id (insertUser username pwHash maxAccounts) := by
  intro s₀
  rw [insertUser_run username pwHash maxAccounts]
  refine Prog.oneMoment_step fun m s _ _ _ => ?_
  cases column : toColumn "timestamp" m.now with
  | error e => exact Or.inl (Prog.lands_of_ret m rfl _)
  | ok createdAt =>
      refine Or.inr ⟨fun _ _ _ => ⟨rfl, rfl⟩, ?_⟩
      simp only
      refine Prog.oneMoment_step fun m' s' _ _ _ => ?_
      rcases attempt_cases (fun (_ : Moment) =>
          insertUserRow username pwHash createdAt maxAccounts.toNat) m' s' with
        ⟨inserted, after, works, result, attempted⟩ | ⟨e, attempted⟩
      · rcases insertUserRow_cases result with ⟨rfl, -⟩ | ⟨rfl, why, rfl⟩
        · -- it is in: that is the answer
          simp only [attempted]
          exact Or.inl (Prog.lands_of_ret m' rfl _)
        · -- what refused the insert refuses it still, so the look decides
          refine Or.inr ⟨fun t _ grows => ?_, ?_⟩
          · have again : attempt (fun (_ : Moment) =>
                insertUserRow username pwHash createdAt maxAccounts.toNat) m' t = (.ok false, t) :=
              attempt_of_ok works (insertUserRow_refused grows why)
            simp only [again, attempted, and_self]
          · simp only [attempted]
            refine Prog.oneMoment_step fun m'' s'' _ _ _ => Or.inl ?_
            cases fetched (selectUserExists username) m'' s'' with
            | error e => exact Prog.lands_of_ret m'' rfl _
            | ok taken => cases taken <;> exact Prog.lands_of_ret m'' rfl _
      · simp only [attempted]
        exact Or.inl (Prog.lands_of_ret m' rfl _)

/-- What `createRoom` answers about the room it has found, whether or not it is the one it has
just made. -/
def finds (name : String) (inserted : Bool) (m : Moment) (db : Db) :
    Except StoreError RoomCreation :=
  (fetched (selectRoomByName name) m db).bind (creationOf inserted)

theorem finds_eq (name : String) (inserted : Bool) (m : Moment) (db : Db) :
    (match fetched (selectRoomByName name) m db with
      | .error e => .ret (.error e)
      | .ok found => .ret (creationOf inserted found) :
        Prog Moment Db (Except StoreError RoomCreation)) = .ret (finds name inserted m db) := by
  rw [finds]
  cases fetched (selectRoomByName name) m db <;> rfl

/-- A room that is there is found again as the tables grow, under the same id and name. -/
theorem finds_again {s t : Db} (valid : s.Valid) (valid' : t.Valid) (grows : s.Extends t)
    {name : String} {row : RoomRow} (mem : row ∈ s.rooms) (named : NoCase row.name name)
    (m : Moment) :
    (finds name true m t).map RoomCreation.forgetFresh
      = (finds name true m s).map RoomCreation.forgetFresh := by
  rcases Bool.eq_false_or_eq_true m.fails with fails | works
  · simp only [finds, fetched, fails]
    rfl
  · rw [finds, finds, fetched_of_works works, fetched_of_works works, Except.bind, Except.bind,
      selectRoomByName_of_mem valid mem named,
      selectRoomByName_of_mem valid' (grows.room mem) named,
      creationOf_of_valid valid true mem, creationOf_of_valid valid' true (grows.room mem)]
    rfl

/-- **Creating a room takes effect at its insert, or at the look that finds another.** The look
repeats itself at the moment of the insert, `latest_seq` apart. -/
theorem createRoom_oneMoment (name : String) (maxRooms : UInt32) :
    Query.OneMoment RoomCreation.forgetFresh (createRoom name maxRooms) := by
  intro s₀
  rw [createRoom_run name maxRooms]
  refine Prog.oneMoment_step fun m s _ _ _ => ?_
  cases column : toColumn "timestamp" m.now with
  | error e => exact Or.inl (Prog.lands_of_ret m rfl _)
  | ok createdAt =>
      refine Or.inr ⟨fun _ _ _ => ⟨rfl, rfl⟩, ?_⟩
      simp only
      refine Prog.oneMoment_step fun m' s' _ valid _ => ?_
      rcases attempt_cases (fun m : Moment =>
          insertRoomRow m.spare name createdAt maxRooms.toNat) m' s' with
        ⟨inserted, after, works, result, attempted⟩ | ⟨e, attempted⟩
      · rcases insertRoomRow_cases valid result with
          ⟨rfl, -, left, fresh, grown⟩ | ⟨rfl, why, rfl⟩
        · -- the room is in, and the look can only add where its messages have got to
          refine Or.inl ?_
          simp only [attempted]
          intro m'' s'' _ valid'' rel
          have valid' : after.Valid := by
            rw [grown]
            exact valid.addRoom _ rfl left fresh
          have mem : (⟨s'.rooms.length + 1, name, createdAt⟩ : RoomRow) ∈ after.rooms := by
            rw [grown]
            exact List.mem_append_right _ (List.mem_singleton_self _)
          refine ⟨rfl, Prog.settled_of_ret (finds_eq name true m'' s'')
            ⟨fun _ => m'', finds name true m'' after, ?_, ?_⟩ _⟩
          · exact congrArg (fun p : Prog Moment Db _ => p.exec (fun _ => m'') after)
              (finds_eq name true m'' after)
          · exact finds_again valid' valid'' rel mem (NoCase.refl name) m''
        · -- what refused the insert refuses it still, so the look decides
          refine Or.inr ⟨fun t valid' grows => ?_, ?_⟩
          · have again : attempt (fun m : Moment =>
                insertRoomRow m.spare name createdAt maxRooms.toNat) m' t = (.ok false, t) :=
              attempt_of_ok works (insertRoomRow_refused valid' grows why)
            simp only [again, attempted, and_self]
          · simp only [attempted]
            exact Prog.oneMoment_step fun m'' s'' _ _ _ =>
              Or.inl (Prog.lands_of_ret m'' (finds_eq name false m'' s'') _)
      · simp only [attempted]
        exact Or.inl (Prog.lands_of_ret m' rfl _)

/-- What follows a query that is one moment may only look at its answer. -/
theorem Query.OneMoment.map {α β γ δ : Type} {forget : α → β} {forget' : γ → δ} {query : Query α}
    (h : Query.OneMoment forget query) (g : α → γ)
    (blind : ∀ a a', forget a = forget a' → forget' (g a) = forget' (g a')) {s₀ : Db}
    (valid : s₀.Valid) :
    (g <$> query).run.OneMoment faultyContract (Except.map forget') s₀ := by
  rw [run_map]
  refine Prog.OneMoment.map _ (fun r r' same => ?_) valid (h s₀)
  cases r with
  | error e =>
      cases r' with
      | error e' => exact congrArg Except.error (Except.error.inj same)
      | ok a' => cases same
  | ok a =>
      cases r' with
      | error e' => cases same
      | ok a' => exact congrArg Except.ok (blind a a' (Except.ok.inj same))

/-- A query that is one moment, answer and all, stays so whatever is made of the answer. -/
theorem Query.OneMoment.wrap {α γ δ : Type} {forget : γ → δ} {query : Query α}
    (h : Query.OneMoment id query) (g : α → γ) {s₀ : Db} (valid : s₀.Valid) :
    (g <$> query).run.OneMoment faultyContract (Except.map forget) s₀ :=
  h.map g (fun _ _ same => congrArg (fun a => forget (g a)) same) valid

/-- **Every call is one moment**, whatever the others do between its statements.  Nothing is asked
of the moments: a statement may fail, and then the call fails at once as well. -/
theorem StoreOp.oneMoment (caps : Caps) (op : StoreOp) (s₀ : Db) (valid : s₀.Valid) :
    (op.query caps).run.OneMoment faultyContract (Except.map StoreReply.forgetFresh) s₀ := by
  cases op with
  | insertUser username pwHash =>
      exact (insertUser_oneMoment username pwHash caps.accounts).wrap StoreReply.registration valid
  | passwordHash username =>
      exact (passwordHash_oneMoment username).wrap StoreReply.hash valid
  | createRoom name =>
      refine
        (createRoom_oneMoment name caps.rooms).map StoreReply.creation (fun _ _ same => ?_) valid
      exact congrArg StoreReply.creation same
  | listRooms => exact listRooms_oneMoment.wrap StoreReply.rooms valid
  | roomExists room => exact (roomExists_oneMoment room).wrap StoreReply.found valid
  | postMessage room username body =>
      exact (postMessage_oneMoment room username body).wrap StoreReply.posted valid
  | messagesNewest room limit =>
      exact ((PageQuery.newest limit).oneMoment room).wrap StoreReply.page valid
  | messagesAfter room cursor limit =>
      exact ((PageQuery.after cursor limit).oneMoment room).wrap StoreReply.page valid
  | messagesBefore room cursor limit =>
      exact ((PageQuery.before cursor limit).oneMoment room).wrap StoreReply.page valid

end Moments

/-! ### The store, whatever runs on it -/

/-- The history explains the run of a store from the tables `db` along `ls` to `q`. -/
abbrev StoreHistory (caps : Caps) (db : Db) (ls : List (Label StoreOp Moment)) (q : StorePool)
    (history : List (Entry StoreOp Db)) : Prop :=
  Linearization (fun op => (op.query caps).run) (CarriedOut caps) db ls q history

/-- Every label hands over a moment, and the database may make anything of it. -/
theorem admitted_faulty (l : Label StoreOp Moment) : Pool.Admitted faultyContract l := by
  cases l <;> exact trivial

theorem linearizable_of_valid {caps : Caps} {db : Db} (valid : db.Valid)
    {ls : List (Label StoreOp Moment)} {q : StorePool}
    (ran : run (StorePool.step caps) (Pool.idle db) ls = some q) :
    ∃ history, StoreHistory caps db ls q history :=
  Pool.linearizable (fun op s _ => op.meets caps _ s) (fun op s valid => op.oneMoment caps s valid)
    (i := ({} : Moment)) trivial valid (fun l _ => admitted_faulty l) ran

/-- **The store is linearizable**: on every store that can be opened, under every interleaving
of the statements of any calls and whichever of them fail, the calls that have taken effect
are, one after the other and each at once, what led from the tables as they were opened to the
tables as they are; each answered what it answers there; and a call that had returned before
another started comes before it.  The answers are compared up to the position that a room is
answered with by the call that has just created it (`StoreReply.forgetFresh`): the call reads it in
a statement behind its insert, and a message may have been posted to the room in between. -/
theorem store_linearizable {file : Option DbFile} (stored : Stored file) {ω : ℕ → Moment}
    {db : Db} (opens : SqliteStore.new.run.exec ω file = (.ok (), opened db)) {caps : Caps}
    {ls : List (Label StoreOp Moment)} {q : StorePool}
    (ran : run (StorePool.step caps) (Pool.idle db) ls = some q) :
    ∃ history, StoreHistory caps db ls q history := by
  have valid : db.Valid := by
    have := (Stored.opening ω stored).valid.2
    rw [opens] at this
    exact this
  exact linearizable_of_valid valid ran

/-- Two calls race for one name while a third one posts to the lobby; the insert of a fourth
one fails. -/
theorem store_linearizable_race :
    ∃ history, StoreHistory ⟨1, 2⟩ ⟨[], [⟨1, LOBBY, 0⟩], []⟩
      [.spawn (.createRoom "tea"), .spawn (.createRoom "TEA"), .spawn (.postMessage ⟨1⟩ "a" "hi"),
        .spawn (.insertUser "a" "x"), .advance 0 {}, .advance 1 {}, .advance 2 {},
        .advance 1 {}, .advance 3 {}, .advance 2 {}, .advance 0 {},
        .advance 3 { fails := true }, .advance 0 {}, .advance 1 {}]
      ⟨⟨[], [⟨1, LOBBY, 0⟩, ⟨2, "TEA", 0⟩], [⟨1, 1, "a", "hi", 0⟩]⟩,
        [⟨.createRoom "tea", 3, .ret (.ok (.creation (.existing ⟨⟨2⟩, "TEA", ⟨0⟩⟩)))⟩,
          ⟨.createRoom "TEA", 3, .ret (.ok (.creation (.created ⟨⟨2⟩, "TEA", ⟨0⟩⟩)))⟩,
          ⟨.postMessage ⟨1⟩ "a" "hi", 2, .ret (.ok (.posted ⟨⟨1⟩, ⟨0⟩⟩))⟩,
          ⟨.insertUser "a" "x", 2, .ret (.error (.dbError .other))⟩]⟩ history :=
  store_linearizable .absent (ω := fun _ => {}) rfl rfl

end ScionChat
