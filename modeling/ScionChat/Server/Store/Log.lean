import ScionChat.Lib.TransitionSystem
import ScionChat.Server.Store.Opening
import ScionChat.Server.Store.Pages

/-!
# The store is an append-only log

One process after another opens the same file with this build's schema version, and runs operations
on it, one at a time, in any order, with any failures.  `StoreRun.step` is that system.  Beside the
file it keeps what the callers have been told: which posts landed where, and which rooms were
created.

The invariant `StoreRun.Inv` ties the two together: the messages table *is* the list of the posts
that were answered.  What a caller can rely on, `AppendOnlyLog`, follows from it and from what one
operation does (`StoreOp.Effect`).

### design decisions

* **What callers were told is part of the state.**  A log is append-only for somebody who has read
  it.  So the run keeps the answers, and the theorem compares any run with any continuation of it,
  whatever is opened and whatever fails in between.
* **Failures are inputs.**  Each statement may fail, by a moment that the run chooses.  A post that
  fails is one that has not been answered, and it has added nothing.

### What is load-bearing

Positions come from SQLite's rowids, which are never given twice in a table that nothing is ever
deleted from.  They end at `2^63 - 1`, and so does the promise: the theorem counts the posts.
-/

namespace ScionChat

open Interleaving TransitionSystem Column Sql KeyedLog

/-! ### Runs over one file -/

/-- The file, the caps of the store that is open on it, and what has been answered so far,
oldest first. -/
structure StoreRun where
  file : Option DbFile
  caps : Option Caps
  posted : List (RoomId × Message)
  made : List (RoomId × String)

/-- What is done next, and what the outside contributes to each of its steps. -/
inductive StoreCall
  | reopen (caps : Caps) (ω : ℕ → Moment)
  | call (op : StoreOp) (ω : ℕ → Moment)

/-- The message that a successful post has put into a room. -/
def StoreOp.posted : StoreOp → Except StoreError StoreReply → List (RoomId × Message)
  | .postMessage room username body, .ok (.posted there) =>
      [(room, ⟨there.seq, username, body, there.postedAt⟩)]
  | _, _ => []

/-- The room that a call has reported as created. -/
def StoreOp.made : Except StoreError StoreReply → List (RoomId × String)
  | .ok (.creation (.created room)) => [(room.id, room.name)]
  | _ => []

/-- The call posts a message. -/
def StoreCall.isPost : StoreCall → Bool
  | .call (.postMessage _ _ _) _ => true
  | _ => false

namespace StoreRun

/-- No file yet, and nothing open.  It is where every run begins. -/
def fresh : StoreRun := ⟨none, none, [], []⟩

/-- The tables in the file. -/
def db (s : StoreRun) : Db := DbFile.db s.file

/-- One call, run on the file: its answer, and the file afterwards.  The caps are those of the
store that is open. -/
def answer (s : StoreRun) (caps : Caps) (op : StoreOp) (ω : ℕ → Moment) :
    Except StoreError StoreReply × Option DbFile :=
  (op.query caps).onFile.run.exec ω s.file

/-- A store that is not open takes no calls; one whose opening failed is not open. -/
def step (s : StoreRun) : StoreCall → Option StoreRun
  | .reopen caps ω =>
      let opening := SqliteStore.new.run.exec ω s.file
      some { s with
        file := opening.2
        caps := match opening.1 with
          | .ok _ => some caps
          | .error _ => none }
  | .call op ω =>
      match s.caps with
      | none => none
      | some caps =>
          let answered := s.answer caps op ω
          some { s with
            file := answered.2
            posted := s.posted ++ op.posted answered.1
            made := s.made ++ StoreOp.made answered.1 }

end StoreRun

/-! ### What one operation does -/

/-- A row of `messages` as the post it came from. -/
def MessageRow.post (row : MessageRow) : RoomId × Message :=
  (⟨row.roomId.toNat⟩, row.message)

/-- A row of `rooms` as callers know it. -/
def RoomRow.named (row : RoomRow) : RoomId × String :=
  (⟨row.id.toNat⟩, row.name)

/-- **What an operation does to valid tables**: they stay valid and only grow; a post adds
exactly what it answers, and nothing else adds a message; a room reported as created is the
one room added. -/
structure StoreOp.Effect (op : StoreOp) (db : Db) (r : Except StoreError StoreReply)
    (after : Db) : Prop where
  valid : after.Valid
  extends_ : db.Extends after
  messages : after.messages.map MessageRow.post = db.messages.map MessageRow.post ++ op.posted r
  rooms : ∃ more, after.rooms = db.rooms ++ more ∧
    (StoreOp.made r).Sublist (more.map RoomRow.named)

section Exec

variable {db : Db} (valid : db.Valid) (ω : ℕ → Moment)
include valid

/-- A post that succeeds has appended its message; one that fails has changed nothing. -/
theorem postMessage_exec (room : RoomId) (username body : String) :
    Posts room username body db (some ((postMessage room username body).run.exec ω db).1)
      ((postMessage room username body).run.exec ω db).2 := by
  have meets := postMessage_meets room username body (fun _ => True) db
  have quiet : ∀ s t, Posts room username body s none t → t = s := by
    intro s t written
    rcases written with ⟨same, -⟩ | ⟨_, -, answered, -⟩
    · exact same
    · exact absurd answered (by simp)
  rcases meets.exec_last quiet (fun _ => trivial) valid with ⟨ends, stays⟩ | last
  · rw [stays]
    refine Or.inl ⟨rfl, fun there answered => ?_⟩
    rw [postMessage_run] at ends
    cases column : toColumn "room id" room.get with
    | error e =>
        rw [postMessage_run, column] at answered
        cases answered
    | ok id =>
        rw [column] at ends
        cases ends
  · exact last

/-- `createRoom` inserts at most its room, and reports it as created only then. -/
theorem createRoom_exec (name : String) (maxRooms : UInt32) :
    (((createRoom name maxRooms).run.exec ω db).2 = db ∧
        ∀ room, ((createRoom name maxRooms).run.exec ω db).1 ≠ .ok (.created room)) ∨
      ∃ row : RoomRow, row.name = name ∧ row.id = db.rooms.length + 1 ∧
        db.rooms.length < i64Max ∧ (∀ old ∈ db.rooms, ¬ NoCase old.name name) ∧
        ((createRoom name maxRooms).run.exec ω db).2 = { db with rooms := db.rooms ++ [row] } ∧
        ∀ creation, ((createRoom name maxRooms).run.exec ω db).1 = .ok creation →
          creation = .created (({ db with rooms := db.rooms ++ [row] } : Db).room row) := by
  rw [createRoom_run, Prog.exec_step]
  cases toColumn "timestamp" (ω 0).now with
  | error e => exact Or.inl ⟨rfl, fun room answered => by cases answered⟩
  | ok createdAt =>
      simp only [Prog.exec_step]
      rcases attempt_cases (fun m : Moment => insertRoomRow m.spare name createdAt
        maxRooms.toNat) (ω (0 + 1)) db with ⟨inserted, after, -, result, attempted⟩ | ⟨e, attempted⟩
      · simp only [attempted, Prog.exec_step]
        rcases insertRoomRow_cases valid result with ⟨rfl, -, left, new, rfl⟩ | ⟨rfl, -, same⟩
        · refine Or.inr ⟨⟨db.rooms.length + 1, name, createdAt⟩, rfl, rfl, left, new, ?_⟩
          have valid' := valid.addRoom ⟨db.rooms.length + 1, name, createdAt⟩ rfl left new
          have mem : (⟨db.rooms.length + 1, name, createdAt⟩ : RoomRow)
              ∈ db.rooms ++ [⟨db.rooms.length + 1, name, createdAt⟩] := by simp
          have found := selectRoomByName_of_mem valid' mem (NoCase.refl name)
          have whole := creationOf_of_valid valid' true mem
          -- the room is there, whether or not it can be read back
          rcases fetched_cases (selectRoomByName name) (ω (0 + 1 + 1)) { db with
            rooms := db.rooms ++ [⟨db.rooms.length + 1, name, createdAt⟩] } with saw | failed
          · simp only [saw, found, whole]
            exact ⟨rfl, fun creation answered => (Except.ok.inj answered).symm⟩
          · simp only [failed]
            exact ⟨rfl, fun creation answered => by cases answered⟩
        · subst after
          -- nothing was inserted, so what is read back is reported as existing
          refine Or.inl ?_
          rcases fetched_cases (selectRoomByName name) (ω (0 + 1 + 1)) db with saw | failed
          · rcases selectRoomByName_cases name db with ⟨row, mem, -, found⟩ | ⟨-, found⟩
            · simp only [saw, found, creationOf_of_valid valid false mem]
              exact ⟨rfl, fun room answered => by cases answered⟩
            · simp only [saw, found]
              exact ⟨rfl, fun room answered => by cases answered⟩
          · simp only [failed]
            exact ⟨rfl, fun room answered => by cases answered⟩
      · simp only [attempted]
        exact Or.inl ⟨rfl, fun room answered => by cases answered⟩

end Exec

namespace StoreOp

/-- An operation that touches neither rooms nor messages, and answers nothing about them. -/
theorem Effect.of_frame {op : StoreOp} {db after : Db} {r : Except StoreError StoreReply}
    (valid : after.Valid) (grows : db.Extends after) (messages : after.messages = db.messages)
    (rooms : after.rooms = db.rooms) (posted : op.posted r = []) (made : StoreOp.made r = []) :
    op.Effect db r after where
  valid := valid
  extends_ := grows
  messages := by rw [messages, posted, List.append_nil]
  rooms := ⟨[], by rw [rooms, List.append_nil], by rw [made, List.map_nil]⟩

/-- A query that only looks leaves the tables as they are. -/
theorem exec_of_looks {α : Type} {x : Query α}
    {guar : Db → Option (Except StoreError α) → Db → Prop}
    {post : Except StoreError α → Db → Prop} (looks : ∀ s o t, guar s o t → t = s) {db : Db}
    (meets : x.run.Meets (storeContract fun _ => True) guar post db) (valid : db.Valid)
    (ω : ℕ → Moment) : (x.run.exec ω db).2 = db :=
  meets.exec_follows (R := fun s t => t = s) (fun _ => rfl) (fun _ _ _ h h' => h'.trans h) looks
    (fun _ => trivial) valid

/-- **Every operation of the store has its effect**, whatever fails in the course of it.  A failure
is an effect as well, of adding nothing. -/
theorem effect (op : StoreOp) (caps : Caps) {db : Db} (valid : db.Valid) (ω : ℕ → Moment) :
    op.Effect db ((op.query caps).run.exec ω db).1 ((op.query caps).run.exec ω db).2 := by
  have looks : ∀ {α : Type} {x : Query α} (f : α → StoreReply), (x.run.exec ω db).2 = db →
      op.query caps = f <$> x → (∀ r, op.posted (Except.map f r) = []) →
        (∀ r : Except StoreError α, StoreOp.made (r.map f) = []) →
          op.Effect db ((op.query caps).run.exec ω db).1 ((op.query caps).run.exec ω db).2 := by
    intro α x f same eq posted made
    rw [eq, exec_map_run, same]
    exact Effect.of_frame valid (Db.Extends.refl db) rfl rfl (posted _) (made _)
  cases op with
  | insertUser username pwHash =>
      have meets := insertUser_meets username pwHash caps.accounts (fun _ => True) db
      obtain ⟨valid', grows, -⟩ := meets.exec (fun _ => trivial) valid (ω := ω)
      -- an account is all that a registration ever adds
      have keeps : ∀ s o t, Registers username pwHash caps.accounts s o t →
          t.messages = s.messages ∧ t.rooms = s.rooms := by
        rintro s o t (⟨rfl, -⟩ | ⟨-, -, -, _, rfl⟩) <;> exact ⟨rfl, rfl⟩
      obtain ⟨messages, rooms⟩ := meets.exec_follows
        (R := fun s t : Db => t.messages = s.messages ∧ t.rooms = s.rooms)
        (fun _ => ⟨rfl, rfl⟩) (fun _ _ _ h h' => ⟨h'.1.trans h.1, h'.2.trans h.2⟩) keeps
        (fun _ => trivial) valid (ω := ω)
      rw [query, exec_map_run]
      refine Effect.of_frame valid' grows messages rooms rfl ?_
      cases ((ScionChat.insertUser username pwHash caps.accounts).run.exec ω db).1 <;> rfl
  | passwordHash username =>
      have same := exec_of_looks (fun _ _ _ h => h)
        (passwordHash_meets username (fun _ => True) db) valid ω
      exact looks _ same rfl (fun r => rfl) fun r => by cases r <;> rfl
  | createRoom name =>
      rw [query, exec_map_run]
      rcases createRoom_exec valid ω name caps.rooms with
        ⟨same, none_made⟩ | ⟨row, named, next, left, new, appended, answered⟩
      · rw [same]
        refine Effect.of_frame valid (Db.Extends.refl db) rfl rfl rfl ?_
        cases result : ((ScionChat.createRoom name caps.rooms).run.exec ω db).1 with
        | error e => rfl
        | ok creation =>
            cases creation with
            | created room => exact absurd result (none_made room)
            | existing room => rfl
      · rw [appended]
        refine ⟨?_, ⟨List.prefix_refl _, List.prefix_append _ _, List.prefix_refl _⟩,
          by simp [posted], [row], rfl, ?_⟩
        · exact valid.addRoom row next left (by rw [named]; exact new)
        · cases result : ((ScionChat.createRoom name caps.rooms).run.exec ω db).1 with
          | error e => exact List.nil_sublist _
          | ok creation =>
              rw [answered creation result]
              exact List.Sublist.refl _
  | listRooms =>
      have same := exec_of_looks (fun _ _ _ h => h.1) (listRooms_meets (fun _ => True) db) valid ω
      exact looks _ same rfl (fun r => rfl) fun r => by cases r <;> rfl
  | roomExists room =>
      have same := exec_of_looks (fun _ _ _ h => h.1)
        (roomExists_meets room (fun _ => True) db) valid ω
      exact looks _ same rfl (fun r => rfl) fun r => by cases r <;> rfl
  | postMessage room username body =>
      have meets := postMessage_meets room username body (fun _ => True) db
      obtain ⟨valid', grows, -⟩ := meets.exec (fun _ => trivial) valid (ω := ω)
      have written := postMessage_exec valid ω room username body
      rw [query, exec_map_run]
      rcases written with ⟨same, refused⟩ | ⟨postedAt, -, there, appended⟩
      · rw [same]
        refine Effect.of_frame valid (Db.Extends.refl db) rfl rfl ?_ ?_ <;>
        · cases result : ((ScionChat.postMessage room username body).run.exec ω db).1 with
          | error e => rfl
          | ok landed => exact absurd (congrArg some result) (refused landed)
      · rw [Option.some.injEq] at there
        rw [there] at *
        refine ⟨valid', grows, ?_, [], ?_, List.Sublist.refl _⟩
        · rw [appended]
          simp [posted, Except.map, MessageRow.post, MessageRow.message]
        · rw [appended, List.append_nil]
  | messagesNewest room limit =>
      have same := exec_of_looks (fun _ _ _ h => h.1)
        ((PageQuery.newest limit).meets room (fun _ => True) db) valid ω
      exact looks _ same rfl (fun r => rfl) fun r => by cases r <;> rfl
  | messagesAfter room cursor limit =>
      have same := exec_of_looks (fun _ _ _ h => h.1)
        ((PageQuery.after cursor limit).meets room (fun _ => True) db) valid ω
      exact looks _ same rfl (fun r => rfl) fun r => by cases r <;> rfl
  | messagesBefore room cursor limit =>
      have same := exec_of_looks (fun _ _ _ h => h.1)
        ((PageQuery.before cursor limit).meets room (fun _ => True) db) valid ω
      exact looks _ same rfl (fun r => rfl) fun r => by cases r <;> rfl

end StoreOp

/-! ### The invariant of a run -/

/-- **The invariant of every run**: what is in the file is what has been answered.  The lobby is in
it because a store that is open has at least that room, and nothing is ever removed. -/
structure StoreRun.Inv (s : StoreRun) : Prop where
  native : ¬ Foreign s.file
  valid : s.db.Valid
  /-- The first room there is, if there is one, is the lobby. -/
  lobby : ∀ row ∈ s.db.rooms.head?, row.name = LOBBY
  /-- An open store has its tables, with the lobby in them. -/
  isOpen : s.caps.isSome → s.file = opened s.db ∧ s.db.rooms ≠ []
  posted : s.posted = s.db.messages.map MessageRow.post
  made : s.made.Sublist (s.db.rooms.map RoomRow.named)

namespace StoreRun

theorem inv_fresh : fresh.Inv where
  native := by simp [Foreign, fresh]
  valid := Db.Valid.empty
  lobby := fun _ mem => by cases mem
  isOpen := fun isOpen => by cases isOpen
  posted := rfl
  made := List.nil_sublist _

/-- Seeding leaves the lobby in front. -/
private theorem seeded (db : Db) (valid : db.Valid) (lobby : ∀ row ∈ db.rooms.head?,
    row.name = LOBBY) (ω : ℕ → Moment) :
    (seedLobby.run.exec ω db).2.Valid ∧ db.Extends (seedLobby.run.exec ω db).2 ∧
      (seedLobby.run.exec ω db).2.messages = db.messages ∧
        (∀ row ∈ (seedLobby.run.exec ω db).2.rooms.head?, row.name = LOBBY) ∧
          ∀ creation, (seedLobby.run.exec ω db).1 = .ok creation →
            (seedLobby.run.exec ω db).2.rooms ≠ [] := by
  have meets := createRoom_meets LOBBY (UInt32.ofNat u32Max) (fun _ => True) db
  obtain ⟨valid', grows, holds⟩ := meets.exec (fun _ => trivial) valid (ω := ω)
  refine ⟨valid', grows, ?_⟩
  have found : ∀ creation, (seedLobby.run.exec ω db).1 = .ok creation →
      (seedLobby.run.exec ω db).2.rooms ≠ [] := by
    intro creation answered
    rw [seedLobby] at answered
    rw [answered] at holds
    obtain ⟨row, mem, -⟩ := holds
    exact List.ne_nil_of_mem mem
  rcases createRoom_exec valid ω LOBBY (UInt32.ofNat u32Max) with
    ⟨same, -⟩ | ⟨row, named, -, -, new, appended, -⟩
  · have same' : (seedLobby.run.exec ω db).2 = db := same
    refine ⟨by rw [same'], ?_, found⟩
    rw [same']
    exact lobby
  · have appended' : (seedLobby.run.exec ω db).2 = { db with rooms := db.rooms ++ [row] } :=
      appended
    refine ⟨by rw [appended'], ?_, found⟩
    rw [appended']
    cases rooms : db.rooms with
    | nil =>
        intro first mem
        cases mem
        exact named
    | cons first rest =>
        -- a lobby in front would have kept the insert from happening
        have := lobby first (by rw [rooms]; rfl)
        exact absurd (this ▸ NoCase.refl LOBBY)
          (new first (by rw [rooms]; exact List.mem_cons_self))

/-- **One call keeps the invariant, and the tables only grow.** The second half is what makes a log
of it that is only ever added to. -/
theorem Inv.step {s t : StoreRun} {l : StoreCall} (h : s.step l = some t) (inv : s.Inv) :
    t.Inv ∧ s.db.Extends t.db ∧ s.posted <+: t.posted := by
  cases l with
  | reopen caps ω =>
      cases h
      -- an opening that fails leaves the tables; one that works has seeded the lobby
      rcases new_exec ω s.file with ⟨e, file', eq, left⟩ | ⟨seed, eq⟩
      · have same : DbFile.db file' = s.db := by
          rcases left with rfl | ⟨same, -⟩
          · rfl
          · rw [same, discarded_of_native inv.native]
            rfl
        have native : ¬ Foreign file' := by
          rcases left with rfl | ⟨-, native⟩
          · exact inv.native
          · exact native
        simp only [eq]
        refine ⟨⟨native, ?_, ?_, fun isOpen => (by cases isOpen), ?_, ?_⟩, ?_,
          List.prefix_refl _⟩
        · show (DbFile.db file').Valid
          rw [same]
          exact inv.valid
        · show ∀ row ∈ (DbFile.db file').rooms.head?, _
          rw [same]
          exact inv.lobby
        · show s.posted = (DbFile.db file').messages.map _
          rw [same]
          exact inv.posted
        · show s.made.Sublist ((DbFile.db file').rooms.map _)
          rw [same]
          exact inv.made
        · show s.db.Extends (DbFile.db file')
          rw [same]
          exact Db.Extends.refl _
      · rw [discarded_of_native inv.native] at eq
        obtain ⟨valid, grows, messages, lobby, found⟩ := seeded s.db inv.valid inv.lobby seed
        simp only [eq]
        refine ⟨⟨not_foreign_opened _, valid, lobby, fun isOpen => ⟨rfl, ?_⟩, ?_, ?_⟩, grows,
          List.prefix_refl _⟩
        · cases result : (seedLobby.run.exec seed (DbFile.db s.file)).1 with
          | ok creation => exact found creation result
          | error e =>
              rw [result] at isOpen
              cases isOpen
        · exact inv.posted.trans (congrArg (List.map MessageRow.post) messages.symm)
        · exact inv.made.trans (grows.rooms.map RoomRow.named).sublist
  | call op ω =>
      rw [StoreRun.step] at h
      cases isOpen : s.caps with
      | none =>
          rw [isOpen] at h
          cases h
      | some caps =>
          rw [isOpen] at h
          obtain ⟨file, some_room⟩ := inv.isOpen (by rw [isOpen]; rfl)
          have effect := op.effect caps inv.valid ω
          have answered : s.answer caps op ω = (((op.query caps).run.exec ω s.db).1,
              opened ((op.query caps).run.exec ω s.db).2) := by
            rw [answer, file]
            exact exec_onFile _ _ _
          simp only [answered] at h
          cases h
          obtain ⟨more, rooms, made⟩ := effect.rooms
          refine ⟨⟨not_foreign_opened _, effect.valid, ?_, fun _ => ⟨rfl, ?_⟩, ?_, ?_⟩,
            effect.extends_, List.prefix_append _ _⟩
          · intro row mem
            refine inv.lobby row ?_
            rw [db, db_opened, rooms, List.head?_append_of_ne_nil _ some_room] at mem
            exact mem
          · rw [db, db_opened, rooms]
            exact List.append_ne_nil_of_left_ne_nil some_room _
          · exact (congrArg (· ++ _) inv.posted).trans effect.messages.symm
          · show List.Sublist _ (((op.query caps).run.exec ω s.db).2.rooms.map RoomRow.named)
            rw [rooms, List.map_append]
            exact inv.made.append made

theorem run_inv {s : StoreRun} {ls : List StoreCall} (h : run step fresh ls = some s) : s.Inv :=
  run_invariant (P := StoreRun.Inv) (fun _ _ _ taken inv => (Inv.step taken inv).1) h inv_fresh

/-- From any state a run reaches, rows and answers are only ever added. -/
theorem run_grows {s t : StoreRun} {ls : List StoreCall} (inv : s.Inv)
    (h : run step s ls = some t) : t.Inv ∧ s.db.Extends t.db ∧ s.posted <+: t.posted := by
  refine run_invariant (P := fun t => t.Inv ∧ s.db.Extends t.db ∧ s.posted <+: t.posted)
    ?_ h ⟨inv, Db.Extends.refl _, List.prefix_refl _⟩
  rintro t l u stepped ⟨inv', grows, posted⟩
  obtain ⟨inv'', grows', posted'⟩ := Inv.step stepped inv'
  exact ⟨inv'', grows.trans grows', posted.trans posted'⟩

/-- There are no more messages than there were posts. -/
theorem run_few {s : StoreRun} {ls : List StoreCall} (h : run step fresh ls = some s) :
    s.db.messages.length ≤ ls.countP StoreCall.isPost := by
  have posted : s.posted.length ≤ ls.countP StoreCall.isPost := by
    refine run_induction (motive := fun ls s => s.posted.length ≤ ls.countP StoreCall.isPost)
      (Nat.le_refl 0) (fun ls s l t _ ih stepped => ?_) h
    rw [List.countP_append]
    cases l with
    | reopen caps ω =>
        cases stepped
        exact ih.trans (Nat.le_add_right _ _)
    | call op ω =>
        rw [StoreRun.step] at stepped
        cases isOpen : s.caps with
        | none =>
            rw [isOpen] at stepped
            cases stepped
        | some caps =>
            rw [isOpen] at stepped
            cases stepped
            have one : ∀ r, (op.posted r).length ≤ [StoreCall.call op ω].countP
                StoreCall.isPost := by
              intro r
              cases op <;> try exact Nat.zero_le _
              cases r with
              | error e => exact Nat.zero_le _
              | ok reply => cases reply <;> first | exact Nat.le_refl 1 | exact Nat.zero_le _
            rw [List.length_append]
            exact Nat.add_le_add ih (one _)
  rw [(run_inv h).posted, List.length_map] at posted
  exact posted

/-! ### What callers can rely on -/

section Answers

variable {s : StoreRun} (inv : s.Inv)
include inv

/-- Every message is in the room it was posted to. -/
theorem Inv.log_eq (room : RoomId) :
    s.db.log room = (s.posted.filter fun p => p.1 = room).map Prod.snd := by
  rw [inv.posted, List.filter_map, List.map_map, Db.log, Db.logRows]
  refine congrArg (List.map _) (List.filter_congr fun row mem => ?_)
  obtain ⟨home, home_mem, at_home⟩ := inv.valid.homes row mem
  have id_pos := inv.valid.id_pos home_mem
  have room_eq : RoomId.mk row.roomId.toNat = room ↔ row.roomId.toNat = room.get := by
    cases room
    simp
  simp only [Function.comp, MessageRow.post, decide_eq_decide, room_eq]
  omega

theorem Inv.mem_log {room : RoomId} {message : Message} :
    message ∈ s.db.log room ↔ (room, message) ∈ s.posted := by
  rw [inv.log_eq room]
  constructor
  · intro mem
    obtain ⟨⟨r, m⟩, found, rfl⟩ := List.mem_map.mp mem
    obtain ⟨posted, same⟩ := List.mem_filter.mp found
    rw [← of_decide_eq_true same]
    exact posted
  · intro posted
    exact List.mem_map.mpr ⟨_, List.mem_filter.mpr ⟨posted, decide_eq_true rfl⟩, rfl⟩

theorem Inv.posted_ascending : s.posted.Pairwise fun p q => p.2.seq < q.2.seq := by
  rw [inv.posted]
  refine List.pairwise_map.mpr (List.Pairwise.imp_of_mem (fun {a b} ha _ lt => ?_)
    inv.valid.messages_ascending)
  have := inv.valid.seq_pos ha
  simp only [MessageRow.post, MessageRow.message, Seq.mk_lt_mk]
  omega

/-- An answer of an open store is the operation on its tables. -/
theorem Inv.answer_eq {caps : Caps} (isOpen : s.caps = some caps) (op : StoreOp)
    (ω : ℕ → Moment) : s.answer caps op ω = (((op.query caps).run.exec ω s.db).1,
      opened ((op.query caps).run.exec ω s.db).2) := by
  obtain ⟨file, -⟩ := inv.isOpen (by rw [isOpen]; rfl)
  rw [answer, file]
  exact exec_onFile _ _ _

end Answers

end StoreRun

/-- The operation of a page query. -/
def PageQuery.op (room : RoomId) : PageQuery → StoreOp
  | .newest limit => .messagesNewest room limit
  | .after cursor limit => .messagesAfter room cursor limit
  | .before cursor limit => .messagesBefore room cursor limit

/-- A position lies in what a page spans: between its cursor and its last message, or its
first one when it reads backwards — and all the way when the page is not full. -/
def PageQuery.Covers (page : List Message) (position : Seq) : PageQuery → Prop
  | .newest limit => page.length < limit ∨ ∃ f ∈ page.head?, f.seq ≤ position
  | .after cursor limit =>
      cursor < position ∧ (page.length < limit ∨ ∃ z ∈ page.getLast?, position ≤ z.seq)
  | .before cursor limit =>
      position < cursor ∧ (page.length < limit ∨ ∃ f ∈ page.head?, f.seq ≤ position)

namespace PageQuery

variable {log : List Message} (ascending : Ascending Message.seq log)
include ascending

/-- A page has every message whose position it covers. -/
theorem mem_page_of_covers {q : PageQuery} {m : Message} (mem : m ∈ log)
    (covers : q.Covers (q.page log) m.seq) : m ∈ q.page log := by
  have newest_has : ∀ {n : ℕ} {l : List Message}, Ascending Message.seq l → m ∈ l →
      ((pageNewest n l).length < n ∨ ∃ f ∈ (pageNewest n l).head?, f.seq ≤ m.seq) →
        m ∈ pageNewest n l := by
    intro n l asc mem' spans
    rcases spans with short | ⟨f, first, late⟩
    · rw [pageNewest_of_short short]
      exact mem'
    · exact mem_pageNewest_of_le asc mem' first late
  cases q with
  | newest limit => exact newest_has ascending mem covers
  | after cursor limit =>
      obtain ⟨past, short | ⟨z, last, early⟩⟩ := covers
      · rw [page, pageAfter_of_short short]
        exact mem_above.mpr ⟨mem, past⟩
      · exact mem_pageAfter_of_le ascending mem past last early
  | before cursor limit =>
      obtain ⟨early, spans⟩ := covers
      rw [page, pageBefore_eq_pageNewest] at spans ⊢
      exact newest_has (ascending.filter _) (mem_below.mpr ⟨mem, early⟩) spans

omit ascending in
/-- A page is a part of the log, in its order. -/
theorem page_sublist (q : PageQuery) (log : List Message) : (q.page log).Sublist log := by
  cases q with
  | newest limit => exact List.drop_sublist _ _
  | after cursor limit => exact (List.take_sublist _ _).trans List.filter_sublist
  | before cursor limit => exact (List.drop_sublist _ _).trans List.filter_sublist

end PageQuery

/-- The latest position a room is listed with: the largest that was posted to it, or
`START` when there is none. -/
def IsLatest (posted : List (RoomId × Message)) (room : Room) : Prop :=
  (∀ p ∈ posted, p.1 = room.id → p.2.seq ≤ room.latestSeq) ∧
    ((∃ p ∈ posted, p.1 = room.id ∧ p.2.seq = room.latestSeq) ∨
      (∀ p ∈ posted, p.1 ≠ room.id) ∧ room.latestSeq = Seq.START)

/-- **What callers of a store can rely on**: a totally ordered log of posts, and a list of
rooms, that are only ever added to. -/
structure AppendOnlyLog (s : StoreRun) : Prop where
  positive : ∀ p ∈ s.posted, 1 ≤ p.2.seq.get
  /-- Each post was given a larger position than every one before it, in any room. -/
  ascending : s.posted.Pairwise fun p q => p.2.seq < q.2.seq
  /-- A page that covers a post of its room has it exactly once, as it was posted. -/
  once : ∀ caps room (q : PageQuery) ω page, s.caps = some caps →
    (s.answer caps (q.op room) ω).1 = .ok (.page page) →
      ∀ message, (room, message) ∈ s.posted → q.Covers page message.seq →
        page.filter (fun m => m.seq = message.seq) = [message]
  /-- No page of another room has it. -/
  elsewhere : ∀ caps room (q : PageQuery) ω page, s.caps = some caps →
    (s.answer caps (q.op room) ω).1 = .ok (.page page) →
      ∀ p ∈ s.posted, p.1 ≠ room → ∀ m ∈ page, m.seq ≠ p.2.seq
  /-- A post to a room that does not exist is refused as such. -/
  absent : ∀ caps (room : RoomId) username body (ω : ℕ → Moment), s.caps = some caps →
    room.get ≤ i64Max → (∀ row ∈ s.db.rooms, row.id ≠ room.get) →
      (∀ n, (ω n).fails = false) → (∀ n, (ω n).now ≤ i64Max) →
        (s.answer caps (.postMessage room username body) ω).1
          = .error (.notFound s!"room {room.get}")
  /-- A post that fails leaves every table as it was. -/
  refused : ∀ caps room username body ω e, s.caps = some caps →
    (s.answer caps (.postMessage room username body) ω).1 = .error e →
      (s.answer caps (.postMessage room username body) ω).2 = s.file
  /-- The list of rooms is the table's, in the order of creation; the lobby is the first of
  them, and only the first; and each has the position of its newest post. -/
  listed : ∀ caps ω rooms, s.caps = some caps →
    (s.answer caps .listRooms ω).1 = .ok (.rooms rooms) →
      (rooms.map fun r => (r.id, r.name)) = s.db.rooms.map RoomRow.named ∧
        s.made.Sublist (rooms.map fun r => (r.id, r.name)) ∧
          (∃ first rest, rooms = first :: rest ∧ first.name = LOBBY ∧
            ∀ r ∈ rest, ¬ NoCase r.name LOBBY) ∧
              ∀ r ∈ rooms, IsLatest s.posted r

namespace StoreRun

section Claims

variable {s : StoreRun} (inv : s.Inv) {caps : Caps} (isOpen : s.caps = some caps)
include inv

theorem Inv.positive {p : RoomId × Message} (mem : p ∈ s.posted) : 1 ≤ p.2.seq.get := by
  rw [inv.posted] at mem
  obtain ⟨row, row_mem, rfl⟩ := List.mem_map.mp mem
  have := inv.valid.seq_pos row_mem
  simp only [MessageRow.post, MessageRow.message]
  omega

/-- The latest position in the table is the latest that was posted. -/
theorem Inv.isLatest {row : RoomRow} (mem : row ∈ s.db.rooms) :
    IsLatest s.posted (s.db.room row) := by
  have at_room : ∀ message ∈ s.db.messages, message.roomId = row.id ↔
      (MessageRow.post message).1 = (s.db.room row).id := by
    intro message message_mem
    obtain ⟨home, home_mem, at_home⟩ := inv.valid.homes message message_mem
    have home_pos := inv.valid.id_pos home_mem
    have row_pos := inv.valid.id_pos mem
    simp only [MessageRow.post, Db.room, RoomId.mk.injEq]
    omega
  rw [IsLatest, inv.posted]
  cases newest : ((s.db.messages.filter fun m => m.roomId = row.id).map MessageRow.seq).max? with
  | none =>
      have latest : (s.db.room row).latestSeq = Seq.START := by
        simp [Db.room, Db.latestSeq, maxSeq, newest, Seq.START]
      have silent : ∀ p ∈ s.db.messages.map MessageRow.post, p.1 ≠ (s.db.room row).id := by
        intro p p_mem same
        obtain ⟨message, message_mem, rfl⟩ := List.mem_map.mp p_mem
        have here : message ∈ s.db.messages.filter fun m => m.roomId = row.id :=
          List.mem_filter.mpr ⟨message_mem, decide_eq_true ((at_room _ message_mem).mpr same)⟩
        rw [List.max?_eq_none_iff, List.map_eq_nil_iff] at newest
        rw [newest] at here
        cases here
      exact ⟨fun p p_mem same => absurd same (silent p p_mem), Or.inr ⟨silent, latest⟩⟩
  | some top =>
      have latest : (s.db.room row).latestSeq = ⟨top.toNat⟩ := by
        simp [Db.room, Db.latestSeq, maxSeq, newest]
      obtain ⟨top_mem, largest⟩ := List.max?_eq_some_iff.mp newest
      refine ⟨fun p p_mem same => ?_, Or.inl ?_⟩
      · obtain ⟨message, message_mem, rfl⟩ := List.mem_map.mp p_mem
        have here : message.seq ≤ top := largest _ (List.mem_map_of_mem
          (List.mem_filter.mpr ⟨message_mem, decide_eq_true ((at_room _ message_mem).mpr same)⟩))
        rw [latest, MessageRow.post, MessageRow.message, Seq.mk_le_mk]
        omega
      · obtain ⟨message, here, rfl⟩ := List.mem_map.mp top_mem
        obtain ⟨message_mem, at_row⟩ := List.mem_filter.mp here
        refine ⟨_, List.mem_map_of_mem message_mem, ?_, ?_⟩
        · exact (at_room _ message_mem).mp (of_decide_eq_true at_row)
        · rw [latest]
          rfl

include isOpen

/-- A page that is answered is the page of the room's log. -/
theorem Inv.page_eq {room : RoomId} {q : PageQuery} {ω : ℕ → Moment} {page : List Message}
    (answered : (s.answer caps (q.op room) ω).1 = .ok (.page page)) :
    page = q.page (s.db.log room) := by
  have dispatch : (q.op room).query caps = .page <$> q.query room := by cases q <;> rfl
  rw [inv.answer_eq isOpen, dispatch, exec_map_run] at answered
  have meets := q.meets room (fun _ => True) s.db
  rcases meets.exec_last (fun _ _ h => h.1) (fun _ => trivial) inv.valid (ω := ω) with
    ⟨ends, -⟩ | ⟨-, saw⟩
  · rcases q.run_cases room with ⟨-, -, run⟩ | ⟨-, e, run⟩
    · rw [run] at ends
      cases ends
    · rw [run] at answered
      cases answered
  · cases result : ((q.query room).run.exec ω s.db).1 with
    | error e =>
        rw [result] at answered
        cases answered
    | ok messages =>
        rw [result] at answered
        cases answered
        exact saw _ (congrArg some result)

theorem Inv.listed {ω : ℕ → Moment} {rooms : List Room}
    (answered : (s.answer caps .listRooms ω).1 = .ok (.rooms rooms)) :
    rooms = s.db.roomList := by
  rw [inv.answer_eq isOpen, StoreOp.query, exec_map_run] at answered
  have meets := listRooms_meets (fun _ => True) s.db
  rcases meets.exec_last (fun _ _ h => h.1) (fun _ => trivial) inv.valid (ω := ω) with
    ⟨ends, -⟩ | ⟨-, saw⟩
  · rw [listRooms_run] at ends
    cases ends
  · cases result : (listRooms.run.exec ω s.db).1 with
    | error e =>
        rw [result] at answered
        cases answered
    | ok messages =>
        rw [result] at answered
        cases answered
        exact saw _ (congrArg some result)

end Claims

/-- Everything a caller can rely on follows from the invariant, while there are positions
left to give. -/
theorem Inv.appendOnlyLog {s : StoreRun} (inv : s.Inv)
    (left : s.db.messages.length < i64Max) : AppendOnlyLog s where
  positive := fun _ mem => inv.positive mem
  ascending := inv.posted_ascending
  once := by
    intro caps room q ω page isOpen answered message posted covers
    rw [inv.page_eq isOpen answered] at covers ⊢
    have ascending := log_ascending inv.valid room
    have mem := q.mem_page_of_covers ascending (inv.mem_log.mpr posted) covers
    exact (ascending.sublist (q.page_sublist _)).filter_key_eq mem
  elsewhere := by
    intro caps room q ω page isOpen answered p posted differ m mem same
    rw [inv.page_eq isOpen answered] at mem
    have here : (room, m) ∈ s.posted := inv.mem_log.mp ((q.page_sublist _).subset mem)
    have ascending : Ascending (fun p : RoomId × Message => p.2.seq) s.posted :=
      inv.posted_ascending
    have one : (room, m) = p := ascending.eq_of_key_eq here posted same
    exact differ (by rw [← one])
  absent := by
    intro caps room username body ω isOpen fits none works clock
    rw [inv.answer_eq isOpen, StoreOp.query, exec_map_run,
      postMessage_absent room username body inv.valid fits none left clock works]
    rfl
  refused := by
    intro caps room username body ω e isOpen answered
    obtain ⟨file, -⟩ := inv.isOpen (by rw [isOpen]; rfl)
    rw [inv.answer_eq isOpen, StoreOp.query, exec_map_run] at answered ⊢
    rcases postMessage_exec inv.valid ω room username body with
      ⟨same, -⟩ | ⟨postedAt, -, there, -⟩
    · rw [same, file]
    · rw [Option.some.injEq] at there
      rw [there] at answered
      cases answered
  listed := by
    intro caps ω rooms isOpen answered
    obtain ⟨-, some_room⟩ := inv.isOpen (by rw [isOpen]; rfl)
    have names : (s.db.roomList.map fun r => (r.id, r.name)) = s.db.rooms.map RoomRow.named := by
      rw [Db.roomList, List.map_map]
      rfl
    rw [inv.listed isOpen answered]
    refine ⟨names, names ▸ inv.made, ?_, ?_⟩
    · cases rows : s.db.rooms with
      | nil => exact absurd rows some_room
      | cons first rest =>
          have named : first.name = LOBBY := inv.lobby first (by rw [rows]; rfl)
          have apart := inv.valid.rooms
          rw [rows] at apart
          refine ⟨s.db.room first, rest.map s.db.room, by rw [Db.roomList, rows]; rfl, named, ?_⟩
          intro r mem same
          obtain ⟨row, row_mem, rfl⟩ := List.mem_map.mp mem
          refine (List.pairwise_cons.mp apart).1 row row_mem ?_
          rw [named]
          exact same.symm
    · intro r mem
      obtain ⟨row, row_mem, rfl⟩ := List.mem_map.mp mem
      exact inv.isLatest row_mem

/-- **The store is an append-only log.**  Take any run over one file, and any continuation
of it, with fewer than `2^63 - 1` posts: what was answered and the rooms there were are
still there, in front of what has been added, and the state reached is what callers of the
store can rely on. -/
theorem append_only_log {ls ms : List StoreCall} {s t : StoreRun}
    (first : run step fresh ls = some s) (rest : run step s ms = some t)
    (few : (ls ++ ms).countP StoreCall.isPost < 2 ^ 63 - 1) :
    s.posted <+: t.posted ∧ s.db.rooms <+: t.db.rooms ∧ AppendOnlyLog t := by
  have whole : run step fresh (ls ++ ms) = some t := by
    rw [run_append, first]
    exact rest
  obtain ⟨inv, grows, posted⟩ := run_grows (run_inv first) rest
  exact ⟨posted, grows.rooms, inv.appendOnlyLog ((run_few whole).trans_lt few)⟩

/-- An opening, an account, and a post to the lobby before the store is opened again. -/
theorem append_only_log_reopened :
    ∃ s t : StoreRun, s.posted = [(⟨1⟩, ⟨⟨1⟩, "alice", "hi", ⟨0⟩⟩)] ∧ s.posted <+: t.posted ∧
      s.db.rooms <+: t.db.rooms ∧ AppendOnlyLog t :=
  ⟨_, _, rfl, append_only_log
    (rfl : run step fresh [.reopen ⟨1, 1⟩ fun _ => {},
      .call (.insertUser "alice" "phc") fun _ => {},
      .call (.postMessage ⟨1⟩ "alice" "hi") fun _ => {}] = some _)
    (rfl : run step _ [.reopen ⟨1, 1⟩ fun _ => {}, .call .listRooms fun _ => {}] = some _)
    (by decide)⟩

end StoreRun

end ScionChat
