import ScionChat.Lib.Linearization
import ScionChat.Server.Store.Log

/-!
# Concurrent creations

Any number of calls on one open store run at once, and the database interleaves their statements as
it likes.  Creating a room and registering an account are an insert followed by a look at what is
there, so other calls run between the two.

Two facts about the tables carry the argument: a name never leaves (`Db.Extends`), and a table that
has reached its cap never grows again (`Within`).  With them, each call has a linearization point,
the insert, and what it looks up afterwards can only confirm what the insert already decided.

* `insertUser_linearizes`, `createRoom_linearizes` — each call answers what it would have answered
  alone at its insert, the `latest_seq` of a room apart;
* `creations_linearize` — over any run of calls: the caps hold, no name is there twice, each room
  that was created was created by one call, and everybody is told the same id for it.

### design decisions

* **The store may have a past.**  `Stored` builds up every file that stores can have made, by runs
  of this same system with other caps; the result holds on each of them, and not just on a fresh
  one.
* **A look is not an insert.**  A call that finds its name taken has inserted nothing, and its look
  is a statement of its own, at which the table may be larger.  It finds the name all the same.

### What is load-bearing

The cap is part of the `INSERT`, as a subquery that SQLite evaluates in the same statement.  So a
call that is refused was refused by the table at its insert (`refused_at_insert`), and there is no
window between counting and adding.
-/

namespace ScionChat

open Interleaving TransitionSystem Column Sql

/-! ### What every call relies on -/

/-- Neither table has grown past its cap, unless it was past it already.  A store may be opened
with a smaller cap than its table has rows; then it stops growing where it is. -/
def Within (caps : Caps) (s t : Db) : Prop :=
  t.users.length ≤ max caps.accounts.toNat s.users.length ∧
    t.rooms.length ≤ max caps.rooms.toNat s.rooms.length

theorem Within.refl (caps : Caps) (s : Db) : Within caps s s :=
  ⟨le_max_right _ _, le_max_right _ _⟩

theorem Within.trans (caps : Caps) (s t u : Db) (h : Within caps s t) (h' : Within caps t u) :
    Within caps s u := by
  obtain ⟨users, rooms⟩ := h
  obtain ⟨users', rooms'⟩ := h'
  exact ⟨by omega, by omega⟩

/-- **The contract of a store with caps**, while the database works.  Beside the store's own
contract it has that a table at its cap has stopped growing. -/
def capsContract (caps : Caps) : Contract Moment Db :=
  (storeContract fun m => m.fails = false).relying (Within caps) (Within.refl caps)
    (Within.trans caps)

/-- A table at its cap never grows again. -/
theorem rooms_frozen {caps : Caps} {s t : Db} (rel : (capsContract caps).rel s t)
    (full : caps.rooms.toNat ≤ s.rooms.length) : t.rooms = s.rooms := by
  have bound : t.rooms.length ≤ s.rooms.length := by
    have := rel.2.2
    omega
  exact (rel.1.rooms.eq_of_length_le bound).symm

theorem users_frozen {caps : Caps} {s t : Db} (rel : (capsContract caps).rel s t)
    (full : caps.accounts.toNat ≤ s.users.length) : t.users = s.users := by
  have bound : t.users.length ≤ s.users.length := by
    have := rel.2.1
    omega
  exact (rel.1.users.eq_of_length_le bound).symm

namespace StoreOp

/-- The room a call has created, or found under the name, stays where it is. -/
def Named : StoreOp → Except StoreError StoreReply → Db → Prop
  | .createRoom name, .ok (.creation creation), db => Holds name (.ok creation) db
  | _, _, _ => True

/-- A query that only looks keeps every cap. -/
private theorem meets_of_looks {caps : Caps} {admits : Moment → Prop} {op : StoreOp} {α : Type}
    {x : Query α} {f : α → StoreReply} {guar : Db → Option (Except StoreError α) → Db → Prop}
    {post : Except StoreError α → Db → Prop} {s₀ : Db} (dispatch : op.query caps = f <$> x)
    (looks : ∀ s o t, guar s o t → t = s) (named : ∀ r db, op.Named r db)
    (meets : x.run.Meets (storeContract admits) guar post s₀) :
    (op.query caps).run.Meets (storeContract admits) (fun s _ t => Within caps s t) op.Named
      s₀ := by
  rw [dispatch, run_map]
  refine Prog.meets_map _ (meets.weaken (fun s o t own => ?_) fun r db _ => named _ db)
  rw [looks s o t own]
  exact Within.refl caps s

theorem meets (caps : Caps) (admits : Moment → Prop) (op : StoreOp) (s₀ : Db) :
    (op.query caps).run.Meets (storeContract admits) (fun s _ t => Within caps s t) op.Named
      s₀ := by
  cases op with
  | insertUser username pwHash =>
      rw [query, run_map]
      refine Prog.meets_map _ ((insertUser_meets username pwHash caps.accounts admits s₀).weaken
        (fun s o t own => ?_) fun _ _ _ => trivial)
      rcases own with ⟨rfl, -⟩ | ⟨-, below, -, _, rfl⟩
      · exact Within.refl caps _
      · refine ⟨?_, le_max_right _ _⟩
        rw [List.length_append, List.length_singleton]
        omega
  | passwordHash username =>
      exact meets_of_looks rfl (fun _ _ _ h => h) (fun _ _ => trivial)
        (passwordHash_meets username admits s₀)
  | createRoom name =>
      rw [query, run_map]
      refine Prog.meets_map _ ((createRoom_meets name caps.rooms admits s₀).weaken
        (fun s o t own => ?_) fun r db holds => ?_)
      · rcases own with rfl | ⟨-, below, -, _, rfl⟩
        · exact Within.refl caps _
        · refine ⟨le_max_right _ _, ?_⟩
          rw [List.length_append, List.length_singleton]
          omega
      · cases r with
        | error e => exact trivial
        | ok creation => exact holds
  | listRooms =>
      exact meets_of_looks rfl (fun _ _ _ h => h.1) (fun _ _ => trivial)
        (listRooms_meets admits s₀)
  | roomExists room =>
      exact meets_of_looks rfl (fun _ _ _ h => h.1) (fun _ _ => trivial)
        (roomExists_meets room admits s₀)
  | postMessage room username body =>
      rw [query, run_map]
      refine Prog.meets_map _ ((postMessage_meets room username body admits s₀).weaken
        (fun s o t own => ?_) fun _ _ _ => trivial)
      rcases own with ⟨rfl, -⟩ | ⟨_, -, -, rfl⟩ <;> exact Within.refl caps _
  | messagesNewest room limit =>
      exact meets_of_looks rfl (fun _ _ _ h => h.1) (fun _ _ => trivial)
        ((PageQuery.newest limit).meets room admits s₀)
  | messagesAfter room cursor limit =>
      exact meets_of_looks rfl (fun _ _ _ h => h.1) (fun _ _ => trivial)
        ((PageQuery.after cursor limit).meets room admits s₀)
  | messagesBefore room cursor limit =>
      exact meets_of_looks rfl (fun _ _ _ h => h.1) (fun _ _ => trivial)
        ((PageQuery.before cursor limit).meets room admits s₀)

/-- Every call keeps the caps, and relies on every other call to. -/
theorem meets_caps (caps : Caps) (op : StoreOp) (s₀ : Db) (_ : (capsContract caps).inv s₀) :
    (op.query caps).run.Meets (capsContract caps) (fun s _ t => Within caps s t) op.Named s₀ :=
  (op.meets caps _ s₀).relying (Within.refl caps) (Within.trans caps) fun _ _ _ own => own

end StoreOp

/-! ### The linearization points -/

/-- An answer, up to the position a room is listed with. -/
def StoreReply.forgetLatest : StoreReply → StoreReply
  | .creation (.created room) => .creation (.created { room with latestSeq := Seq.START })
  | .creation (.existing room) => .creation (.existing { room with latestSeq := Seq.START })
  | reply => reply

/-- **The call, carried out at once** on the tables `s`, answers `a` and leaves `t`.  The
`latest_seq` of a room is left out of the answer: it is read in the look that follows, and messages
may have been posted by then. -/
def AtOnce (caps : Caps) (op : StoreOp) (s : Db) (a : Except StoreError StoreReply) (t : Db) :
    Prop :=
  ∃ ω : ℕ → Moment, (∀ n, (ω n).fails = false) ∧
    ∃ a', (op.query caps).run.exec ω s = (a', t) ∧
      a.map StoreReply.forgetLatest = a'.map StoreReply.forgetLatest

/-- The point of a call that creates something: its second step, the insert — or the first,
when the clock does not fit its column. -/
def CreatesAt (caps : Caps) (op : StoreOp) (n : ℕ) (s : Db)
    (a : Except StoreError StoreReply) (t : Db) : Prop :=
  AtOnce caps op s a t ∧ (n = 1 ∨ ∃ value, a = .error (.outOfRange "timestamp" value))

section Points

variable (caps : Caps)

theorem fetched_works {α : Type} (rows : Db → α) {m : Moment} {db : Db}
    (works : (capsContract caps).admits m) : fetched rows m db = .ok (rows db) :=
  fetched_of_works works rows

theorem toColumn_error {what : String} {value : ℕ} {e : StoreError}
    (h : toColumn what value = .error e) : e = .outOfRange what value := by
  simp only [toColumn] at h
  split at h
  next => cases h
  next => exact (Except.error.inj h).symm

/-- A stream of inputs that starts with two given ones. -/
def startingWith (m m' : Moment) : ℕ → Moment
  | 0 => m
  | _ => m'

theorem startingWith_works {m m' : Moment} (works : m.fails = false) (works' : m'.fails = false) :
    ∀ n, (startingWith m m' n).fails = false
  | 0 => works
  | _ + 1 => works'

/-- **Registering an account takes effect at its insert.** The look that follows an insert that
added nothing only finds out which of the two reasons it was. -/
theorem insertUser_linearizes (username pwHash : String) :
    ((StoreOp.insertUser username pwHash).query caps).run.Linearizes (capsContract caps)
      (CreatesAt caps (.insertUser username pwHash)) 0 := by
  rw [StoreOp.query, run_map, insertUser_run]
  intro m s works valid
  cases column : toColumn "timestamp" m.now with
  | error e =>
      refine Or.inr ?_
      simp only [column]
      refine ⟨⟨fun _ => m, fun _ => works, .error e, ?_, rfl⟩, Or.inr ⟨m.now, ?_⟩⟩
      · rw [StoreOp.query, run_map, insertUser_run, Prog.exec_map, Prog.exec_step, column]
        rfl
      · rw [toColumn_error column]
        rfl
  | ok createdAt =>
      refine Or.inl ⟨rfl, ?_⟩
      simp only [column]
      intro m' s works' valid
      -- the insert has decided what the call answers, and so does the call carried out at once
      refine Or.inr ?_
      have at_once : ∀ a after, attempt (fun (_ : Moment) =>
          insertUserRow username pwHash createdAt caps.accounts.toNat) m' s = (.ok a, after) →
            ((StoreOp.insertUser username pwHash).query caps).run.exec (startingWith m m') s
              = (if a then .ok (.registration .created)
                else if selectUserExists username after then
                  .ok (.registration .usernameTaken)
                else .error (.capExceeded "account"), after) := by
        intro a after attempted
        rw [StoreOp.query, run_map, insertUser_run, Prog.exec_map, Prog.exec_step]
        simp only [startingWith, column, Prog.exec_step, attempted]
        cases a with
        | true => rfl
        | false =>
            simp only [Prog.exec_step, fetched_works caps _ works']
            cases selectUserExists username after <;> rfl
      obtain ⟨inserted, after, result⟩ :=
        insertUserRow_ok username pwHash createdAt caps.accounts.toNat s
      have attempted : attempt (fun (_ : Moment) =>
        insertUserRow username pwHash createdAt caps.accounts.toNat) _ s = (.ok inserted, after) :=
        attempt_of_ok works' result
      have whole := at_once inserted after attempted
      simp only [attempted]
      rcases insertUserRow_cases result with ⟨rfl, -⟩ | ⟨rfl, why, same⟩
      · exact ⟨⟨_, startingWith_works works works', _, whole, rfl⟩, Or.inl rfl⟩
      · intro m'' s'' works'' valid'' rel
        refine ⟨rfl, ?_⟩
        subst after
        have seen : selectUserExists username s'' = selectUserExists username s := by
          rcases why with full | ⟨row, mem, named⟩
          · have frozen := users_frozen rel (by exact_mod_cast full)
            simp only [selectUserExists, frozen]
          · have now_there : selectUserExists username s = true :=
              decide_eq_true ⟨row, mem, named⟩
            have still_there : selectUserExists username s'' = true :=
              decide_eq_true ⟨row, rel.1.user mem, named⟩
            rw [now_there, still_there]
        simp only [fetched_works caps _ works'', seen]
        simp only [Bool.false_eq_true, if_false] at whole
        cases taken : selectUserExists username s with
        | true =>
            rw [taken] at whole
            exact ⟨⟨_, startingWith_works works works', _, whole, rfl⟩, Or.inl rfl⟩
        | false =>
            rw [taken] at whole
            exact ⟨⟨_, startingWith_works works works', _, whole, rfl⟩, Or.inl rfl⟩

/-- What `createRoom` answers about a row, up to its latest position, is about its id and its
name. -/
theorem creationOf_forget {s t : Db} (valid : s.Valid) (valid' : t.Valid) {row : RoomRow}
    (mem : row ∈ s.rooms) (mem' : row ∈ t.rooms) (inserted : Bool) :
    ((creationOf inserted (some (withLatest t row))).map StoreReply.creation).map
        StoreReply.forgetLatest
      = ((creationOf inserted (some (withLatest s row))).map StoreReply.creation).map
          StoreReply.forgetLatest := by
  rw [creationOf_of_valid valid' inserted mem', creationOf_of_valid valid inserted mem]
  cases inserted <;> rfl

/-- What `createRoom` makes of the room that it finds after its insert. -/
def reads (name : String) (inserted : Bool) (m : Moment) (db : Db) :
    Prog Moment Db (Except StoreError RoomCreation) :=
  match fetched (selectRoomByName name) m db with
  | .error e => .ret (.error e)
  | .ok found => .ret (creationOf inserted found)

/-- **Creating a room takes effect at its insert.** What is there already is found by the look,
under the id that everybody is told. -/
theorem createRoom_linearizes (name : String) :
    ((StoreOp.createRoom name).query caps).run.Linearizes (capsContract caps)
      (CreatesAt caps (.createRoom name)) 0 := by
  rw [StoreOp.query, run_map, createRoom_run]
  intro m s works valid
  cases column : toColumn "timestamp" m.now with
  | error e =>
      refine Or.inr ?_
      simp only [column]
      refine ⟨⟨fun _ => m, fun _ => works, .error e, ?_, rfl⟩, Or.inr ⟨m.now, ?_⟩⟩
      · rw [StoreOp.query, run_map, createRoom_run, Prog.exec_map, Prog.exec_step, column]
        rfl
      · rw [toColumn_error column]
        rfl
  | ok createdAt =>
      refine Or.inl ⟨rfl, ?_⟩
      simp only [column]
      intro m' s works' valid
      refine Or.inr ?_
      have at_once : ∀ inserted after, attempt (fun m : Moment =>
          insertRoomRow m.spare name createdAt caps.rooms.toNat) m' s = (.ok inserted, after) →
            ((StoreOp.createRoom name).query caps).run.exec (startingWith m m') s
              = ((creationOf inserted (selectRoomByName name after)).map StoreReply.creation,
                  after) := by
        intro inserted after attempted
        rw [StoreOp.query, run_map, createRoom_run, Prog.exec_map, Prog.exec_step]
        simp only [startingWith, column, Prog.exec_step, attempted,
          fetched_works caps _ works']
        rfl
      obtain ⟨inserted, after, result⟩ :=
        insertRoomRow_ok valid m'.spare name createdAt caps.rooms
      have attempted : attempt (fun m : Moment =>
        insertRoomRow m.spare name createdAt caps.rooms.toNat) _ s = (.ok inserted, after) :=
        attempt_of_ok works' result
      have whole := at_once inserted after attempted
      simp only [attempted]
      -- a room of the name that is there after the insert is the room found later
      have settles : ∀ row ∈ after.rooms, NoCase row.name name → after.Valid →
          ∀ m'' s'', (capsContract caps).admits m'' → s''.Valid →
            (capsContract caps).rel after s'' →
              (Except.map StoreReply.creation <$> reads name inserted m'' s'').Settled
                (capsContract caps) (fun a => CreatesAt caps (.createRoom name) 1 s a after)
                  s'' := by
        intro row mem named after_valid m'' s'' works'' valid'' rel
        have later := rel.1.room mem
        simp only [reads, fetched_works caps _ works'', selectRoomByName_of_mem valid'' later named]
        refine ⟨⟨_, startingWith_works works works', _, whole, ?_⟩, Or.inl rfl⟩
        rw [selectRoomByName_of_mem after_valid mem named]
        exact creationOf_forget after_valid valid'' mem later inserted
      rcases insertRoomRow_cases valid result with ⟨rfl, -, left, new, rfl⟩ | ⟨rfl, why, same⟩
      · intro m'' s'' works'' valid'' rel
        refine ⟨rfl, ?_⟩
        exact settles ⟨s.rooms.length + 1, name, createdAt⟩ (by simp) (NoCase.refl name)
          (valid.addRoom _ rfl left new) m'' s'' works'' valid'' rel
      · subst after
        intro m'' s'' works'' valid'' rel
        refine ⟨rfl, ?_⟩
        rcases selectRoomByName_cases name s with ⟨row, mem, named, -⟩ | ⟨absent, none_found⟩
        · exact settles row mem named valid m'' s'' works'' valid'' rel
        · -- the table was full, so nobody else has created the room since
          have full : caps.rooms.toNat ≤ s.rooms.length := by
            rcases why with full | ⟨row, mem, named⟩
            · exact_mod_cast full
            · exact absurd named (absent row mem)
          have still_none : selectRoomByName name s'' = none := by
            rw [selectRoomByName, rooms_frozen rel full]
            rw [selectRoomByName] at none_found
            simpa using none_found
          simp only [fetched_works caps _ works'', still_none]
          rw [none_found] at whole
          exact ⟨⟨_, startingWith_works works works', _, whole, rfl⟩, Or.inl rfl⟩

end Points

/-! ### Every store there can be -/

/-- **A database file that stores have made**: any number of openings, each followed by any
number of calls whose steps interleave, whatever fails on the way. -/
inductive Stored : Option DbFile → Prop
  | absent : Stored none
  | opening {file : Option DbFile} (ω : ℕ → Moment) :
      Stored file → Stored (SqliteStore.new.run.exec ω file).2
  | session {db : Db} (caps : Caps) {ls : List (Label StoreOp Moment)}
      {q : Pool StoreOp Moment Db (Except StoreError StoreReply)} :
      Stored (opened db) →
        run (Pool.step fun op => (op.query caps).run) (Pool.idle db) ls = some q →
          Stored (opened q.state)

/-- Such a file carries this build's stamp, or none, and its tables are valid. -/
theorem Stored.valid {file : Option DbFile} (stored : Stored file) :
    ¬ Foreign file ∧ (DbFile.db file).Valid := by
  induction stored with
  | absent => exact ⟨by simp [Foreign], Db.Valid.empty⟩
  | @opening file ω _ ih =>
      obtain ⟨native, valid⟩ := ih
      rcases new_exec ω file with ⟨e, file', eq, left⟩ | ⟨seed, eq⟩
      · rw [eq]
        rcases left with rfl | ⟨same, native'⟩
        · exact ⟨native, valid⟩
        · refine ⟨native', ?_⟩
          rw [same, discarded_of_native native]
          exact valid
      · rw [eq, discarded_of_native native]
        have meets := createRoom_meets LOBBY (UInt32.ofNat u32Max) (fun _ => True) (DbFile.db file)
        exact ⟨not_foreign_opened _, (meets.exec (fun _ => trivial) valid).1⟩
  | session caps _ ran ih =>
      have sound := Pool.run_sound (C := storeContract fun _ => True)
        (fun op s _ => op.meets caps (fun _ => True) s)
        (fun l _ => by cases l <;> exact trivial) ran (Pool.sound_idle ih.2)
      exact ⟨not_foreign_opened _, sound.inv⟩

/-! ### What a call carried out at once says about the tables -/

section AtOnce

variable {caps : Caps} {s t : Db}

/-- An account reported as created was not there before, and is there now. -/
theorem AtOnce.registered (valid : s.Valid) {username pwHash : String}
    (h : AtOnce caps (.insertUser username pwHash) s (.ok (.registration .created)) t) :
    (∀ row ∈ s.users, ¬ NoCase row.username username) ∧
      ∃ row ∈ t.users, row.username = username := by
  obtain ⟨ω, -, a', ran, same⟩ := h
  rw [StoreOp.query, exec_map_run] at ran
  obtain ⟨rfl, rfl⟩ := Prod.mk.inj ran
  have created : ((insertUser username pwHash caps.accounts).run.exec ω s).1 = .ok .created := by
    cases result : ((insertUser username pwHash caps.accounts).run.exec ω s).1 with
    | error e =>
        rw [result] at same
        cases same
    | ok outcome =>
        rw [result] at same
        cases outcome with
        | created => rfl
        | usernameTaken => cases same
  have meets := insertUser_meets username pwHash caps.accounts (fun _ => True) s
  have quiet : ∀ s t, Registers username pwHash caps.accounts s none t → t = s := by
    rintro s t (⟨same, -⟩ | ⟨answered, -⟩)
    · exact same
    · cases answered
  rcases meets.exec_last quiet (fun _ => trivial) valid (ω := ω) with
    ⟨ends, -⟩ | ⟨-, other⟩ | ⟨-, -, new, createdAt, appended⟩
  · rw [insertUser_run] at ends
    cases ends
  · exact absurd (congrArg some created) other
  · refine ⟨new, ⟨username, pwHash, createdAt⟩, ?_, rfl⟩
    simp only [appended]
    simp

/-- A room reported as created was not there before, and is there now. -/
theorem AtOnce.created (valid : s.Valid) {name : String} {room : Room}
    (h : AtOnce caps (.createRoom name) s (.ok (.creation (.created room))) t) :
    (∀ row ∈ s.rooms, ¬ NoCase row.name name) ∧ ∃ row ∈ t.rooms, row.name = name := by
  obtain ⟨ω, -, a', ran, same⟩ := h
  rw [StoreOp.query, exec_map_run] at ran
  obtain ⟨rfl, rfl⟩ := Prod.mk.inj ran
  rcases createRoom_exec valid ω name caps.rooms with
    ⟨-, other⟩ | ⟨row, named, -, -, new, appended, -⟩
  · cases result : ((createRoom name caps.rooms).run.exec ω s).1 with
    | error e =>
        rw [result] at same
        cases same
    | ok creation =>
        cases creation with
        | created room => exact absurd result (other room)
        | existing room =>
            rw [result] at same
            cases same
  · refine ⟨new, row, ?_, named⟩
    simp only [appended]
    simp

/-- The account cap is what refuses only at the cap, and under no name that is there. -/
theorem AtOnce.accounts_full (valid : s.Valid) {username pwHash what : String}
    (h : AtOnce caps (.insertUser username pwHash) s (.error (.capExceeded what)) t) :
    caps.accounts.toNat ≤ s.users.length ∧ (∀ row ∈ s.users, ¬ NoCase row.username username) ∧
      t = s := by
  obtain ⟨ω, works, a', ran, same⟩ := h
  rw [StoreOp.query, run_map, insertUser_run, Prog.exec_map, Prog.exec_step] at ran
  cases column : toColumn "timestamp" (ω 0).now with
  | error e =>
      rw [column] at ran
      cases ran
      rw [toColumn_error column] at same
      cases same
  | ok createdAt =>
      obtain ⟨inserted, after, result⟩ :=
        insertUserRow_ok username pwHash createdAt caps.accounts.toNat s
      have attempted : attempt (fun (_ : Moment) =>
        insertUserRow username pwHash createdAt caps.accounts.toNat) _ s = (.ok inserted, after) :=
        attempt_of_ok (works 1) result
      simp only [column, Prog.exec_step, Nat.zero_add, attempted] at ran
      rcases insertUserRow_cases result with ⟨rfl, -⟩ | ⟨rfl, why, rfl⟩
      · cases ran
        cases same
      · simp only [Prog.exec_step, fetched_of_works (works _)] at ran
        cases taken : selectUserExists username after with
        | true =>
            rw [taken] at ran
            cases ran
            cases same
        | false =>
            rw [taken] at ran
            have absent : ∀ row ∈ after.users, ¬ NoCase row.username username :=
              fun row mem named => of_decide_eq_false taken ⟨row, mem, named⟩
            refine ⟨?_, absent, (Prod.mk.inj ran).2.symm⟩
            rcases why with full | ⟨row, mem, named⟩
            · exact_mod_cast full
            · exact absurd named (absent row mem)

/-- The room cap is what refuses only at the cap, and under no name that is there. -/
theorem AtOnce.rooms_full (valid : s.Valid) {name what : String}
    (h : AtOnce caps (.createRoom name) s (.error (.capExceeded what)) t) :
    caps.rooms.toNat ≤ s.rooms.length ∧ (∀ row ∈ s.rooms, ¬ NoCase row.name name) ∧
      t = s := by
  obtain ⟨ω, works, a', ran, same⟩ := h
  rw [StoreOp.query, run_map, createRoom_run, Prog.exec_map, Prog.exec_step] at ran
  cases column : toColumn "timestamp" (ω 0).now with
  | error e =>
      rw [column] at ran
      cases ran
      rw [toColumn_error column] at same
      cases same
  | ok createdAt =>
      obtain ⟨inserted, after, result⟩ :=
        insertRoomRow_ok valid (ω 1).spare name createdAt caps.rooms
      have attempted : attempt (fun m : Moment =>
        insertRoomRow m.spare name createdAt caps.rooms.toNat) _ s = (.ok inserted, after) :=
        attempt_of_ok (works 1) result
      simp only [column, Prog.exec_step, Nat.zero_add, attempted,
        fetched_of_works (works _)] at ran
      rcases insertRoomRow_cases valid result with ⟨rfl, -, left, new, rfl⟩ | ⟨rfl, why, rfl⟩
      · have valid' := valid.addRoom ⟨s.rooms.length + 1, name, createdAt⟩ rfl left new
        have mem : (⟨s.rooms.length + 1, name, createdAt⟩ : RoomRow)
            ∈ s.rooms ++ [⟨s.rooms.length + 1, name, createdAt⟩] := by simp
        rw [selectRoomByName_of_mem valid' mem (NoCase.refl name),
          creationOf_of_valid valid' true mem] at ran
        cases ran
        cases same
      · rcases selectRoomByName_cases name after with ⟨row, mem, -, found⟩ | ⟨absent, none_found⟩
        · rw [found, creationOf_of_valid valid false mem] at ran
          cases ran
          cases same
        · rw [none_found] at ran
          refine ⟨?_, absent, (Prod.mk.inj ran).2.symm⟩
          rcases why with full | ⟨row, mem, named⟩
          · exact_mod_cast full
          · exact absurd named (absent row mem)

end AtOnce

/-! ### The pool of calls on one store -/

/-- The calls on a store that are in progress. -/
abbrev StorePool := Pool StoreOp Moment Db (Except StoreError StoreReply)

/-- The next step of a store under `caps`: a call starts, or runs its next statement. -/
def StorePool.step (caps : Caps) : StorePool → Label StoreOp Moment → Option StorePool :=
  Pool.step fun op => (op.query caps).run

/-- The call creates something.  The others are answered from what is there, or add a message,
which no cap is about. -/
def StoreOp.Creating : StoreOp → Prop
  | .createRoom _ => True
  | .insertUser _ _ => True
  | _ => False

/-- The run from `db` along `ls` to `q` contains the step that the `k`-th call took after `n`
others of its own, and that step went from `before` to `after`. -/
def StoreTook (caps : Caps) (db : Db) (ls : List (Label StoreOp Moment)) (q : StorePool)
    (k : ℕ) (op : StoreOp) (n : ℕ) (before after : Db) : Prop :=
  Pool.Took (fun op => (op.query caps).run) db ls q k op n before after

/-- **What concurrent creations on one store agree on.** -/
structure CreationsAgree (caps : Caps) (db : Db) (ls : List (Label StoreOp Moment))
    (q : StorePool) : Prop where
  users_capped : q.state.users.length ≤ max caps.accounts.toNat db.users.length
  rooms_capped : q.state.rooms.length ≤ max caps.rooms.toNat db.rooms.length
  users_distinct : q.state.users.Pairwise fun a b => ¬ NoCase a.username b.username
  rooms_distinct : q.state.rooms.Pairwise fun a b => ¬ NoCase a.name b.name
  /-- At most one call creates an account of a name. -/
  one_account : ∀ j k name name' hash hash',
    q.Returned j (.insertUser name hash) (.ok (.registration .created)) →
      q.Returned k (.insertUser name' hash') (.ok (.registration .created)) →
        NoCase name name' → j = k
  /-- At most one call creates a room of a name. -/
  one_room : ∀ j k name name' room room',
    q.Returned j (.createRoom name) (.ok (.creation (.created room))) →
      q.Returned k (.createRoom name') (.ok (.creation (.created room'))) →
        NoCase name name' → j = k
  /-- Every call that succeeds for a name returns the room of that name. -/
  same_room : ∀ j k name name' creation creation',
    q.Returned j (.createRoom name) (.ok (.creation creation)) →
      q.Returned k (.createRoom name') (.ok (.creation creation')) →
        NoCase name name' → creation.room.id = creation'.room.id
  /-- The cap refuses an account only when, at the call's insert, the table was full and did
  not hold the name; the call wrote nothing. -/
  accounts_full : ∀ k name hash what,
    q.Returned k (.insertUser name hash) (.error (.capExceeded what)) →
      (∃ before after, StoreTook caps db ls q k (.insertUser name hash) 1 before after ∧
        caps.accounts.toNat ≤ before.users.length ∧
          ∀ row ∈ before.users, ¬ NoCase row.username name) ∧
        ∀ n before after, StoreTook caps db ls q k (.insertUser name hash) n before after →
          after = before
  /-- And so it does for rooms. -/
  rooms_full : ∀ k name what,
    q.Returned k (.createRoom name) (.error (.capExceeded what)) →
      (∃ before after, StoreTook caps db ls q k (.createRoom name) 1 before after ∧
        caps.rooms.toNat ≤ before.rooms.length ∧
          ∀ row ∈ before.rooms, ¬ NoCase row.name name) ∧
        ∀ n before after, StoreTook caps db ls q k (.createRoom name) n before after →
          after = before
  /-- Each call that has returned is the call carried out at once, at one of its steps. -/
  atomic : ∀ k op a, op.Creating → q.Returned k op a →
    ∃ n before after, StoreTook caps db ls q k op n before after ∧
      AtOnce caps op before a after

section Runs

variable {caps : Caps} {db : Db} (valid : db.Valid) {ls : List (Label StoreOp Moment)}
  (works : ∀ l ∈ ls, Pool.Admitted (capsContract caps) l) {q : StorePool}
  (ran : run (StorePool.step caps) (Pool.idle db) ls = some q)
include valid works ran

/-- Every call that creates something has its linearization point. -/
theorem creating_point {k : ℕ} {op : StoreOp} {a : Except StoreError StoreReply}
    (ret : q.Returned k op a) (creating : op.Creating) :
    ∃ n before after, StoreTook caps db ls q k op n before after ∧
      CreatesAt caps op n before a after ∧
        ∀ m b c, StoreTook caps db ls q k op m b c → (b = before ∧ c = after) ∨ c = b := by
  have linearizes : (op.query caps).run.Linearizes (capsContract caps) (CreatesAt caps op) 0 := by
    cases op with
    | insertUser username pwHash => exact insertUser_linearizes caps username pwHash
    | createRoom name => exact createRoom_linearizes caps name
    | _ => cases creating
  exact Pool.linearization_point (StoreOp.meets_caps caps) valid linearizes works ran
    ret

/-- The tables at a step of a call. -/
theorem StoreTook.sound {k : ℕ} {op : StoreOp} {n : ℕ} {before after : Db}
    (took : StoreTook caps db ls q k op n before after) : before.Valid :=
  (Pool.Took.sound (StoreOp.meets_caps caps) valid works ran took).1

omit ran in
/-- The steps of two calls come one after the other, and rows are only added in between. -/
theorem StoreTook.ordered {j k : ℕ} (differ : j ≠ k) {op op' : StoreOp} {n m : ℕ}
    {before after before' after' : Db} (hj : StoreTook caps db ls q j op n before after)
    (hk : StoreTook caps db ls q k op' m before' after') :
    after.Extends before' ∨ after'.Extends before :=
  (Pool.Took.ordered (StoreOp.meets_caps caps) valid works differ hj hk).imp
    (fun rel => rel.1) fun rel => rel.1

theorem one_account {j k : ℕ} {name name' hash hash' : String}
    (hj : q.Returned j (.insertUser name hash) (.ok (.registration .created)))
    (hk : q.Returned k (.insertUser name' hash') (.ok (.registration .created)))
    (same : NoCase name name') : j = k := by
  by_contra differ
  obtain ⟨n, before, after, took, ⟨point, -⟩, -⟩ := creating_point valid works ran hj trivial
  obtain ⟨n', before', after', took', ⟨point', -⟩, -⟩ := creating_point valid works ran hk trivial
  obtain ⟨new, row, mem, rfl⟩ := point.registered (took.sound valid works ran)
  obtain ⟨new', row', mem', rfl⟩ := point'.registered (took'.sound valid works ran)
  rcases StoreTook.ordered valid works differ took took' with grows | grows
  · exact new' row (grows.user mem) same
  · exact new row' (grows.user mem') same.symm

theorem one_room {j k : ℕ} {name name' : String} {room room' : Room}
    (hj : q.Returned j (.createRoom name) (.ok (.creation (.created room))))
    (hk : q.Returned k (.createRoom name') (.ok (.creation (.created room'))))
    (same : NoCase name name') : j = k := by
  by_contra differ
  obtain ⟨n, before, after, took, ⟨point, -⟩, -⟩ := creating_point valid works ran hj trivial
  obtain ⟨n', before', after', took', ⟨point', -⟩, -⟩ := creating_point valid works ran hk trivial
  obtain ⟨new, row, mem, rfl⟩ := point.created (took.sound valid works ran)
  obtain ⟨new', row', mem', rfl⟩ := point'.created (took'.sound valid works ran)
  rcases StoreTook.ordered valid works differ took took' with grows | grows
  · exact new' row (grows.room mem) same
  · exact new row' (grows.room mem') same.symm

/-- The pool is sound, so what a call has found out about a room still holds. -/
theorem returned_named {k : ℕ} {name : String} {creation : RoomCreation}
    (ret : q.Returned k (.createRoom name) (.ok (.creation creation))) :
    ∃ row ∈ q.state.rooms, NoCase row.name name ∧ (creation.room.id.get : ℤ) = row.id := by
  have sound := Pool.run_sound (StoreOp.meets_caps caps) works ran
    (Pool.sound_idle valid)
  obtain ⟨s₀, rel, row, mem, named, -, id⟩ := sound.returned ret
  exact ⟨row, rel.1.room mem, named, id⟩

/-- Two calls that return rooms of one name return the same room. -/
theorem same_room {j k : ℕ} {name name' : String} {creation creation' : RoomCreation}
    (hj : q.Returned j (.createRoom name) (.ok (.creation creation)))
    (hk : q.Returned k (.createRoom name') (.ok (.creation creation')))
    (same : NoCase name name') : creation.room.id = creation'.room.id := by
  have sound := Pool.run_sound (StoreOp.meets_caps caps) works ran (Pool.sound_idle valid)
  obtain ⟨row, mem, named, id⟩ := returned_named valid works ran hj
  obtain ⟨row', mem', named', id'⟩ := returned_named valid works ran hk
  have one : row = row' :=
    sound.inv.room_unique mem mem' (named.trans (same.trans named'.symm))
  have ids : creation.room.id.get = creation'.room.id.get := by
    rw [one] at id
    omega
  cases a : creation.room.id
  cases b : creation'.room.id
  rw [a, b] at ids
  exact congrArg RoomId.mk ids

/-- **A call that a cap refuses** is refused by the tables as they were at its insert, and writes
nothing at any of its steps. -/
theorem refused_at_insert {k : ℕ} {op : StoreOp} {what : String}
    (ret : q.Returned k op (.error (.capExceeded what))) (creating : op.Creating)
    (keeps : ∀ s t : Db, s.Valid → AtOnce caps op s (.error (.capExceeded what)) t → t = s) :
    (∃ before : Db, before.Valid ∧ AtOnce caps op before (.error (.capExceeded what)) before ∧
        StoreTook caps db ls q k op 1 before before) ∧
      ∀ n before after, StoreTook caps db ls q k op n before after → after = before := by
  obtain ⟨n, before, after, took, ⟨point, which⟩, silent⟩ :=
    creating_point valid works ran ret creating
  have sound := took.sound valid works ran
  obtain rfl := keeps before after sound point
  -- only a clock that does not fit its column refuses before the insert
  have second : n = 1 := by
    rcases which with second | ⟨value, other⟩
    · exact second
    · cases other
  subst second
  refine ⟨⟨_, sound, point, took⟩, fun m b c took' => ?_⟩
  rcases silent m b c took' with ⟨rfl, rfl⟩ | same
  · rfl
  · exact same

theorem creationsAgree : CreationsAgree caps db ls q := by
  have meets := StoreOp.meets_caps caps
  have sound := Pool.run_sound meets works ran (Pool.sound_idle valid)
  have rel := Pool.run_sound_rel meets (Pool.sound_idle valid) works ran
  refine ⟨rel.2.1, rel.2.2, sound.inv.users, sound.inv.rooms, ?_, ?_, ?_, ?_, ?_, ?_⟩
  · exact fun j k name name' hash hash' hj hk => one_account valid works ran hj hk
  · exact fun j k name name' room room' hj hk => one_room valid works ran hj hk
  · exact fun j k name name' creation creation' hj hk => same_room valid works ran hj hk
  · intro k name hash what ret
    obtain ⟨⟨before, sound, point, took⟩, silent⟩ := refused_at_insert valid works ran ret trivial
      fun s t valid point => (point.accounts_full valid).2.2
    obtain ⟨full, absent, -⟩ := point.accounts_full sound
    exact ⟨⟨before, before, took, full, absent⟩, silent⟩
  · intro k name what ret
    obtain ⟨⟨before, sound, point, took⟩, silent⟩ := refused_at_insert valid works ran ret trivial
      fun s t valid point => (point.rooms_full valid).2.2
    obtain ⟨full, absent, -⟩ := point.rooms_full sound
    exact ⟨⟨before, before, took, full, absent⟩, silent⟩
  · intro k op a creating ret
    obtain ⟨n, before, after, took, ⟨point, -⟩, -⟩ := creating_point valid works ran ret creating
    exact ⟨n, before, after, took, point⟩

end Runs

/-- **Concurrent creations linearize and respect the caps**, on every store that can be
opened and under every interleaving of the statements of any calls, while the database does
not fail. -/
theorem creations_linearize {file : Option DbFile} (stored : Stored file) {ω : ℕ → Moment}
    {db : Db} (opens : SqliteStore.new.run.exec ω file = (.ok (), opened db)) {caps : Caps}
    {ls : List (Label StoreOp Moment)} (works : ∀ k m, .advance k m ∈ ls → m.fails = false)
    {q : StorePool} (ran : run (StorePool.step caps) (Pool.idle db) ls = some q) :
    CreationsAgree caps db ls q := by
  have valid : db.Valid := by
    have := (Stored.opening ω stored).valid.2
    rw [opens] at this
    exact this
  refine creationsAgree valid (fun l mem => ?_) ran
  cases l with
  | spawn op => exact trivial
  | advance k m => exact works k m mem

/-- Two calls race for one name below a cap of two rooms: both look after both have run
their inserts. -/
theorem creations_linearize_race :
    CreationsAgree ⟨1, 2⟩ ⟨[], [⟨1, LOBBY, 0⟩], []⟩
      [.spawn (.createRoom "tea"), .spawn (.createRoom "TEA"), .advance 0 {}, .advance 1 {},
        .advance 1 {}, .advance 0 {}, .advance 0 {}, .advance 1 {}]
      ⟨⟨[], [⟨1, LOBBY, 0⟩, ⟨2, "TEA", 0⟩], []⟩,
        [⟨.createRoom "tea", 3, .ret (.ok (.creation (.existing ⟨⟨2⟩, "TEA", ⟨0⟩⟩)))⟩,
          ⟨.createRoom "TEA", 3, .ret (.ok (.creation (.created ⟨⟨2⟩, "TEA", ⟨0⟩⟩)))⟩]⟩ :=
  creations_linearize .absent (ω := fun _ => {}) rfl
    (by
      intro k m mem
      simp only [List.mem_cons, Label.advance.injEq, reduceCtorEq, List.not_mem_nil] at mem
      grind)
    rfl

end ScionChat
