import ScionChat.Server.Store.Linearizable

/-!
# What one call can rely on from the calls before it

Calls on one store interleave statement by statement and may fail.  When one call had been answered
before another one started, the later one still sees what the earlier one has written, and at least
what the earlier one has seen:

* a page, and the list of rooms, show a post that was acknowledged before;
* a page is cut from a log that continues the log of every page answered before it, and a list of
  rooms continues every list answered before it;
* posts acknowledged one after the other have landed in that order;
* a room stays listed under its id and name, and a registered account keeps its hash.

All of it is read off the history of the run (`StoreHistory`): what each call
answers says something about the tables it was carried out on, and those tables only grow.

### design decisions

* **Earlier means answered before started.**  `SeesEarlier` compares two states of one run.  The
  calls answered in the first are the earlier ones; those that the first has not started, and that
  are answered in the second, are the later.  Nothing is said of calls that overlap.
* **From answers, not from tables.**  A caller has nothing but what it was told.  So each clause
  speaks of two answers, and the tables they were read off do not occur in it.

### What is load-bearing

Real time: in the history of a run, a call that was answered before another one started comes
first.  `calls_in_order` uses it once, and every clause of `SeesEarlier` is a case of it.
-/

namespace ScionChat

open Interleaving TransitionSystem Column Sql

/-! ### The tables as they grow -/

theorem maxSeq_le {db : Db} {id : ℤ} {row : MessageRow} (mem : row ∈ db.messages)
    (home : row.roomId = id) : row.seq ≤ maxSeq db id := by
  have here : row.seq ∈ (db.messages.filter fun row => row.roomId = id).map MessageRow.seq :=
    List.mem_map_of_mem (List.mem_filter.mpr ⟨mem, decide_eq_true home⟩)
  cases newest : ((db.messages.filter fun row => row.roomId = id).map MessageRow.seq).max? with
  | none =>
      rw [List.max?_eq_none_iff] at newest
      rw [newest] at here
      cases here
  | some top =>
      have largest := (List.max?_eq_some_iff.mp newest).2 _ here
      simpa [maxSeq, newest] using largest

theorem maxSeq_mono {s t : Db} (valid : t.Valid) (grows : s.Extends t) (id : ℤ) :
    maxSeq s id ≤ maxSeq t id := by
  cases newest : ((s.messages.filter fun row => row.roomId = id).map MessageRow.seq).max? with
  | none =>
      have start : maxSeq s id = 0 := by simp [maxSeq, newest]
      rw [start]
      exact maxSeq_nonneg valid id
  | some top =>
      obtain ⟨row, here, rfl⟩ := List.mem_map.mp (List.max?_mem newest)
      obtain ⟨mem, home⟩ := List.mem_filter.mp here
      have attained : maxSeq s id = row.seq := by simp [maxSeq, newest]
      rw [attained]
      exact maxSeq_le (grows.message mem) (of_decide_eq_true home)

namespace Db

/-- A room's latest position only rises. -/
theorem latestSeq_mono {s t : Db} (valid : t.Valid) (grows : s.Extends t) (row : RoomRow) :
    s.latestSeq row ≤ t.latestSeq row := by
  rw [latestSeq, latestSeq, Seq.mk_le_mk]
  exact Int.toNat_le_toNat (maxSeq_mono valid grows row.id)

/-- The latest position of a room is past every message of its log. -/
theorem log_le_latestSeq {db : Db} {row : RoomRow} {room : RoomId} (here : row.id = room.get)
    {message : Message} (mem : message ∈ db.log room) : message.seq ≤ db.latestSeq row := by
  obtain ⟨stored, mem_rows, rfl⟩ := List.mem_map.mp mem
  obtain ⟨mem_messages, home⟩ := List.mem_filter.mp mem_rows
  have bound := maxSeq_le mem_messages ((of_decide_eq_true home).trans here.symm)
  rw [latestSeq, MessageRow.message, Seq.mk_le_mk]
  exact Int.toNat_le_toNat bound

/-- A later list of rooms continues an earlier one: the same ids and names in the same order,
at positions that have only risen, and new rooms behind. -/
def Continues (old new : List Room) : Prop :=
  ∃ same more, new = same ++ more ∧
    List.Forall₂ (fun r r' => r.id = r'.id ∧ r.name = r'.name ∧ r.latestSeq ≤ r'.latestSeq) old
      same

theorem roomList_continues {s t : Db} (valid : t.Valid) (grows : s.Extends t) :
    Continues s.roomList t.roomList := by
  obtain ⟨more, eq⟩ := grows.rooms
  refine ⟨s.rooms.map t.room, more.map t.room, ?_, ?_⟩
  · rw [roomList, ← eq, List.map_append]
  · rw [roomList, List.forall₂_map_left_iff, List.forall₂_map_right_iff]
    exact List.forall₂_same.mpr fun row _ => ⟨rfl, rfl, latestSeq_mono valid grows row⟩

/-- A lookup by name finds the one account of that name. -/
theorem selectPwHash_of_mem {db : Db} (valid : db.Valid) {row : UserRow} (mem : row ∈ db.users)
    {username : String} (same : NoCase row.username username) :
    selectPwHash username db = some row.pwHash := by
  cases found : db.users.find? fun row => NoCase row.username username with
  | none => exact absurd (decide_eq_true same) (List.find?_eq_none.mp found row mem)
  | some first =>
      have first_same : NoCase first.username username := by simpa using List.find?_some found
      have one : first = row :=
        valid.user_unique (List.mem_of_find?_eq_some found) mem (first_same.trans same.symm)
      simp [selectPwHash, found, one]

end Db

/-! ### What an answer says about the tables -/

namespace CarriedOut

variable {caps : Caps} {s t : Db}

/-- A call carried out at once keeps the tables valid, and only adds to them. -/
theorem grows {op : StoreOp} {a : Except StoreError StoreReply} (valid : s.Valid)
    (h : CarriedOut caps op s a t) : t.Valid ∧ s.Extends t := by
  obtain ⟨ω, a', ran, -⟩ := h
  have effect := op.effect caps valid ω
  rw [ran] at effect
  exact ⟨effect.valid, effect.extends_⟩

/-- What a query has answered, when its answer is not about a room just created. -/
private theorem ran {op : StoreOp} {α : Type} {x : Query α} {f : α → StoreReply}
    (dispatch : op.query caps = f <$> x) (plain : ∀ b, (f b).forgetFresh = f b)
    (injective : ∀ b b', f b = f b' → b = b') {b : α} (h : CarriedOut caps op s (.ok (f b)) t) :
    ∃ ω, x.run.exec ω s = (.ok b, t) := by
  obtain ⟨ω, a', ran, same⟩ := h
  rw [dispatch, exec_map_run] at ran
  obtain ⟨rfl, rfl⟩ := Prod.mk.inj ran
  refine ⟨ω, Prod.ext ?_ rfl⟩
  cases result : (x.run.exec ω s).1 with
  | error e =>
      rw [result] at same
      cases same
  | ok b' =>
      rw [result] at same
      have tagged : f b = f b' := by
        have := Except.ok.inj same
        rwa [plain, plain] at this
      exact congrArg Except.ok (injective b b' tagged).symm

/-- A page is the page of the log. -/
theorem page (valid : s.Valid) {q : PageQuery} {room : RoomId} {messages : List Message}
    (h : CarriedOut caps (q.op room) s (.ok (.page messages)) t) :
    messages = q.page (s.log room) := by
  have dispatch : (q.op room).query caps = StoreReply.page <$> q.query room := by
    cases q <;> rfl
  obtain ⟨ω, ran⟩ := h.ran dispatch (fun _ => rfl) fun _ _ => StoreReply.page.inj
  have meets := q.meets room (fun _ => True) s
  rcases meets.exec_last (fun _ _ h => h.1) (fun _ => trivial) valid (ω := ω) with
    ⟨ends, -⟩ | ⟨-, saw⟩
  · rw [ran] at ends
    rcases q.run_cases room with ⟨-, -, run⟩ | ⟨-, e, run⟩ <;>
      · rw [run] at ends
        cases ends
  · exact saw messages (by rw [ran])

/-- A list of rooms is the table of rooms. -/
theorem rooms (valid : s.Valid) {list : List Room}
    (h : CarriedOut caps .listRooms s (.ok (.rooms list)) t) : list = s.roomList := by
  obtain ⟨ω, ran⟩ := h.ran rfl (fun _ => rfl) fun _ _ => StoreReply.rooms.inj
  have meets := listRooms_meets (fun _ => True) s
  rcases meets.exec_last (fun _ _ h => h.1) (fun _ => trivial) valid (ω := ω) with
    ⟨ends, -⟩ | ⟨-, saw⟩
  · rw [listRooms_run] at ends
    cases ends
  · exact saw list (by rw [ran])

/-- A hash that is found is the one of the account. -/
theorem hash {username : String} {stored : Option String}
    (h : CarriedOut caps (.passwordHash username) s (.ok (.hash stored)) t) :
    stored = selectPwHash username s := by
  obtain ⟨ω, ran⟩ := h.ran rfl (fun _ => rfl) fun _ _ => StoreReply.hash.inj
  rw [passwordHash, run_fetch, Prog.exec_step, Prog.exec_ret] at ran
  exact (fetched_eq_ok (Prod.mk.inj ran).1).2

/-- An account that was registered is there. -/
theorem registered (valid : s.Valid) {username pwHash : String}
    (h : CarriedOut caps (.insertUser username pwHash) s (.ok (.registration .created)) t) :
    ∃ row ∈ t.users, row.username = username ∧ row.pwHash = pwHash := by
  obtain ⟨ω, ran⟩ := h.ran rfl (fun _ => rfl) fun _ _ => StoreReply.registration.inj
  have meets := insertUser_meets username pwHash caps.accounts (fun _ => True) s
  have ends := (meets.exec (fun _ => trivial) valid (ω := ω)).2.2
  rw [ran] at ends
  exact ends

/-- A post that was acknowledged is there, at the next position. -/
theorem posted (valid : s.Valid) {room : RoomId} {username body : String}
    {landed : PostMessageResponse}
    (h : CarriedOut caps (.postMessage room username body) s (.ok (.posted landed)) t) :
    (∃ row ∈ s.rooms, row.id = room.get) ∧ landed.seq.get = s.messages.length + 1 ∧
      t.messages.length = s.messages.length + 1 ∧
      ⟨landed.seq, username, body, landed.postedAt⟩ ∈ t.log room := by
  obtain ⟨ω, ran⟩ := h.ran rfl (fun _ => rfl) fun _ _ => StoreReply.posted.inj
  rcases ran ▸ postMessage_exec valid ω room username body with
    ⟨-, other⟩ | ⟨postedAt, home, there, appended⟩
  · exact absurd rfl (other landed)
  · obtain rfl := Except.ok.inj (Option.some.inj there)
    refine ⟨home, rfl, ?_, ?_⟩
    · simp only at appended
      rw [appended, List.length_append, List.length_singleton]
    · simp only at appended
      have last : (⟨s.messages.length + 1, room.get, username, body, postedAt⟩ : MessageRow)
          ∈ t.logRows room := by
        rw [appended, Db.logRows]
        refine List.mem_filter.mpr ⟨List.mem_append_right _ (List.mem_singleton_self _), ?_⟩
        exact decide_eq_true rfl
      exact List.mem_map.mpr ⟨_, last, rfl⟩

/-- The room a creation answers with is there under its name. -/
theorem creation (valid : s.Valid) {name : String} {creation : RoomCreation}
    (h : CarriedOut caps (.createRoom name) s (.ok (.creation creation)) t) :
    ∃ row ∈ t.rooms, NoCase row.name name ∧ creation.room.name = row.name ∧
      (creation.room.id.get : ℤ) = row.id := by
  obtain ⟨ω, a', ran, same⟩ := h
  rw [StoreOp.query, exec_map_run] at ran
  obtain ⟨rfl, rfl⟩ := Prod.mk.inj ran
  have meets := createRoom_meets name caps.rooms (fun _ => True) s
  have ends := (meets.exec (fun _ => trivial) valid (ω := ω)).2.2
  cases result : ((createRoom name caps.rooms).run.exec ω s).1 with
  | error e =>
      rw [result] at same
      cases same
  | ok answered =>
      rw [result] at same ends
      obtain ⟨row, mem, named, as_named, id⟩ := ends
      -- forgetting the latest position changes neither the name nor the id
      have forgotten : creation.forgetFresh = answered.forgetFresh :=
        StoreReply.creation.inj (Except.ok.inj same)
      have ids := congrArg (fun outcome : RoomCreation => outcome.room.id) forgotten
      have names := congrArg (fun outcome : RoomCreation => outcome.room.name) forgotten
      simp only [RoomCreation.forgetFresh_id, RoomCreation.forgetFresh_name] at ids names
      exact ⟨row, mem, named, names ▸ as_named, ids ▸ id⟩

section InOrder

variable {s' t' : Db} (valid : s.Valid) (between : t.Extends s') (valid' : s'.Valid)
include valid between valid'

/-- A post after a post lands behind it. -/
theorem posted_posted {room room' : RoomId} {username username' body body' : String}
    {landed landed' : PostMessageResponse}
    (post : CarriedOut caps (.postMessage room username body) s (.ok (.posted landed)) t)
    (post' : CarriedOut caps (.postMessage room' username' body') s' (.ok (.posted landed')) t') :
    landed.seq < landed'.seq := by
  obtain ⟨-, next, length, -⟩ := post.posted valid
  obtain ⟨-, next', -, -⟩ := post'.posted valid'
  have longer := between.messages.length_le
  rw [Seq.lt_iff]
  omega

/-- A list of rooms after a post shows its room at least as far as the post. -/
theorem posted_listed {room : RoomId} {username body : String} {landed : PostMessageResponse}
    {rooms : List Room}
    (post : CarriedOut caps (.postMessage room username body) s (.ok (.posted landed)) t)
    (list : CarriedOut caps .listRooms s' (.ok (.rooms rooms)) t') :
    ∃ r ∈ rooms, r.id = room ∧ landed.seq ≤ r.latestSeq := by
  obtain ⟨⟨row, mem, home⟩, -, -, there⟩ := post.posted valid
  have mem' : row ∈ s'.rooms := between.room ((post.grows valid).2.room mem)
  have there' := (Db.log_grows between room).subset there
  rw [list.rooms valid']
  refine ⟨s'.room row, List.mem_map_of_mem mem', ?_, Db.log_le_latestSeq home there'⟩
  rw [Db.room, home, Int.toNat_natCast]

/-- A list of rooms after a creation has the room. -/
theorem created_listed {name : String} {creation : RoomCreation} {rooms : List Room}
    (create : CarriedOut caps (.createRoom name) s (.ok (.creation creation)) t)
    (list : CarriedOut caps .listRooms s' (.ok (.rooms rooms)) t') :
    ∃ r ∈ rooms, r.id = creation.room.id ∧ r.name = creation.room.name ∧ NoCase r.name name := by
  obtain ⟨row, mem, named, as_named, id⟩ := create.creation valid
  rw [list.rooms valid']
  refine ⟨s'.room row, List.mem_map_of_mem (between.room mem), ?_, as_named.symm, named⟩
  rw [Db.room, ← id, Int.toNat_natCast]

/-- A list of rooms after a list continues it. -/
theorem listed_listed {rooms rooms' : List Room}
    (list : CarriedOut caps .listRooms s (.ok (.rooms rooms)) t)
    (list' : CarriedOut caps .listRooms s' (.ok (.rooms rooms')) t') :
    Db.Continues rooms rooms' := by
  rw [list.rooms valid, list'.rooms valid']
  exact Db.roomList_continues valid' ((list.grows valid).2.trans between)

/-- What is looked up after a registration is the hash that was registered, however the name is
spelled. -/
theorem registered_found {username username' pwHash : String} {found : Option String}
    (same : NoCase username username')
    (register : CarriedOut caps (.insertUser username pwHash) s
      (.ok (.registration .created)) t)
    (look : CarriedOut caps (.passwordHash username') s' (.ok (.hash found)) t') :
    found = some pwHash := by
  obtain ⟨row, mem, rfl, rfl⟩ := register.registered valid
  rw [look.hash]
  exact Db.selectPwHash_of_mem valid' (between.user mem) same

end InOrder

end CarriedOut

/-! ### From one call to a later one -/

/-- **What a call that starts later can rely on.**  The calls answered in `mid` are the earlier
ones; those that `mid` has not started yet, and that have been answered in `q`, the later. -/
structure SeesEarlier (mid q : StorePool) : Prop where
  /-- A page after a post is cut from a log that has the post. -/
  posted_paged : ∀ j k room username body landed (pageQuery : PageQuery) page,
    mid.Returned k (.postMessage room username body) (.ok (.posted landed)) →
      mid.threads.length ≤ j → q.Returned j (pageQuery.op room) (.ok (.page page)) →
        ∃ log, ⟨landed.seq, username, body, landed.postedAt⟩ ∈ log ∧
          log <+: q.state.log room ∧ page = pageQuery.page log
  /-- A page after a page is cut from a log that continues the first one's. -/
  paged_paged : ∀ j k room (pageQuery pageQuery' : PageQuery) page page',
    mid.Returned k (pageQuery.op room) (.ok (.page page)) → mid.threads.length ≤ j →
      q.Returned j (pageQuery'.op room) (.ok (.page page')) →
        ∃ log log', page = pageQuery.page log ∧ log <+: log' ∧ page' = pageQuery'.page log' ∧
          log' <+: q.state.log room
  /-- A post after a post lands behind it, in whichever rooms the two are. -/
  posted_posted : ∀ j k room room' username username' body body' landed landed',
    mid.Returned k (.postMessage room username body) (.ok (.posted landed)) →
      mid.threads.length ≤ j →
        q.Returned j (.postMessage room' username' body') (.ok (.posted landed')) →
          landed.seq < landed'.seq
  /-- A list of rooms after a post shows its room at least as far as the post. -/
  posted_listed : ∀ j k room username body landed rooms,
    mid.Returned k (.postMessage room username body) (.ok (.posted landed)) →
      mid.threads.length ≤ j → q.Returned j .listRooms (.ok (.rooms rooms)) →
        ∃ r ∈ rooms, r.id = room ∧ landed.seq ≤ r.latestSeq
  /-- A list of rooms after a creation has the room. -/
  created_listed : ∀ j k name creation rooms,
    mid.Returned k (.createRoom name) (.ok (.creation creation)) → mid.threads.length ≤ j →
      q.Returned j .listRooms (.ok (.rooms rooms)) →
        ∃ r ∈ rooms, r.id = creation.room.id ∧ r.name = creation.room.name ∧ NoCase r.name name
  /-- A list of rooms after a list continues it. -/
  listed_listed : ∀ j k rooms rooms', mid.Returned k .listRooms (.ok (.rooms rooms)) →
    mid.threads.length ≤ j → q.Returned j .listRooms (.ok (.rooms rooms')) →
      Db.Continues rooms rooms'
  /-- A login after a registration finds the hash that was registered, however the name is
  spelled. -/
  registered_found : ∀ j k username username' pwHash found,
    mid.Returned k (.insertUser username pwHash) (.ok (.registration .created)) →
      mid.threads.length ≤ j → NoCase username username' →
        q.Returned j (.passwordHash username') (.ok (.hash found)) → found = some pwHash

section

variable {caps : Caps} {db : Db} {early late : List (Label StoreOp Moment)} {mid q : StorePool}
  {history : List (Entry StoreOp Db)}

/-- **Two calls, one after the other**, were carried out on tables of which the second continue
the first. -/
theorem calls_in_order (valid : db.Valid)
    (lin : StoreHistory caps db (early ++ late) q history)
    (first : run (StorePool.step caps) (Pool.idle db) early = some mid)
    (rest : run (StorePool.step caps) mid late = some q) {j k : ℕ} {op op' : StoreOp}
    {a a' : Except StoreError StoreReply} (ret : mid.Returned k op a)
    (unstarted : mid.threads.length ≤ j) (ret' : q.Returned j op' a') :
    ∃ s t s' t', s.Valid ∧ CarriedOut caps op s a t ∧ t.Valid ∧ t.Extends s' ∧ s'.Valid ∧
      CarriedOut caps op' s' a' t' ∧ s'.Extends q.state := by
  obtain ⟨s, t, s', t', valid_s, at_once, between, valid_s', at_once', onward⟩ :=
    lin.in_order (P := Db.Valid) (R := Db.Extends) Db.Extends.refl
      (fun _ _ _ => Db.Extends.trans) (fun _ _ _ _ valid h => h.grows valid) valid rfl first rest
      ret unstarted ret'
  exact ⟨s, t, s', t', valid_s, at_once, (at_once.grows valid_s).1, between, valid_s', at_once',
    (at_once'.grows valid_s').2.trans onward⟩

theorem seesEarlier (valid : db.Valid) (lin : StoreHistory caps db (early ++ late) q history)
    (first : run (StorePool.step caps) (Pool.idle db) early = some mid)
    (rest : run (StorePool.step caps) mid late = some q) : SeesEarlier mid q where
  posted_paged := by
    intro j k room username body landed pageQuery page ret unstarted ret'
    obtain ⟨s, t, s', t', valid_s, post, valid_t, grows, valid_s', read, onward⟩ :=
      calls_in_order valid lin first rest ret unstarted ret'
    obtain ⟨-, -, -, there⟩ := post.posted valid_s
    exact ⟨s'.log room, (Db.log_grows grows room).subset there, Db.log_grows onward room,
      read.page valid_s'⟩
  paged_paged := by
    intro j k room pageQuery pageQuery' page page' ret unstarted ret'
    obtain ⟨s, t, s', t', valid_s, read, valid_t, grows, valid_s', read', onward⟩ :=
      calls_in_order valid lin first rest ret unstarted ret'
    have log_grows := Db.log_grows ((read.grows valid_s).2.trans grows) room
    exact ⟨s.log room, s'.log room, read.page valid_s, log_grows, read'.page valid_s',
      Db.log_grows onward room⟩
  posted_posted := by
    intro j k room room' username username' body body' landed landed' ret unstarted ret'
    obtain ⟨s, t, s', t', valid_s, post, valid_t, grows, valid_s', post', onward⟩ :=
      calls_in_order valid lin first rest ret unstarted ret'
    exact CarriedOut.posted_posted valid_s grows valid_s' post post'
  posted_listed := by
    intro j k room username body landed rooms ret unstarted ret'
    obtain ⟨s, t, s', t', valid_s, post, valid_t, grows, valid_s', list, onward⟩ :=
      calls_in_order valid lin first rest ret unstarted ret'
    exact CarriedOut.posted_listed valid_s grows valid_s' post list
  created_listed := by
    intro j k name creation rooms ret unstarted ret'
    obtain ⟨s, t, s', t', valid_s, create, valid_t, grows, valid_s', list, onward⟩ :=
      calls_in_order valid lin first rest ret unstarted ret'
    exact CarriedOut.created_listed valid_s grows valid_s' create list
  listed_listed := by
    intro j k rooms rooms' ret unstarted ret'
    obtain ⟨s, t, s', t', valid_s, list, valid_t, grows, valid_s', list', onward⟩ :=
      calls_in_order valid lin first rest ret unstarted ret'
    exact CarriedOut.listed_listed valid_s grows valid_s' list list'
  registered_found := by
    intro j k username username' pwHash found ret unstarted same ret'
    obtain ⟨s, t, s', t', valid_s, register, valid_t, grows, valid_s', look, onward⟩ :=
      calls_in_order valid lin first rest ret unstarted ret'
    exact CarriedOut.registered_found valid_s grows valid_s' same register look

end

/-- **Calls see what was answered before they started**, on every store that can be opened,
under every interleaving of the statements of any calls and whichever of them fail. -/
theorem later_calls_see_earlier {file : Option DbFile} (stored : Stored file) {ω : ℕ → Moment}
    {db : Db} (opens : SqliteStore.new.run.exec ω file = (.ok (), opened db)) {caps : Caps}
    {early late : List (Label StoreOp Moment)} {mid q : StorePool}
    (first : run (StorePool.step caps) (Pool.idle db) early = some mid)
    (rest : run (StorePool.step caps) mid late = some q) : SeesEarlier mid q := by
  have valid : db.Valid := by
    have := (Stored.opening ω stored).valid.2
    rw [opens] at this
    exact this
  have whole : run (StorePool.step caps) (Pool.idle db) (early ++ late) = some q := by
    rw [run_append, first]
    exact rest
  obtain ⟨history, lin⟩ := linearizable_of_valid valid whole
  exact seesEarlier valid lin first rest

/-- A post to the lobby is acknowledged while another one is still under way, and then a page
is read that the other one overtakes. -/
theorem later_calls_see_earlier_overtaken :
    SeesEarlier
      ⟨⟨[], [⟨1, LOBBY, 0⟩], [⟨1, 1, "alice", "hi", 0⟩]⟩,
        [⟨.postMessage ⟨1⟩ "alice" "hi", 2, .ret (.ok (.posted ⟨⟨1⟩, ⟨0⟩⟩))⟩]⟩
      ⟨⟨[], [⟨1, LOBBY, 0⟩], [⟨1, 1, "alice", "hi", 0⟩, ⟨2, 1, "bob", "ho", 0⟩]⟩,
        [⟨.postMessage ⟨1⟩ "alice" "hi", 2, .ret (.ok (.posted ⟨⟨1⟩, ⟨0⟩⟩))⟩,
          ⟨.postMessage ⟨1⟩ "bob" "ho", 2, .ret (.ok (.posted ⟨⟨2⟩, ⟨0⟩⟩))⟩,
          ⟨.messagesNewest ⟨1⟩ 5, 1, .ret (.ok (.page [⟨⟨1⟩, "alice", "hi", ⟨0⟩⟩]))⟩]⟩ :=
  @later_calls_see_earlier _ .absent (fun _ => {}) _ rfl ⟨1, 1⟩
    [.spawn (.postMessage ⟨1⟩ "alice" "hi"), .advance 0 {}, .advance 0 {}]
    [.spawn (.postMessage ⟨1⟩ "bob" "ho"), .advance 1 {}, .spawn (.messagesNewest ⟨1⟩ 5),
      .advance 2 {}, .advance 1 {}]
    _ _ rfl rfl

end ScionChat
