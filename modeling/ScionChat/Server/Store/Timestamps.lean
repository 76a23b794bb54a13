import ScionChat.Lib.Observed
import ScionChat.Server.Store.Concurrent

/-!
# When messages were posted

`postMessage` reads the clock in one step and runs its `INSERT`, which gives the message its
position, in another.  Between the two it waits for the database, and any other call may run.  So
positions follow the order of the inserts and timestamps the order of the readings, and the two
agree in every state of a run if and only if no post that stores its message has been *overtaken*:
by one that read the clock after it, at a later millisecond, and has stored its own message already
(`timestamps_follow_iff`).

The argument has two halves.  One step of the store writes a message exactly when it is the turn of
a post that has read the clock, and the message carries what it read (`store_step`).  And so every
message of a reached state is one that a call has posted, with its reading (`Stamped`).

### design decisions

* **The clock is honest.**  `Forward` has it never go back, during the run and since the messages
  that were there before.  Timestamps out of order are then the server's own doing.
* **Overtaken is about steps.**  `Overtakes` speaks of when two calls have read the clock and of
  whether one has stored its message; what either was stored with does not occur in it, so that the
  equivalence says something.
* **In three readings.**  `TimesFollow` is over the whole table, over what a reader of any one room
  sees, and over the days of any calendar that follows the time.

### What is load-bearing

`read_first`: on a clock that never goes back, of two calls the one with the earlier reading has
read first.  It turns the numbers in the rows into the order of the steps, in both directions.
-/

namespace ScionChat

open Interleaving TransitionSystem Column Sql

/-- **Timestamps follow the message order**: over the whole table, in what a reader of any room
sees, and by days, however the days of a calendar follow the time. -/
structure TimesFollow (db : Db) : Prop where
  seqs : ∀ a ∈ db.messages, ∀ b ∈ db.messages, a.seq < b.seq → a.postedAt ≤ b.postedAt
  rooms : ∀ room, (db.log room).Pairwise fun a b => a.postedAt.get ≤ b.postedAt.get
  days : ∀ room (day : ℕ → ℤ), (∀ ⦃early late⦄, early ≤ late → day early ≤ day late) →
    ((db.log room).map fun message => day message.postedAt.get).Pairwise (· ≤ ·)

/-- The messages of valid tables are in the order of their positions. -/
theorem timesFollow_iff {db : Db} (valid : db.Valid) :
    TimesFollow db ↔ db.messages.Pairwise fun a b => a.postedAt ≤ b.postedAt := by
  constructor
  · intro follow
    exact valid.messages_ascending.imp_of_mem fun ha hb lt => follow.seqs _ ha _ hb lt
  · intro sorted
    have rooms : ∀ room, (db.log room).Pairwise fun a b => a.postedAt.get ≤ b.postedAt.get := by
      intro room
      refine List.pairwise_map.mpr ((sorted.filter _).imp fun {a b} le => ?_)
      exact Int.toNat_le_toNat le
    refine ⟨fun a ha b hb lt => ?_, rooms, fun room day mono => ?_⟩
    · -- of two messages, the one at the lower position stands first
      obtain ⟨i, hi, rfl⟩ := List.getElem_of_mem ha
      obtain ⟨j, hj, rfl⟩ := List.getElem_of_mem hb
      rcases lt_trichotomy i j with before | same | behind
      · exact List.pairwise_iff_getElem.mp sorted i j hi hj before
      · subst same
        exact le_refl _
      · have := List.pairwise_iff_getElem.mp valid.messages_ascending j i hj hi behind
        omega
    · exact List.pairwise_map.mpr ((rooms room).imp fun le => mono le)

/-! ### The clock -/

/-- What the clock reads at a step. -/
def clockAt : Label StoreOp Moment → Option ℕ
  | .spawn _ => none
  | .advance _ m => some m.now

/-- **The clock never goes backwards**, and has not since the messages of `db` were posted. -/
structure Forward (db : Db) (ls : List (Label StoreOp Moment)) : Prop where
  clock : (ls.filterMap clockAt).Pairwise (· ≤ ·)
  since : ∀ row ∈ db.messages, ∀ now ∈ ls.filterMap clockAt, row.postedAt ≤ now

theorem Forward.of_prefix {db : Db} {ms ls : List (Label StoreOp Moment)} (early : ms <+: ls)
    (forward : Forward db ls) : Forward db ms := by
  obtain ⟨rest, rfl⟩ := early
  refine ⟨?_, fun row mem now read => ?_⟩
  · have := forward.clock
    rw [List.filterMap_append] at this
    exact (List.pairwise_append.mp this).1
  · refine forward.since row mem now ?_
    rw [List.filterMap_append]
    exact List.mem_append_left _ read

variable (caps : Caps) (db : Db)

/-- What a call has met in a run over the tables `db`. -/
abbrev storeMet (ls : List (Label StoreOp Moment)) (k : ℕ) : List (Moment × Db) :=
  Pool.met (fun op => (StoreOp.query caps op).run) k (Pool.idle db) ls

/-- **When the `k`-th call that started has read the clock**, if it has: at its first step.  For a
post that is when it reads the clock, and of the other calls nothing is made of it. -/
def clockRead (ls : List (Label StoreOp Moment)) (k : ℕ) : Option ℕ :=
  (storeMet caps db ls k).head?.map fun pair => pair.1.now

/-- The `k`-th call is a post that has stored a message. -/
def HasPosted (p : StorePool) (k : ℕ) : Prop :=
  ∃ room username body there, p.Returned k (.postMessage room username body) (.ok (.posted there))

/-- The `j`-th call **has overtaken** the `k`-th one: it read the clock after it, at a later
millisecond, and has stored a message. -/
structure Overtakes (ls : List (Label StoreOp Moment)) (p : StorePool) (j k : ℕ) : Prop where
  after : ∃ es, es <+: ls ∧ (clockRead caps db es k).isSome ∧ clockRead caps db es j = none
  later : ∃ early late, clockRead caps db ls k = some early ∧
    clockRead caps db ls j = some late ∧ early < late
  stored : HasPosted p j

/-- The `k`-th call is a post that can store its message, at a moment at which the database
works: its room exists, and there are positions left. -/
structure Stores (p : StorePool) (k : ℕ) (m : Moment) : Prop where
  waits : ∃ room username body n update next,
    p.threads[k]? = some ⟨.postMessage room username body, n, .step update next⟩ ∧
      ∃ row ∈ p.state.rooms, row.id = room.get
  works : m.fails = false
  left : p.state.messages.length < i64Max

/-- No post that the next step lets store its message has been overtaken. -/
def InTurn (ls : List (Label StoreOp Moment)) (p : StorePool) (l : Label StoreOp Moment) : Prop :=
  ∀ k m, l = .advance k m → Stores p k m → ∀ j, ¬ Overtakes caps db ls p j k

/-! ### One step of the store -/

/-- What is left of a post that has read the clock at `now`. -/
def inserting (room : RoomId) (username body : String) (now : ℕ) :
    Prog Moment Db (Except StoreError PostMessageResponse) :=
  let sql := insertMessage room username body now
  .step (fun m db => (attempt sql m db).2) fun m db =>
    match (attempt sql m db).1 with
    | .error e => .ret (.error (postError room e))
    | .ok row => .ret (landed row)

/-- **What a post that is in progress has met, and what it does next**: it has met nothing yet
and looks at the clock, or it has read the clock and inserts its message. -/
theorem posting_cases {room : RoomId} {username body : String} {met : List (Moment × Db)}
    {update : Moment → Db → Db}
    {next : Moment → Db → Prog Moment Db (Except StoreError PostMessageResponse)}
    (h : (postMessage room username body).run.resume met = .step update next) :
    (met = [] ∧ (∀ m s, update m s = s) ∧
        ∀ m s there, (next m s).outcome ≠ some (.ok there)) ∨
      ∃ m s, met = [(m, s)] ∧ m.now ≤ i64Max ∧
        .step update next = inserting room username body m.now := by
  have posts := postMessage_run room username body
  rcases toColumn_cases "room id" room.get with ⟨-, column⟩ | ⟨-, column⟩
  · rw [column] at posts
    rw [posts] at h
    cases met with
    | nil =>
        cases h
        refine Or.inl ⟨rfl, fun m s => rfl, fun m s there => ?_⟩
        rcases toColumn_cases "timestamp" m.now with ⟨-, stamp⟩ | ⟨-, stamp⟩
        · simp [stamp]
        · simp [stamp]
    | cons first later =>
        obtain ⟨m, s⟩ := first
        rw [Prog.resume_step] at h
        rcases toColumn_cases "timestamp" m.now with ⟨fits, stamp⟩ | ⟨-, stamp⟩
        · rw [stamp] at h
          cases later with
          | nil => exact Or.inr ⟨m, s, rfl, fits, h.symm⟩
          | cons second rest =>
              -- its second step is its last
              rw [Prog.resume_step] at h
              cases answer : (attempt (insertMessage room username body m.now) second.1
                second.2).1 with
              | error e =>
                  simp only [answer, Prog.resume_ret] at h
                  cases h
              | ok row =>
                  simp only [answer, Prog.resume_ret] at h
                  cases h
        · rw [stamp, Prog.resume_ret] at h
          cases h
  · rw [column] at posts
    rw [posts, Prog.resume_ret] at h
    cases h

/-- A post that has just started has not posted. -/
theorem posting_starts (room : RoomId) (username body : String) (there : PostMessageResponse) :
    ((StoreOp.postMessage room username body).query caps).run ≠ .ret (.ok (.posted there)) := by
  rw [StoreOp.query, run_map, postMessage_run]
  cases toColumn "room id" room.get with
  | error e =>
      intro starts
      cases starts
  | ok id =>
      intro starts
      cases starts

/-- Only a post writes messages. -/
def StoreOp.Writes (s t : Db) : StoreOp → Prop
  | .postMessage _ _ _ => True
  | _ => t.messages = s.messages

namespace StoreOp

/-- A call whose steps leave the messages alone. -/
private theorem writes_of_leaves {op : StoreOp} {α : Type} {x : Query α} {f : α → StoreReply}
    {guar : Db → Option (Except StoreError α) → Db → Prop} {post : Except StoreError α → Db → Prop}
    {s₀ : Db} (dispatch : op.query caps = f <$> x)
    (leaves : ∀ s o t, guar s o t → op.Writes s t)
    (meets : x.run.Meets (storeContract fun _ => True) guar post s₀) :
    (op.query caps).run.Meets (storeContract fun _ => True) (fun s _ t => op.Writes s t)
      (fun _ _ => True) s₀ := by
  rw [dispatch, run_map]
  exact Prog.meets_map _ (meets.weaken (fun s o t own => leaves s o t own) fun _ _ _ => trivial)

theorem writes_meets (op : StoreOp) (s₀ : Db) (_ : s₀.Valid) :
    (op.query caps).run.Meets (storeContract fun _ => True) (fun s _ t => op.Writes s t)
      (fun _ _ => True) s₀ := by
  cases op with
  | insertUser username pwHash =>
      refine writes_of_leaves caps rfl (fun s o t own => ?_)
        (insertUser_meets username pwHash caps.accounts _ s₀)
      rcases own with ⟨rfl, -⟩ | ⟨-, -, -, _, rfl⟩
      · rfl
      · rfl
  | createRoom name =>
      refine writes_of_leaves caps rfl (fun s o t own => ?_)
        (createRoom_meets name caps.rooms _ s₀)
      rcases own with rfl | ⟨-, -, -, _, rfl⟩
      · rfl
      · rfl
  | passwordHash username =>
      exact writes_of_leaves caps rfl (fun _ _ _ own => congrArg Db.messages own)
        (passwordHash_meets username _ s₀)
  | listRooms =>
      exact writes_of_leaves caps rfl (fun _ _ _ own => congrArg Db.messages own.1)
        (listRooms_meets _ s₀)
  | roomExists room =>
      exact writes_of_leaves caps rfl (fun _ _ _ own => congrArg Db.messages own.1)
        (roomExists_meets room _ s₀)
  | postMessage room username body =>
      exact writes_of_leaves caps rfl (fun _ _ _ _ => trivial)
        (postMessage_meets room username body _ s₀)
  | messagesNewest room limit =>
      exact writes_of_leaves caps rfl (fun _ _ _ own => congrArg Db.messages own.1)
        ((PageQuery.newest limit).meets room _ s₀)
  | messagesAfter room cursor limit =>
      exact writes_of_leaves caps rfl (fun _ _ _ own => congrArg Db.messages own.1)
        ((PageQuery.after cursor limit).meets room _ s₀)
  | messagesBefore room cursor limit =>
      exact writes_of_leaves caps rfl (fun _ _ _ own => congrArg Db.messages own.1)
        ((PageQuery.before cursor limit).meets room _ s₀)

end StoreOp

variable {caps} {db} {ms : List (Label StoreOp Moment)} {p q : StorePool}

theorem store_sound (valid : db.Valid)
    (ran : run (StorePool.step caps) (Pool.idle db) ms = some p) :
    Pool.Sound (storeContract fun _ => True) (fun op s _ t => StoreOp.Writes s t op)
      (fun _ _ _ => True) p := by
  refine Pool.run_sound (StoreOp.writes_meets caps) (fun l _ => ?_) ran (Pool.sound_idle valid)
  cases l <;> exact trivial

/-- A post that a step lets return a position has stored its message by that step. -/
def StoredBy (k : ℕ) (now : ℕ) (p q : StorePool) : Prop :=
  (∃ row : MessageRow, row.seq = p.state.messages.length + 1 ∧ row.postedAt = now ∧
      q.state.messages = p.state.messages ++ [row]) ∧
    HasPosted q k ∧ ∀ j, HasPosted q j → HasPosted p j ∨ j = k

/-- A post that takes a step has met what the post it is, without the wrapping of its answer, has
met. -/
theorem posting_of_thread (ran : run (StorePool.step caps) (Pool.idle db) ms = some p) {k n : ℕ}
    {room : RoomId} {username body : String} {update : Moment → Db → Db}
    {next : Moment → Db → Prog Moment Db (Except StoreError StoreReply)}
    (found : p.threads[k]? = some ⟨.postMessage room username body, n, .step update next⟩) :
    ∃ next', (postMessage room username body).run.resume (storeMet caps db ms k)
        = .step update next' ∧ ∀ i s, next i s = Except.map StoreReply.posted <$> next' i s := by
  have resumes := Pool.resume_met ran found
  dsimp only at resumes
  rw [StoreOp.query, run_map, Prog.resume_map] at resumes
  cases rest : (postMessage room username body).run.resume (storeMet caps db ms k) with
  | ret a =>
      rw [rest] at resumes
      cases resumes
  | step update' next' =>
      rw [rest] at resumes
      cases resumes
      exact ⟨next', rfl, fun i s => rfl⟩

/-- **What the `INSERT` of a post does**: it stores the message if the room exists and there is a
position left, while the database works, and otherwise leaves the tables alone. -/
theorem insert_cases {s : Db} (valid : s.Valid) (room : RoomId) (username body : String) (now : ℕ)
    (m : Moment) :
    (m.fails = false ∧ s.messages.length < i64Max ∧ (∃ row ∈ s.rooms, row.id = room.get)) ∧
        attempt (insertMessage room username body now) m s
          = (.ok (s.messages.length + 1, now), { s with messages :=
              s.messages ++ [⟨s.messages.length + 1, room.get, username, body, now⟩] }) ∨
      ¬ (m.fails = false ∧ s.messages.length < i64Max ∧ ∃ row ∈ s.rooms, row.id = room.get) ∧
        ∃ e, attempt (insertMessage room username body now) m s = (.error e, s) := by
  rcases attempt_cases (insertMessage room username body now) m s with
    ⟨row, after, works, result, attempted⟩ | ⟨e, failed⟩
  · obtain ⟨home, left, rfl, rfl⟩ := insertMessageRow_cases valid result
    exact Or.inl ⟨⟨works, left, home⟩, attempted⟩
  · refine Or.inr ⟨fun ⟨works, left, home⟩ => ?_, e, failed⟩
    have inserted := insertMessageRow_ok valid m.spare now username body left home
    rw [attempt_of_ok works inserted] at failed
    cases failed

/-- A post that has stored its message by the step of the `k`-th thread is that thread, or had
stored it before. -/
theorem posted_of_set {k n : ℕ} {op : StoreOp} {s : Db}
    {old next : Prog Moment Db (Except StoreError StoreReply)}
    (found : p.threads[k]? = some ⟨op, n, old⟩) {j : ℕ}
    (posted : HasPosted ⟨s, p.threads.set k ⟨op, n + 1, next⟩⟩ j) :
    HasPosted p j ∨ j = k ∧ (∃ room username body, op = .postMessage room username body) ∧
      ∃ there, next.outcome = some (.ok (.posted there)) := by
  obtain ⟨room, username, body, there, ret⟩ := posted
  rcases Pool.Returned.of_advance found ret with before | ⟨own, rfl, answer⟩
  · exact Or.inl ⟨room, username, body, there, before⟩
  · exact Or.inr ⟨own, ⟨room, username, body, rfl⟩, there, answer⟩

/-- **What one step of the store does to the messages.**  It stores one exactly when it is the
turn of a post that can and that has read the clock: the message carries what it read. -/
theorem store_step (valid : db.Valid)
    (ran : run (StorePool.step caps) (Pool.idle db) ms = some p) {k : ℕ} {m : Moment}
    (stepped : StorePool.step caps p (.advance k m) = some q) :
    (q.state.messages = p.state.messages ∧ (∀ j, HasPosted q j → HasPosted p j) ∧
        (Stores p k m → clockRead caps db ms k = none)) ∨
      ∃ now, Stores p k m ∧ clockRead caps db ms k = some now ∧ StoredBy k now p q := by
  have sound := store_sound valid ran
  obtain ⟨op, n, _, _, taker, -, -, writes, -⟩ := sound.advance trivial stepped
  obtain ⟨_, _, update, next, found, rfl⟩ := Pool.step_advance stepped
  cases found.symm.trans taker
  by_cases post : ∃ room username body, op = .postMessage room username body
  · obtain ⟨room, username, body, rfl⟩ := post
    obtain ⟨next', resumes, wraps⟩ := posting_of_thread ran found
    have answers : (next m p.state).outcome
        = (next' m p.state).outcome.map (Except.map StoreReply.posted) := by
      rw [wraps]
      cases next' m p.state <;> rfl
    rcases posting_cases resumes with ⟨fresh, looks, silent⟩ | ⟨first, s, read, fits, inserts⟩
    · -- it reads the clock
      refine Or.inl ⟨congrArg Db.messages (looks m p.state), fun j posted => ?_, fun _ => ?_⟩
      · rcases posted_of_set found posted with before | ⟨-, -, there, answer⟩
        · exact before
        · rw [answers] at answer
          obtain ⟨r, own, eq⟩ := Option.map_eq_some_iff.mp answer
          cases r with
          | error e => cases eq
          | ok there' => exact absurd own (silent m p.state there')
      · rw [clockRead, fresh]
        rfl
    · -- it inserts its message
      cases inserts
      rcases insert_cases sound.inv room username body first.now m with
        ⟨⟨works, left, home⟩, attempted⟩ | ⟨cannot, e, failed⟩
      · have lands : landed ((p.state.messages.length : ℤ) + 1, (first.now : ℤ))
            = .ok ⟨⟨p.state.messages.length + 1⟩, ⟨first.now⟩⟩ :=
          landed_of_nonneg (s := p.state.messages.length + 1)
        simp only [attempted, lands, Prog.outcome_ret, Option.map_some] at answers
        refine Or.inr ⟨first.now, ⟨⟨room, username, body, n, _, next, found, home⟩, works, left⟩,
          by rw [clockRead, read]; rfl, ⟨_, rfl, rfl, congrArg (Db.messages ·.2) attempted⟩,
          ⟨room, username, body, _, Pool.returned_of_outcome found answers⟩, fun j posted => ?_⟩
        exact (posted_of_set found posted).imp_right fun own => own.1
      · refine Or.inl ⟨congrArg (Db.messages ·.2) failed, fun j posted => ?_, fun stores => ?_⟩
        · rcases posted_of_set found posted with before | ⟨-, -, there, answer⟩
          · exact before
          · simp only [failed, Prog.outcome_ret, Option.map_some] at answers
            rw [answers] at answer
            cases answer
        · obtain ⟨room', username', body', n', update', next'', found', home⟩ := stores.waits
          rw [found] at found'
          cases found'
          exact absurd ⟨stores.works, stores.left, home⟩ cannot
  · refine Or.inl ⟨?_, fun j posted => ?_, fun stores => ?_⟩
    · cases op with
      | postMessage room username body => exact absurd ⟨room, username, body, rfl⟩ post
      | _ => exact writes
    · exact (posted_of_set found posted).resolve_right fun own => post own.2.1
    · obtain ⟨room', username', body', n', update', next'', found', -⟩ := stores.waits
      rw [found] at found'
      cases found'
      exact absurd ⟨room', username', body', rfl⟩ post

/-! ### Whole runs -/

theorem clockRead_concat (ran : run (StorePool.step caps) (Pool.idle db) ms = some p)
    (l : Label StoreOp Moment) (j : ℕ) :
    clockRead caps db (ms ++ [l]) j
      = (clockRead caps db ms j).or ((Pool.metBy j p l).head?.map fun pair => pair.1.now) := by
  rw [clockRead, clockRead, storeMet, Pool.met_concat j l ran, List.head?_append, Option.map_or]

/-- A reading that has been taken stays. -/
theorem clockRead_stays (ran : run (StorePool.step caps) (Pool.idle db) ms = some p)
    (l : Label StoreOp Moment) {j now : ℕ} (read : clockRead caps db ms j = some now) :
    clockRead caps db (ms ++ [l]) j = some now := by
  rw [clockRead_concat ran l j, read, Option.some_or]

/-- A call reads the clock as a label has it. -/
theorem clockRead_concat_cases (ran : run (StorePool.step caps) (Pool.idle db) ms = some p)
    {l : Label StoreOp Moment} {j now : ℕ}
    (read : clockRead caps db (ms ++ [l]) j = some now) :
    clockRead caps db ms j = some now ∨
      clockRead caps db ms j = none ∧ ∃ m, l = .advance j m ∧ m.now = now := by
  rw [clockRead_concat ran l j] at read
  cases before : clockRead caps db ms j with
  | some early =>
      rw [before, Option.some_or] at read
      exact Or.inl read
  | none =>
      rw [before, Option.none_or] at read
      cases l with
      | spawn op => cases read
      | advance k m =>
          by_cases own : k = j
          · subst own
            rw [Pool.metBy, if_pos rfl] at read
            exact Or.inr ⟨rfl, m, rfl, Option.some.inj read⟩
          · rw [Pool.metBy, if_neg own] at read
            cases read

/-- What a call has read is what the clock has shown at a label. -/
theorem clockRead_mem (ran : run (StorePool.step caps) (Pool.idle db) ms = some p) {j now : ℕ}
    (read : clockRead caps db ms j = some now) : now ∈ ms.filterMap clockAt := by
  revert j now
  refine run_induction (motive := fun ms _ => ∀ {j now : ℕ}, clockRead caps db ms j = some now →
    now ∈ ms.filterMap clockAt) (fun read => by cases read) ?_ ran
  intro ms p l q ran ih _ j now read
  rw [List.filterMap_append]
  rcases clockRead_concat_cases ran read with before | ⟨-, m, rfl, rfl⟩
  · exact List.mem_append_left _ (ih before)
  · exact List.mem_append_right _ List.mem_cons_self

/-- **On a clock that never goes backwards**, of two calls the one with the earlier reading has
read first.  There is a moment of the run at which the one has read the clock and the other has
not. -/
theorem read_first (ran : run (StorePool.step caps) (Pool.idle db) ms = some p)
    (clock : (ms.filterMap clockAt).Pairwise (· ≤ ·)) {j k early late : ℕ}
    (hk : clockRead caps db ms k = some early) (hj : clockRead caps db ms j = some late)
    (lt : early < late) :
    ∃ es, es <+: ms ∧ (clockRead caps db es k).isSome ∧ clockRead caps db es j = none := by
  revert clock hk hj
  refine run_induction (motive := fun ms _ => (ms.filterMap clockAt).Pairwise (· ≤ ·) →
    clockRead caps db ms k = some early → clockRead caps db ms j = some late →
      ∃ es, es <+: ms ∧ (clockRead caps db es k).isSome ∧ clockRead caps db es j = none)
    (fun _ hk _ => by cases hk) ?_ ran
  intro ms p l q ran ih _ clock hk hj
  rw [List.filterMap_append] at clock
  obtain ⟨earlier, -, onward⟩ := List.pairwise_append.mp clock
  rcases clockRead_concat_cases ran hk with before | ⟨-, m, rfl, rfl⟩
  · rcases clockRead_concat_cases ran hj with before' | ⟨fresh, -⟩
    · obtain ⟨es, early_es, read, unread⟩ := ih earlier before before'
      exact ⟨es, early_es.trans (List.prefix_append _ _), read, unread⟩
    · exact ⟨ms, List.prefix_append _ _, by rw [before]; rfl, fresh⟩
  · -- the later reading has been taken already, so the clock has gone back
    rcases clockRead_concat_cases ran hj with before' | ⟨-, m', same, rfl⟩
    · have := onward late (clockRead_mem ran before') m.now List.mem_cons_self
      omega
    · cases same
      exact absurd lt (lt_irrefl _)

/-- **What a run leaves behind**: every message was there before, or carries the reading of a call
that has posted it, and every call that has posted has left a message that carries its reading. -/
structure Stamped (caps : Caps) (db : Db) (ms : List (Label StoreOp Moment)) (p : StorePool) :
    Prop where
  stamps : ∀ row ∈ p.state.messages, row ∈ db.messages ∨
    ∃ j now, HasPosted p j ∧ clockRead caps db ms j = some now ∧ row.postedAt = now
  stored : ∀ j, HasPosted p j → ∃ now, clockRead caps db ms j = some now ∧
    ∃ row ∈ p.state.messages, row.postedAt = now

theorem run_stamped (valid : db.Valid)
    (ran : run (StorePool.step caps) (Pool.idle db) ms = some p) : Stamped caps db ms p := by
  refine run_induction (motive := fun ms p => Stamped caps db ms p)
    ⟨fun row mem => Or.inl mem, fun j posted => ?_⟩ ?_ ran
  · obtain ⟨_, _, _, _, _, found⟩ := posted
    cases found
  · intro ms p l q ran ih stepped
    have kept : ∀ {j}, HasPosted p j → HasPosted q j := by
      rintro j ⟨room, username, body, there, ret⟩
      exact ⟨room, username, body, there, Pool.Returned.step stepped ret⟩
    have quiet : q.state.messages = p.state.messages → (∀ j, HasPosted q j → HasPosted p j) →
        Stamped caps db (ms ++ [l]) q := by
      intro same old
      refine ⟨fun row mem => ?_, fun j posted => ?_⟩
      · rw [same] at mem
        rcases ih.stamps row mem with before | ⟨j, now, posted, read, eq⟩
        · exact Or.inl before
        · exact Or.inr ⟨j, now, kept posted, clockRead_stays ran l read, eq⟩
      · obtain ⟨now, read, row, mem, eq⟩ := ih.stored j (old j posted)
        exact ⟨now, clockRead_stays ran l read, row, same ▸ mem, eq⟩
    cases l with
    | spawn op =>
        cases stepped
        refine quiet rfl fun j ⟨room, username, body, there, ret⟩ => ?_
        rcases Pool.Returned.of_spawn ret with before | ⟨rfl, starts⟩
        · exact ⟨room, username, body, there, before⟩
        · exact absurd starts (posting_starts caps room username body there)
    | advance k m =>
        rcases store_step valid ran stepped with ⟨same, old, -⟩ | ⟨now, -, read, stores, new, old⟩
        · exact quiet same old
        · obtain ⟨row, -, stamp, grows⟩ := stores
          refine ⟨fun row' mem => ?_, fun j posted => ?_⟩
          · rw [grows] at mem
            rcases List.mem_append.mp mem with before | last
            · rcases ih.stamps row' before with before | ⟨j, now', posted, read', eq⟩
              · exact Or.inl before
              · exact Or.inr ⟨j, now', kept posted, clockRead_stays ran _ read', eq⟩
            · cases List.mem_singleton.mp last
              exact Or.inr ⟨k, now, new, clockRead_stays ran _ read, stamp⟩
          · rw [grows]
            rcases old j posted with before | rfl
            · obtain ⟨now', read', row', mem', eq⟩ := ih.stored j before
              exact ⟨now', clockRead_stays ran _ read', row', List.mem_append_left _ mem', eq⟩
            · exact ⟨now, clockRead_stays ran _ read, row,
                List.mem_append_right _ List.mem_cons_self, stamp⟩

section Follow

variable {ls : List (Label StoreOp Moment)}

/-- Where a post stores its message in its turn, no message carries a later reading than its
own. -/
theorem inTurn_latest (stamped : Stamped caps db ms p)
    (ran : run (StorePool.step caps) (Pool.idle db) ms = some p)
    {k : ℕ} {m : Moment} (forward : Forward db (ms ++ [.advance k m])) (stores : Stores p k m)
    (turn : InTurn caps db ms p (.advance k m)) {now : ℕ}
    (read : clockRead caps db ms k = some now) :
    ∀ row ∈ p.state.messages, row.postedAt ≤ now := by
  intro row mem
  have earlier := forward.of_prefix (List.prefix_append ms [.advance k m])
  rcases stamped.stamps row mem with before | ⟨j, late, posted, read', eq⟩
  · exact earlier.since row before now (clockRead_mem ran read)
  · rw [eq]
    refine Int.ofNat_le.mpr (not_lt.mp fun lt => turn k m rfl stores j ⟨?_, ?_, posted⟩)
    · exact read_first ran earlier.clock read read' lt
    · exact ⟨now, late, read, read', lt⟩

/-- A step keeps the messages in order if it is taken in turn. -/
theorem follow_step (valid : db.Valid)
    (ran : run (StorePool.step caps) (Pool.idle db) ms = some p) {l : Label StoreOp Moment}
    (stepped : StorePool.step caps p l = some q) (forward : Forward db (ms ++ [l]))
    (sorted : p.state.messages.Pairwise fun a b => a.postedAt ≤ b.postedAt)
    (turn : InTurn caps db ms p l) :
    q.state.messages.Pairwise fun a b => a.postedAt ≤ b.postedAt := by
  cases l with
  | spawn op =>
      cases stepped
      exact sorted
  | advance k m =>
      rcases store_step valid ran stepped with ⟨same, -, -⟩ | ⟨now, stores, read, written, -, -⟩
      · rw [same]
        exact sorted
      · obtain ⟨row, -, stamp, grows⟩ := written
        have latest := inTurn_latest (run_stamped valid ran) ran forward stores turn read
        rw [grows]
        refine List.pairwise_append.mpr ⟨sorted, List.pairwise_singleton _ _, fun a ha b hb => ?_⟩
        rw [List.mem_singleton.mp hb, stamp]
        exact latest a ha

/-- A step that leaves the messages in order was taken in turn. -/
theorem turn_of_follow (valid : db.Valid)
    (ran : run (StorePool.step caps) (Pool.idle db) ms = some p) {l : Label StoreOp Moment}
    (stepped : StorePool.step caps p l = some q)
    (sorted : q.state.messages.Pairwise fun a b => a.postedAt ≤ b.postedAt) :
    InTurn caps db ms p l := by
  rintro k m rfl stores j ⟨-, ⟨early, late, read, read', lt⟩, posted⟩
  rcases store_step valid ran stepped with ⟨-, -, unread⟩ | ⟨now, -, own, written, -, -⟩
  · rw [unread stores] at read
    cases read
  · cases read.symm.trans own
    obtain ⟨row, -, stamp, grows⟩ := written
    -- the message of the call that has overtaken it is there already
    obtain ⟨now', read'', row', mem, stamp'⟩ := (run_stamped valid ran).stored j posted
    cases read'.symm.trans read''
    rw [grows] at sorted
    have le := (List.pairwise_append.mp sorted).2.2 row' mem row List.mem_cons_self
    rw [stamp, stamp'] at le
    omega

/-- Over valid tables, every state reached has its messages in order if and only if every step is
taken in turn. -/
theorem follow_iff_inTurn (valid : db.Valid) (follow : TimesFollow db) (forward : Forward db ls) :
    (∀ ms q, ms <+: ls → run (StorePool.step caps) (Pool.idle db) ms = some q →
        TimesFollow q.state) ↔
      EveryStep (StorePool.step caps) (fun ms p l _ => InTurn caps db ms p l) (Pool.idle db)
        ls := by
  constructor
  · intro reached ms l rest p q split ran stepped
    have there : run (StorePool.step caps) (Pool.idle db) (ms ++ [l]) = some q := by
      rw [run_concat, ran]
      exact stepped
    have sorted := reached (ms ++ [l]) q ⟨rest, by rw [split]; simp⟩ there
    exact turn_of_follow valid ran stepped
      ((timesFollow_iff (store_sound valid there).inv).mp sorted)
  · intro turns ms q early reached
    refine (timesFollow_iff (store_sound valid reached).inv).mpr ?_
    revert early
    refine run_induction (motive := fun ms q => ms <+: ls →
      q.state.messages.Pairwise fun a b => a.postedAt ≤ b.postedAt)
      (fun _ => (timesFollow_iff valid).mp follow) ?_ reached
    intro ms p l q ran ih stepped early
    obtain ⟨rest, split⟩ := early
    refine follow_step valid ran stepped (forward.of_prefix ⟨rest, split⟩)
      (ih ((List.prefix_append ms [l]).trans ⟨rest, split⟩)) ?_
    exact turns ms l rest p q (by rw [← split]; simp) ran stepped

end Follow

/-- **Timestamps follow the message order**, on every store that can be opened and under every
interleaving of any calls, if and only if no post that stores its message has been overtaken.  The
clock never goes backwards. -/
theorem timestamps_follow_iff {file : Option DbFile} (stored : Stored file) {ω : ℕ → Moment}
    {db : Db} (opens : SqliteStore.new.run.exec ω file = (.ok (), opened db)) (caps : Caps)
    (follow : TimesFollow db) {ls : List (Label StoreOp Moment)} (forward : Forward db ls) :
    (∀ ms q, ms <+: ls → run (StorePool.step caps) (Pool.idle db) ms = some q →
        TimesFollow q.state) ↔
      EveryStep (StorePool.step caps) (fun ms p l _ => InTurn caps db ms p l) (Pool.idle db)
        ls := by
  refine follow_iff_inTurn ?_ follow forward
  have := (Stored.opening ω stored).valid.2
  rw [opens] at this
  exact this

/-- The tables of a store that has just been created. -/
def justOpened : Db := ⟨[], [⟨1, LOBBY, 0⟩], []⟩

theorem timesFollow_justOpened : TimesFollow justOpened where
  seqs := fun _ mem => absurd mem List.not_mem_nil
  rooms := fun _ => List.Pairwise.nil
  days := fun _ _ _ => List.Pairwise.nil

/-- Two posts to the lobby, of which the second one reads the clock first. -/
def inOrder : List (Label StoreOp Moment) :=
  [.spawn (.postMessage ⟨1⟩ "alice" "hi"), .spawn (.postMessage ⟨1⟩ "bob" "hello"),
    .advance 1 { now := 100 }, .advance 0 { now := 200 }, .advance 1 { now := 300 },
    .advance 0 { now := 400 }]

/-- The post that reads the clock first inserts its message first, so both sides hold. -/
theorem timestamps_follow_in_order :
    (∀ ms q, ms <+: inOrder →
        run (StorePool.step ⟨1, 2⟩) (Pool.idle justOpened) ms = some q → TimesFollow q.state) ↔
      EveryStep (StorePool.step ⟨1, 2⟩) (fun ms p l _ => InTurn ⟨1, 2⟩ justOpened ms p l)
        (Pool.idle justOpened) inOrder :=
  timestamps_follow_iff .absent (ω := fun _ => {}) rfl ⟨1, 2⟩ timesFollow_justOpened
    ⟨by decide, fun _ mem => absurd mem List.not_mem_nil⟩

/-- Two posts to the lobby: the second one reads the clock later and inserts its message first. -/
def overtaken : List (Label StoreOp Moment) :=
  [.spawn (.postMessage ⟨1⟩ "alice" "hi"), .spawn (.postMessage ⟨1⟩ "bob" "hello"),
    .advance 0 { now := 100 }, .advance 1 { now := 200 }, .advance 1 { now := 200 },
    .advance 0 { now := 200 }]

/-- The message at the second position was posted before the one at the first. -/
theorem timestamps_step_back :
    SqliteStore.new.run.exec (fun _ => {}) none = (.ok (), opened justOpened) ∧
      Forward justOpened overtaken ∧
        ∃ q, run (StorePool.step ⟨1, 2⟩) (Pool.idle justOpened) overtaken = some q ∧
          q.state.messages = [⟨1, 1, "bob", "hello", 200⟩, ⟨2, 1, "alice", "hi", 100⟩] ∧
            ¬ TimesFollow q.state := by
  refine ⟨rfl, ⟨by decide, fun _ mem => absurd mem List.not_mem_nil⟩, _, rfl, rfl, fun follow => ?_⟩
  have := follow.seqs ⟨1, 1, "bob", "hello", 200⟩ List.mem_cons_self
    ⟨2, 1, "alice", "hi", 100⟩ (List.mem_cons_of_mem _ List.mem_cons_self) (by decide)
  exact absurd this (by decide)

end ScionChat
