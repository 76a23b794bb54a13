import ScionChat.Server.Api.Envelope

/-!
# What the message routes answer

A room id and a cursor are a `u64` in the API and an `i64` in the columns.  Where one is too
large for its column, `to_column` refuses it, and `From<StoreError>` makes a `500 internal` of
that — the answer it has for "nothing a caller did wrong".

The outcome of either handler over a database that works is spelled out once, as a disjunction
of everything that can happen (`list_outcome`, `postMessage_outcome`).  Everything about a
single request is read off these two disjunctions, and the handlers are not opened again.

* `list_served_iff`, `post_served_iff` — for one request whose token names a user, the exact
  range of values for which the route answers as it is documented: any room id and cursor up to
  `i64::MAX`, and for a post also a clock up to there and a table with a position left.
* `served_iff` — the same for every call of these routes in every run of a server, whatever other
  calls do between its steps.

### design decisions

* **Sizes are hypotheses on values, never on types.**  A room id is the number that the path
  holds, as axum reads it into a `u64`, so that the values between `i64::MAX` and `u64::MAX` are
  requests like any other and reach the branch that goes wrong.
* **The database works.**  A statement that fails is answered by a `500` on purpose, so the
  outcomes are stated over `World`s whose statements run; what a failing one does is part of the
  envelope's module.

### What is load-bearing

`page_outcome` and `insertMessage_of_valid`: a valid database gives every row a position that
the columns hold, so the one thing left to overflow is what the request brings along.
-/

namespace ScionChat

open Interleaving TransitionSystem Column

/-! ### Outcomes -/

section Outcomes

variable {met : List (Moment × World)} {r : Except Failure Response}

/-- The answer to giving both cursors. -/
def bothCursors : ApiError :=
  ⟨400, .invalidBody, "after_seq and before_seq cannot be combined"⟩

/-- The room is there, as the tables are. -/
def World.HasRoom (w : World) (room : ℕ) : Prop :=
  ∃ row ∈ w.db.rooms, row.id = (room : ℤ)

/-- **What a page query of a room comes to**, over a database that works.  It is the page of the
room's log, unless the cursor is a number that no column holds. -/
theorem page_outcome {query : PageQuery} {room : ℕ} (valid : ∀ pair ∈ met, pair.2.db.Valid)
    (works : ∀ pair ∈ met, pair.1.fails = false) (fits : room ≤ i64Max)
    (h : (store (query.query ⟨room⟩) >>= fun messages =>
      (pure (messagesFound messages) : Handler Response)).run.resume met = .ret r) :
    (¬ query.Fits ∧ r = .error (.api .internal)) ∨
      query.Fits ∧ ∃ m w later, met = (m, w) :: later ∧
        r = .ok (messagesFound (query.page (w.db.log ⟨room⟩))) := by
  by_cases query_fits : query.Fits
  · refine Or.inr ⟨query_fits, ?_⟩
    rcases query.run_cases ⟨room⟩ with ⟨-, -, run⟩ | ⟨unfit, -⟩
    · obtain ⟨m, w, later, rfl, outcome⟩ := look_resume run h
      refine ⟨m, w, later, rfl, ?_⟩
      have reads : (fetched (query.rows ⟨room⟩) m w.db).bind query.answer
          = .ok (query.page (w.db.log ⟨room⟩)) := by
        rw [fetched_of_works (works (m, w) List.mem_cons_self)]
        exact query.answer_of_valid (valid (m, w) List.mem_cons_self) ⟨room⟩
      rcases outcome with ⟨e, saw, -⟩ | ⟨messages, saw, ends⟩
      · cases saw.symm.trans reads
      · cases saw.symm.trans reads
        rw [run_pure, Prog.resume_ret] at ends
        exact (Prog.ret.inj ends).symm
    · exact absurd ⟨fits, query_fits⟩ unfit
  · refine Or.inl ⟨query_fits, ?_⟩
    obtain ⟨value, run⟩ := @PageQuery.run_of_unfit query ⟨room⟩ fits query_fits
    exact error_resume run h

/-- **What `messages::list` comes to**, over a database that works.  The cases come in the order in
which they are found: an id too large for its column, a room that is not there, two cursors at
once, a cursor too large, and at last the page. -/
theorem list_outcome {room : ℕ} {page : Page} (valid : ∀ pair ∈ met, pair.2.db.Valid)
    (works : ∀ pair ∈ met, pair.1.fails = false)
    (h : (list room page).run.resume met = .ret r) :
    (¬ room ≤ i64Max ∧ r = .error (.api .internal)) ∨
      room ≤ i64Max ∧ ∃ m w later, met = (m, w) :: later ∧
        (¬ w.HasRoom room ∧ r = .error (.api .roomNotFound) ∨
          w.HasRoom room ∧
            (page.asked = none ∧ r = .error (.api bothCursors) ∨
              ∃ query, page.asked = some query ∧
                (¬ query.Fits ∧ r = .error (.api .internal) ∨
                  query.Fits ∧ ∃ m' w' later', later = (m', w') :: later' ∧
                    r = .ok (messagesFound (query.page (w'.db.log ⟨room⟩)))))) := by
  have exists_run := roomExists_run ⟨room⟩
  rcases toColumn_cases "room id" room with ⟨fits, column⟩ | ⟨unfit, column⟩
  · refine Or.inr ⟨fits, ?_⟩
    rw [column] at exists_run
    obtain ⟨m, w, later, rfl, outcome⟩ := look_resume exists_run h
    refine ⟨m, w, later, rfl, ?_⟩
    rw [fetched_of_works (works (m, w) List.mem_cons_self)] at outcome
    have later_valid : ∀ pair ∈ later, pair.2.db.Valid := fun pair mem =>
      valid pair (List.mem_cons_of_mem _ mem)
    have later_works : ∀ pair ∈ later, pair.1.fails = false := fun pair mem =>
      works pair (List.mem_cons_of_mem _ mem)
    rcases outcome with ⟨e, saw, -⟩ | ⟨found, saw, rest⟩
    · cases saw
    · cases saw
      by_cases there : w.HasRoom room
      · refine Or.inr ⟨there, ?_⟩
        have found : Sql.selectRoomExists room w.db = true := decide_eq_true there
        rw [found] at rest
        rcases page with ⟨limit, _ | cursor, _ | cursor'⟩
        · exact Or.inr ⟨.newest _, rfl, page_outcome later_valid later_works fits rest⟩
        · exact Or.inr ⟨.before ⟨cursor'⟩ _, rfl,
            page_outcome later_valid later_works fits rest⟩
        · exact Or.inr ⟨.after ⟨cursor⟩ _, rfl, page_outcome later_valid later_works fits rest⟩
        · have ends : (Prog.ret (.error (.api bothCursors)) :
              Prog Moment World (Except Failure Response)) = .ret r :=
            (Prog.resume_ret _ later).symm.trans rest
          exact Or.inl ⟨rfl, (Prog.ret.inj ends).symm⟩
      · have absent : Sql.selectRoomExists room w.db = false := decide_eq_false there
        rw [absent] at rest
        have ends : (Prog.ret (.error (.api .roomNotFound)) :
            Prog Moment World (Except Failure Response)) = .ret r :=
          (Prog.resume_ret _ later).symm.trans rest
        exact Or.inl ⟨there, (Prog.ret.inj ends).symm⟩
  · rw [column] at exists_run
    exact Or.inl ⟨unfit, error_resume exists_run h⟩

/-- Where a message lands: at the next position of the table. -/
def landing (w : World) (now : ℕ) : Response :=
  { status := 201, body := .posted ⟨⟨w.db.messages.length + 1⟩, ⟨now⟩⟩ }

/-- What the statement behind a post answers: the next position, unless none is left or the room
is not there. -/
theorem insertMessage_of_valid {db : Db} (valid : db.Valid) (room : RoomId)
    (username text : String) (postedAt : ℤ) {m : Moment} (works : m.fails = false) :
    (attempt (insertMessage room username text postedAt) m db).1 =
      if db.messages.length < i64Max then
        if ∃ row ∈ db.rooms, row.id = (room.get : ℤ) then
          .ok ((db.messages.length : ℤ) + 1, postedAt)
        else .error .foreignKeyViolation
      else .error .other := by
  by_cases left : db.messages.length < i64Max
  · rw [if_pos left]
    by_cases there : ∃ row ∈ db.rooms, row.id = (room.get : ℤ)
    · rw [if_pos there, attempt_of_ok works
        (Sql.insertMessageRow_ok valid m.spare postedAt username text left there)]
    · have absent : ∀ row ∈ db.rooms, row.id ≠ (room.get : ℤ) := fun row mem same =>
        there ⟨row, mem, same⟩
      rw [if_neg there, attempt_of_error works
        (Sql.insertMessageRow_absent valid m.spare postedAt username text left absent)]
  · have full : insertMessage room username text postedAt m db = .error .other := by
      rw [insertMessage, Sql.insertMessageRow, valid.seqs,
        nextRowid_rowids m.spare valid.messagesFit, if_neg left]
    rw [if_neg left, attempt_of_error works full]

/-- **What storing a message comes to**, over a database that works.  Its two steps are the clock's
and the insert's, and either may be where it ends. -/
theorem postMessage_outcome {room : ℕ} {username text : String}
    (valid : ∀ pair ∈ met, pair.2.db.Valid) (works : ∀ pair ∈ met, pair.1.fails = false)
    (h : (store (postMessage ⟨room⟩ username text) >>= fun posted =>
      (pure { status := 201, body := .posted posted } : Handler Response)).run.resume met
        = .ret r) :
    (¬ room ≤ i64Max ∧ r = .error (.api .internal)) ∨
      room ≤ i64Max ∧ ∃ m w later, met = (m, w) :: later ∧
        (¬ m.now ≤ i64Max ∧ r = .error (.api .internal) ∨
          m.now ≤ i64Max ∧ ∃ m' w' later', later = (m', w') :: later' ∧
            (¬ w'.db.messages.length < i64Max ∧ r = .error (.api .internal) ∨
              w'.db.messages.length < i64Max ∧
                (¬ w'.HasRoom room ∧ r = .error (.api .roomNotFound) ∨
                  w'.HasRoom room ∧ r = .ok (landing w' m.now)))) := by
  have posts := postMessage_run ⟨room⟩ username text
  rcases toColumn_cases "room id" room with ⟨fits, column⟩ | ⟨unfit, column⟩
  · refine Or.inr ⟨fits, ?_⟩
    rw [column] at posts
    rw [run_bind, store, run_inside, posts] at h
    obtain ⟨m, w, later, rfl, rest⟩ := Prog.met_of_resume_step h
    refine ⟨m, w, later, rfl, ?_⟩
    rcases toColumn_cases "timestamp" m.now with ⟨clock, stamp⟩ | ⟨late, stamp⟩
    · refine Or.inr ⟨clock, ?_⟩
      simp only [stamp] at rest
      obtain ⟨m', w', later', rfl, ends⟩ := Prog.met_of_resume_step rest
      refine ⟨m', w', later', rfl, ?_⟩
      have valid' : w'.db.Valid := valid (m', w') (by simp)
      have answer := insertMessage_of_valid valid' ⟨room⟩ username text (m.now : ℤ)
        (works (m', w') (by simp))
      simp only [answer] at ends
      by_cases left : w'.db.messages.length < i64Max
      · refine Or.inr ⟨left, ?_⟩
        by_cases there : w'.HasRoom room
        · have home : ∃ row ∈ w'.db.rooms, row.id = ((RoomId.mk room).get : ℤ) := there
          have lands : landed ((w'.db.messages.length : ℤ) + 1, (m.now : ℤ))
              = .ok ⟨⟨w'.db.messages.length + 1⟩, ⟨m.now⟩⟩ :=
            landed_of_nonneg (s := w'.db.messages.length + 1)
          simp only [if_pos left, if_pos home, lands] at ends
          exact Or.inr ⟨there, (Prog.ret.inj ((Prog.resume_ret _ later').symm.trans ends)).symm⟩
        · have home : ¬ ∃ row ∈ w'.db.rooms, row.id = ((RoomId.mk room).get : ℤ) := there
          simp only [if_pos left, if_neg home] at ends
          exact Or.inl ⟨there, (Prog.ret.inj ((Prog.resume_ret _ later').symm.trans ends)).symm⟩
      · simp only [if_neg left] at ends
        exact Or.inl ⟨left, (Prog.ret.inj ((Prog.resume_ret _ later').symm.trans ends)).symm⟩
    · refine Or.inl ⟨late, ?_⟩
      simp only [stamp] at rest
      exact (Prog.ret.inj ((Prog.resume_ret _ later).symm.trans rest)).symm
  · rw [column] at posts
    exact Or.inl ⟨unfit, error_resume posts h⟩

/-- The handler takes the body: it is neither empty nor larger than the server accepts. -/
def Sized (config : Config) (body : PostMessageRequest) : Prop :=
  ¬ config.maxMessageBytes.toNat < body.body.utf8ByteSize ∧ body.body.isEmpty = false

/-- A body of the wrong size is refused before the store is asked. -/
theorem post_unsized {state : AppState} {username : String} {room : ℕ} {body : PostMessageRequest}
    (unsized : ¬ Sized state.config body)
    (h : (post state username room (.ok body)).run.resume met = .ret r) :
    ∃ e : ApiError, r = .error (.api e) ∧ e.status ≠ 500 := by
  by_cases large : state.config.maxMessageBytes.toNat < body.body.utf8ByteSize
  · have ends : (post state username room (.ok body)).run = .ret (.error (.api
        ⟨413, .messageTooLarge,
          s!"a message body is at most {state.config.maxMessageBytes.toNat} bytes"⟩)) := by
      simp only [post, json, Except.mapError, run_except_bind, onOk_ok, if_pos large]
      rfl
    rw [ends, Prog.resume_ret] at h
    exact ⟨_, (Prog.ret.inj h).symm, show (413 : ℕ) ≠ 500 by decide⟩
  · have empty : body.body.isEmpty = true := by
      by_contra full
      exact unsized ⟨large, Bool.not_eq_true _ ▸ full⟩
    have ends : (post state username room (.ok body)).run = .ret (.error (.api ⟨422,
        .invalidBody, "a message body cannot be empty"⟩)) := by
      simp only [post, json, Except.mapError, run_except_bind, onOk_ok, if_neg large, if_pos empty]
      rfl
    rw [ends, Prog.resume_ret] at h
    exact ⟨_, (Prog.ret.inj h).symm, show (422 : ℕ) ≠ 500 by decide⟩

theorem post_sized {state : AppState} {username : String} {room : ℕ} {body : PostMessageRequest}
    (sized : Sized state.config body) :
    (post state username room (.ok body)).run =
      (store (postMessage ⟨room⟩ username body.body) >>= fun posted =>
        (pure { status := 201, body := .posted posted } : Handler Response)).run := by
  obtain ⟨small, full⟩ := sized
  simp only [post, json, Except.mapError, run_except_bind, onOk_ok, if_neg small, full]
  rfl

end Outcomes

/-! ### The routes as they are documented -/

/-- A request to the message routes, as its extractors read it. -/
inductive MessagesCall
  | list (room : ℕ) (page : Page)
  | post (room : ℕ) (body : PostMessageRequest)

/-- What a request asks of the message routes, when it parses. -/
def Request.call (req : Request) : Option MessagesCall :=
  match route req.path, req.method with
  | some (.messages id), .get => do return .list (← pathId id) (← Page.ofQuery req.query)
  | some (.messages id), .post => do return .post (← pathId id) (← req.body.postMessage.toOption)
  | _, _ => none

namespace MessagesCall

/-- The room is in none of the states that the request's steps meet. -/
def Absent (room : ℕ) (met : List (Moment × World)) : Prop :=
  ∀ pair ∈ met, ¬ pair.2.HasRoom room

/-- The room is there when the second step of the request looks for it. -/
def Present (room : ℕ) (met : List (Moment × World)) : Prop :=
  ∃ pair ∈ met[1]?, pair.2.HasRoom room

/-- **The routes as documented**, `met` being what the steps of the request have met: a room that
is not there is answered 404, a page of one that is there is the page of its log, and no answer
is the server's own failure. -/
def Served (config : Config) (call : MessagesCall) (met : List (Moment × World))
    (response : Response) : Prop :=
  response.status ≠ 500 ∧
    match call with
    | list room page =>
        (Absent room met → response = ApiError.roomNotFound.intoResponse) ∧
          (Present room met → ∀ query, page.asked = some query → ∃ pair ∈ met[2]?,
            response = messagesFound (query.page (pair.2.db.log ⟨room⟩)))
    | post room body =>
        Sized config body → Absent room met → response = ApiError.roomNotFound.intoResponse

/-- **Every value the request gives fits**: the room id, the cursor of a page of a room that is
there, and, for a message that is to be stored, the clock and one more position. -/
def Fits (config : Config) (call : MessagesCall) (met : List (Moment × World)) : Prop :=
  match call with
  | list room page =>
      room ≤ i64Max ∧ (Present room met → ∀ query, page.asked = some query → query.Fits)
  | post room body =>
      Sized config body → room ≤ i64Max ∧ (∀ pair ∈ met[1]?, pair.1.now ≤ i64Max) ∧
        ∀ pair ∈ met[2]?, pair.2.db.messages.length < i64Max

variable {state : AppState} {req : Request} {met : List (Moment × World)}
  {r : Except Failure Response}

/-- The server's own failure is not how a route is documented to answer. -/
theorem not_served_internal {config : Config} {call : MessagesCall}
    (fails : r = .error (.api .internal)) : ¬ Served config call met (answerOf r) := by
  intro served
  rw [fails] at served
  exact served.1 rfl

theorem list_served_iff {id : String} {room : ℕ} {page : Page}
    (valid : ∀ pair ∈ met, pair.2.db.Valid) (works : ∀ pair ∈ met, pair.1.fails = false)
    (accepted : Accepted state req met) (at_room : pathId id = some room)
    (asks : Page.ofQuery req.query = some page)
    (h : (listMessages state req id).run.resume met = .ret r) :
    Served state.config (list room page) met (answerOf r)
      ↔ Fits state.config (list room page) met := by
  rcases authenticated_resume h with ⟨refused, -⟩ | ⟨-, m, w, later, rfl, -, rest⟩
  · exact absurd accepted refused
  rcases extract_resume rest with ⟨none, -⟩ | ⟨room', some, rest'⟩
  · cases none.symm.trans at_room
  cases some.symm.trans at_room
  rcases extract_resume rest' with ⟨none, -⟩ | ⟨page', some', ends⟩
  · cases none.symm.trans asks
  cases some'.symm.trans asks
  have later_valid : ∀ pair ∈ later, pair.2.db.Valid := fun pair mem =>
    valid pair (List.mem_cons_of_mem _ mem)
  have later_works : ∀ pair ∈ later, pair.1.fails = false := fun pair mem =>
    works pair (List.mem_cons_of_mem _ mem)
  rcases list_outcome later_valid later_works ends with ⟨unfit, rfl⟩ |
    ⟨fits, m₁, w₁, later₁, rfl, outcome⟩
  · exact iff_of_false (not_served_internal rfl) fun both => unfit both.1
  -- the second step has looked for the room, and found it or not
  have looked : Present room ((m, w) :: (m₁, w₁) :: later₁) ↔ w₁.HasRoom room := by
    simp [Present]
  rcases outcome with ⟨absent, rfl⟩ | ⟨there, outcome⟩
  · refine iff_of_true ⟨show (404 : ℕ) ≠ 500 by decide, fun _ => rfl, fun present => ?_⟩
      ⟨fits, fun present => ?_⟩
    · exact absurd (looked.mp present) absent
    · exact absurd (looked.mp present) absent
  have not_absent : ¬ Absent room ((m, w) :: (m₁, w₁) :: later₁) := fun absent =>
    absent (m₁, w₁) (by simp) there
  rcases outcome with ⟨none, rfl⟩ | ⟨query, asked, ⟨unfit, rfl⟩ | ⟨query_fits, m₂, w₂, later₂, rfl,
    rfl⟩⟩
  · refine iff_of_true ⟨show (400 : ℕ) ≠ 500 by decide, fun absent => absurd absent not_absent, ?_⟩
      ⟨fits, ?_⟩
    · exact fun _ query asked => absurd (none.symm.trans asked) nofun
    · exact fun _ query asked => absurd (none.symm.trans asked) nofun
  · refine iff_of_false (not_served_internal rfl) fun both => unfit ?_
    exact both.2 (looked.mpr there) query asked
  · refine iff_of_true ⟨show (200 : ℕ) ≠ 500 by decide, fun absent => absurd absent not_absent, ?_⟩
      ⟨fits, ?_⟩
    · intro _ query' asked'
      cases asked.symm.trans asked'
      exact ⟨(m₂, w₂), rfl, rfl⟩
    · intro _ query' asked'
      cases asked.symm.trans asked'
      exact query_fits

theorem post_served_iff {id : String} {room : ℕ} {body : PostMessageRequest}
    (valid : ∀ pair ∈ met, pair.2.db.Valid) (works : ∀ pair ∈ met, pair.1.fails = false)
    (accepted : Accepted state req met) (at_room : pathId id = some room)
    (sends : req.body.postMessage = .ok body)
    (h : (postMessages state req id).run.resume met = .ret r) :
    Served state.config (post room body) met (answerOf r)
      ↔ Fits state.config (post room body) met := by
  rcases authenticated_resume h with ⟨refused, -⟩ | ⟨username, m, w, later, rfl, -, rest⟩
  · exact absurd accepted refused
  rcases extract_resume rest with ⟨none, -⟩ | ⟨room', some, ends⟩
  · cases none.symm.trans at_room
  cases some.symm.trans at_room
  rw [sends] at ends
  by_cases sized : Sized state.config body
  swap
  · obtain ⟨e, rfl, other⟩ := post_unsized sized ends
    exact iff_of_true ⟨other, fun sized' => absurd sized' sized⟩ fun sized' => absurd sized' sized
  rw [post_sized sized] at ends
  have later_valid : ∀ pair ∈ later, pair.2.db.Valid := fun pair mem =>
    valid pair (List.mem_cons_of_mem _ mem)
  have later_works : ∀ pair ∈ later, pair.1.fails = false := fun pair mem =>
    works pair (List.mem_cons_of_mem _ mem)
  rcases postMessage_outcome later_valid later_works ends with ⟨unfit, rfl⟩ |
    ⟨fits, m₁, w₁, later₁, rfl, ⟨late, rfl⟩ | ⟨clock, m₂, w₂, later₂, rfl, outcome⟩⟩
  · exact iff_of_false (not_served_internal rfl) fun fits => unfit (fits sized).1
  · exact iff_of_false (not_served_internal rfl) fun fits => late ((fits sized).2.1 (m₁, w₁) rfl)
  have reads : ∀ pair ∈ ((m, w) :: (m₁, w₁) :: (m₂, w₂) :: later₂)[1]?, pair.1.now ≤ i64Max := by
    rintro pair ⟨⟩
    exact clock
  rcases outcome with ⟨full, rfl⟩ | ⟨left, outcome⟩
  · exact iff_of_false (not_served_internal rfl) fun fits => full ((fits sized).2.2 (m₂, w₂) rfl)
  have rows : ∀ pair ∈ ((m, w) :: (m₁, w₁) :: (m₂, w₂) :: later₂)[2]?,
      pair.2.db.messages.length < i64Max := by
    rintro pair ⟨⟩
    exact left
  rcases outcome with ⟨-, rfl⟩ | ⟨there, rfl⟩
  · exact iff_of_true ⟨show (404 : ℕ) ≠ 500 by decide, fun _ _ => rfl⟩
      fun _ => ⟨fits, reads, rows⟩
  · refine iff_of_true ⟨show (201 : ℕ) ≠ 500 by decide, fun _ absent => ?_⟩
      fun _ => ⟨fits, reads, rows⟩
    exact absurd there (absent (m₂, w₂) (by simp))

/-- What a request to the message routes is: its method, its path, and how it parses. -/
theorem call_eq_some {call : MessagesCall} (h : req.call = some call) :
    (∃ id room page, route req.path = some (.messages id) ∧ req.method = .get ∧
        pathId id = some room ∧ Page.ofQuery req.query = some page ∧ call = list room page) ∨
      ∃ id room body, route req.path = some (.messages id) ∧ req.method = .post ∧
        pathId id = some room ∧ req.body.postMessage = .ok body ∧ call = post room body := by
  unfold Request.call at h
  split at h
  next id at_route method =>
    obtain ⟨room, at_room, h⟩ := Option.bind_eq_some_iff.mp h
    obtain ⟨page, asks, h⟩ := Option.bind_eq_some_iff.mp h
    cases h
    exact Or.inl ⟨id, room, page, at_route, method, at_room, asks, rfl⟩
  next id at_route method =>
    obtain ⟨room, at_room, h⟩ := Option.bind_eq_some_iff.mp h
    obtain ⟨body, sends, h⟩ := Option.bind_eq_some_iff.mp h
    cases h
    refine Or.inr ⟨id, room, body, at_route, method, at_room, ?_, rfl⟩
    cases sent : req.body.postMessage with
    | error text =>
        rw [sent] at sends
        cases sends
    | ok body' =>
        rw [sent] at sends
        cases sends
        rfl
  next => cases h

/-- **The message routes answer as documented exactly when every value fits**: in every run of a
server that has been started over a directory, for every request to them that parses and is
accepted, as long as the database does not fail. -/
theorem served_iff {crypto : Crypto} {events : List HostEvent} {h : Host}
    (ran : Host.Ran crypto events h) {state : AppState} (started : h.running = some (state, []))
    {ls : List (Label Request Moment)} {p : ServerPool}
    (served : run (serve state) (Pool.idle h.world) ls = some p) {k : ℕ} {req : Request}
    {response : Response} (ret : p.Returned k req response) {call : MessagesCall}
    (calls : req.call = some call)
    (accepted : Accepted state req (Pool.met (handle state) k (Pool.idle h.world) ls))
    (works : ∀ pair ∈ Pool.met (handle state) k (Pool.idle h.world) ls, pair.1.fails = false) :
    Served state.config call (Pool.met (handle state) k (Pool.idle h.world) ls) response ↔
      Fits state.config call (Pool.met (handle state) k (Pool.idle h.world) ls) := by
  obtain ⟨-, sound⟩ := ran.sound.running state [] started
  have valid : ∀ pair ∈ Pool.met (handle state) k (Pool.idle h.world) ls, pair.2.db.Valid :=
    Pool.met_invariant (P := fun w : World => w.db.Valid) served
      (fun ms q ran => (run_invariant (P := ServerSound state)
        (fun _ _ _ step sound => ServerSound.step sound step) ran sound).inv) k
  obtain ⟨n, found⟩ := ret
  have ends := Pool.resume_met served found
  dsimp only at ends
  rcases call_eq_some calls with ⟨id, room, page, at_route, method, at_room, asks, rfl⟩ |
    ⟨id, room, body, at_route, method, at_room, sends, rfl⟩
  · simp only [handle, at_route, method] at ends
    obtain ⟨r, ends', rfl⟩ := Prog.ret_of_resume_map ends
    exact list_served_iff valid works accepted at_room asks ends'
  · simp only [handle, at_route, method] at ends
    obtain ⟨r, ends', rfl⟩ := Prog.ret_of_resume_map ends
    exact post_served_iff valid works accepted at_room sends ends'

end MessagesCall

namespace Sample

/-- Alice asks for what is newer than a cursor. -/
def readingAfter (id cursor : String) : Request :=
  { reading id with query := [("after_seq", cursor)] }

/-- She has posted, and then asks. -/
def readingAfterRun (id cursor : String) : List (Label Request Moment) :=
  session "alice" ++
    [.spawn (readingAfter id cursor), .advance 3 {}, .advance 3 {}, .advance 3 {}]

end Sample

open MessagesCall in
/-- What is newer than the start: her message. -/
theorem served_iff_reading : ∃ (h : Host) (p : ServerPool) (response : Response),
    run (serve Sample.state) (Pool.idle h.world) (Sample.readingAfterRun "1" "0") = some p ∧
      p.Returned 3 (Sample.readingAfter "1" "0") response ∧
        response = messagesFound [⟨⟨1⟩, "alice", "hi", ⟨0⟩⟩] ∧
          (Served Sample.state.config (.list 1 ⟨none, some 0, none⟩)
              (Pool.met (handle Sample.state) 3 (Pool.idle h.world)
                (Sample.readingAfterRun "1" "0")) response ↔
            Fits Sample.state.config (.list 1 ⟨none, some 0, none⟩)
              (Pool.met (handle Sample.state) 3 (Pool.idle h.world)
                (Sample.readingAfterRun "1" "0"))) := by
  obtain ⟨h, p, response, ran, started, served, ret, answer, accepted, works⟩ :
      ∃ (h : Host) (p : ServerPool) (response : Response), Host.Ran .plain [Host.starts] h ∧
        h.running = some (Sample.state, []) ∧
          run (serve Sample.state) (Pool.idle h.world) (Sample.readingAfterRun "1" "0")
            = some p ∧
            p.Returned 3 (Sample.readingAfter "1" "0") response ∧
              response = messagesFound [⟨⟨1⟩, "alice", "hi", ⟨0⟩⟩] ∧
                Accepted Sample.state (Sample.readingAfter "1" "0")
                  (Pool.met (handle Sample.state) 3 (Pool.idle h.world)
                    (Sample.readingAfterRun "1" "0")) ∧
                  ∀ pair ∈ Pool.met (handle Sample.state) 3 (Pool.idle h.world)
                    (Sample.readingAfterRun "1" "0"), pair.1.fails = false :=
    ⟨_, _, _, rfl, rfl, rfl, ⟨3, rfl⟩, rfl, ⟨"alice", rfl⟩, by decide⟩
  exact ⟨h, p, response, served, ret, answer, served_iff ran started served ret rfl accepted works⟩

/-- A room id that no column holds: the room is not there, the database works, and the answer is
a 500. -/
theorem not_served_room : ∃ (h : Host) (p : ServerPool) (response : Response),
    Host.Ran .plain [Host.starts] h ∧ h.running = some (Sample.state, []) ∧
      run (serve Sample.state) (Pool.idle h.world) (Sample.readingRun "9223372036854775808")
        = some p ∧
        p.Returned 3 (Sample.reading "9223372036854775808") response ∧ response.status = 500 ∧
          (Sample.reading "9223372036854775808").call = some (.list (2 ^ 63) ⟨none, none, none⟩) ∧
            Accepted Sample.state (Sample.reading "9223372036854775808")
              (Pool.met (handle Sample.state) 3 (Pool.idle h.world)
                (Sample.readingRun "9223372036854775808")) ∧
              (∀ pair ∈ Pool.met (handle Sample.state) 3 (Pool.idle h.world)
                (Sample.readingRun "9223372036854775808"), pair.1.fails = false) ∧
                ¬ MessagesCall.Served Sample.state.config (.list (2 ^ 63) ⟨none, none, none⟩)
                  (Pool.met (handle Sample.state) 3 (Pool.idle h.world)
                    (Sample.readingRun "9223372036854775808")) response :=
  ⟨_, _, _, rfl, rfl, rfl, ⟨1, rfl⟩, rfl, rfl, ⟨"alice", rfl⟩, by decide,
    MessagesCall.not_served_internal rfl⟩

end ScionChat
