import ScionChat.Server.Host
import ScionChat.Server.Store.Readers

/-!
# Every request is one moment

The handlers take several steps each: a token is checked, a password is hashed, a room is looked
up, and only then is the database asked for what the request is about.  Any number of requests
interleave between these steps.

Every request is still served as if it had been alone at one moment of its own
(`handle_oneMoment`), because what a step has found out before that moment stays so: a token that
was accepted is accepted again, a room that is there stays, an account keeps its hash.
`server_linearizable` puts those moments into one order for every run of a server.

### design decisions

* **One exception, and it is stated.**  `create_room` inserts the room, and looks it up again in a
  second statement to answer with it.  A message that is posted in between is counted in the
  `latest_seq` of a room that was created just now.  `Response.forgetFresh` leaves that one number
  out of a 201, and `server_linearizable_race` is a run in which it differs; every other response
  is the same to the letter.
* **The moment is the step that decides.**  For a request that writes it is the step that does, and
  for one that reads the statement that reads.  A request that is refused by what it brings has its
  moment in its first step.

### What is load-bearing

That the server's facts only ever become truer: tables that only grow, a ledger that forgets
nothing, expiry that is asked of the clock of the step and never of the past.
`authenticate_again`, `selectRoomExists_again` and `selectPwHash_again` are the three that requests
rest on.
-/

namespace ScionChat

open Interleaving TransitionSystem Column Sql

/-- The contract of a server, whatever its database and its clock do.  Nothing is admitted or
excluded, so what holds under it holds of every run. -/
def faultyWorld : Contract Moment World :=
  worldContract fun _ => True

/-- A response, up to the position a room that has just been created is shown with. -/
def Response.forgetFresh (response : Response) : Response :=
  match response.status, response.body with
  | 201, .room room => { response with body := .room { room with latestSeq := Seq.START } }
  | _, _ => response

/-- **The request, served at once** from the world `w`, is answered so and leaves `w'`.  What
`Response.forgetFresh` leaves out, the `latest_seq` of a room that has just been created, is the
one thing in which the answer may differ. -/
abbrev ServedAtOnce (state : AppState) (req : Request) : World → Response → World → Prop :=
  (handle state req).AtOnce Response.forgetFresh

/-! ### What a step has found out stays so -/

/-- A token that was accepted is accepted again, at the same time by the clock. -/
theorem authenticate_again {state : AppState} {authorization : Option (List UInt8)} {now : ℕ}
    {issued issued' : List Issued} {username : String} (grows : issued <+: issued')
    (h : authenticate state authorization now issued = .ok username) :
    authenticate state authorization now issued' = .ok username := by
  obtain ⟨token, sent, verified⟩ := authenticate_eq_ok state h
  obtain ⟨more, rfl⟩ := grows
  have again : state.tokens.verify token now (issued ++ more) = .ok username := by
    rw [← verified, Tokens.verify, Tokens.verify, Tokens.decode, Tokens.decode, List.find?_append]
    cases found : issued.find? fun entry =>
        entry.secret = state.tokens.secret ∧ entry.token = token with
    | none =>
        rw [Tokens.verify, Tokens.decode, found] at verified
        cases verified
    | some entry => rfl
  simp only [authenticate, sent, again]

/-- A room that is there is there again. -/
theorem selectRoomExists_again {s t : Db} (grows : s.Extends t) {id : ℤ}
    (there : selectRoomExists id s = true) : selectRoomExists id t = true := by
  simp only [selectRoomExists, decide_eq_true_eq] at there ⊢
  obtain ⟨row, mem, same⟩ := there
  exact ⟨row, grows.room mem, same⟩

/-- An account that is there keeps its hash. -/
theorem selectPwHash_again {s t : Db} (valid : t.Valid) (grows : s.Extends t)
    {username phc : String} (there : selectPwHash username s = some phc) :
    selectPwHash username t = some phc := by
  obtain ⟨row, found, rfl⟩ := Option.map_eq_some_iff.mp there
  have named : NoCase row.username username := by simpa using List.find?_some found
  exact Db.selectPwHash_of_mem valid (grows.user (List.mem_of_find?_eq_some found)) named

/-! ### The parts of a handler -/

/-- The handler is one moment, whatever is served at the same time. -/
def IsOneMoment (handler : Handler Response) : Prop :=
  ∀ w₀ : World, w₀.db.Valid →
    handler.run.OneMoment faultyWorld (Except.map Response.forgetFresh) w₀

section Parts

variable {α β γ : Type}

theorem oneMoment_pure (response : Response) : IsOneMoment (pure response : Handler Response) :=
  fun _ _ => Prog.oneMoment_ret ({} : Moment) _ _

theorem oneMoment_refuse_bind (error : ApiError) (f : α → Handler Response) :
    IsOneMoment (refuse error >>= f) :=
  fun _ _ => Prog.oneMoment_ret ({} : Moment) _ _

theorem oneMoment_except_bind {r : Except Failure α} {f : α → Handler Response}
    (rest : ∀ a, IsOneMoment (f a)) : IsOneMoment ((liftM r : Handler α) >>= f) := by
  intro w₀ valid
  rw [run_except_bind]
  cases r with
  | ok a => exact rest a w₀ valid
  | error e => exact Prog.oneMoment_ret ({} : Moment) _ _

/-- A step that only looks, and what follows it: it either ends the handler, or would find the
same again. -/
theorem oneMoment_look_bind {answer : Moment → World → Except Failure α} {f : α → Handler Response}
    (h : ∀ m w, w.db.Valid → (∃ r, onOk f (answer m w) = .ret r) ∨
      ∃ a, answer m w = .ok a ∧
        (∀ w' : World, w'.db.Valid → w.Extends w' → answer m w' = .ok a) ∧ IsOneMoment (f a)) :
    IsOneMoment (tryAtomically (fun m w => (answer m w, w)) >>= f) := by
  intro w₀ _
  rw [run_tryAtomically_bind]
  refine Prog.oneMoment_step fun m w _ valid _ => ?_
  rcases h m w valid with ⟨r, returns⟩ | ⟨a, found, again, rest⟩
  · exact Or.inl (Prog.lands_of_ret m returns _)
  · refine Or.inr ⟨fun w' valid' grows => ⟨rfl, ?_⟩, ?_⟩
    · show onOk f (answer m w') = onOk f (answer m w)
      rw [found, again w' valid' grows]
    · show (onOk f (answer m w)).OneMoment _ _ w
      rw [found]
      exact rest w valid

theorem oneMoment_authenticated_bind {state : AppState} {authorization : Option (List UInt8)}
    {f : String → Handler Response} (rest : ∀ username, IsOneMoment (f username)) :
    IsOneMoment (authenticated state authorization >>= f) := by
  refine oneMoment_look_bind fun m w _ => ?_
  cases accepted : authenticate state authorization m.now w.issued with
  | error e => exact Or.inl ⟨_, rfl⟩
  | ok username =>
      refine Or.inr ⟨username, rfl, fun w' _ grows => ?_, rest username⟩
      rw [authenticate_again grows.issued accepted]
      rfl

/-- A query that takes one look, inside a handler. -/
theorem store_eq_look {query : Query α} {answer : Moment → Db → Except StoreError α}
    (run : query.run = .step (fun _ db => db) fun m db => .ret (answer m db)) :
    store query = tryAtomically fun m w =>
      ((answer m w.db).mapError fun e => .api (.ofStore e), w) := by
  refine ExceptT.ext ?_
  rw [store, run_inside, run]
  rfl

/-- A query that ends the handler: what is answered only depends on what it answers. -/
theorem oneMoment_store_bind {forget : α → β} {query : Query α}
    (h : Query.OneMoment forget query) {f : α → Handler Response}
    (respond : α → Except Failure Response) (ends : ∀ a, (f a).run = .ret (respond a))
    (blind : ∀ a a', forget a = forget a' →
      (respond a).map Response.forgetFresh = (respond a').map Response.forgetFresh) :
    IsOneMoment (store query >>= f) := by
  intro w₀ valid
  have whole : (store query >>= f).run = (fun r =>
      (r.mapError fun e => Failure.api (.ofStore e)).bind respond) <$>
        query.run.focus World.db World.withDb := by
    rw [run_bind, store, run_inside, bind_map_left]
    refine congrArg (query.run.focus World.db World.withDb >>= ·) (funext fun r => ?_)
    cases r with
    | error e => rfl
    | ok a => exact ends a
  have inside : (query.run.focus World.db World.withDb).OneMoment faultyWorld (Except.map forget)
      w₀ := by
    refine Prog.OneMoment.focus ?lower ?lowerRel World.withDb_self World.db_withDb
      (fun _ _ _ => rfl) (h w₀.db)
    case lower => exact fun m w ok valid => ⟨ok, valid⟩
    case lowerRel => exact fun w w' grows => grows.db
  rw [whole]
  refine Prog.OneMoment.map _ (fun r r' same => ?_) valid inside
  cases r with
  | error e =>
      cases r' with
      | error e' => rw [Except.error.inj same]
      | ok a' => cases same
  | ok a =>
      cases r' with
      | error e' => cases same
      | ok a' => exact blind a a' (Except.ok.inj same)

theorem oneMoment_store_ends {query : Query α} (h : Query.OneMoment id query)
    {f : α → Handler Response} (respond : α → Except Failure Response)
    (ends : ∀ a, (f a).run = .ret (respond a)) : IsOneMoment (store query >>= f) :=
  oneMoment_store_bind h respond ends fun _ _ same =>
    congrArg (fun a => (respond a).map Response.forgetFresh) same

/-- Looking a room up, before what is asked of it. -/
theorem oneMoment_roomExists_bind {room : RoomId} {f : Bool → Handler Response}
    (missing : ∃ r, (f false).run = .ret r) (rest : IsOneMoment (f true)) :
    IsOneMoment (store (roomExists room) >>= f) := by
  have run := roomExists_run room
  cases column : toColumn "room id" room.get with
  | error e =>
      rw [column] at run
      intro w₀ _
      have ends : (store (roomExists room) >>= f).run = .ret (.error (.api (.ofStore e))) := by
        rw [run_bind, store, run_inside, run]
        rfl
      rw [ends]
      exact Prog.oneMoment_ret ({} : Moment) _ _
  | ok id =>
      rw [column] at run
      rw [store_eq_look run]
      refine oneMoment_look_bind fun m w _ => ?_
      rcases Bool.eq_false_or_eq_true m.fails with fails | works
      · simp only [fetched, fails]
        exact Or.inl ⟨_, rfl⟩
      · simp only [fetched_of_works works, Except.mapError, onOk_ok]
        cases there : selectRoomExists id w.db with
        | false => exact Or.inl missing
        | true =>
            refine Or.inr ⟨true, rfl, fun w' _ grows => ?_, rest⟩
            rw [selectRoomExists_again grows.db there]

end Parts

/-! ### Every handler -/

section Handlers

variable (state : AppState) (req : Request)

/-- How a registration is answered. -/
def registrationResponse : Registration → Except Failure Response
  | .created => .ok registered
  | .usernameTaken =>
      .error (.api ⟨409, .usernameTaken, "that username is already registered"⟩)

theorem register_oneMoment : IsOneMoment (register state req) := by
  refine oneMoment_except_bind fun body => oneMoment_except_bind fun username => ?_
  refine oneMoment_look_bind fun m w _ => ?_
  -- hashing reads a salt, and nothing that a request could change
  cases hashed : hashPassword state.crypto body.password m.salt with
  | error e => exact Or.inl ⟨_, rfl⟩
  | ok hash =>
      refine Or.inr ⟨hash, rfl, fun _ _ _ => rfl, ?_⟩
      refine oneMoment_store_ends (insertUser_oneMoment username hash state.config.maxAccounts)
        registrationResponse fun outcome => ?_
      cases outcome <;> rfl

theorem store_passwordHash (username : String) :
    store (passwordHash username) = tryAtomically fun m w =>
      ((fetched (selectPwHash username) m w.db).mapError fun e => .api (.ofStore e), w) :=
  store_eq_look (run_fetch _)

theorem login_oneMoment : IsOneMoment (login state req) := by
  refine oneMoment_except_bind fun body => ?_
  rw [store_passwordHash]
  refine oneMoment_look_bind fun m w valid => ?_
  rcases Bool.eq_false_or_eq_true m.fails with fails | works
  · simp only [fetched, fails]
    exact Or.inl ⟨_, rfl⟩
  · simp only [fetched_of_works works, Except.mapError, onOk_ok]
    cases verified :
        verifyPassword state.crypto body.password (selectPwHash body.username w.db) with
    | false =>
        exact Or.inl ⟨_, rfl⟩
    | true =>
        obtain ⟨phc, there, -⟩ := verifyPassword_eq_true verified
        refine Or.inr ⟨some phc, by rw [there], fun w' valid' grows => ?_, ?_⟩
        · rw [selectPwHash_again valid' grows.db there]
        · rw [there] at verified
          simp only [verified]
          intro w₀ _
          show (tryAtomically _ >>= _ : Handler Response).run.OneMoment _ _ _
          rw [run_tryAtomically_bind]
          refine Prog.oneMoment_step fun m' w' _ _ _ => Or.inl ?_
          cases (state.tokens.issue state.crypto body.username m'.now w'.issued).1 with
          | error e => exact Prog.lands_of_ret m' rfl _
          | ok reply => exact Prog.lands_of_ret m' rfl _

theorem listRooms_handler_oneMoment : IsOneMoment (listRoomsHandler state req) := by
  refine oneMoment_authenticated_bind fun _ => ?_
  exact oneMoment_store_ends listRooms_oneMoment
    (fun rooms => .ok { status := 200, body := .rooms ⟨rooms⟩ }) fun _ => rfl

/-- How a creation is answered. -/
def creationResponse : RoomCreation → Except Failure Response
  | .created room => .ok (created room)
  | .existing room => .ok { status := 200, body := .room room }

theorem creationResponse_forgetFresh (outcome : RoomCreation) :
    (creationResponse outcome.forgetFresh).map Response.forgetFresh
      = (creationResponse outcome).map Response.forgetFresh := by
  cases outcome <;> rfl

theorem createRoom_handler_oneMoment : IsOneMoment (createRoomHandler state req) := by
  refine oneMoment_authenticated_bind fun _ => oneMoment_except_bind fun body =>
    oneMoment_except_bind fun name => ?_
  refine oneMoment_store_bind (createRoom_oneMoment name state.config.maxRooms)
    creationResponse (fun outcome => ?_) fun outcome outcome' same => ?_
  · cases outcome <;> rfl
  · rw [← creationResponse_forgetFresh outcome, same, creationResponse_forgetFresh outcome']

theorem list_oneMoment (room : ℕ) (page : Page) : IsOneMoment (list room page) := by
  have pages : ∀ (q : PageQuery) (room : RoomId),
      IsOneMoment (store (q.query room) >>= fun messages =>
        (pure { status := 200, body := .messages ⟨messages⟩ } : Handler Response)) := fun q room =>
    oneMoment_store_ends (q.oneMoment room)
      (fun messages => .ok { status := 200, body := .messages ⟨messages⟩ }) fun _ => rfl
  refine oneMoment_roomExists_bind ⟨_, rfl⟩ ?_
  rcases page with ⟨limit, _ | cursor, _ | cursor'⟩
  · exact pages (.newest _) ⟨room⟩
  · exact pages (.before ⟨cursor'⟩ _) ⟨room⟩
  · exact pages (.after ⟨cursor⟩ _) ⟨room⟩
  · exact oneMoment_refuse_bind _ _

theorem listMessages_oneMoment (id : String) : IsOneMoment (listMessages state req id) :=
  oneMoment_authenticated_bind fun _ => oneMoment_except_bind fun room =>
    oneMoment_except_bind fun page => list_oneMoment room page

theorem post_oneMoment (username : String) (room : ℕ) (body : Except String PostMessageRequest) :
    IsOneMoment (post state username room body) := by
  refine oneMoment_except_bind fun body => ?_
  have posts : IsOneMoment (store (postMessage ⟨room⟩ username body.body) >>= fun posted =>
      (pure { status := 201, body := .posted posted } : Handler Response)) :=
    oneMoment_store_ends (postMessage_oneMoment ⟨room⟩ username body.body)
      (fun posted => .ok { status := 201, body := .posted posted }) fun _ => rfl
  by_cases large : state.config.maxMessageBytes.toNat < body.body.utf8ByteSize
  · simp only [if_pos large]
    exact oneMoment_refuse_bind _ _
  · simp only [if_neg large]
    by_cases empty : body.body.isEmpty = true
    · simp only [if_pos empty]
      exact oneMoment_refuse_bind _ _
    · simp only [if_neg empty]
      exact posts

theorem postMessages_oneMoment (id : String) : IsOneMoment (postMessages state req id) :=
  oneMoment_authenticated_bind fun username => oneMoment_except_bind fun room =>
    post_oneMoment state username room req.body.postMessage

theorem answerOf_blind {r r' : Except Failure Response}
    (same : r.map Response.forgetFresh = r'.map Response.forgetFresh) :
    (answerOf r).forgetFresh = (answerOf r').forgetFresh := by
  cases r with
  | error e =>
      cases r' with
      | error e' => rw [Except.error.inj same]
      | ok response' => cases same
  | ok response =>
      cases r' with
      | error e' => cases same
      | ok response' => exact Except.ok.inj same

/-- Forgetting the position leaves the status and the location. -/
theorem stripped_forgetFresh (response : Response) :
    response.forgetFresh.stripped = response.stripped := by
  unfold Response.forgetFresh
  split <;> rfl

/-- **Every request is one moment**, whatever is served at the same time.  It holds in any state of
the tables that is valid, and with statements that fail. -/
theorem handle_oneMoment (w₀ : World) (valid : w₀.db.Valid) :
    (handle state req).OneMoment faultyWorld Response.forgetFresh w₀ := by
  have responds : ∀ handler, IsOneMoment handler →
      handler.respond.OneMoment faultyWorld Response.forgetFresh w₀ := fun handler moment =>
    (moment w₀ valid).map answerOf (fun _ _ => answerOf_blind) valid
  have strips : ∀ handler, IsOneMoment handler →
      (Response.stripped <$> handler.respond).OneMoment faultyWorld Response.forgetFresh w₀ := by
    refine fun handler moment => (responds handler moment).map _ (fun r r' same => ?_) valid
    rw [← stripped_forgetFresh r, same, stripped_forgetFresh r']
  have refused : ∀ response : Response,
      (.ret response : Prog Moment World Response).OneMoment faultyWorld Response.forgetFresh w₀ :=
    fun response => Prog.oneMoment_ret ({} : Moment) response w₀
  rw [handle]
  cases route req.path with
  | none => exact refused _
  | some r =>
      cases req.method with
      | get =>
          rcases r with _ | _ | _ | _ | _ | id
          · exact responds _ (oneMoment_pure _)
          · exact responds _ (oneMoment_pure _)
          · exact refused _
          · exact refused _
          · exact responds _ (listRooms_handler_oneMoment state req)
          · exact responds _ (listMessages_oneMoment state req id)
      | head =>
          rcases r with _ | _ | _ | _ | _ | id
          · exact strips _ (oneMoment_pure _)
          · exact strips _ (oneMoment_pure _)
          · exact refused _
          · exact refused _
          · exact strips _ (listRooms_handler_oneMoment state req)
          · exact strips _ (listMessages_oneMoment state req id)
      | post =>
          rcases r with _ | _ | _ | _ | _ | id
          · exact refused _
          · exact refused _
          · exact responds _ (register_oneMoment state req)
          · exact responds _ (login_oneMoment state req)
          · exact responds _ (createRoom_handler_oneMoment state req)
          · exact responds _ (postMessages_oneMoment state req id)
      | other name => exact refused _

end Handlers

/-! ### The server, whatever it is asked -/

/-- The history explains the run of a server from the world `w` along `ls` to `q`. -/
abbrev ServerHistory (state : AppState) (w : World) (ls : List (Label Request Moment))
    (q : ServerPool) (history : List (Entry Request World)) : Prop :=
  Linearization (handle state) (ServedAtOnce state) w ls q history

theorem admitted_faultyWorld (l : Label Request Moment) : Pool.Admitted faultyWorld l := by
  cases l <;> exact trivial

theorem server_linearizable_of_valid {state : AppState} {w : World} (valid : w.db.Valid)
    {ls : List (Label Request Moment)} {q : ServerPool}
    (served : run (serve state) (Pool.idle w) ls = some q) :
    ∃ history, ServerHistory state w ls q history :=
  Pool.linearizable (fun req w _ => handle_meets state req w)
    (fun req w valid => handle_oneMoment state req w valid) (i := ({} : Moment)) trivial valid
    (fun l _ => admitted_faultyWorld l) served

/-- **The API is linearizable**: in every run of a server that has been started over a
directory, whatever ran over it before, however the steps of its requests interleave and
whatever fails, the requests that have taken effect are, served one after the other and each at
once, what led from the tables and the tokens it started with to those there are; each was
answered as it is answered there; and a request that had been answered before another one
arrived comes before it.  The answers are compared up to the position that a room is shown with in
the 201 to its own creation (`Response.forgetFresh`): the handler reads it in a statement behind the
insert, and a message may have been posted to the room in between. -/
theorem server_linearizable {crypto : Crypto} {events : List HostEvent} {h : Host}
    (ran : Host.Ran crypto events h) {state : AppState} (started : h.running = some (state, []))
    {ls : List (Label Request Moment)} {q : ServerPool}
    (served : run (serve state) (Pool.idle h.world) ls = some q) :
    ∃ history, ServerHistory state h.world ls q history :=
  server_linearizable_of_valid (ran.sound.running state [] started).2.inv served

/-- Once Alice has posted, two more of her posts race, and the later one lands first. -/
def Sample.race : List (Label Request Moment) :=
  Sample.session "alice" ++ [.spawn (Sample.post "alice.604800" "one"), .advance 3 {},
    .spawn (Sample.post "alice.604800" "two"), .advance 4 {}, .advance 4 {}, .advance 3 {},
    .advance 4 {}, .advance 3 {}]

/-- Two posts that race are in the history in the order in which they have landed. -/
theorem server_linearizable_race : ∃ (h : Host) (q : ServerPool) (history : _),
    run (serve Sample.state) (Pool.idle h.world) Sample.race = some q ∧
      q.state.db.messages.map (fun row => row.body) = ["hi", "two", "one"] ∧
        ServerHistory Sample.state h.world Sample.race q history := by
  obtain ⟨h, q, ran, started, served, landed⟩ : ∃ (h : Host) (q : ServerPool),
      Host.Ran .plain [Host.starts] h ∧ h.running = some (Sample.state, []) ∧
        run (serve Sample.state) (Pool.idle h.world) Sample.race = some q ∧
          q.state.db.messages.map (fun row => row.body) = ["hi", "two", "one"] :=
    ⟨_, _, rfl, rfl, rfl, rfl⟩
  obtain ⟨history, explains⟩ := server_linearizable ran started served
  exact ⟨h, q, history, served, landed, explains⟩

end ScionChat
