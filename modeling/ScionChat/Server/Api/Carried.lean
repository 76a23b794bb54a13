import ScionChat.Server.Api.Envelope
import ScionChat.Server.Api.Moments
import ScionChat.Server.Api.Sizes

/-!
# What a success has carried out

A request that is served at once and answered with a success has made one call on the store, at
once as well, and its answer is that call's.  The lemmas `*_carried` say so for each handler: who
was let in, which call it was, and what came of it.  A failure has carried out nothing that a
caller is told about.

* `served_messages` — what a request that is served at once adds to the messages: the row of a post
  that is answered so (`Posts.Row`), or nothing;
* `served_issued` — what it adds to the tokens: the one that a login hands out (`Hands`), or none;
* `refused_of_401` — a 401 comes from the header alone, where the rest of the handler gives none.

### design decisions

* **Run alone.**  The statements are about `exec`, one request with nobody in between.  That is
  enough, because every request that is answered is served so at one moment of its own; the moments
  and their order are the business of another module.
* **Both ways for the two calls that write a trace.**  For a post and a login, `postMessages_exec`
  and `login_exec` also say what a failure leaves, which is what it found.  Without that half a row
  in the tables could come from a request that was refused.

### What is load-bearing

`Posts.Row` and `Hands` name the request's own path, header and body.  A row or a token is thereby
tied to the bytes that were sent for it, and not to a name that happens to agree.
-/

namespace ScionChat

open Interleaving TransitionSystem Column

/-! ### Taking a handler apart -/

section Peeling

variable {α β : Type} {ω : ℕ → Moment} {w w' : World} {b : β}

theorem exec_authenticated_ok {state : AppState} {authorization : Option (List UInt8)}
    {f : String → Handler β}
    (h : (authenticated state authorization >>= f).run.exec ω w = (.ok b, w')) :
    ∃ username, authenticate state authorization (ω 0).now w.issued = .ok username ∧
      (f username).run.exec (fun n => ω (n + 1)) w = (.ok b, w') := by
  rw [authenticated, run_tryAtomically_bind, Prog.exec_step] at h
  cases accepted : authenticate state authorization (ω 0).now w.issued with
  | error e =>
      rw [accepted] at h
      cases h
  | ok username =>
      rw [accepted] at h
      exact ⟨username, rfl, h⟩

theorem exec_except_ok {r : Except Failure α} {f : α → Handler β}
    (h : ((liftM r : Handler α) >>= f).run.exec ω w = (.ok b, w')) :
    ∃ a, r = .ok a ∧ (f a).run.exec ω w = (.ok b, w') := by
  rw [run_except_bind] at h
  cases r with
  | error e => cases h
  | ok a => exact ⟨a, rfl, h⟩

theorem exec_store_then (query : Query α) (f : α → Handler β) (ω : ℕ → Moment) (w : World) :
    ∃ n, (store query >>= f).run.exec ω w
      = (onOk f ((query.run.exec ω w.db).1.mapError fun e => .api (.ofStore e))).exec
          (fun k => ω (k + n)) (w.withDb (query.run.exec ω w.db).2) := by
  have put_put : ∀ s t, World.withDb t (World.withDb s w) = World.withDb t w := fun _ _ => rfl
  obtain ⟨n, whole⟩ := exec_inside_bind (World.withDb · w) (fun db => World.db_withDb db w) put_put
    (fun e => Failure.api (.ofStore e)) query f ω w.db
  rw [World.withDb_self] at whole
  exact ⟨n, whole⟩

theorem exec_store_ok {query : Query α} {f : α → Handler β}
    (h : (store query >>= f).run.exec ω w = (.ok b, w')) :
    ∃ a db n, query.run.exec ω w.db = (.ok a, db) ∧
      (f a).run.exec (fun k => ω (k + n)) (w.withDb db) = (.ok b, w') := by
  obtain ⟨n, whole⟩ := exec_store_then query f ω w
  rw [whole] at h
  cases result : query.run.exec ω w.db with
  | mk r db =>
      rw [result] at h
      cases r with
      | error e => cases h
      | ok a => exact ⟨a, db, n, rfl, h⟩

theorem exec_pure_ok {response : Response} {b : Response}
    (h : (pure response : Handler Response).run.exec ω w = (.ok b, w')) :
    b = response ∧ w' = w := by
  cases h
  exact ⟨rfl, rfl⟩

theorem exec_refuse_ok {error : ApiError} {f : α → Handler β}
    (h : (refuse error >>= f).run.exec ω w = (.ok b, w')) : False := by
  cases h

end Peeling

/-! ### What is not a success -/

/-- The part of a handler fails with what is not a success. -/
def Refuses {α : Type} (x : Handler α) : Prop :=
  x.run.Always fun r => ∀ e, r = .error e → ¬ (answerOf (.error e)).isSuccess

section Refusals

variable {α β : Type}

theorem FailsInApi.refuses {x : Handler α} (fails : FailsInApi x) : Refuses x := by
  refine Prog.Always.weaken (fun r api e same => ?_) fails
  obtain ⟨error, rfl, refuses⟩ := api e same
  exact not_success_api refuses

theorem Enveloped.refuses {handler : Handler Response} (enveloped : Enveloped handler) :
    Refuses handler :=
  FailsInApi.refuses (Prog.Always.weaken (fun _ h => h.2) enveloped)

theorem refuses_extract (extracted : Option α) : Refuses (extract extracted) := by
  cases extracted with
  | some a => exact fun _ => nofun
  | none =>
      intro e same
      obtain rfl := Except.error.inj same
      exact not_success_rejected

theorem refuses_bind {x : Handler α} {f : α → Handler β} (first : Refuses x)
    (rest : ∀ a, Refuses (f a)) : Refuses (x >>= f) := by
  refine always_run_bind (Prog.Always.weaken ?_ first) rest
  exact fun r fails e same e' same' => fails e' (by rw [same, Except.error.inj same'])

theorem success_forgetFresh {response answered : Response}
    (same : response.forgetFresh = answered.forgetFresh) (success : response.isSuccess) :
    answered.isSuccess := by
  have status : ∀ response : Response, response.forgetFresh.status = response.status := by
    intro response
    unfold Response.forgetFresh
    split <;> rfl
  rw [Response.isSuccess, ← status answered, ← same, status]
  exact success

/-- **A success comes from a handler that has ended well.** What axum makes of a failure is never a
success, so nothing else can lie behind one. -/
theorem exec_of_success {handler : Handler Response} (refuses : Refuses handler) {w w' : World}
    {response : Response}
    (served : handler.respond.AtOnce Response.forgetFresh w response w')
    (success : response.isSuccess) : ∃ ω answered, handler.run.exec ω w = (.ok answered, w') ∧
      response.forgetFresh = answered.forgetFresh := by
  obtain ⟨ω, answer, ran, same⟩ := served
  rw [Handler.respond, Prog.exec_map] at ran
  obtain ⟨rfl, rfl⟩ := Prod.mk.inj ran
  cases result : (handler.run.exec ω w).1 with
  | error e =>
      rw [result] at same
      exact absurd (success_forgetFresh same success) (Prog.always_exec refuses ω w e result)
  | ok answered =>
      rw [result] at same
      exact ⟨ω, answered, Prod.ext result rfl, same⟩

end Refusals

/-! ### What forgetting leaves -/

/-- Only a room is forgotten about, so any other answer is the one that was given. -/
theorem eq_of_forgetFresh {response answered : Response}
    (same : response.forgetFresh = answered.forgetFresh)
    (plain : ∀ room, answered.body ≠ .room room) : response = answered := by
  have kept : answered.forgetFresh = answered := by
    unfold Response.forgetFresh
    split
    next room _ body => exact absurd body (plain room)
    next => rfl
  rw [kept] at same
  unfold Response.forgetFresh at same
  split at same
  next room _ body =>
    subst same
    exact absurd rfl (plain _)
  next => exact same

/-! ### The handlers -/

section Handlers

variable {state : AppState} {req : Request} {ω : ℕ → Moment} {w w' : World} {response : Response}

/-- A store call that is the last of a handler was carried out at once. -/
theorem carriedOut_of_exec {α : Type} {op : StoreOp} {query : Query α} {wrap : α → StoreReply}
    {caps : Caps} (dispatch : op.query caps = wrap <$> query) {a : α} {s t : Db}
    (ran : query.run.exec ω s = (.ok a, t)) : CarriedOut caps op s (.ok (wrap a)) t := by
  refine ⟨ω, .ok (wrap a), ?_, rfl⟩
  rw [dispatch, exec_map_run, ran]
  rfl

theorem ok_of_json {α : Type} {body : Except String α} {a : α}
    (read : (body.mapError fun text => Failure.api (.ofJson text)) = .ok a) : body = .ok a :=
  ok_of_mapError read

/-- **A registration that succeeds** has added the account, under a hash of its password.  Its name
is one that `Username::parse` accepts. -/
theorem register_carried (h : (register state req).run.exec ω w = (.ok response, w')) :
    ∃ body hash salt, req.body.register = .ok body ∧ NameFits body.username ∧
      state.crypto.hash body.password salt = some hash ∧ response = registered ∧
        CarriedOut state.config.caps (.insertUser body.username hash) w.db
          (.ok (.registration .created)) w'.db ∧ w'.issued = w.issued := by
  obtain ⟨body, read, h⟩ := exec_except_ok h
  obtain ⟨username, parsed, h⟩ := exec_except_ok h
  obtain rfl := parseUsername_eq_ok (ok_of_mapError parsed)
  rw [run_tryAtomically_bind, Prog.exec_step] at h
  cases hashed : hashPassword state.crypto body.password (ω 0).salt with
  | error e =>
      rw [hashed] at h
      cases h
  | ok hash =>
      rw [hashed] at h
      obtain ⟨outcome, db, n, ran, h⟩ := exec_store_ok h
      cases outcome with
      | usernameTaken => cases h
      | created =>
          obtain ⟨rfl, rfl⟩ := exec_pure_ok h
          exact ⟨body, hash, _, ok_of_json read, nameFits_of_parse (ok_of_mapError parsed),
            hashPassword_eq_ok hashed, rfl, carriedOut_of_exec rfl ran, rfl⟩

/-- **A login that succeeds** has found the account's hash, and issued a token, of which it says
when it runs out.  The password fits that hash, and the token carries the name as it was typed. -/
theorem login_carried (valid : w.db.Valid)
    (h : (login state req).run.exec ω w = (.ok response, w')) :
    ∃ body phc reply now, req.body.login = .ok body ∧ response = loggedIn reply ∧
      CarriedOut state.config.caps (.passwordHash body.username) w.db (.ok (.hash (some phc)))
        w'.db ∧ verifyPassword state.crypto body.password (some phc) = true ∧
          w'.issued = w.issued ++
            [⟨state.tokens.secret, state.tokens.claims body.username now, reply.token⟩] ∧
            reply.expiresAt = ⟨state.tokens.expiresAt now % (u64Max + 1)⟩ := by
  obtain ⟨body, read, h⟩ := exec_except_ok h
  obtain ⟨stored, db, n, ran, h⟩ := exec_store_ok h
  cases verified : verifyPassword state.crypto body.password stored with
  | false =>
      simp only [verified] at h
      cases h
  | true =>
      obtain ⟨phc, rfl, -⟩ := verifyPassword_eq_true verified
      simp only [verified, Bool.not_true, Bool.false_eq_true, if_false] at h
      have looks := StoreOp.exec_of_looks (fun _ _ _ h => h)
        (passwordHash_meets body.username (fun _ => True) w.db) valid ω
      rw [ran] at looks
      rw [run_tryAtomically_bind, Prog.exec_step] at h
      simp only [Tokens.issue] at h
      cases encoded : state.crypto.encode state.tokens.secret
          (state.tokens.claims body.username (ω (0 + n)).now) with
      | none =>
          rw [encoded] at h
          cases h
      | some token =>
          rw [encoded] at h
          obtain ⟨rfl, rfl⟩ := exec_pure_ok h
          exact ⟨body, phc, _, _, ok_of_json read, rfl, carriedOut_of_exec rfl ran, verified, rfl,
            rfl⟩

/-- **A list of rooms** is the one of the tables.  Each room is listed with the position of its
newest message as it is then. -/
theorem listRooms_carried (h : (listRoomsHandler state req).run.exec ω w = (.ok response, w')) :
    ∃ rooms, response = { status := 200, body := .rooms ⟨rooms⟩ } ∧
      CarriedOut state.config.caps .listRooms w.db (.ok (.rooms rooms)) w'.db ∧
        w'.issued = w.issued := by
  obtain ⟨username, -, h⟩ := exec_authenticated_ok h
  obtain ⟨rooms, db, n, ran, h⟩ := exec_store_ok h
  obtain ⟨rfl, rfl⟩ := exec_pure_ok h
  exact ⟨rooms, rfl, carriedOut_of_exec rfl ran, rfl⟩

/-- **A creation that succeeds** answers with the room the store has.  Either it was there before,
or it is the row that has just been added. -/
theorem createRoom_carried (h : (createRoomHandler state req).run.exec ω w = (.ok response, w')) :
    ∃ body outcome, req.body.createRoom = .ok body ∧ creationResponse outcome = .ok response ∧
      CarriedOut state.config.caps (.createRoom body.name) w.db (.ok (.creation outcome)) w'.db ∧
        w'.issued = w.issued := by
  obtain ⟨username, -, h⟩ := exec_authenticated_ok h
  obtain ⟨body, read, h⟩ := exec_except_ok h
  obtain ⟨name, parsed, h⟩ := exec_except_ok h
  obtain ⟨outcome, db, n, ran, h⟩ := exec_store_ok h
  have same : name = body.name := by
    have := ok_of_mapError parsed
    simp only [parseRoomName] at this
    split at this
    · exact (Except.ok.inj this).symm
    · cases this
  subst same
  have ends : creationResponse outcome = .ok response ∧ w' = w.withDb db := by
    cases outcome <;>
    · obtain ⟨rfl, rfl⟩ := exec_pure_ok h
      exact ⟨rfl, rfl⟩
  obtain ⟨answer, rfl⟩ := ends
  exact ⟨body, outcome, ok_of_json read, answer, carriedOut_of_exec rfl ran, rfl⟩

/-- **A page** is what the store has for it, of a room that is there.  Which page it is, the query
says: the newest, the one after a cursor, or the one before it. -/
theorem listMessages_carried {id : String} (valid : w.db.Valid)
    (h : (listMessages state req id).run.exec ω w = (.ok response, w')) :
    ∃ room page query messages, pathId id = some room ∧ Page.ofQuery req.query = some page ∧
      page.asked = some query ∧ response = { status := 200, body := .messages ⟨messages⟩ } ∧
        CarriedOut state.config.caps (query.op ⟨room⟩) w.db (.ok (.page messages)) w'.db ∧
          w'.issued = w.issued := by
  obtain ⟨username, -, h⟩ := exec_authenticated_ok h
  obtain ⟨room, at_path, h⟩ := exec_except_ok h
  obtain ⟨page, asked, h⟩ := exec_except_ok h
  obtain ⟨found, db, n, looked, h⟩ := exec_store_ok h
  have same : db = w.db := by
    have looks := StoreOp.exec_of_looks (fun _ _ _ h => h.1)
      (roomExists_meets ⟨room⟩ (fun _ => True) w.db) valid fun n => ω (n + 1)
    rw [looked] at looks
    exact looks
  subst same
  cases found with
  | false => exact (exec_refuse_ok h).elim
  | true =>
      have reads : ∀ (query : PageQuery) {ω : ℕ → Moment},
          (store (query.query ⟨room⟩) >>= fun messages =>
            (pure { status := 200, body := .messages ⟨messages⟩ } : Handler Response)).run.exec ω
              (w.withDb w.db) = (.ok response, w') → ∃ messages,
                response = { status := 200, body := .messages ⟨messages⟩ } ∧
                  CarriedOut state.config.caps (query.op ⟨room⟩) w.db (.ok (.page messages)) w'.db ∧
                    w'.issued = w.issued := by
        intro query ω h
        obtain ⟨messages, db, m, ran, h⟩ := exec_store_ok h
        obtain ⟨rfl, rfl⟩ := exec_pure_ok h
        have dispatch : (query.op ⟨room⟩).query state.config.caps
            = StoreReply.page <$> query.query ⟨room⟩ := by
          cases query <;> rfl
        exact ⟨messages, rfl, carriedOut_of_exec dispatch ran, rfl⟩
      refine ⟨room, page, ?_⟩
      rcases page with ⟨limit, _ | cursor, _ | cursor'⟩
      · obtain ⟨messages, rest⟩ := reads (.newest _) h
        exact ⟨.newest _, messages, ok_of_extract at_path, ok_of_extract asked, rfl, rest⟩
      · obtain ⟨messages, rest⟩ := reads (.before ⟨cursor'⟩ _) h
        exact ⟨.before ⟨cursor'⟩ _, messages, ok_of_extract at_path, ok_of_extract asked, rfl, rest⟩
      · obtain ⟨messages, rest⟩ := reads (.after ⟨cursor⟩ _) h
        exact ⟨.after ⟨cursor⟩ _, messages, ok_of_extract at_path, ok_of_extract asked, rfl, rest⟩
      · exact (exec_refuse_ok h).elim

/-- **A post that succeeds** has added its message, in the name that the token carries.  The
position in the answer is the one of that row. -/
theorem postMessages_carried {id : String}
    (h : (postMessages state req id).run.exec ω w = (.ok response, w')) :
    ∃ now username room body landed,
      authenticate state req.authorization now w.issued = .ok username ∧
        pathId id = some room ∧ req.body.postMessage = .ok body ∧
          response = { status := 201, body := .posted landed } ∧
            CarriedOut state.config.caps (.postMessage ⟨room⟩ username body.body) w.db
              (.ok (.posted landed)) w'.db ∧ w'.issued = w.issued := by
  obtain ⟨username, accepted, h⟩ := exec_authenticated_ok h
  obtain ⟨room, at_path, h⟩ := exec_except_ok h
  obtain ⟨body, read, h⟩ := exec_except_ok h
  by_cases large : state.config.maxMessageBytes.toNat < body.body.utf8ByteSize
  · simp only [if_pos large] at h
    exact (exec_refuse_ok h).elim
  · simp only [if_neg large] at h
    by_cases empty : body.body.isEmpty = true
    · simp only [if_pos empty] at h
      exact (exec_refuse_ok h).elim
    · simp only [if_neg empty] at h
      obtain ⟨landed, db, n, ran, h⟩ := exec_store_ok h
      obtain ⟨rfl, rfl⟩ := exec_pure_ok h
      exact ⟨_, username, room, body, landed, accepted, ok_of_extract at_path, ok_of_json read, rfl,
        carriedOut_of_exec rfl ran, rfl⟩

/-! ### What becomes of the messages -/

/-- **The request posts the row**, in the world `w`: the path names the room, the body has the
text, and the token names the user. -/
structure Posts.Row (state : AppState) (req : Request) (w : World) (row : MessageRow) : Prop where
  posting : Posting req
  room : ∃ id room, req.path = ["rooms", id, "messages"] ∧ pathId id = some room ∧
    row.roomId = room
  text : ∃ body, req.body.postMessage = .ok body ∧ row.body = body.body
  username : ∃ now, authenticate state req.authorization now w.issued = .ok row.username
  seq : row.seq = w.db.messages.length + 1
  postedAt : 0 ≤ row.postedAt

/-- The answer to a post that has added the row. -/
def Posts.answer (row : MessageRow) : Response :=
  { status := 201, body := .posted ⟨⟨row.seq.toNat⟩, ⟨row.postedAt.toNat⟩⟩ }

/-- It shows no room, so nothing of it is forgotten. -/
theorem Posts.answer_plain (row : MessageRow) : ∀ room, (answer row).body ≠ .room room :=
  nofun

theorem loggedIn_plain (reply : LoginResponse) : ∀ room, (loggedIn reply).body ≠ .room room :=
  nofun

/-- What has failed is not answered. -/
theorem ne_ok_of_error {ε α : Type} {r : Except ε α} {e : ε} (failed : r = .error e) :
    ∀ a, r ≠ .ok a := by
  rintro a rfl
  cases failed

theorem path_of_route {path : List String} {id : String} (h : route path = some (.messages id)) :
    path = ["rooms", id, "messages"] := by
  unfold route at h
  split at h <;> try cases h
  rfl

/-- **A post, run alone**, adds its row and says so, or it changes nothing and fails.  Nothing else
of the world changes either way. -/
theorem postMessages_exec {id : String} (valid : w.db.Valid) (method : req.method = .post)
    (at_route : route req.path = some (.messages id)) (ω : ℕ → Moment) :
    (((postMessages state req id).run.exec ω w).2 = w ∧
        ∀ response, ((postMessages state req id).run.exec ω w).1 ≠ .ok response) ∨
      ∃ row, Posts.Row state req w row ∧
        ((postMessages state req id).run.exec ω w).1 = .ok (Posts.answer row) ∧
          ((postMessages state req id).run.exec ω w).2
            = w.withDb { w.db with messages := w.db.messages ++ [row] } := by
  rw [postMessages, authenticated, run_tryAtomically_bind, Prog.exec_step]
  cases accepted : authenticate state req.authorization (ω 0).now w.issued with
  | error e => exact Or.inl ⟨rfl, ne_ok_of_error rfl⟩
  | ok username =>
      dsimp only [Except.mapError, onOk_ok]
      cases at_path : pathId id with
      | none => exact Or.inl ⟨rfl, ne_ok_of_error rfl⟩
      | some room =>
          rw [extract, run_except_bind, onOk_ok, post, json, run_except_bind]
          cases read : req.body.postMessage with
          | error text => exact Or.inl ⟨rfl, ne_ok_of_error rfl⟩
          | ok body =>
              dsimp only [Except.mapError, onOk_ok]
              by_cases large : state.config.maxMessageBytes.toNat < body.body.utf8ByteSize
              · simp only [if_pos large]
                exact Or.inl ⟨rfl, ne_ok_of_error rfl⟩
              · by_cases empty : body.body.isEmpty = true
                · simp only [if_neg large, if_pos empty]
                  exact Or.inl ⟨rfl, ne_ok_of_error rfl⟩
                · simp only [if_neg large, if_neg empty]
                  obtain ⟨n, whole⟩ := exec_store_then (postMessage ⟨room⟩ username body.body)
                    (fun posted => (pure { status := 201, body := .posted posted } :
                      Handler Response)) (fun n => ω (n + 1)) w
                  rw [whole]
                  have posts :=
                    postMessage_exec valid (fun n => ω (n + 1)) ⟨room⟩ username body.body
                  cases result : (postMessage ⟨room⟩ username body.body).run.exec
                      (fun n => ω (n + 1)) w.db with
                  | mk r db =>
                      rw [result] at posts
                      rcases posts with ⟨same, refused⟩ | ⟨postedAt, -, there, appended⟩
                      · dsimp only at same refused
                        subst same
                        cases r with
                        | error e => exact Or.inl ⟨rfl, ne_ok_of_error rfl⟩
                        | ok landed => exact absurd rfl (refused landed)
                      · obtain rfl := Option.some.inj there
                        dsimp only at appended
                        subst appended
                        refine Or.inr ⟨⟨w.db.messages.length + 1, room, username, body.body,
                          postedAt⟩, ⟨⟨method, id, at_route⟩, ⟨id, room, path_of_route at_route,
                            at_path, rfl⟩, ⟨body, read, rfl⟩, ⟨_, accepted⟩, rfl,
                            Int.natCast_nonneg _⟩, rfl, rfl⟩

/-- **The request logs in**, and is handed the token of the entry.  The entry has the name as it
was typed, and the second in which the announced expiry falls. -/
structure Hands (state : AppState) (req : Request) (entry : Issued) (reply : LoginResponse) :
    Prop where
  asks : ∃ body, LoggingIn req body ∧ entry.claims.sub = body.username
  secret : entry.secret = state.tokens.secret
  token : reply.token = entry.token
  signed : state.crypto.encode entry.secret entry.claims = some entry.token
  expires : ∃ now, entry.claims.exp = state.tokens.expiresAt now / 1000 ∧
    reply.expiresAt = ⟨state.tokens.expiresAt now % (u64Max + 1)⟩

/-- **A login, run alone**, hands out a token and says so, or it issues none and fails.  Accounts,
rooms and messages stay as they are. -/
theorem login_exec (method : req.method = .post) (at_route : route req.path = some .login)
    (ω : ℕ → Moment) :
    (((login state req).run.exec ω w).2.issued = w.issued ∧
        ∀ response, ((login state req).run.exec ω w).1 ≠ .ok response) ∨
      ∃ entry reply, Hands state req entry reply ∧
        ((login state req).run.exec ω w).1 = .ok (loggedIn reply) ∧
          ((login state req).run.exec ω w).2.issued = w.issued ++ [entry] := by
  rw [login, json, run_except_bind]
  cases read : req.body.login with
  | error text => exact Or.inl ⟨rfl, ne_ok_of_error rfl⟩
  | ok body =>
      simp only [Except.mapError, onOk_ok]
      rw [(exec_store_then (passwordHash body.username) _ ω w).choose_spec]
      generalize (exec_store_then (passwordHash body.username) _ ω w).choose = n
      cases ((passwordHash body.username).run.exec ω w.db).1 with
      | error e => exact Or.inl ⟨rfl, ne_ok_of_error rfl⟩
      | ok stored =>
          simp only [Except.mapError, onOk_ok]
          cases verified : verifyPassword state.crypto body.password stored with
          | false => exact Or.inl ⟨rfl, ne_ok_of_error rfl⟩
          | true =>
              simp only [Bool.not_true, Bool.false_eq_true, if_false]
              rw [run_tryAtomically_bind, Prog.exec_step]
              simp only [Tokens.issue, World.issued_withDb]
              cases encoded : state.crypto.encode state.tokens.secret
                  (state.tokens.claims body.username (ω (0 + n)).now) with
              | none => exact Or.inl ⟨rfl, ne_ok_of_error rfl⟩
              | some token =>
                  exact Or.inr ⟨⟨state.tokens.secret, state.tokens.claims body.username _, token⟩,
                    ⟨token, _⟩, ⟨⟨body, ⟨method, at_route, read⟩, rfl⟩, rfl, rfl, encoded, _, rfl,
                      rfl⟩, rfl, rfl⟩

theorem listMessages_refuses (id : String) : Refuses (listMessages state req id) :=
  refuses_bind (failsInApi_authenticated state req.authorization).refuses fun _ =>
    refuses_bind (refuses_extract _) fun room => refuses_bind (refuses_extract _) fun page =>
      (enveloped_list room page).refuses

theorem postMessages_refuses (id : String) : Refuses (postMessages state req id) :=
  refuses_bind (failsInApi_authenticated state req.authorization).refuses fun username =>
    refuses_bind (refuses_extract _) fun room => (enveloped_post state username room _).refuses

/-! ### Every request, served at once -/

/-- A success is what the handler of the request ends with. -/
theorem exec_of_served {handler : Handler Response} (serves : handle state req = handler.respond)
    (refuses : Refuses handler) (served : ServedAtOnce state req w response w')
    (success : response.isSuccess) : ∃ ω answered, handler.run.exec ω w = (.ok answered, w') ∧
      response.forgetFresh = answered.forgetFresh := by
  rw [ServedAtOnce, serves] at served
  exact exec_of_success refuses served success

/-- A request that is served at once keeps the tables valid, and only adds to the world. -/
theorem served_grows (valid : w.db.Valid) (served : ServedAtOnce state req w response w') :
    w'.db.Valid ∧ w.Extends w' := by
  obtain ⟨ω, answer, ran, -⟩ := served
  have meets : (handle state req).Meets (worldContract fun _ => True) _ _ w :=
    handle_meets state req w
  have ends := meets.exec (ω := ω)
    (fun _ => trivial) valid
  rw [ran] at ends
  exact ⟨ends.1, ends.2.1⟩

/-- A request that is served at once keeps all that no step of its handler changes. -/
theorem served_keeps {β : Type} (part : World → β) (valid : w.db.Valid)
    (served : ServedAtOnce state req w response w')
    (keeps : ∀ w o w', Acts state req w o w' → part w' = part w) : part w' = part w := by
  obtain ⟨ω, answer, ran, -⟩ := served
  have meets : (handle state req).Meets (worldContract fun _ => True) _ _ w :=
    handle_meets state req w
  have kept := meets.exec_follows (ω := ω)
    (R := fun w w' : World => part w' = part w) (fun _ => rfl)
    (fun _ _ _ first second => second.trans first) keeps (fun _ => trivial) valid
  rw [ran] at kept
  exact kept

/-- A handler that does not end well does not answer with a success. -/
theorem not_success_of_ne {handler : Handler Response} {ω : ℕ → Moment} (refuses : Refuses handler)
    (fails : ∀ answered, (handler.run.exec ω w).1 ≠ .ok answered)
    (same : response.forgetFresh = (answerOf (handler.run.exec ω w).1).forgetFresh) :
    ¬ response.isSuccess := by
  intro success
  cases result : (handler.run.exec ω w).1 with
  | ok answered => exact fails answered result
  | error e =>
      rw [result] at same
      exact Prog.always_exec refuses ω w e result (success_forgetFresh same success)

/-- **What a request that is served at once adds to the messages**: the row of a post, which is
answered so, or nothing. -/
theorem served_messages (valid : w.db.Valid) (served : ServedAtOnce state req w response w') :
    (w'.db.messages = w.db.messages ∧ (Posting req → ¬ response.isSuccess)) ∨
      ∃ row, Posts.Row state req w row ∧ response = Posts.answer row ∧
        w'.db.messages = w.db.messages ++ [row] := by
  by_cases posting : Posting req
  · obtain ⟨method, id, at_route⟩ := posting
    have serves : handle state req = (postMessages state req id).respond := by
      simp only [handle, at_route, method]
      rfl
    obtain ⟨ω, answer, ran, same⟩ := served
    rw [serves, Handler.respond, Prog.exec_map] at ran
    obtain ⟨rfl, rfl⟩ := Prod.mk.inj ran
    rcases postMessages_exec valid method at_route ω with ⟨stays, fails⟩ | ⟨row, posts, ends, after⟩
    · rw [stays]
      exact Or.inl ⟨rfl, fun _ => not_success_of_ne (postMessages_refuses id) fails same⟩
    · rw [ends] at same
      rw [after]
      exact Or.inr ⟨row, posts, eq_of_forgetFresh same (Posts.answer_plain row), rfl⟩
  · refine Or.inl ⟨served_keeps (fun w => w.db.messages) valid served fun w o w' acts => ?_,
      fun posting' => absurd posting' posting⟩
    rcases acts.messages with same | ⟨posting', -⟩
    · exact same
    · exact absurd posting' posting

/-- **What a request that is served at once adds to the tokens**: the one that a login hands out,
which is answered so, or none. -/
theorem served_issued (valid : w.db.Valid) (served : ServedAtOnce state req w response w') :
    (w'.issued = w.issued ∧ ((∃ body, LoggingIn req body) → ¬ response.isSuccess)) ∨
      ∃ entry reply, Hands state req entry reply ∧ response = loggedIn reply ∧
        w'.issued = w.issued ++ [entry] := by
  by_cases logging : ∃ body, LoggingIn req body
  · obtain ⟨body, method, at_route, -⟩ := logging
    have serves : handle state req = (login state req).respond := by
      simp only [handle, at_route, method]
      rfl
    obtain ⟨ω, answer, ran, same⟩ := served
    rw [serves, Handler.respond, Prog.exec_map] at ran
    obtain ⟨rfl, rfl⟩ := Prod.mk.inj ran
    rcases login_exec method at_route ω with ⟨stays, fails⟩ | ⟨entry, reply, hands, ends, after⟩
    · exact Or.inl ⟨stays, fun _ =>
        not_success_of_ne (enveloped_login state req).refuses fails same⟩
    · rw [ends] at same
      exact Or.inr ⟨entry, reply, hands, eq_of_forgetFresh same (loggedIn_plain reply), after⟩
  · refine Or.inl ⟨served_keeps World.issued valid served fun w o w' acts => ?_,
      fun logging' => absurd logging' logging⟩
    rcases acts.issued with same | ⟨body, reply, logging', -⟩
    · exact same
    · exact absurd ⟨body, logging'⟩ logging

end Handlers

/-! ### Who is refused with a 401 -/

/-- The part of a handler does not fail with a 401. -/
def Lets {α : Type} (x : Handler α) : Prop :=
  x.run.Always fun r => ∀ e, r = .error e → (answerOf (.error e)).status ≠ 401

/-- The handler does not answer with a 401. -/
def LetsIn (handler : Handler Response) : Prop :=
  handler.run.Always fun r => (answerOf r).status ≠ 401

section Refused

variable {α : Type} {met : List (Moment × World)} {response : Response} {state : AppState}
  {req : Request}

theorem lets_except {r : Except ApiError α} (other : ∀ e, r = .error e → e.status ≠ 401) :
    Lets (liftM (r.mapError Failure.api) : Handler α) := by
  cases r with
  | ok a => exact fun _ => nofun
  | error error =>
      intro e same
      obtain rfl := Except.error.inj same
      exact other error rfl

theorem lets_json (body : Except String α) : Lets (json body) := by
  cases body with
  | ok a => exact fun _ => nofun
  | error text =>
      intro e same
      obtain rfl := Except.error.inj same
      exact nofun

theorem lets_store (query : Query α) : Lets (store query) := by
  unfold Lets store
  rw [run_inside]
  refine Prog.always_map _ ((Prog.always_true _).weaken fun r _ e same => ?_)
  cases r with
  | ok a => cases same
  | error e' =>
      obtain rfl := Except.error.inj same
      cases e' <;> exact nofun

theorem lets_extract (extracted : Option α) : Lets (extract extracted) := by
  cases extracted with
  | some a => exact fun _ => nofun
  | none =>
      intro e same
      obtain rfl := Except.error.inj same
      exact nofun

theorem letsIn_pure {response : Response}
    (status : response.status = 200 ∨ response.status = 201) : LetsIn (pure response) := by
  show response.status ≠ 401
  omega

theorem letsIn_refuse {error : ApiError} (other : error.status ≠ 401) : LetsIn (refuse error) :=
  other

theorem letsIn_bind {x : Handler α} {f : α → Handler Response} (first : Lets x)
    (rest : ∀ a, LetsIn (f a)) : LetsIn (x >>= f) :=
  always_run_bind first rest

theorem letsIn_listRooms : LetsIn (store listRooms >>= fun rooms =>
    pure { status := 200, body := .rooms ⟨rooms⟩ }) :=
  letsIn_bind (lets_store _) fun _ => letsIn_pure (Or.inl rfl)

theorem letsIn_createRoom : LetsIn (json req.body.createRoom >>= fun body =>
    (liftM ((parseRoomName body.name).mapError Failure.api) : Handler String) >>= fun name =>
      store (createRoom name state.config.maxRooms) >>= fun creation =>
        match creation with
        | .created room => pure (created room)
        | .existing room => pure { status := 200, body := .room room }) := by
  refine letsIn_bind (lets_json _) fun body => letsIn_bind (lets_except fun e refused => ?_)
    fun name => letsIn_bind (lets_store _) fun creation => ?_
  · simp only [parseRoomName] at refused
    split at refused
    · cases refused
    · obtain rfl := Except.error.inj refused
      decide
  · cases creation with
    | created room => exact letsIn_pure (Or.inr rfl)
    | existing room => exact letsIn_pure (Or.inl rfl)

theorem letsIn_list (room : ℕ) (page : Page) : LetsIn (list room page) := by
  have pages : ∀ query : Query (List Message), LetsIn (store query >>= fun messages =>
      pure { status := 200, body := .messages ⟨messages⟩ }) := fun query =>
    letsIn_bind (lets_store query) fun _ => letsIn_pure (Or.inl rfl)
  refine letsIn_bind (lets_store _) fun found => ?_
  cases found with
  | false => exact letsIn_refuse (by decide)
  | true =>
      rcases page with ⟨limit, _ | cursor, _ | cursor'⟩
      · exact pages _
      · exact pages _
      · exact pages _
      · exact letsIn_refuse (by decide)

theorem letsIn_post (username : String) (room : ℕ) (body : Except String PostMessageRequest) :
    LetsIn (post state username room body) := by
  refine letsIn_bind (lets_json _) fun body => ?_
  by_cases large : state.config.maxMessageBytes.toNat < body.body.utf8ByteSize
  · simp only [if_pos large]
    exact letsIn_refuse (by simp)
  · simp only [if_neg large]
    by_cases empty : body.body.isEmpty = true
    · simp only [if_pos empty]
      exact letsIn_refuse (by decide)
    · simp only [if_neg empty]
      exact letsIn_bind (lets_store _) fun posted => letsIn_pure (Or.inr rfl)

/-- **A 401 comes from the header**, when the rest of the handler does not give any.  That is then
the first thing that happens to the request, and nothing of the store was looked at. -/
theorem refused_of_401 {f : String → Handler Response} (lets : ∀ username, LetsIn (f username))
    (h : (authenticated state req.authorization >>= f).respond.resume met = .ret response)
    (status : response.status = 401) : ∃ m w later e, met = (m, w) :: later ∧
      authenticate state req.authorization m.now w.issued = .error e := by
  obtain ⟨r, ends, rfl⟩ := Prog.ret_of_resume_map h
  rw [authenticated, run_tryAtomically_bind] at ends
  obtain ⟨m, w, later, rfl, rest⟩ := Prog.met_of_resume_step ends
  cases checked : authenticate state req.authorization m.now w.issued with
  | error e => exact ⟨m, w, later, e, rfl, checked⟩
  | ok username =>
      rw [checked] at rest
      have other := Prog.always_resume (lets username) rest
      exact absurd status other

end Refused

end ScionChat
