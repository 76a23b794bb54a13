import ScionChat.Deployment.Run
import ScionChat.Server.Api.Bodies
import ScionChat.Server.Api.Carried

/-!
# What a call of the client comes to, at the server

A call that has returned a value stands for one request, which the server has served at one
moment.  `Happened` says what lies behind the value there: which call on the store it was, who was
let in, and what came of it.  `happened_of_served` goes all the way from the value that the client
has read, over the body on the wire and the handler, to the tables.

### design decisions

* **In the server's words.**  The cases of `Happened` name calls on the store, `StoreOp`, and what
  they reply.  They are what a claim about users can be read off, and say nothing of HTTP.
* **Every field of a value is tied.**  A login's expiry is the one that the issued token has at the
  clock of that moment, and the server's description is that of its configuration.  There is one
  exception, and it is named: `latest_seq` of a room that was created by the call, which the server
  reads in a statement of its own, after posts to the new room may have come in
  (`Response.forgetFresh`).

### What is load-bearing

One lemma for each kind of call (`register_happened` to `messages_happened`) compares the URI and
the body that the client has written with the route and the extractors that take them apart.  They
are put together by `happened_of_served`, and nothing above it looks at a path again.
-/

namespace ScionChat

open Interleaving TransitionSystem

/-- What the server says about itself. -/
def AppState.info (app : AppState) : ServerInfo where
  version := app.config.version
  isdAs := none
  maxAccounts := app.config.maxAccounts
  maxRooms := app.config.maxRooms
  maxMessageBytes := app.config.maxMessageBytes
  tokenValiditySeconds := min app.config.tokenValidity u32Max

/-- **What lies behind the value of a call**: between the worlds `w` and `w'`, the server has
carried out what the call asks for, at once, and the value is what it answers there.  A login says
when the token runs out that it has issued.  The one thing that the value of a call does not owe to
this moment is the position of a room that has just been created (`RoomCreation.forgetFresh`): it is
read in a statement of its own, and messages may have been posted to the room by then. -/
inductive Happened (app : AppState) (sent : Option String) (w w' : World) :
    ClientCall → ClientReply → Prop
  | registered (username password hash : String) (salt : ℕ) (named : NameFits username)
      (hashed : app.crypto.hash password salt = some hash)
      (carried : CarriedOut app.config.caps (.insertUser username hash) w.db
        (.ok (.registration .created)) w'.db) :
      Happened app sent w w' (.register username password) .done
  | loggedIn (username password phc token : String) (now : ℕ)
      (found : CarriedOut app.config.caps (.passwordHash username) w.db
        (.ok (.hash (some phc))) w'.db)
      (verified : verifyPassword app.crypto password (some phc) = true)
      (issued : w'.issued
        = w.issued ++ [⟨app.tokens.secret, app.tokens.claims username now, token⟩]) :
      Happened app sent w w' (.login username password)
        (.login ⟨username, ⟨app.tokens.expiresAt now % (u64Max + 1)⟩⟩)
  | healthy : Happened app sent w w' .health .done
  | informed : Happened app sent w w' .serverInfo (.server app.info)
  | listed (rooms : List Room)
      (carried : CarriedOut app.config.caps .listRooms w.db (.ok (.rooms rooms)) w'.db) :
      Happened app sent w w' .rooms (.rooms rooms)
  | created (name : String) (outcome : RoomCreation)
      (carried : CarriedOut app.config.caps (.createRoom name) w.db (.ok (.creation outcome))
        w'.db) :
      Happened app sent w w' (.createRoom name) (.room outcome.room)
  | posted (room : RoomId) (body username : String) (now : ℕ) (landed : PostMessageResponse)
      (accepted : authenticate app (sent.map bearerHeader) now w.issued = .ok username)
      (carried : CarriedOut app.config.caps (.postMessage room username body) w.db
        (.ok (.posted landed)) w'.db) :
      Happened app sent w w' (.send room body) (.posted landed)
  | paged (room : RoomId) (limit : ℕ) (cursor : ChatClient.Cursor) (messages : List Message)
      (carried : CarriedOut app.config.caps ((cursor.query limit).op room) w.db
        (.ok (.page messages)) w'.db) :
      Happened app sent w w' (.messages room limit cursor) (.messages messages)

/-! ### What the client's requests parse to -/

/-- The segment of a room parses to that room, if it parses. -/
theorem eq_of_pathId {n room : ℕ} (h : pathId (toString n) = some room) : room = n := by
  by_cases fits : n ≤ u64Max
  · rw [pathId_toString fits] at h
    exact (Option.some.inj h).symm
  · have digits : ∀ c ∈ (toString n).toList, c ≠ '%' := by
      rintro c mem rfl
      have plain := Ask.not_mem_of_isPlain (isPlain_toString n) (c := '%') rfl
      exact plain mem
    rw [pathId, percentDecode_of_digits digits, parseUnsigned_toString, if_neg fits] at h
    cases h

/-- The query of a fetch parses to the page it asks for, if it parses. -/
theorem eq_of_ofQuery {limit : ℕ} {cursor : ChatClient.Cursor} {page : Page}
    (h : Page.ofQuery (cursor.pairs limit) = some page) : page = cursor.page limit := by
  by_cases fits : ∀ seq ∈ cursor.position, seq.get ≤ u64Max
  · rw [ofQuery_pairs limit cursor fits] at h
    split at h
    · exact (Option.some.inj h).symm
    · cases h
  · -- a cursor that is no `u64` is not read
    exfalso
    cases cursor with
    | newest => exact fits nofun
    | after seq =>
        have unfit : ¬ seq.get ≤ u64Max := fun small => fits fun s mem => by
          obtain rfl := Option.some.inj mem
          exact small
        have cursors := field_of_once "after_seq" u64Max seq.get [("limit", toString limit)] []
          (by simp)
        rw [List.cons_append, List.nil_append, if_neg unfit] at cursors
        rw [Page.ofQuery, ChatClient.Cursor.pairs, cursors] at h
        cases limits : Page.field "limit" u32Max [("limit", toString limit),
          ("after_seq", toString seq.get)] <;> rw [limits] at h <;> cases h
    | before seq =>
        have unfit : ¬ seq.get ≤ u64Max := fun small => fits fun s mem => by
          obtain rfl := Option.some.inj mem
          exact small
        have cursors := field_of_once "before_seq" u64Max seq.get [("limit", toString limit)] []
          (by simp)
        have rest := field_of_absent "after_seq" u64Max
          [("limit", toString limit), ("before_seq", toString seq.get)] (by simp)
        rw [List.cons_append, List.nil_append, if_neg unfit] at cursors
        rw [Page.ofQuery, ChatClient.Cursor.pairs, cursors, rest] at h
        cases limits : Page.field "limit" u32Max [("limit", toString limit),
          ("before_seq", toString seq.get)] <;> rw [limits] at h <;> cases h

/-- The handlers that the messages of a room are posted to, and listed by. -/
theorem handle_post {app : AppState} {req : Request} {n : ℕ} (method : req.method = .post)
    (path : req.path = ["rooms", toString n, "messages"]) :
    handle app req = (postMessages app req (toString n)).respond := by
  rw [handle, path, route_messages, method]
  rfl

theorem handle_list {app : AppState} {req : Request} {n : ℕ} (method : req.method = .get)
    (path : req.path = ["rooms", toString n, "messages"]) :
    handle app req = (listMessages app req (toString n)).respond := by
  rw [handle, path, route_messages, method]
  rfl

theorem asked_page (limit : ℕ) (cursor : ChatClient.Cursor) :
    (cursor.page limit).asked = some (cursor.query limit) := by
  cases cursor <;> rfl

/-! ### From the value to the tables -/

section

variable {app : AppState} {serde : Serde} {sent : Option String} {w w' : World}
  {request : ClientCall} {ask : Ask} {response : Response} {value : ClientReply}

/-- The reply is a success if the response is. -/
theorem success_of_reply (success : (response.reply serde).isSuccess) : response.isSuccess :=
  of_decide_eq_true success

/-- A room that has been created is the one that is answered with. -/
theorem creation_of_forgetFresh {outcome : RoomCreation} {answered : Response}
    (answers : creationResponse outcome = .ok answered)
    (same : response.forgetFresh = answered.forgetFresh) :
    ∃ outcome' : RoomCreation, response.body = .room outcome'.room ∧
      outcome'.forgetFresh = outcome.forgetFresh := by
  cases outcome with
  | created room =>
      obtain rfl := Except.ok.inj answers
      unfold Response.forgetFresh at same
      split at same
      next room' _ at_body =>
        have rooms : (Body.room { room' with latestSeq := Seq.START })
            = .room { room with latestSeq := Seq.START } := congrArg Response.body same
        exact ⟨.created room', at_body, congrArg RoomCreation.created (Body.room.inj rooms)⟩
      next other => exact absurd (by rw [same]; rfl) (other _ (by rw [same]; rfl))
  | existing room =>
      obtain rfl := Except.ok.inj answers
      unfold Response.forgetFresh at same
      split at same
      next room' status at_body => cases (congrArg Response.status same).symm.trans status
      next => exact ⟨.existing room, by rw [same]; rfl, rfl⟩

/-- What the client reads in a success, from the response as the handler meant it. -/
abbrev Reads (serde : Serde) (request : ClientCall) (response : Response)
    (value : ClientReply) : Prop :=
  request.read (response.reply serde).body = .ok value

theorem register_happened {username password : String} (success : response.isSuccess)
    (read : Reads serde (.register username password) response value)
    (served : ServedAtOnce app (Ask.request serde ⟨"POST", ["register"], [],
      some (.register ⟨username, password⟩)⟩ sent) w response w') :
    Happened app sent w w' (.register username password) value := by
  obtain ⟨ω, answered, ran, same⟩ :=
    exec_of_served rfl (enveloped_register app _).refuses served success
  obtain ⟨body, hash, salt, sends, named, hashed, rfl, carried, -⟩ := register_carried ran
  have sent_body : (JsonBody.read serde _).register = .ok ⟨username, password⟩ :=
    RequestBody.readAs_text serde (.register ⟨username, password⟩)
  obtain rfl := Except.ok.inj (sends.symm.trans sent_body)
  obtain rfl := eq_of_forgetFresh same nofun
  have at_reply : (ReplyBody.read serde registered.body).ignored = .ok () :=
    Body.readAs_read serde .empty trivial
  rw [Reads, Response.reply, ClientCall.read, at_reply] at read
  cases read
  exact .registered username password hash salt named hashed carried

theorem login_happened {username password : String} (valid : w.db.Valid)
    (fits : response.body.Fits) (success : response.isSuccess)
    (read : Reads serde (.login username password) response value)
    (served : ServedAtOnce app (Ask.request serde ⟨"POST", ["login"], [],
      some (.login ⟨username, password⟩)⟩ sent) w response w') :
    Happened app sent w w' (.login username password) value := by
  obtain ⟨ω, answered, ran, same⟩ :=
    exec_of_served rfl (enveloped_login app _).refuses served success
  obtain ⟨body, phc, reply, now, sends, rfl, found, verified, issued, expires⟩ :=
    login_carried valid ran
  have sent_body : (JsonBody.read serde _).login = .ok ⟨username, password⟩ :=
    RequestBody.readAs_text serde (.login ⟨username, password⟩)
  obtain rfl := Except.ok.inj (sends.symm.trans sent_body)
  obtain rfl := eq_of_forgetFresh same nofun
  have at_reply : (ReplyBody.read serde (loggedIn reply).body).login = .ok reply :=
    Body.readAs_read serde (loggedIn reply).body fits
  rw [Reads, Response.reply, ClientCall.read, at_reply] at read
  cases read
  dsimp only
  rw [expires]
  exact .loggedIn username password phc reply.token now found verified issued

theorem serverInfo_happened (fits : response.body.Fits) (success : response.isSuccess)
    (read : Reads serde .serverInfo response value)
    (served : ServedAtOnce app (Ask.request serde ⟨"GET", ["server"], [], none⟩ sent) w
      response w') :
    Happened app sent w w' .serverInfo value := by
  obtain ⟨ω, answered, ran, same⟩ :=
    exec_of_served rfl (enveloped_serverInfo app).refuses served success
  obtain ⟨rfl, -⟩ := exec_pure_ok ran
  obtain rfl := eq_of_forgetFresh same nofun
  have at_reply : (ReplyBody.read serde (.server app.info)).server = .ok app.info :=
    Body.readAs_read serde (.server app.info) fits
  have shown : (ReplyBody.read serde (.server app.info)).server.map ClientReply.server
      = .ok value := read
  rw [at_reply] at shown
  cases shown
  exact .informed

theorem rooms_happened (fits : response.body.Fits) (success : response.isSuccess)
    (read : Reads serde .rooms response value)
    (served : ServedAtOnce app (Ask.request serde ⟨"GET", ["rooms"], [], none⟩ sent) w
      response w') :
    Happened app sent w w' .rooms value := by
  obtain ⟨ω, answered, ran, same⟩ :=
    exec_of_served rfl (enveloped_listRooms app _).refuses served success
  obtain ⟨rooms, rfl, carried, -⟩ := listRooms_carried ran
  obtain rfl := eq_of_forgetFresh same nofun
  have at_reply : (ReplyBody.read serde (.rooms ⟨rooms⟩)).rooms = .ok ⟨rooms⟩ :=
    Body.readAs_read serde (.rooms ⟨rooms⟩) fits
  rw [Reads, Response.reply, ClientCall.read, at_reply] at read
  cases read
  exact .listed rooms carried

theorem createRoom_happened {name : String} (fits : response.body.Fits)
    (success : response.isSuccess) (read : Reads serde (.createRoom name) response value)
    (served : ServedAtOnce app (Ask.request serde ⟨"POST", ["rooms"], [],
      some (.createRoom ⟨name⟩)⟩ sent) w response w') :
    Happened app sent w w' (.createRoom name) value := by
  obtain ⟨ω, answered, ran, same⟩ :=
    exec_of_served rfl (enveloped_createRoom app _).refuses served success
  obtain ⟨body, outcome, sends, answers, carried, -⟩ := createRoom_carried ran
  have sent_body : (JsonBody.read serde _).createRoom = .ok ⟨name⟩ :=
    RequestBody.readAs_text serde (.createRoom ⟨name⟩)
  obtain rfl := Except.ok.inj (sends.symm.trans sent_body)
  obtain ⟨outcome', shown, fresh⟩ := creation_of_forgetFresh answers same
  have at_reply : (ReplyBody.read serde response.body).room = .ok outcome'.room := by
    have reads := Body.readAs_read serde response.body fits
    rw [shown] at reads ⊢
    exact reads
  rw [Reads, Response.reply, ClientCall.read, at_reply] at read
  cases read
  -- up to the position that is forgotten, the room is the one that was answered
  obtain ⟨ω', answered', ran', same'⟩ := carried
  refine .created name outcome' ⟨ω', answered', ran', ?_⟩
  rw [← same']
  exact congrArg (fun outcome => Except.ok (StoreReply.creation outcome)) fresh

theorem send_happened {room : RoomId} {body : String} (fits : response.body.Fits)
    (success : response.isSuccess) (read : Reads serde (.send room body) response value)
    (served : ServedAtOnce app (Ask.request serde ⟨"POST",
      ["rooms", toString room.get, "messages"], [], some (.postMessage ⟨body⟩)⟩ sent) w
        response w') :
    Happened app sent w w' (.send room body) value := by
  obtain ⟨ω, answered, ran, same⟩ :=
    exec_of_served (handle_post rfl rfl) (postMessages_refuses _) served success
  obtain ⟨now, username, room', body', landed, accepted, at_path, sends, rfl, carried, -⟩ :=
    postMessages_carried ran
  have sent_body : (JsonBody.read serde _).postMessage = .ok ⟨body⟩ :=
    RequestBody.readAs_text serde (.postMessage ⟨body⟩)
  obtain rfl := Except.ok.inj (sends.symm.trans sent_body)
  obtain rfl := eq_of_pathId at_path
  obtain rfl := eq_of_forgetFresh same nofun
  have at_reply : (ReplyBody.read serde (.posted landed)).posted = .ok landed :=
    Body.readAs_read serde (.posted landed) fits
  rw [Reads, Response.reply, ClientCall.read, at_reply] at read
  cases read
  exact .posted room body username now landed accepted carried

theorem messages_happened {room : RoomId} {limit : ℕ} {cursor : ChatClient.Cursor}
    (valid : w.db.Valid) (fits : response.body.Fits) (success : response.isSuccess)
    (read : Reads serde (.messages room limit cursor) response value)
    (served : ServedAtOnce app (Ask.request serde ⟨"GET",
      ["rooms", toString room.get, "messages"], cursor.pairs limit, none⟩ sent) w response w') :
    Happened app sent w w' (.messages room limit cursor) value := by
  obtain ⟨ω, answered, ran, same⟩ :=
    exec_of_served (handle_list rfl rfl) (listMessages_refuses _) served success
  obtain ⟨room', page, query, messages, at_path, parsed, asked, rfl, carried, -⟩ :=
    listMessages_carried valid ran
  obtain rfl := eq_of_pathId at_path
  obtain rfl := eq_of_ofQuery parsed
  obtain rfl := Option.some.inj ((asked_page limit cursor).symm.trans asked)
  obtain rfl := eq_of_forgetFresh same nofun
  have at_reply : (ReplyBody.read serde (.messages ⟨messages⟩)).messages = .ok ⟨messages⟩ :=
    Body.readAs_read serde (.messages ⟨messages⟩) fits
  rw [Reads, Response.reply, ClientCall.read, at_reply] at read
  cases read
  exact .paged room limit cursor messages carried

/-- **What lies behind a value** that the client has read in a success of the server.  The value
determines the response it was read off, since the codec reads back what fits, and a success of the
server has carried out one call. -/
theorem happened_of_served (asks : request.ask = some ask) (valid : w.db.Valid)
    (served : ServedAtOnce app (ask.request serde sent) w response w')
    (fits : response.body.Fits) (success : (response.reply serde).isSuccess)
    (read : Reads serde request response value) :
    Happened app sent w w' request value := by
  have success := success_of_reply success
  cases request with
  | session => cases asks
  | logout => cases asks
  | register username password =>
      cases asks
      exact register_happened success read served
  | login username password =>
      cases asks
      exact login_happened valid fits success read served
  | health =>
      have done : (response.reply serde).body.ignored.map (fun _ => ClientReply.done)
          = .ok value := read
      cases ignored : (response.reply serde).body.ignored with
      | error e =>
          rw [ignored] at done
          cases done
      | ok nothing =>
          rw [ignored] at done
          cases done
          exact .healthy
  | serverInfo =>
      cases asks
      exact serverInfo_happened fits success read served
  | rooms =>
      cases asks
      exact rooms_happened fits success read served
  | createRoom name =>
      cases asks
      exact createRoom_happened fits success read served
  | send room body =>
      cases asks
      exact send_happened fits success read served
  | messages room limit cursor =>
      cases asks
      exact messages_happened valid fits success read served

end

end ScionChat
