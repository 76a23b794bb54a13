import Mathlib.Data.List.DropRight
import ScionChat.Client.Error
import ScionChat.Client.Exchange

/-!
# The session of the Rust client

`client.rs`: every clone of a `ChatClient` is the same client, session included, and any
number of calls are made over it at once.  A call locks the session for as long as it reads
or writes it and never across an await, so each lock is one atomic step, and so are sending
the request and receiving the reply.

`session_safe` is the law these steps keep, over any interleaving: which token a request
carries, and what the stored session changes to and when.

### design decisions

* **A call is a program of atomic steps.**  `ChatClient.call` follows the source statement by
  statement, in the `Fallible` monad of the library, with a step at every lock and every await.
  The pool of `Interleaving` then makes a statement about every schedule out of one about a call.
* **Replies are decoded by whoever delivers them.**  `ReplyBody` holds what `decode` makes of the
  bytes for each type that a call may ask for.  The JSON itself is in `Network`, so that the
  session does not depend on a codec.
* **The law is stated of a step.**  `SessionSafe` has the states on both sides of it and what the
  calls have met so far.  "The token its request carried" is then a fact about the past of the
  call, not a field that the model would have to invent.

### What is load-bearing

`call_step` says everything that a step of a call can do.  `Changes` is what is left of it for the
session: it is set by the login that was answered, and forgotten only if it is still the one that
was refused.
-/

namespace ScionChat

open Interleaving TransitionSystem

/-! ### What a client holds -/

/-- A login, minus the token.  It is what a caller may see of a login, and can show. -/
structure SessionInfo where
  username : String
  expiresAt : UnixMillis
  deriving DecidableEq, Repr

/-- A login, token included.  The token is the secret part, and is only ever put into a header. -/
structure Session where
  token : String
  info : SessionInfo
  deriving DecidableEq, Repr

/-- What `decode` makes of a reply's body, for each type a call may ask for, and what the body
is as an error envelope. -/
structure ReplyBody where
  ignored : Except String Unit
  login : Except String LoginResponse
  server : Except String ServerInfo
  rooms : Except String RoomsResponse
  room : Except String Room
  posted : Except String PostMessageResponse
  messages : Except String MessagesResponse
  envelope : Except String ErrorResponse

/-- Whether a request carries the bearer token. -/
inductive Auth
  | required
  | none
  deriving DecidableEq, Repr

/-- The part of `ChatClient` that its calls read and that does not change. -/
structure ChatClient where
  serverUrl : String
  /-- Why `http::Uri` does not take a text, if it does not. -/
  uriError : String → Option String

/-- A part of a call. -/
abbrev ChatCall (α : Type) := Call (Option Session) TransportError ReplyBody ChatError α

namespace ChatClient

variable (client : ChatClient)

/-- `server_url` without the slashes it ends in.  A server URL may be given with a slash behind it,
or with several. -/
def base : String :=
  String.ofList (client.serverUrl.toList.rdropWhile (· = '/'))

/-- `HeaderValue::try_from`: nothing below a space but tabs, and no `DEL`.  A token with another
character could not be sent, and is refused before anything is. -/
def isHeaderValue (text : String) : Bool :=
  text.toList.all fun c => (32 ≤ c.toNat && c.toNat ≠ 127) || c.toNat = 9

/-- `token`, where a call cannot do without one.  It is read in a step of its own, so the session
may change before the request is sent. -/
def token (session : Option Session) : Except ChatError String :=
  match session.map Session.token with
  | some token => .ok token
  | none => .error .notLoggedIn

/-- The request that `execute` builds, or what `http` has against it: the path's complaint
before the token's. -/
def build (method path : String) (body : Option RequestBody) (sent : Option String) :
    Except ChatError WireRequest :=
  match client.uriError (client.base ++ path) with
  | some detail => .error (.config detail)
  | none =>
      if sent.all isHeaderValue then .ok ⟨method, client.base ++ path, body, sent⟩
      else .error (.config "failed to parse header value")

/-- `forget_if_current`: forgets the session, but only if it is still the one whose token was
refused. -/
def forgetIfCurrent (refused : String) : ChatCall Unit :=
  locked fun session =>
    (.ok (), if session.any (fun current => current.token = refused) then none else session)

/-- `store_session`: records a login and reports what a caller may see of it.  Whatever session
there was is replaced. -/
def storeSession (username : String) (reply : LoginResponse) : ChatCall SessionInfo :=
  locked fun _ =>
    let info := { username := username, expiresAt := reply.expiresAt }
    (.ok info, some { token := reply.token, info := info })

/-- What `execute` makes of a reply, given the token that the request carried.  A refusal ends the
session only if the request carried a token, and then only the session of that token. -/
def settle (sent : Option String) (reply : Reply ReplyBody) : ChatCall ReplyBody :=
  if reply.isSuccess then pure reply.body
  else
    match sent with
    | some token =>
        if reply.status = 401 then do
          forgetIfCurrent token
          throw .sessionExpired
        else throw (refusal reply.status reply.body.envelope)
    | none => throw (refusal reply.status reply.body.envelope)

/-- `execute`: builds the request, sends it, and turns a refusal into an error.  A call that
carries no token cannot end a session, whatever it is answered. -/
def execute (method path : String) (body : Option RequestBody) (auth : Auth) :
    ChatCall ReplyBody := do
  let (sent, reply) ← exchange (decide (auth = .required)) token
    (client.build method path body) ChatError.transport
  settle sent reply

/-- `decode`, for one of the types there are.  A body that cannot be read is an error of the
protocol, and the session stays. -/
def decode {α : Type} (body : Except String α) : ChatCall α :=
  (body.mapError ChatError.protocol : Except ChatError α)

/-- Where a room's messages are. -/
def messagesPath (room : RoomId) : String :=
  s!"/api/v1/rooms/{room.get}/messages"

/-- Which messages a fetch asks for, beyond how many.  A reader that has nothing yet asks for the
newest page, and one that has goes on from what it has. -/
inductive Cursor
  | newest
  | after (seq : Seq)
  | before (seq : Seq)
  deriving DecidableEq, Repr

/-- The path a fetch asks for. -/
def pagePath (room : RoomId) (limit : ℕ) : Cursor → String
  | .newest => s!"{messagesPath room}?limit={limit}"
  | .after seq => s!"{messagesPath room}?limit={limit}&after_seq={seq.get}"
  | .before seq => s!"{messagesPath room}?limit={limit}&before_seq={seq.get}"

/-! ### The calls -/

/-- `register`: creates an account.  Does not log in. -/
def register (username password : String) : ChatCall Unit := do
  let body ← client.execute "POST" "/api/v1/register" (some (.register ⟨username, password⟩)) .none
  decode body.ignored

/-- `login`: exchanges a username and password for a session.  The session is recorded only once
the reply has been read. -/
def login (username password : String) : ChatCall SessionInfo := do
  let body ← client.execute "POST" "/api/v1/login" (some (.login ⟨username, password⟩)) .none
  let reply ← decode body.login
  storeSession username reply

/-- `session`: the current login, if there is one. -/
def session : ChatCall (Option SessionInfo) :=
  locked fun session => (.ok (session.map Session.info), session)

/-- `logout`: forgets the current login.  The server is not told, since it keeps no sessions. -/
def logout : ChatCall Unit :=
  locked fun _ => (.ok (), none)

/-- `health`. -/
def health : ChatCall Unit := do
  let body ← client.execute "GET" "/api/v1/healthz" none .none
  decode body.ignored

/-- `server_info`. -/
def serverInfo : ChatCall ServerInfo := do
  let body ← client.execute "GET" "/api/v1/server" none .none
  decode body.server

/-- `rooms`: lists every room. -/
def rooms : ChatCall (List Room) := do
  let body ← client.execute "GET" "/api/v1/rooms" none .required
  let reply ← decode body.rooms
  return reply.rooms

/-- `create_room`: creates a room, or returns the one already holding the name. -/
def createRoom (name : String) : ChatCall Room := do
  let body ← client.execute "POST" "/api/v1/rooms" (some (.createRoom ⟨name⟩)) .required
  decode body.room

/-- `send`: posts a message to a room. -/
def send (room : RoomId) (body : String) : ChatCall PostMessageResponse := do
  let reply ← client.execute "POST" (messagesPath room) (some (.postMessage ⟨body⟩)) .required
  decode reply.posted

/-- `messages`: one page of a room's messages. -/
def messages (room : RoomId) (limit : ℕ) (cursor : Cursor) : ChatCall (List Message) := do
  let body ← client.execute "GET" (pagePath room limit cursor) none .required
  let reply ← decode body.messages
  return reply.messages

end ChatClient

/-! ### Any number of them at once -/

/-- A call that somebody makes of the client. -/
inductive ClientCall
  | register (username password : String)
  | login (username password : String)
  | session
  | logout
  | health
  | serverInfo
  | rooms
  | createRoom (name : String)
  | send (room : RoomId) (body : String)
  | messages (room : RoomId) (limit : ℕ) (cursor : ChatClient.Cursor)
  deriving DecidableEq, Repr

/-- What a call returns. -/
inductive ClientReply
  | done
  | login (info : SessionInfo)
  | session (info : Option SessionInfo)
  | server (info : ServerInfo)
  | rooms (rooms : List Room)
  | room (room : Room)
  | posted (reply : PostMessageResponse)
  | messages (messages : List Message)

/-- Whether a call's request carries the token. -/
def ClientCall.auth : ClientCall → Auth
  | .rooms | .createRoom _ | .send _ _ | .messages _ _ _ => .required
  | .register _ _ | .login _ _ | .session | .logout | .health | .serverInfo => .none

/-- Whether a call cannot do without the token.  The others are answered to anybody. -/
def ClientCall.needs (request : ClientCall) : Bool :=
  decide (request.auth = .required)

/-- What one step of a client is handed: a reply, or why there is none. -/
abbrev Arrival := Except TransportError (Reply ReplyBody)

/-- Any number of calls over the clones of one client. -/
abbrev ClientPool :=
  Pool ClientCall Arrival (ClientState (Option Session)) (Except ChatError ClientReply)

namespace ChatClient

variable (client : ChatClient)

/-- The program of a call. -/
def call : ClientCall → ChatCall ClientReply
  | .register username password => (fun _ => .done) <$> client.register username password
  | .login username password => .login <$> client.login username password
  | .session => .session <$> session
  | .logout => (fun _ => .done) <$> logout
  | .health => (fun _ => .done) <$> client.health
  | .serverInfo => .server <$> client.serverInfo
  | .rooms => .rooms <$> client.rooms
  | .createRoom name => .room <$> client.createRoom name
  | .send room body => .posted <$> client.send room body
  | .messages room limit cursor => .messages <$> client.messages room limit cursor

/-- One step of a client that is making calls. -/
def step : ClientPool → Label ClientCall Arrival → Option ClientPool :=
  Pool.step fun request => (client.call request).run

/-! ### What one step does -/

/-- What the steps of a call of the client have met. -/
abbrev MetBy := Met (Option Session) TransportError ReplyBody

/-- What a step of a call can do. -/
inductive Does (request : ClientCall) (met : MetBy)
    (update : Arrival → ClientState (Option Session) → ClientState (Option Session)) : Prop
  | looks (same : ∀ i s, update i s = s)
  | sends (wired : WireRequest) (bearer : wired.bearer = carried request.needs token met)
      (holds : request.needs → wired.bearer.isSome)
      (appends : ∀ i s, update i s = s.sending wired)
  | records (username password : String) (success : Reply ReplyBody) (reply : LoginResponse)
      (login : request = .login username password)
      (answered : answer request.needs met = some (.ok success))
      (accepted : success.isSuccess) (decoded : success.body.login = .ok reply)
      (stores : ∀ i s, update i s
        = { s with session := some ⟨reply.token, username, reply.expiresAt⟩ })
  | forgets (unauthorized : Reply ReplyBody) (refused : String) (needs : request.needs)
      (token : carried request.needs token met = some refused)
      (answered : answer request.needs met = some (.ok unauthorized))
      (status : unauthorized.status = 401)
      (clears : ∀ i s, update i s = { s with
        session := if s.session.any (fun current => current.token = refused) then none
          else s.session })
  | logsOut (logout : request = .logout) (clears : ∀ i s, update i s = { s with session := none })

variable {client} {request : ClientCall} {met : MetBy}
  {update : Arrival → ClientState (Option Session) → ClientState (Option Session)}
  {next : Arrival → ClientState (Option Session) →
    Prog Arrival (ClientState (Option Session)) (Except ChatError ClientReply)}

/-- A step of what `execute` does with a reply, or of what follows it. -/
theorem settle_step {sent : Option String} {reply : Reply ReplyBody}
    {rest : ReplyBody → ChatCall ClientReply}
    (h : (settle sent reply >>= rest).run.resume met = .step update next) :
    (reply.isSuccess ∧ (rest reply.body).run.resume met = .step update next) ∨
      ∃ token, sent = some token ∧ reply.status = 401 ∧
        ∀ i s, update i s = { s with
          session := if s.session.any (fun current => current.token = token) then none
            else s.session } := by
  unfold settle at h
  split at h
  · rename_i success
    rw [pure_bind] at h
    exact Or.inl ⟨success, h⟩
  · split at h
    · rename_i token
      split at h
      · rename_i unauthorized
        rw [bind_assoc] at h
        exact Or.inr ⟨token, rfl, unauthorized, locked_step (fun _ => ⟨_, run_throw_bind _ _⟩) h⟩
      · rw [run_throw_bind, Prog.resume_ret] at h
        cases h
    · rw [run_throw_bind, Prog.resume_ret] at h
      cases h

theorem bearer_of_build {method path : String} {body : Option RequestBody} {sent : Option String}
    {wired : WireRequest} (h : client.build method path body sent = .ok wired) :
    wired.bearer = sent := by
  unfold build at h
  split at h
  · cases h
  · split at h
    · cases h
      rfl
    · cases h

/-- What follows the exchange of a call takes no step, or records a login. -/
def Settles (request : ClientCall) (rest : ReplyBody → ChatCall ClientReply) : Prop :=
  ∀ body met update next, (rest body).run.resume met = .step update next →
    ∃ username password reply, request = .login username password ∧ body.login = .ok reply ∧
      ∀ i s, update i s = { s with session := some ⟨reply.token, username, reply.expiresAt⟩ }

/-- A step of a call that consists of a request and what is made of the reply. -/
theorem execute_step {method path : String} {body : Option RequestBody}
    {rest : ReplyBody → ChatCall ClientReply} (settles : Settles request rest)
    (h : (client.execute method path body request.auth >>= rest).run.resume met
      = .step update next) :
    Does request met update := by
  unfold execute at h
  rw [bind_assoc] at h
  cases exchange_step h with
  | looks unanswered same => exact .looks same
  | sends wired unanswered holds built appends =>
      have bearer := bearer_of_build built
      exact .sends wired bearer (fun needs => bearer ▸ holds needs) appends
  | settles reply answered holds stepped =>
      rcases settle_step stepped with ⟨success, stepped⟩ | ⟨token, sent, unauthorized, clears⟩
      · obtain ⟨username, password, login, rfl, decoded, stores⟩ := settles _ _ _ _ stepped
        exact .records username password reply login rfl answered success decoded stores
      · have needs : request.needs := by
          by_contra none
          unfold ClientCall.needs at none
          rw [eq_false_of_ne_true none] at sent
          cases sent
        exact .forgets reply token needs sent answered unauthorized clears

theorem settles_stepless {rest : ReplyBody → ChatCall ClientReply}
    (stepless : ∀ body, ∃ r, (rest body).run = .ret r) : Settles request rest := by
  intro body met update next stepped
  obtain ⟨r, returned⟩ := stepless body
  rw [returned, Prog.resume_ret] at stepped
  cases stepped

/-- What is decoded is only handed on. -/
theorem settles_decode {α : Type} (field : ReplyBody → Except String α) (wrap : α → ClientReply) :
    Settles request fun body => decode (field body) >>= fun a => pure (wrap a) := by
  refine settles_stepless fun body => ?_
  unfold decode
  rw [run_except_bind]
  cases field body with
  | ok a => exact ⟨_, rfl⟩
  | error e => exact ⟨_, rfl⟩

theorem settles_login {username password : String} :
    Settles (.login username password) fun body =>
      decode body.login >>= fun reply =>
        storeSession username reply >>= fun info => pure (.login info) := by
  intro body met update next stepped
  unfold decode at stepped
  rw [run_except_bind] at stepped
  cases read : body.login with
  | error e =>
      rw [read, Except.mapError, onOk_error, Prog.resume_ret] at stepped
      cases stepped
  | ok reply =>
      rw [read, Except.mapError, onOk_ok] at stepped
      exact ⟨username, password, reply, rfl, rfl, locked_step (fun _ => ⟨_, rfl⟩) stepped⟩

/-- **What a step of a call does.** A step leaves the session alone, or it is the one that records
a login, forgets a refused token, or logs out. -/
theorem call_step (h : (client.call request).run.resume met = .step update next) :
    Does request met update := by
  cases request with
  | register username password =>
      simp only [call, register, map_eq_pure_bind, bind_assoc] at h
      exact execute_step (settles_decode ReplyBody.ignored _) h
  | login username password =>
      simp only [call, login, map_eq_pure_bind, bind_assoc] at h
      exact execute_step settles_login h
  | session =>
      simp only [call, session, map_eq_pure_bind] at h
      exact .looks (locked_step (fun _ => ⟨_, rfl⟩) h)
  | logout =>
      simp only [call, logout, map_eq_pure_bind] at h
      exact .logsOut rfl (locked_step (fun _ => ⟨_, rfl⟩) h)
  | health =>
      simp only [call, health, map_eq_pure_bind, bind_assoc] at h
      exact execute_step (settles_decode ReplyBody.ignored _) h
  | serverInfo =>
      simp only [call, serverInfo, map_eq_pure_bind, bind_assoc] at h
      exact execute_step (settles_decode ReplyBody.server _) h
  | rooms =>
      simp only [call, rooms, map_eq_pure_bind, bind_assoc, pure_bind] at h
      exact execute_step (settles_decode ReplyBody.rooms _) h
  | createRoom name =>
      simp only [call, createRoom, map_eq_pure_bind, bind_assoc] at h
      exact execute_step (settles_decode ReplyBody.room _) h
  | send room body =>
      simp only [call, send, map_eq_pure_bind, bind_assoc] at h
      exact execute_step (settles_decode ReplyBody.posted _) h
  | messages room limit cursor =>
      simp only [call, messages, map_eq_pure_bind, bind_assoc, pure_bind] at h
      exact execute_step (settles_decode ReplyBody.messages _) h

/-! ### The law -/

/-- How a step of a call may change the session.  It records a login, forgets the token that was
refused, or logs out. -/
inductive Changes (request : ClientCall) (met : MetBy) : Option Session → Option Session → Prop
  | login {before : Option Session} (username password : String) (success : Reply ReplyBody)
      (reply : LoginResponse) (made : request = .login username password)
      (answered : answer request.needs met = some (.ok success))
      (accepted : success.isSuccess) (decoded : success.body.login = .ok reply) :
      Changes request met before (some ⟨reply.token, username, reply.expiresAt⟩)
  | logout {before : Option Session} (made : request = .logout) : Changes request met before none
  | refused (stored : Session) (unauthorized : Reply ReplyBody) (needs : request.needs)
      (own : carried request.needs token met = some stored.token)
      (answered : answer request.needs met = some (.ok unauthorized))
      (status : unauthorized.status = 401) : Changes request met (some stored) none

/-- **The law of the session**, for the step `l` from `p` to `q`, of calls whose steps have met
`met` so far. -/
structure SessionSafe (met : ℕ → MetBy) (p : ClientPool) (l : Label ClientCall Arrival)
    (q : ClientPool) : Prop where
  /-- A request carries the token that was stored when it was built, and there was one, if the
  call needs it; otherwise it carries none. -/
  wire : q.state.wire = p.state.wire ∨ ∃ k i th wired, l = .advance k i ∧
    p.threads[k]? = some th ∧ q.state.wire = p.state.wire ++ [wired] ∧
    wired.bearer = carried th.op.needs token (met k) ∧ (th.op.needs → wired.bearer.isSome)
  /-- The session changes by a login that is recorded, a logout, or the refusal of a request
  that carried the very token that is stored. -/
  session : q.state.session = p.state.session ∨ ∃ k i th, l = .advance k i ∧
    p.threads[k]? = some th ∧ Changes th.op (met k) p.state.session q.state.session
  /-- A reply to a request that carried another token leaves a login alone. -/
  kept : ∀ k i th stored, l = .advance k i → p.threads[k]? = some th → th.op.needs →
    p.state.session = some stored →
    carried th.op.needs token (met k) ≠ some stored.token → q.state.session = some stored

/-- A call whose request carries a token, but not the one that is stored, changes nothing. -/
theorem Changes.kept {before after : Option Session} {stored : Session}
    (changes : Changes request met before after) (needs : request.needs)
    (held : before = some stored)
    (other : carried request.needs token met ≠ some stored.token) : False := by
  cases changes with
  | login username password success reply made answered accepted decoded =>
      subst made
      cases needs
  | logout made =>
      subst made
      cases needs
  | refused current unauthorized _ own answered status =>
      obtain rfl := Option.some.inj held
      exact other own

/-- `forget_if_current` changes the session only if it is the one whose token was refused. -/
theorem forgets_current {unauthorized : Reply ReplyBody} {refused : String}
    (needs : request.needs) (own : carried request.needs token met = some refused)
    (answered : answer request.needs met = some (.ok unauthorized))
    (status : unauthorized.status = 401) (session : Option Session) :
    (if session.any (fun current => current.token = refused) then none else session) = session ∨
      Changes request met session
        (if session.any (fun current => current.token = refused) then none else session) := by
  cases session with
  | none => exact Or.inl rfl
  | some stored =>
      rw [Option.any_some]
      by_cases same : stored.token = refused
      · rw [if_pos (decide_eq_true same)]
        exact Or.inr (.refused stored unauthorized needs (same ▸ own) answered status)
      · rw [if_neg (by simpa using same)]
        exact Or.inl rfl

/-- What a step that a call may take does to the state. -/
theorem Does.state (does : Does request met update) (i : Arrival)
    (s : ClientState (Option Session)) :
    ((update i s).wire = s.wire ∨ ∃ wired, (update i s).wire = s.wire ++ [wired] ∧
      wired.bearer = carried request.needs token met ∧
      (request.needs → wired.bearer.isSome)) ∧
    ((update i s).session = s.session ∨ Changes request met s.session (update i s).session) := by
  cases does with
  | looks same =>
      rw [same]
      exact ⟨Or.inl rfl, Or.inl rfl⟩
  | sends wired bearer holds appends =>
      rw [appends]
      exact ⟨Or.inr ⟨wired, rfl, bearer, holds⟩, Or.inl rfl⟩
  | records username password success reply login answered accepted decoded stores =>
      rw [stores]
      exact ⟨Or.inl rfl,
        Or.inr (.login username password success reply login answered accepted decoded)⟩
  | forgets unauthorized refused needs own answered status clears =>
      rw [clears]
      exact ⟨Or.inl rfl, forgets_current needs own answered status s.session⟩
  | logsOut logout clears =>
      rw [clears]
      exact ⟨Or.inl rfl, Or.inr (.logout logout)⟩

/-- **Session safety.** Every step of every interleaving of calls keeps the law.  Any number of
calls is under way, each at any of its steps, and replies arrive in any order or not at all. -/
theorem session_safe {client : ChatClient} {s : ClientState (Option Session)}
    {ls : List (Label ClientCall Arrival)} {l : Label ClientCall Arrival} {p q : ClientPool}
    (ran : run client.step (Pool.idle s) ls = some p) (stepped : client.step p l = some q) :
    SessionSafe (fun k => Pool.met (fun request => (client.call request).run) k (Pool.idle s) ls)
      p l q := by
  cases l with
  | spawn request =>
      unfold ChatClient.step at stepped
      rw [Pool.step_spawn] at stepped
      obtain rfl := Option.some.inj stepped
      refine ⟨Or.inl rfl, Or.inl rfl, ?_⟩
      intro k i th stored same
      cases same
  | advance k i =>
      obtain ⟨request, start, update, next, found, rfl⟩ := Pool.step_advance stepped
      have does := call_step (Pool.resume_met ran found)
      obtain ⟨wire, session⟩ := does.state i p.state
      refine ⟨?_, ?_, ?_⟩
      · refine wire.imp_right ?_
        rintro ⟨wired, appended, bearer, holds⟩
        exact ⟨k, i, _, wired, rfl, found, appended, bearer, holds⟩
      · exact session.imp_right fun changes => ⟨k, i, _, rfl, found, changes⟩
      · intro k' i' th stored same found' required held other
        cases same
        obtain rfl := Option.some.inj (found.symm.trans found')
        rcases session with unchanged | changes
        · exact unchanged.trans held
        · exact (changes.kept required held other).elim

/-! ### A late refusal -/

namespace Sample

/-- A client of a server on this host. -/
def localClient : ChatClient := ⟨"http://localhost", fun _ => none⟩

/-- A body that decodes to nothing. -/
def noBody : ReplyBody :=
  ⟨.error "", .error "", .error "", .error "", .error "", .error "", .error "", .error ""⟩

/-- The reply to a login. -/
def loggedIn (token : String) : Arrival :=
  .ok ⟨200, { noBody with login := .ok ⟨token, ⟨0⟩⟩ }⟩

/-- A call for the rooms is sent with one token, another one is stored, and then the call is
refused.  The refusal is in; what is left is to forget the session. -/
def late : List (Label ClientCall Arrival) :=
  [.spawn (.login "ada" "pw"), .advance 0 (.error .timeout), .advance 0 (loggedIn "one"),
    .advance 0 (.error .timeout), .spawn .rooms, .advance 1 (.error .timeout),
    .advance 1 (.error .timeout), .spawn (.login "ada" "pw"), .advance 2 (.error .timeout),
    .advance 2 (loggedIn "two"), .advance 2 (.error .timeout), .advance 1 (.ok ⟨401, noBody⟩)]

end Sample

/-- A late refusal leaves the login that was recorded in the meantime alone. -/
theorem session_safe_late : ∃ p q,
    run Sample.localClient.step (Pool.idle ⟨none, []⟩) Sample.late = some p ∧
    Sample.localClient.step p (.advance 1 (.error .timeout)) = some q ∧
    q.state.session = some ⟨"two", "ada", ⟨0⟩⟩ ∧
    SessionSafe (fun k => Pool.met (fun request => (Sample.localClient.call request).run) k
      (Pool.idle ⟨none, []⟩) Sample.late) p (.advance 1 (.error .timeout)) q := by
  obtain ⟨p, q, ran, stepped, held⟩ : ∃ p q,
      run Sample.localClient.step (Pool.idle ⟨none, []⟩) Sample.late = some p ∧
      Sample.localClient.step p (.advance 1 (.error .timeout)) = some q ∧
      q.state.session = some ⟨"two", "ada", ⟨0⟩⟩ := ⟨_, _, rfl, rfl, rfl⟩
  exact ⟨p, q, ran, stepped, held, session_safe ran stepped⟩

end ChatClient

end ScionChat
