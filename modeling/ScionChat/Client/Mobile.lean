import ScionChat.Client.Exchange

/-!
# The session of the Android and iOS clients

`ChatClient.kt` and `ChatClient.swift` are one client in two languages, and part only in the
text of one error.  Each holds a token and a username.  A call reads the token before it
suspends, and when it is resumed with a refusal that says the session is over it clears both,
whoever's they are by then.

* `own_token_iff` — session safety, exactly: every step along a schedule keeps the law if and
  only if no refusal meets another token than the one its own request carried.
* `login_discarded` — a schedule that breaks it, on either phone: a late refusal clears the login
  that was recorded while it was under way.

### design decisions

* **One client, with the difference as a parameter.**  `MobileClient` holds the text that is said
  of a refusal without an envelope.  Everything else the two languages share, down to the order
  of the statements, and is written once.
* **Finer than either runtime.**  What runs between two suspensions is atomic on both phones.
  Here a call may be interrupted between the reply and what it makes of it, so every schedule of
  theirs is one of these, and the direction that needs a schedule uses one that both can have.
* **The condition is on the state before the step.**  It compares the token that is stored with
  the one the request carried, and does not look at what the step does.

### What is load-bearing

`program_step`, by way of `Exchange.exchange_step`: only the step behind a refusal may clear, and
what it clears is whatever is stored.  `Consistent` — the stored token is that of the last login —
is the companion without which a cleared token could not be traced to the login it belonged to.
-/

namespace ScionChat

open Interleaving TransitionSystem

/-! ### What a client holds -/

/-- The token, and who is logged in.  Either may be there without the other. -/
structure MobileSession where
  token : Option String
  username : Option String
  /-- The tokens of all logins recorded so far, the newest last.  Nothing depends on it. -/
  recorded : List String
  deriving DecidableEq, Repr

/-- Nobody is logged in. -/
def MobileSession.new : MobileSession := ⟨none, none, []⟩

/-- Why a request did not complete, as the transport saw it. -/
inductive TransportFailure
  | connectivity
  | resolution
  | connect
  | tls
  | streamReset
  | protocol
  | bodyTooLarge
  | timeout
  /-- On Android only. -/
  | closed
  deriving DecidableEq, Repr

/-- What a request failed with. -/
structure MobileFailure where
  kind : TransportFailure
  detail : String
  deriving DecidableEq, Repr

/-- Everything a call can fail with. -/
inductive MobileError
  /-- The request never produced a response. -/
  | transport (failure : MobileFailure)
  /-- The server refused, and said why. -/
  | api (status : ℕ) (code message : String)
  | protocol (detail : String)
  | notLoggedIn
  | sessionExpired
  deriving DecidableEq, Repr

/-- What an error envelope holds. -/
structure ApiFailure where
  code : String
  message : String
  deriving DecidableEq, Repr

/-- What a reply's body decodes to, for each type a call may ask for, or why it does not. -/
structure MobileBody where
  login : Except String LoginResponse
  server : Except String ServerInfo
  rooms : Except String RoomsResponse
  room : Except String Room
  messages : Except String MessagesResponse
  envelope : Except String ApiFailure

/-- A part of a call. -/
abbrev MobileCall (α : Type) := Call MobileSession MobileFailure MobileBody MobileError α

/-- The text by which the two clients differ: what is said of a refusal without an envelope,
from its status and from why it has none. -/
structure MobileClient where
  noEnvelope : ℕ → String → String

/-- `ChatClient.kt`. -/
def Android.chatClient : MobileClient :=
  ⟨fun status why => s!"{status} carried no error envelope: {why}"⟩

/-- `ChatClient.swift`. -/
def Ios.chatClient : MobileClient :=
  ⟨fun status _ => s!"{status} carried no error envelope"⟩

namespace MobileClient

variable (client : MobileClient)

/-- `refusal`: anything that is not a success as an error.  That the session has ended is told by
the code in the envelope, and not by the status. -/
def refusal (status : ℕ) (body : Except String ApiFailure) : MobileError :=
  match body with
  | .error why => .protocol (client.noEnvelope status why)
  | .ok envelope =>
      if envelope.code = "expired_token" ∨ envelope.code = "unauthorized" then .sessionExpired
      else .api status envelope.code envelope.message

/-- The token, where a call cannot do without one. -/
def token (session : MobileSession) : Except MobileError String :=
  match session.token with
  | some held => .ok held
  | none => .error .notLoggedIn

/-- What `call` makes of a reply.  A session that is over is cleared, whichever it is. -/
def settle (reply : Reply MobileBody) : MobileCall MobileBody :=
  if reply.isSuccess then pure reply.body
  else if client.refusal reply.status reply.body.envelope = .sessionExpired then do
    locked fun session => (.ok (), { session with token := none, username := none })
    throw (client.refusal reply.status reply.body.envelope)
  else throw (client.refusal reply.status reply.body.envelope)

/-- `call`: sends, and turns anything that is not a success into an error.  Whatever the reply is,
`settle` judges it: a body to decode, an error, or the end of the session. -/
def call (method path : String) (json : Option RequestBody) (authenticated : Bool) :
    MobileCall MobileBody := do
  let (_, reply) ← exchange authenticated token (fun bearer => .ok ⟨method, path, json, bearer⟩)
    MobileError.transport
  client.settle reply

/-- `decode`, for one of the types there are. -/
def decode {α : Type} (body : Except String α) : MobileCall α :=
  (body.mapError fun why => .protocol s!"a reply could not be decoded: {why}" :
    Except MobileError α)

/-! ### The calls -/

/-- `health`. -/
def health : MobileCall Unit := do
  let _ ← client.call "GET" "/healthz" none false
  return ()

/-- `serverInfo`. -/
def serverInfo : MobileCall ServerInfo := do
  let body ← client.call "GET" "/server" none false
  decode body.server

/-- `register`: creates the account.  Does not log in. -/
def register (username password : String) : MobileCall Unit := do
  let _ ← client.call "POST" "/register" (some (.register ⟨username, password⟩)) false
  return ()

/-- `logIn`. -/
def logIn (username password : String) : MobileCall Unit := do
  let body ← client.call "POST" "/login" (some (.login ⟨username, password⟩)) false
  let reply ← decode body.login
  locked fun session => (.ok (),
    ⟨some reply.token, some username, session.recorded ++ [reply.token]⟩)

/-- `rooms`. -/
def rooms : MobileCall (List Room) := do
  let body ← client.call "GET" "/rooms" none true
  let reply ← decode body.rooms
  return reply.rooms

/-- `createRoom`. -/
def createRoom (name : String) : MobileCall Room := do
  let body ← client.call "POST" "/rooms" (some (.createRoom ⟨name⟩)) true
  decode body.room

/-- `messagesNewest`. -/
def messagesNewest (room limit : ℤ) : MobileCall (List Message) := do
  let body ← client.call "GET" s!"/rooms/{room}/messages?limit={limit}" none true
  let reply ← decode body.messages
  return reply.messages

/-- `messagesAfter`. -/
def messagesAfter (room after limit : ℤ) : MobileCall (List Message) := do
  let body ← client.call "GET" s!"/rooms/{room}/messages?after_seq={after}&limit={limit}" none true
  let reply ← decode body.messages
  return reply.messages

/-- `send`. -/
def send (room : ℤ) (body : String) : MobileCall Unit := do
  let _ ← client.call "POST" s!"/rooms/{room}/messages" (some (.postMessage ⟨body⟩)) true
  return ()

end MobileClient

/-! ### Any number of them at once -/

/-- A call that somebody makes of the client. -/
inductive MobileRequest
  | health
  | serverInfo
  | register (username password : String)
  | logIn (username password : String)
  | rooms
  | createRoom (name : String)
  | messagesNewest (room limit : ℤ)
  | messagesAfter (room after limit : ℤ)
  | send (room : ℤ) (body : String)
  deriving DecidableEq, Repr

/-- What a call returns. -/
inductive MobileReply
  | done
  | server (info : ServerInfo)
  | rooms (rooms : List Room)
  | room (room : Room)
  | messages (messages : List Message)

/-- Whether a call cannot do without the token. -/
def MobileRequest.authenticated : MobileRequest → Bool
  | .health | .serverInfo | .register _ _ | .logIn _ _ => false
  | .rooms | .createRoom _ | .messagesNewest _ _ | .messagesAfter _ _ _ | .send _ _ => true

/-- What one step of a client is handed: a reply, or why there is none. -/
abbrev MobileArrival := Except MobileFailure (Reply MobileBody)

/-- What the steps of a call have met. -/
abbrev MobileMet := Met MobileSession MobileFailure MobileBody

/-- Any number of calls on one client. -/
abbrev MobilePool :=
  Pool MobileRequest MobileArrival (ClientState MobileSession) (Except MobileError MobileReply)

namespace MobileClient

variable (client : MobileClient)

/-- The program of a call. -/
def program : MobileRequest → MobileCall MobileReply
  | .health => (fun _ => .done) <$> client.health
  | .serverInfo => .server <$> client.serverInfo
  | .register username password => (fun _ => .done) <$> client.register username password
  | .logIn username password => (fun _ => .done) <$> client.logIn username password
  | .rooms => .rooms <$> client.rooms
  | .createRoom name => .room <$> client.createRoom name
  | .messagesNewest room limit => .messages <$> client.messagesNewest room limit
  | .messagesAfter room after limit => .messages <$> client.messagesAfter room after limit
  | .send room body => (fun _ => .done) <$> client.send room body

/-- One step of a client on which calls are being made. -/
def step : MobilePool → Label MobileRequest MobileArrival → Option MobilePool :=
  Pool.step fun request => (client.program request).run

/-! ### What one step does -/

/-- The session is over, says the reply. -/
def Expired (reply : Reply MobileBody) : Prop :=
  reply.isSuccess = false ∧ client.refusal reply.status reply.body.envelope = .sessionExpired

/-- What a step of a call can do. -/
inductive Does (request : MobileRequest) (met : MobileMet)
    (update : MobileArrival → ClientState MobileSession → ClientState MobileSession) : Prop
  | looks (unanswered : answer request.authenticated met = none) (same : ∀ i s, update i s = s)
  | sends (wired : WireRequest) (unanswered : answer request.authenticated met = none)
      (appends : ∀ i s, update i s = s.sending wired)
  | records (username password token : String) (success : Reply MobileBody)
      (made : request = .logIn username password)
      (answered : answer request.authenticated met = some (.ok success))
      (accepted : success.isSuccess)
      (stores : ∀ i s, update i s = { s with
        session := ⟨some token, some username, s.session.recorded ++ [token]⟩ })
  | clears (refused : Reply MobileBody)
      (answered : answer request.authenticated met = some (.ok refused))
      (expired : client.Expired refused)
      (holds : request.authenticated → (carried request.authenticated token met).isSome)
      (forgets : ∀ i s, update i s = { s with
        session := { s.session with token := none, username := none } })

variable {client} {request : MobileRequest} {met : MobileMet}
  {update : MobileArrival → ClientState MobileSession → ClientState MobileSession}
  {next : MobileArrival → ClientState MobileSession →
    Prog MobileArrival (ClientState MobileSession) (Except MobileError MobileReply)}

/-- A step of what `call` does with a reply, or of what follows it. -/
theorem settle_step {reply : Reply MobileBody} {rest : MobileBody → MobileCall MobileReply}
    (h : (client.settle reply >>= rest).run.resume met = .step update next) :
    (reply.isSuccess ∧ (rest reply.body).run.resume met = .step update next) ∨
      (client.Expired reply ∧ ∀ i s, update i s = { s with
        session := { s.session with token := none, username := none } }) := by
  unfold settle at h
  split at h
  · rename_i success
    rw [pure_bind] at h
    exact Or.inl ⟨success, h⟩
  · rename_i failed
    split at h
    · rename_i expired
      rw [bind_assoc] at h
      exact Or.inr ⟨⟨eq_false_of_ne_true failed, expired⟩,
        locked_step (fun _ => ⟨_, run_throw_bind _ _⟩) h⟩
    · rw [run_throw_bind, Prog.resume_ret] at h
      cases h

/-- What follows the exchange of a call takes no step, or records a login. -/
def Settles (request : MobileRequest) (rest : MobileBody → MobileCall MobileReply) : Prop :=
  ∀ body met update next, (rest body).run.resume met = .step update next →
    ∃ username password token, request = .logIn username password ∧
      ∀ i s, update i s = { s with
        session := ⟨some token, some username, s.session.recorded ++ [token]⟩ }

theorem settles_stepless {rest : MobileBody → MobileCall MobileReply}
    (stepless : ∀ body, ∃ r, (rest body).run = .ret r) : Settles request rest := by
  intro body met update next stepped
  obtain ⟨r, returned⟩ := stepless body
  rw [returned, Prog.resume_ret] at stepped
  cases stepped

theorem settles_done : Settles request fun _ => pure .done :=
  settles_stepless fun _ => ⟨_, rfl⟩

/-- What is decoded is only handed on. -/
theorem settles_decode {α : Type} (field : MobileBody → Except String α) (wrap : α → MobileReply) :
    Settles request fun body => decode (field body) >>= fun a => pure (wrap a) := by
  refine settles_stepless fun body => ?_
  unfold decode
  rw [run_except_bind]
  cases field body with
  | ok a => exact ⟨_, rfl⟩
  | error e => exact ⟨_, rfl⟩

theorem settles_logIn {username password : String} :
    Settles (.logIn username password) fun body =>
      decode body.login >>= fun reply =>
        locked (fun session => (.ok (),
          ⟨some reply.token, some username, session.recorded ++ [reply.token]⟩)) >>= fun _ =>
            pure .done := by
  intro body met update next stepped
  unfold decode at stepped
  rw [run_except_bind] at stepped
  cases read : body.login with
  | error e =>
      rw [read, Except.mapError, onOk_error, Prog.resume_ret] at stepped
      cases stepped
  | ok reply =>
      rw [read, Except.mapError, onOk_ok] at stepped
      exact ⟨username, password, reply.token, rfl, locked_step (fun _ => ⟨_, rfl⟩) stepped⟩

/-- A step of a call that consists of a request and what is made of the reply. -/
theorem call_step {method path : String} {json : Option RequestBody}
    {rest : MobileBody → MobileCall MobileReply} (settles : Settles request rest)
    (h : (client.call method path json request.authenticated >>= rest).run.resume met
      = .step update next) :
    client.Does request met update := by
  unfold call at h
  rw [bind_assoc] at h
  cases exchange_step h with
  | looks unanswered same => exact .looks unanswered same
  | sends wired unanswered holds built appends => exact .sends wired unanswered appends
  | settles reply answered holds stepped =>
      rcases settle_step stepped with ⟨success, stepped⟩ | ⟨expired, forgets⟩
      · obtain ⟨username, password, token, made, stores⟩ := settles _ _ _ _ stepped
        exact .records username password token reply made answered success stores
      · exact .clears reply answered expired holds forgets

/-- **What a step of a call does.** It is the inversion that everything over interleaved calls
rests on: a step writes the session, or puts a request on the wire, or leaves both alone. -/
theorem program_step (h : (client.program request).run.resume met = .step update next) :
    client.Does request met update := by
  cases request with
  | health =>
      simp only [program, health, map_eq_pure_bind, bind_assoc, pure_bind] at h
      exact call_step settles_done h
  | serverInfo =>
      simp only [program, serverInfo, map_eq_pure_bind, bind_assoc] at h
      exact call_step (settles_decode MobileBody.server _) h
  | register username password =>
      simp only [program, register, map_eq_pure_bind, bind_assoc, pure_bind] at h
      exact call_step settles_done h
  | logIn username password =>
      simp only [program, logIn, map_eq_pure_bind, bind_assoc] at h
      exact call_step settles_logIn h
  | rooms =>
      simp only [program, rooms, map_eq_pure_bind, bind_assoc, pure_bind] at h
      exact call_step (settles_decode MobileBody.rooms _) h
  | createRoom name =>
      simp only [program, createRoom, map_eq_pure_bind, bind_assoc] at h
      exact call_step (settles_decode MobileBody.room _) h
  | messagesNewest room limit =>
      simp only [program, messagesNewest, map_eq_pure_bind, bind_assoc, pure_bind] at h
      exact call_step (settles_decode MobileBody.messages _) h
  | messagesAfter room after limit =>
      simp only [program, messagesAfter, map_eq_pure_bind, bind_assoc, pure_bind] at h
      exact call_step (settles_decode MobileBody.messages _) h
  | send room body =>
      simp only [program, send, map_eq_pure_bind, bind_assoc, pure_bind] at h
      exact call_step settles_done h

/-! ### The law, and when it holds -/

/-- A token or a username that was stored is gone. -/
def Forgets (before after : MobileSession) : Prop :=
  before.token.isSome ∧ after.token = none ∨ before.username.isSome ∧ after.username = none

variable (client) in
/-- What the steps of a call have met when these labels have been taken. -/
def metBy (k : ℕ) (ls : List (Label MobileRequest MobileArrival)) : MobileMet :=
  Pool.met (fun request => (client.program request).run) k (Pool.idle ⟨.new, []⟩) ls

variable (client) in
/-- **The law of the session**, for one step: what is stored is cleared only by the refusal of a
request that carried the token that is stored. -/
def OwnToken (ls : List (Label MobileRequest MobileArrival)) (p : MobilePool)
    (l : Label MobileRequest MobileArrival) (q : MobilePool) : Prop :=
  Forgets p.state.session q.state.session → ∃ k i th, l = .advance k i ∧
    p.threads[k]? = some th ∧ p.state.session.token.isSome ∧
    carried th.op.authenticated token (client.metBy k ls) = p.state.session.token

/-- The tokens of the logins that were recorded after a call took its first step. -/
def loggedInSince (met : MobileMet) (session : MobileSession) : List String :=
  session.recorded.drop (met.head?.elim 0 fun first => first.2.session.recorded.length)

variable (client) in
/-- The condition on one step: when a call goes on from a refusal that says the session is
over, nothing is stored, or its request carried a token, and the last login recorded since the
request was built was given that same token, if there was one. -/
def Undisturbed (ls : List (Label MobileRequest MobileArrival)) (p : MobilePool)
    (l : Label MobileRequest MobileArrival) (_ : MobilePool) : Prop :=
  ∀ k i th refused, l = .advance k i → p.threads[k]? = some th →
    answer th.op.authenticated (client.metBy k ls) = some (.ok refused) → client.Expired refused →
    p.state.session.token = none ∨ th.op.authenticated ∧
      ∀ last ∈ (loggedInSince (client.metBy k ls) p.state.session).getLast?,
        carried th.op.authenticated token (client.metBy k ls) = some last

/-! ### What every run keeps -/

/-- The token that is stored is that of the last login, and somebody is logged in with it. -/
structure Consistent (session : MobileSession) : Prop where
  username : session.username.isSome = session.token.isSome
  last : ∀ t, session.token = some t → session.recorded.getLast? = some t

theorem Does.consistent (does : client.Does request met update) (i : MobileArrival)
    {s : ClientState MobileSession} (inv : Consistent s.session) :
    Consistent (update i s).session ∧ s.session.recorded <+: (update i s).session.recorded := by
  cases does with
  | looks unanswered same =>
      rw [same]
      exact ⟨inv, List.prefix_rfl⟩
  | sends wired unanswered appends =>
      rw [appends]
      exact ⟨inv, List.prefix_rfl⟩
  | records username password token success made answered accepted stores =>
      rw [stores]
      refine ⟨⟨rfl, fun t held => ?_⟩, List.prefix_append _ _⟩
      rw [List.getLast?_concat]
      exact held
  | clears refused answered expired holds forgets =>
      rw [forgets]
      refine ⟨⟨rfl, fun t held => ?_⟩, List.prefix_rfl⟩
      cases held

section

variable {ls : List (Label MobileRequest MobileArrival)} {l : Label MobileRequest MobileArrival}
  {p q : MobilePool}

theorem consistent_run (ran : run client.step (Pool.idle ⟨.new, []⟩) ls = some p) :
    Consistent p.state.session := by
  refine run_induction (motive := fun _ p => Consistent p.state.session)
    ⟨rfl, fun _ held => ?_⟩ ?_ ran
  · cases held
  intro ls p l q ran inv stepped
  cases l with
  | spawn request =>
      cases stepped
      exact inv
  | advance k i =>
      obtain ⟨request, start, update, next, found, rfl⟩ := Pool.step_advance stepped
      exact ((program_step (Pool.resume_met ran found)).consistent i inv).1

/-- The logins recorded so far stay recorded. -/
theorem recorded_met (ran : run client.step (Pool.idle ⟨.new, []⟩) ls = some p) (k : ℕ) :
    ∀ pair ∈ client.metBy k ls, pair.2.session.recorded <+: p.state.session.recorded := by
  refine Pool.met_rel (R := fun s t => s.session.recorded <+: t.session.recorded)
    (fun _ _ _ => List.IsPrefix.trans) ran ?_ k
  intro ms l p q ran stepped
  cases l with
  | spawn request =>
      cases stepped
      exact List.prefix_rfl
  | advance k i =>
      obtain ⟨request, start, update, next, found, rfl⟩ := Pool.step_advance stepped
      exact ((program_step (Pool.resume_met ran found)).consistent i (consistent_run ran)).2

/-- The states that the steps of a call meet are consistent. -/
theorem consistent_met (ran : run client.step (Pool.idle ⟨.new, []⟩) ls = some p) (k : ℕ) :
    ∀ pair ∈ client.metBy k ls, Consistent pair.2.session :=
  Pool.met_invariant (P := fun s : ClientState MobileSession => Consistent s.session) ran
    (fun _ _ ran => consistent_run ran) k

/-! ### The law holds exactly when the condition does -/

theorem not_forgets_self (session : MobileSession) : ¬ Forgets session session := by
  rintro (⟨held, gone⟩ | ⟨held, gone⟩)
  · rw [gone] at held
    cases held
  · rw [gone] at held
    cases held

/-- Only a refusal that says the session is over clears anything. -/
theorem Does.of_forgets (does : client.Does request met update) {i : MobileArrival}
    {s : ClientState MobileSession} (inv : Consistent s.session)
    (forgets : Forgets s.session (update i s).session) :
    s.session.token.isSome ∧ ∃ refused,
      answer request.authenticated met = some (.ok refused) ∧ client.Expired refused ∧
        (request.authenticated → (carried request.authenticated token met).isSome) := by
  cases does with
  | looks unanswered same =>
      rw [same] at forgets
      exact absurd forgets (not_forgets_self _)
  | sends wired unanswered appends =>
      rw [appends] at forgets
      exact absurd forgets (not_forgets_self _)
  | records username password token success made answered accepted stores =>
      rw [stores] at forgets
      rcases forgets with ⟨-, gone⟩ | ⟨-, gone⟩
      · cases gone
      · cases gone
  | clears refused answered expired holds gone =>
      refine ⟨?_, refused, answered, expired, holds⟩
      rcases forgets with ⟨held, -⟩ | ⟨held, -⟩
      · exact held
      · exact inv.username ▸ held

theorem held_of_carried {first : MobileArrival × ClientState MobileSession} {rest : MobileMet}
    {t : String} (h : carried true token (first :: rest) = some t) :
    first.2.session.token = some t := by
  unfold carried token at h
  rw [if_pos rfl, List.head?_cons, Option.bind_some] at h
  cases held : first.2.session.token with
  | none =>
      rw [held] at h
      cases h
  | some own =>
      rw [held] at h
      exact h

/-- What a call that is read as over finds stored is what its request carried, or what the last
login since was given. -/
theorem carried_of_undisturbed {k : ℕ} {request : MobileRequest} {reply : MobileArrival}
    (ran : run client.step (Pool.idle ⟨.new, []⟩) ls = some p)
    (answered : answer request.authenticated (client.metBy k ls) = some reply)
    (needs : request.authenticated)
    (holds : (carried request.authenticated token (client.metBy k ls)).isSome)
    {stored : String} (held : p.state.session.token = some stored)
    (last : ∀ t ∈ (loggedInSince (client.metBy k ls) p.state.session).getLast?,
      carried request.authenticated token (client.metBy k ls) = some t) :
    carried request.authenticated token (client.metBy k ls) = some stored := by
  have newest := (consistent_run ran).last stored held
  cases met : client.metBy k ls with
  | nil =>
      rw [met] at answered
      cases answered
  | cons first rest =>
      have mem : first ∈ client.metBy k ls := met ▸ List.mem_cons_self
      obtain ⟨since, split⟩ := recorded_met ran k first mem
      rw [met] at last holds
      unfold loggedInSince at last
      rw [← split, List.head?_cons, Option.elim_some, List.drop_left] at last
      rw [← split, List.getLast?_append] at newest
      -- the newest token was recorded since the call began, or was there when it did
      cases latest : since.getLast? with
      | some t =>
          rw [latest, Option.some_or] at newest
          rw [last t latest, newest]
      | none =>
          rw [latest, Option.none_or] at newest
          rw [needs] at holds ⊢
          obtain ⟨t, built⟩ := Option.isSome_iff_exists.mp holds
          have before := (consistent_met ran k first mem).last t (held_of_carried built)
          rw [built, ← before, newest]

/-- A step that meets the condition keeps the law. -/
theorem ownToken_of_undisturbed (ran : run client.step (Pool.idle ⟨.new, []⟩) ls = some p)
    (stepped : client.step p l = some q) (undisturbed : client.Undisturbed ls p l q) :
    client.OwnToken ls p l q := by
  intro forgets
  have inv := consistent_run ran
  cases l with
  | spawn request =>
      cases stepped
      exact absurd forgets (not_forgets_self _)
  | advance k i =>
      obtain ⟨request, start, update, next, found, rfl⟩ := Pool.step_advance stepped
      have does := program_step (Pool.resume_met ran found)
      obtain ⟨held, refused, answered, expired, holds⟩ := does.of_forgets inv forgets
      refine ⟨k, i, _, rfl, found, held, ?_⟩
      obtain ⟨stored, eq⟩ := Option.isSome_iff_exists.mp held
      rcases undisturbed k i _ refused rfl found answered expired with none | ⟨needs, last⟩
      · rw [none] at eq
        cases eq
      · rw [eq]
        exact carried_of_undisturbed ran answered needs (holds needs) eq last

/-- A step that keeps the law meets the condition. -/
theorem undisturbed_of_ownToken (ran : run client.step (Pool.idle ⟨.new, []⟩) ls = some p)
    (stepped : client.step p l = some q) (own : client.OwnToken ls p l q) :
    client.Undisturbed ls p l q := by
  rintro k i th refused rfl found answered expired
  cases held : p.state.session.token with
  | none => exact Or.inl rfl
  | some stored =>
      refine Or.inr ?_
      obtain ⟨request, start, update, next, found', rfl⟩ := Pool.step_advance stepped
      obtain rfl := Option.some.inj (found'.symm.trans found)
      -- the reply has arrived and is a refusal, so the step is the one that clears the session
      have forgets : Forgets p.state.session (update i p.state).session := by
        cases program_step (Pool.resume_met ran found) with
        | looks unanswered same =>
            cases unanswered.symm.trans answered
        | sends wired unanswered appends =>
            cases unanswered.symm.trans answered
        | records username password token success made answered' accepted stores =>
            cases answered'.symm.trans answered
            rw [expired.1] at accepted
            cases accepted
        | clears refused' answered' expired' holds gone =>
            rw [gone]
            exact Or.inl ⟨held ▸ rfl, rfl⟩
      obtain ⟨k', i', th, same, found', -, carries⟩ := own forgets
      cases same
      obtain rfl := Option.some.inj (found'.symm.trans found)
      rw [held] at carries
      refine ⟨?_, fun t last => ?_⟩
      · by_contra none
        unfold carried at carries
        rw [if_neg none] at carries
        cases carries
      · have newest := (consistent_run ran).last stored held
        unfold loggedInSince at last
        rw [List.getLast?_drop] at last
        split at last
        · cases last
        · rw [carries, ← newest]
          exact last

end

/-- **Session safety of the mobile clients, exactly.**  Every step along a schedule keeps the
law if and only if every step along it meets the condition. -/
theorem own_token_iff (client : MobileClient) (ls : List (Label MobileRequest MobileArrival)) :
    EveryStep client.step client.OwnToken (Pool.idle ⟨.new, []⟩) ls ↔
      EveryStep client.step client.Undisturbed (Pool.idle ⟨.new, []⟩) ls :=
  ⟨EveryStep.imp fun _ _ _ _ => undisturbed_of_ownToken,
    EveryStep.imp fun _ _ _ _ => ownToken_of_undisturbed⟩

/-! ### A late refusal -/

namespace Sample

/-- A body that decodes to nothing. -/
def noBody : MobileBody :=
  ⟨.error "", .error "", .error "", .error "", .error "", .error ""⟩

/-- The reply to a login. -/
def loggedIn (token : String) : MobileArrival :=
  .ok ⟨200, { noBody with login := .ok ⟨token, ⟨0⟩⟩ }⟩

/-- The refusal of a token that is over. -/
def expired : MobileArrival :=
  .ok ⟨401, { noBody with envelope := .ok ⟨"expired_token", ""⟩ }⟩

/-- A call for the rooms is sent with one token, another one is stored, and then the call is
refused.  The refusal is in; what is left is to clear the session.  A step that waits for
nothing does not look at what it is handed. -/
def late : List (Label MobileRequest MobileArrival) :=
  [.spawn (.logIn "ada" "pw"), .advance 0 expired, .advance 0 (loggedIn "one"),
    .advance 0 expired, .spawn .rooms, .advance 1 expired, .advance 1 expired,
    .spawn (.logIn "ada" "pw"), .advance 2 expired, .advance 2 (loggedIn "two"),
    .advance 2 expired, .advance 1 expired]

end Sample

/-- **A late refusal discards the login that was recorded in the meantime**, on Android and on iOS.
The refusal is of a call that carried the old token, and what it discards is a session that the
server has just granted. -/
theorem login_discarded :
    ¬ EveryStep Android.chatClient.step Android.chatClient.OwnToken (Pool.idle ⟨.new, []⟩)
        (Sample.late ++ [.advance 1 Sample.expired]) ∧
      ¬ EveryStep Ios.chatClient.step Ios.chatClient.OwnToken (Pool.idle ⟨.new, []⟩)
        (Sample.late ++ [.advance 1 Sample.expired]) := by
  have discards : ∀ client : MobileClient,
      ¬ EveryStep client.step client.OwnToken (Pool.idle ⟨.new, []⟩)
        (Sample.late ++ [.advance 1 Sample.expired]) := by
    intro client law
    obtain ⟨k, i, th, same, found, -, carries⟩ :=
      law Sample.late _ [] _ _ rfl rfl rfl (Or.inl ⟨rfl, rfl⟩)
    cases same
    cases found
    have other : some "one" = some "two" := carries
    simp at other
  exact ⟨discards _, discards _⟩

end MobileClient

end ScionChat
