import ScionChat.Deployment.History

/-!
# What the errors of a call tell

A call of a client fails in one of six ways, and its caller branches on which.  `errors_are_told`
says what is true whenever one of them is reported, in every run of a deployment: the error of the
API that a caller sees is the one with which the server has refused that very call, nothing has been
sent when the client complains about itself, and a protocol failure is never made of an answer in
the envelope, nor of a success.

On the way, `shaped` finds the handler of each call, and the kind of body its successes have: the
one that the call decodes.

### design decisions

* **One case for each variant.**  `Told` is an inductive over `ChatError`, so that a variant that
  the source gains is a case that is missing here.
* **Nothing sent is said of the wire.**  For `notLoggedIn` and `config` the call has no flight.
  That is more than that the server has not served it.
* **The text of a protocol error is pinned.**  It is the refusal of the plain text that axum's own
  rejections have for a body, with the decoder's complaint, as `error.rs` puts it together.

### What is load-bearing

`Gives`, the bodies that a handler's successes have, and `Enveloped`, that it refuses in the
envelope.  Both are closed under what handlers are made of, so that each handler is a line or two,
and `shaped` is the only place where all of them come together.
-/

namespace ScionChat

open Interleaving TransitionSystem

/-! ### What a handler ends with, when it ends well -/

/-- What the handler ends well with is of the kind. -/
def Gives (kind : Response → Prop) (handler : Handler Response) : Prop :=
  handler.run.Always fun r => ∀ response, r = .ok response → kind response

section Gives

variable {α : Type} {kind : Response → Prop}

theorem gives_bind {x : Handler α} {f : α → Handler Response} (rest : ∀ a, Gives kind (f a)) :
    Gives kind (x >>= f) := by
  refine always_run_bind (Prog.Always.weaken ?_ (Prog.always_true _)) rest
  intro r _ e _ response same
  cases same

theorem gives_pure {response : Response} (holds : kind response) : Gives kind (pure response) :=
  fun _ same => Except.ok.inj same ▸ holds

theorem gives_refuse (error : ApiError) : Gives kind (refuse error) := by
  intro response same
  cases same

end Gives

/-- The kind of body that a call decodes. -/
def ClientCall.Shape : ClientCall → Body → Prop
  | register _ _, body => body = .empty
  | login _ _, body => ∃ reply, body = .login reply
  | health, body => body = .health
  | serverInfo, body => ∃ info, body = .server info
  | rooms, body => ∃ reply, body = .rooms reply
  | createRoom _, body => ∃ room, body = .room room
  | send _ _, body => ∃ reply, body = .posted reply
  | messages _ _ _, body => ∃ reply, body = .messages reply
  | session, _ | logout, _ => False

section Shape

variable {app : AppState} {serde : Serde} {sent : Option String} {w w' : World}
  {request : ClientCall} {ask : Ask} {response : Response}

/-- A success, with the body that the call decodes. -/
abbrev Shaped (request : ClientCall) (response : Response) : Prop :=
  response.isSuccess ∧ request.Shape response.body

theorem gives_list {limit : ℕ} {cursor : ChatClient.Cursor} {room : RoomId} (id : ℕ) (page : Page) :
    Gives (Shaped (.messages room limit cursor)) (list id page) := by
  have pages : ∀ query : Query (List Message), Gives (Shaped (.messages room limit cursor))
      (store query >>= fun messages => pure { status := 200, body := .messages ⟨messages⟩ }) :=
    fun query => gives_bind fun messages =>
      gives_pure ⟨isSuccess_of_status (Or.inl rfl), ⟨messages⟩, rfl⟩
  refine gives_bind fun found => ?_
  cases found with
  | false => exact gives_refuse _
  | true =>
      rcases page with ⟨limit, _ | after, _ | before⟩
      · exact pages _
      · exact pages _
      · exact pages _
      · exact gives_refuse _

theorem gives_post {room : RoomId} {body : String} (username : String) (id : ℕ)
    (sends : Except String PostMessageRequest) :
    Gives (Shaped (.send room body)) (post app username id sends) := by
  refine gives_bind fun read => ?_
  by_cases large : app.config.maxMessageBytes.toNat < read.body.utf8ByteSize
  · simp only [if_pos large]
    exact gives_refuse _
  · simp only [if_neg large]
    by_cases empty : read.body.isEmpty = true
    · simp only [if_pos empty]
      exact gives_refuse _
    · simp only [if_neg empty]
      exact gives_bind fun posted =>
        gives_pure ⟨isSuccess_of_status (Or.inr rfl), posted, rfl⟩

/-- **The handler of a call**: it refuses with what is no success, and ends well with a success that
has the body that the call decodes. -/
theorem shaped (asks : request.ask = some ask) : ∃ handler : Handler Response,
    handle app (ask.request serde sent) = handler.respond ∧ Refuses handler ∧
      Gives (Shaped request) handler := by
  cases request with
  | session => cases asks
  | logout => cases asks
  | register username password =>
      cases asks
      refine ⟨register app _, rfl, (enveloped_register app _).refuses,
        gives_bind fun body => gives_bind fun name => gives_bind fun hash =>
          gives_bind fun outcome => ?_⟩
      cases outcome with
      | created => exact gives_pure ⟨isSuccess_of_status (Or.inr rfl), rfl⟩
      | usernameTaken => exact gives_refuse _
  | login username password =>
      cases asks
      refine ⟨login app _, rfl, (enveloped_login app _).refuses,
        gives_bind fun body => gives_bind fun stored => ?_⟩
      cases verified : verifyPassword app.crypto body.password stored with
      | false => exact gives_refuse _
      | true => exact gives_bind fun issued =>
          gives_pure ⟨isSuccess_of_status (Or.inl rfl), ⟨issued.1, issued.2⟩, rfl⟩
  | health =>
      cases asks
      exact ⟨healthz, rfl, enveloped_healthz.refuses,
        gives_pure ⟨isSuccess_of_status (Or.inl rfl), rfl⟩⟩
  | serverInfo =>
      cases asks
      exact ⟨serverInfo app, rfl, (enveloped_serverInfo app).refuses,
        gives_pure ⟨isSuccess_of_status (Or.inl rfl), _, rfl⟩⟩
  | rooms =>
      cases asks
      exact ⟨listRoomsHandler app _, rfl, (enveloped_listRooms app _).refuses,
        gives_bind fun _ => gives_bind fun rooms =>
          gives_pure ⟨isSuccess_of_status (Or.inl rfl), ⟨rooms⟩, rfl⟩⟩
  | createRoom name =>
      cases asks
      refine ⟨createRoomHandler app _, rfl, (enveloped_createRoom app _).refuses,
        gives_bind fun _ => gives_bind fun body => gives_bind fun name =>
          gives_bind fun outcome => ?_⟩
      cases outcome with
      | created room => exact gives_pure ⟨isSuccess_of_status (Or.inr rfl), room, rfl⟩
      | existing room => exact gives_pure ⟨isSuccess_of_status (Or.inl rfl), room, rfl⟩
  | send room body =>
      cases asks
      exact ⟨postMessages app _ _, handle_post rfl rfl, postMessages_refuses _,
        gives_bind fun username => gives_bind fun id => gives_post username id _⟩
  | messages room limit cursor =>
      cases asks
      exact ⟨listMessages app _ _, handle_list rfl rfl, listMessages_refuses _,
        gives_bind fun _ => gives_bind fun id => gives_bind fun page => gives_list id page⟩

/-- Forgetting the position of a new room leaves the kind of a body. -/
theorem shape_forgetFresh (request : ClientCall) (response : Response) :
    request.Shape response.forgetFresh.body ↔ request.Shape response.body := by
  unfold Response.forgetFresh
  split
  next room _ at_body =>
    rw [at_body]
    cases request <;> simp [ClientCall.Shape]
  next => exact Iff.rfl

/-- A success of a call that is served at once has the body that the call decodes. -/
theorem served_shape (asks : request.ask = some ask)
    (served : ServedAtOnce app (ask.request serde sent) w response w')
    (success : response.isSuccess) : request.Shape response.body := by
  obtain ⟨handler, serves, refuses, gives⟩ := shaped asks
  obtain ⟨ω, answered, ran, same⟩ := exec_of_served serves refuses served success
  have shape := (Prog.always_exec gives ω w answered (congrArg Prod.fst ran)).2
  rw [← shape_forgetFresh, same, shape_forgetFresh]
  exact shape

theorem Failure.intoResponse_plain (failure : Failure) :
    ∀ room, failure.intoResponse.body ≠ .room room := by
  intro room same
  cases failure <;> cases same

/-- Any other answer of a call that is served at once is a failure of its handler. -/
theorem served_refused (asks : request.ask = some ask)
    (served : ServedAtOnce app (ask.request serde sent) w response w')
    (fails : ¬ response.isSuccess) : ∃ failure : Failure, response = failure.intoResponse := by
  obtain ⟨handler, serves, -, gives⟩ := shaped asks
  obtain ⟨ω, answer, ran, same⟩ := served
  rw [serves, Handler.respond, Prog.exec_map] at ran
  obtain ⟨rfl, rfl⟩ := Prod.mk.inj ran
  cases result : (handler.run.exec ω w).1 with
  | ok answered =>
      rw [result] at same
      have success := (Prog.always_exec gives ω w answered result).1
      exact absurd (success_forgetFresh same.symm success) fails
  | error failure =>
      rw [result] at same
      exact ⟨failure, eq_of_forgetFresh same failure.intoResponse_plain⟩

/-- A body of the kind that a call decodes is decoded. -/
theorem reads_of_shape (serde : Serde) (shape : request.Shape response.body)
    (fits : response.body.Fits) :
    ∃ value, request.read (response.reply serde).body = .ok value := by
  have reads := Body.readAs_read serde response.body fits
  rw [Response.reply]
  cases request with
  | session => exact shape.elim
  | logout => exact shape.elim
  | register username password =>
      rw [show response.body = .empty from shape] at reads ⊢
      exact ⟨.done, congrArg (Except.map fun _ => ClientReply.done) reads⟩
  | health =>
      rw [show response.body = .health from shape] at reads ⊢
      exact ⟨.done, congrArg (Except.map fun _ => ClientReply.done) reads⟩
  | login _ _ | serverInfo | rooms | createRoom _ | send _ _ | messages _ _ _ =>
      obtain ⟨reply, same⟩ := shape
      rw [same] at reads ⊢
      exact ⟨_, congrArg (Except.map _) reads⟩

end Shape

namespace Deployment

variable {crypto : Crypto} {site : Site} {w : World} {sessions : ℕ → Option Session}
  {events : List DeploymentEvent} {d : Deployment} {c k : ℕ} {request : ClientCall} {ask : Ask}

/-- The server has answered the request of the call, which carried this token, with this
response. -/
def Responded (site : Site) (d : Deployment) (c k : ℕ) (ask : Ask) (sent : Option String)
    (response : Response) : Prop :=
  ∃ j, d.Serves j c k ∧ d.server.Returned j (ask.request site.serde sent) response

/-- **What is true when a call reports an error.** Each variant of an error says how far the
request got: not onto the wire, not answered, answered with something that cannot be read, or
refused, and then by which response. -/
inductive Told (site : Site) (w : World) (sessions : ℕ → Option Session)
    (events : List DeploymentEvent) (d : Deployment) (c k : ℕ) (request : ClientCall) (ask : Ask) :
    ChatError → Prop
  /-- Nobody was logged in when the call took its first step, and nothing was put on the wire. -/
  | notLoggedIn (needs : request.needs) (s : ClientState (Option Session))
      (found : Found site w sessions events c k 0 s) (out : s.session = none)
      (unsent : d.flightsOf c k = []) :
      Told site w sessions events d c k request ask .notLoggedIn
  /-- The request could not be built, and nothing was put on the wire. -/
  | config (text : String) (unsent : d.flightsOf c k = []) :
      Told site w sessions events d c k request ask (.config text)
  /-- No answer came to the request: whether it was served is not known. -/
  | transport (source : TransportError) :
      Told site w sessions events d c k request ask (.transport source)
  /-- The server has refused this very call, which carried the token of the session that the client
  held when the call took its first step. -/
  | sessionExpired (s : ClientState (Option Session)) (session : Session)
      (found : Found site w sessions events c k 0 s) (held : s.session = some session)
      (error : ApiError) (status : error.status = 401)
      (responded : Responded site d c k ask (some session.token) error.intoResponse) :
      Told site w sessions events d c k request ask .sessionExpired
  /-- The server has refused this very call, and said so with this status, code and text. -/
  | api (sent : Option String) (error : ApiError)
      (responded : Responded site d c k ask sent error.intoResponse)
      (otherwise : ¬ (request.needs ∧ error.status = 401)) :
      Told site w sessions events d c k request ask (.api error.status error.code error.message)
  /-- An extractor of axum's own has rejected the call, with a 400 in plain text. -/
  | protocol (sent : Option String)
      (responded : Responded site d c k ask sent Failure.rejected.intoResponse) :
      Told site w sessions events d c k request ask (refusal 400 Body.plain.envelope)

/-- A call that has put nothing on the wire has no flight. -/
theorem CallSound.unsent {finds : ℕ → ℕ → ℕ → ClientState (Option Session) → Prop} {n : ℕ}
    {prog : Prog Arrival (ClientState (Option Session)) (Except ChatError ClientReply)}
    {met : ChatClient.MetBy} (call : CallSound site finds d c k request n prog met)
    (unsent : (site.client c).sentBy request met = none) : d.flightsOf c k = [] := by
  refine List.eq_nil_iff_forall_not_mem.mpr fun flight mem => ?_
  have sent := (call.flight mem).2
  rw [unsent] at sent
  cases sent

/-- **Every error tells what has happened**, in every run of a deployment.  Calls of any number of
clients are under way, replies are lost and come late, and what an error says is true of the very
request that its call has sent. -/
theorem errors_are_told (ran : Ran crypto site w sessions events d) (asks : request.ask = some ask)
    {e : ChatError} (ret : (d.clients c).Returned k request (.error e)) :
    Told site w sessions events d c k request ask e := by
  obtain ⟨n, found⟩ := ret
  obtain ⟨met, call⟩ := ran.sound.calls c k request n _ found
  -- whatever the call was handed is the server's answer to it, served at once
  have handed : ∀ reply, answer request.needs met = some (.ok reply) → ∃ sent response,
      reply = response.reply site.serde ∧ Responded site d c k ask sent response ∧
        Bears (Found site w sessions events) c k request sent ∧ response.body.Fits ∧
          (response.isSuccess → request.Shape response.body) ∧
            (¬ response.isSuccess → ∃ failure : Failure, response = failure.intoResponse) := by
    intro reply answers
    obtain ⟨pair, at_step, came⟩ := Option.map_eq_some_iff.mp answers
    obtain ⟨j, response, serves, bears, returned, rfl⟩ := ran.sound.handed call (ran.origin c) asks
      (call.answers pair (List.mem_of_getElem? at_step) reply came)
    obtain ⟨history, lin⟩ := ran.history
    obtain ⟨entry, -, -, -, served⟩ := lin.returned j _ response returned
    exact ⟨_, response, rfl, ⟨j, serves, returned⟩, bears, ran.fits returned,
      served_shape asks served, served_refused asks served⟩
  cases ChatClient.call_fails asks call.resumed.symm with
  | loggedOut needs first at_first out unsent =>
      exact .notLoggedIn needs first.2 (call.found 0 first at_first) out (call.unsent unsent)
  | unbuilt text unsent => exact .config text (call.unsent unsent)
  | dropped source answered => exact .transport source
  | unread reply text answered success unread =>
      obtain ⟨sent, response, rfl, -, -, fits, shape, -⟩ := handed reply answered
      obtain ⟨value, read⟩ := reads_of_shape site.serde
        (shape (success_of_reply success)) fits
      rw [read] at unread
      cases unread
  | expired reply answered needs status =>
      obtain ⟨sent, response, rfl, responded, bears, -, -, refused⟩ := handed reply answered
      obtain ⟨s, session, found, held, rfl⟩ := bears needs
      have fails : ¬ response.isSuccess := by
        intro success
        have below := success.2
        have same : response.status = 401 := status
        omega
      obtain ⟨failure, rfl⟩ := refused fails
      cases failure with
      | api error => exact .sessionExpired s session found held error status responded
      | rejected => cases status
  | refused reply answered fails otherwise =>
      obtain ⟨sent, response, rfl, responded, -, fits, -, refused⟩ := handed reply answered
      obtain ⟨failure, rfl⟩ := refused fun success => fails (decide_eq_true success)
      cases failure with
      | api error =>
          have envelope : (ReplyBody.read site.serde error.intoResponse.body).envelope
              = .ok ⟨error.code, error.message⟩ :=
            Body.readAs_read site.serde error.intoResponse.body fits
          have told : Told site w sessions events d c k request ask
              (.api error.status error.code error.message) := .api sent error responded otherwise
          rw [Response.reply, Failure.intoResponse, envelope]
          exact told
      | rejected => exact .protocol sent responded

set_option maxRecDepth 20000 in
/-- Alice logs in without having an account, and is told so by the server. -/
theorem errors_are_told_alice : ∃ d ask,
    run (step Sample.site) (start Sample.world fun _ => none)
        (Sample.call 0 0 0 (.login "alice" "pw") 1 1) = some d ∧
      Told Sample.site Sample.world (fun _ => none) (Sample.call 0 0 0 (.login "alice" "pw") 1 1) d
        0 0 (.login "alice" "pw") ask (.api 401 .invalidCredentials
          "that username and password do not match") := by
  have leads : (run (step Sample.site) (start Sample.world fun _ => none)
      (Sample.call 0 0 0 (.login "alice" "pw") 1 1)).map (fun d => (d.clients 0).threads[0]?)
        = some (some ⟨.login "alice" "pw", 2, .ret (.error (.api 401 .invalidCredentials
            "that username and password do not match"))⟩) := by
    rfl
  obtain ⟨d, happened, ret⟩ := Option.map_eq_some_iff.mp leads
  exact ⟨d, _, happened, errors_are_told (Sample.site_ran happened) rfl ⟨2, ret⟩⟩

end Deployment

end ScionChat
