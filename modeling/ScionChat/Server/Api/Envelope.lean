import ScionChat.Client.Error
import ScionChat.Lib.Observed
import ScionChat.Server.Host

/-!
# Which failures carry the error envelope

A request can fail in the router, in an extractor, or in its handler.  What the handlers refuse,
and what `Authenticated` and `Json` reject, becomes an `ApiError`, which carries the envelope.  The
rest is answered by axum: an unknown route or method with an empty body, a rejected `Path` or
`Query` with plain text, and any failure of a `HEAD` request without the body it would have had.

`Answered` is the exact condition under which a request gets a success or an envelope.  It looks at
the request and at what the steps of its handler meet, whatever other requests do in between;
`carries_envelope_iff` shows that it is exact.

### design decisions

* **The order of the extractors decides.**  A request for messages with a room that is no number is
  answered in plain text only when its token is accepted: `Authenticated` runs first, and what it
  refuses carries the envelope.  So the condition speaks of the world that the first step has met,
  where the token is looked at.
* **An empty segment is a segment.**  `/rooms//messages` is dispatched like any other room, with
  the empty string for its id.  It fails, if at all, where the path is read as a number.
* **`HEAD` is served by `GET`.**  The status is the handler's, and the body is dropped; a refusal
  arrives there without the envelope it was made with.

### What is load-bearing

`Enveloped`, which every handler has, extractors of axum's apart: it ends in a success or in an
`ApiError` of status 400 and above.  The three routes with a `Path` or a `Query` are what is left,
and `listMessages_answers` and `postMessages_answers` follow their steps one by one.
-/

namespace ScionChat

open Interleaving TransitionSystem Column

/-- **A response carries the envelope, if it is a failure**, and so the client reads it as a
refusal that says why. -/
def CarriesEnvelope (response : Response) : Prop :=
  ¬ response.isSuccess → ∃ envelope, response.body.decodeError = some envelope ∧
    refusal response.status response.body.envelope
      = .api response.status envelope.code envelope.message

theorem carries_intoResponse (e : ApiError) : CarriesEnvelope e.intoResponse :=
  fun _ => ⟨_, rfl, rfl⟩

theorem carries_of_success {response : Response} (success : response.isSuccess) :
    CarriesEnvelope response :=
  fun fails => absurd success fails

/-- A failure whose body is not an envelope carries none. -/
theorem not_carries {response : Response} (fails : ¬ response.isSuccess)
    (other : response.body.decodeError = none) : ¬ CarriesEnvelope response := by
  intro carries
  obtain ⟨envelope, decodes, -⟩ := carries fails
  rw [other] at decodes
  cases decodes

/-! ### Handlers that fail with an error of the API only -/

section Handlers

variable {α β : Type}

/-- The part of a handler fails with an error of the API, or not at all. -/
def FailsInApi (x : Handler α) : Prop :=
  x.run.Always fun r => ∀ e, r = .error e → ∃ error, e = .api error ∧ 400 ≤ error.status

/-- The handler answers with a success or fails with an error of the API. -/
def Enveloped (handler : Handler Response) : Prop :=
  handler.run.Always fun r => (∀ response, r = .ok response → response.isSuccess) ∧
    ∀ e, r = .error e → ∃ error, e = .api error ∧ 400 ≤ error.status

theorem isSuccess_of_status {response : Response}
    (status : response.status = 200 ∨ response.status = 201) : response.isSuccess := by
  unfold Response.isSuccess
  omega

theorem enveloped_pure {response : Response}
    (status : response.status = 200 ∨ response.status = 201) : Enveloped (pure response) :=
  ⟨fun _ same => Except.ok.inj same ▸ isSuccess_of_status status, nofun⟩

theorem enveloped_refuse {error : ApiError} (refuses : 400 ≤ error.status) :
    Enveloped (refuse error) :=
  ⟨nofun, fun _ same => ⟨error, (Except.error.inj same).symm, refuses⟩⟩

theorem enveloped_bind {x : Handler α} {f : α → Handler Response} (fails : FailsInApi x)
    (rest : ∀ a, Enveloped (f a)) : Enveloped (x >>= f) := by
  refine always_run_bind (fails.weaken ?_) rest
  exact fun r api e same => ⟨nofun, fun e' same' =>
    api e' (by rw [same, Except.error.inj same'])⟩

/-- A value that is there, or an error of the API. -/
theorem failsInApi_except {r : Except ApiError α} (refuses : ∀ e, r = .error e → 400 ≤ e.status) :
    FailsInApi (liftM (r.mapError Failure.api) : Handler α) := by
  cases r with
  | ok a => exact fun _ => nofun
  | error error => exact fun e same => ⟨error, (Except.error.inj same).symm, refuses error rfl⟩

theorem failsInApi_json (body : Except String α) : FailsInApi (json body) := by
  cases body with
  | ok a => exact fun _ => nofun
  | error text => exact fun e same => ⟨.ofJson text, (Except.error.inj same).symm, le_refl 400⟩

theorem ofStore_refuses (e : StoreError) : 400 ≤ (ApiError.ofStore e).status := by
  cases e <;> simp [ApiError.ofStore, ApiError.roomNotFound, ApiError.internal]

theorem ofAuth_refuses (e : AuthError) : 400 ≤ (ApiError.ofAuth e).status := by
  unfold ApiError.ofAuth
  decide

theorem failsInApi_store (query : Query α) : FailsInApi (store query) := by
  unfold FailsInApi store
  rw [run_inside]
  refine Prog.always_map _ ((Prog.always_true _).weaken fun r _ e same => ?_)
  cases r with
  | ok a => cases same
  | error e' => exact ⟨.ofStore e', (Except.error.inj same).symm, ofStore_refuses e'⟩

/-- A step of the API's own. -/
theorem failsInApi_step {ε : Type} {f : Moment → World → Except ε α} {g : Moment → World → World}
    (raise : ε → ApiError) (refuses : ∀ m w e, f m w = .error e → 400 ≤ (raise e).status) :
    FailsInApi (tryAtomically fun m w => ((f m w).mapError fun e => .api (raise e), g m w)) := by
  intro m w e same
  cases result : f m w with
  | ok a =>
      simp only [result] at same
      cases same
  | error error =>
      simp only [result] at same
      exact ⟨raise error, (Except.error.inj same).symm, refuses m w error result⟩

theorem failsInApi_authenticated (state : AppState) (authorization : Option (List UInt8)) :
    FailsInApi (authenticated state authorization) :=
  failsInApi_step (fun e => e) fun _ _ _ refused => by
    rw [authenticate_error_status refused]
    decide

variable (state : AppState) (req : Request)

theorem enveloped_healthz : Enveloped healthz :=
  enveloped_pure (Or.inl rfl)

theorem enveloped_serverInfo : Enveloped (serverInfo state) :=
  enveloped_pure (Or.inl rfl)

theorem parseUsername_refuses {raw : String} {e : ApiError} (h : parseUsername raw = .error e) :
    400 ≤ e.status := by
  simp only [parseUsername] at h
  split at h
  · cases h
  · cases h
    decide

theorem parseRoomName_refuses {raw : String} {e : ApiError} (h : parseRoomName raw = .error e) :
    400 ≤ e.status := by
  simp only [parseRoomName] at h
  split at h
  · cases h
  · cases h
    decide

theorem enveloped_register : Enveloped (register state req) := by
  refine enveloped_bind (failsInApi_json _) fun body =>
    enveloped_bind (failsInApi_except fun _ => parseUsername_refuses) fun username =>
      enveloped_bind (failsInApi_step .ofAuth fun _ _ e _ => ofAuth_refuses e) fun hash =>
        enveloped_bind (failsInApi_store _) fun outcome => ?_
  · cases outcome with
    | created => exact enveloped_pure (Or.inr rfl)
    | usernameTaken => exact enveloped_refuse (by decide)

theorem enveloped_login : Enveloped (login state req) := by
  refine enveloped_bind (failsInApi_json _) fun body =>
    enveloped_bind (failsInApi_store _) fun stored => ?_
  cases verified : verifyPassword state.crypto body.password stored with
  | false => exact enveloped_refuse (by decide)
  | true =>
      refine enveloped_bind ?_ fun issued => enveloped_pure (Or.inl rfl)
      exact failsInApi_step .ofAuth fun _ _ e _ => ofAuth_refuses e

theorem enveloped_listRooms : Enveloped (listRoomsHandler state req) :=
  enveloped_bind (failsInApi_authenticated _ _) fun _ =>
    enveloped_bind (failsInApi_store _) fun _ => enveloped_pure (Or.inl rfl)

theorem enveloped_createRoom : Enveloped (createRoomHandler state req) := by
  refine enveloped_bind (failsInApi_authenticated _ _) fun _ =>
    enveloped_bind (failsInApi_json _) fun body =>
      enveloped_bind (failsInApi_except fun _ => parseRoomName_refuses) fun name =>
        enveloped_bind (failsInApi_store _) fun creation => ?_
  cases creation with
  | created room => exact enveloped_pure (Or.inr rfl)
  | existing room => exact enveloped_pure (Or.inl rfl)

theorem enveloped_list (room : ℕ) (page : Page) : Enveloped (list room page) := by
  have pages : ∀ query : Query (List Message), Enveloped (store query >>= fun messages =>
      pure { status := 200, body := .messages ⟨messages⟩ }) := fun query =>
    enveloped_bind (failsInApi_store query) fun _ => enveloped_pure (Or.inl rfl)
  refine enveloped_bind (failsInApi_store _) fun found => ?_
  cases found with
  | false => exact enveloped_refuse (by decide)
  | true =>
      rcases page with ⟨limit, _ | cursor, _ | cursor'⟩
      · exact pages _
      · exact pages _
      · exact pages _
      · exact enveloped_refuse (by decide)

theorem enveloped_post (username : String) (room : ℕ) (body : Except String PostMessageRequest) :
    Enveloped (post state username room body) := by
  refine enveloped_bind (failsInApi_json _) fun body => ?_
  by_cases large : state.config.maxMessageBytes.toNat < body.body.utf8ByteSize
  · simp only [if_pos large]
    exact enveloped_refuse (by simp)
  · simp only [if_neg large]
    by_cases empty : body.body.isEmpty = true
    · simp only [if_pos empty]
      exact enveloped_refuse (by decide)
    · simp only [if_neg empty]
      exact enveloped_bind (failsInApi_store _) fun posted => enveloped_pure (Or.inr rfl)

end Handlers

/-! ### What the steps of a handler have met -/

section Met

variable {α β : Type} {met : List (Moment × World)}

/-- The header is accepted, as the first step of the request finds it.  That is the one state in
which the token is looked at. -/
def Accepted (state : AppState) (req : Request) : List (Moment × World) → Prop
  | (m, w) :: _ => ∃ username,
      authenticate state req.authorization m.now w.issued = .ok username
  | [] => False

/-- The database does not fail in the `n`-th step. -/
def Works (n : ℕ) (met : List (Moment × World)) : Prop :=
  ∃ m w, met[n]? = some (m, w) ∧ m.fails = false

/-- **An authenticated handler** is refused in its first step, or carries on from there.  Which of
the two is decided by the header, and by the clock and the ledger that the step meets. -/
theorem authenticated_resume {state : AppState} {req : Request} {f : String → Handler β}
    {r : Except Failure β}
    (h : (authenticated state req.authorization >>= f).run.resume met = .ret r) :
    (¬ Accepted state req met ∧ ∃ e : ApiError, r = .error (.api e) ∧ 400 ≤ e.status) ∨
      ∃ username m w later, met = (m, w) :: later ∧ Accepted state req met ∧
        (f username).run.resume later = .ret r := by
  rw [authenticated, run_tryAtomically_bind] at h
  obtain ⟨m, w, later, rfl, rest⟩ := Prog.met_of_resume_step h
  cases checked : authenticate state req.authorization m.now w.issued with
  | error e =>
      rw [checked] at rest
      refine Or.inl ⟨?_, e, ?_, ?_⟩
      · rintro ⟨username, accepted⟩
        rw [checked] at accepted
        cases accepted
      · rw [Except.mapError, onOk_error, Prog.resume_ret] at rest
        exact (Prog.ret.inj rest).symm
      · rw [authenticate_error_status checked]
        decide
  | ok username =>
      rw [checked] at rest
      exact Or.inr ⟨username, m, w, later, rfl, ⟨username, checked⟩, rest⟩

/-- **An operation of the store that looks once**, inside a handler.  What it answers is decided by
what that one step meets. -/
theorem look_resume {query : Query α} {look : Moment → Db → Except StoreError α}
    (looks : query.run = .step (fun _ db => db) fun m db => .ret (look m db))
    {f : α → Handler β} {r : Except Failure β} (h : (store query >>= f).run.resume met = .ret r) :
    ∃ m w later, met = (m, w) :: later ∧
      ((∃ e, look m w.db = .error e ∧ r = .error (.api (.ofStore e))) ∨
        ∃ a, look m w.db = .ok a ∧ (f a).run.resume later = .ret r) := by
  rw [run_bind, store, run_inside, looks] at h
  obtain ⟨m, w, later, rfl, rest⟩ := Prog.met_of_resume_step h
  refine ⟨m, w, later, rfl, ?_⟩
  cases saw : look m w.db with
  | error e =>
      refine Or.inl ⟨e, rfl, ?_⟩
      have ends : (Prog.ret (.error (.api (.ofStore e))) : Prog Moment World (Except Failure β))
          = .ret r := by
        rw [← rest, ← Prog.resume_ret _ later]
        simp only [saw]
        rfl
      exact (Prog.ret.inj ends).symm
  | ok a =>
      refine Or.inr ⟨a, rfl, ?_⟩
      rw [← rest]
      simp only [saw]
      rfl

/-- An operation of the store that fails before it looks. -/
theorem error_resume {query : Query α} {e : StoreError} (fails : query.run = .ret (.error e))
    {f : α → Handler β} {r : Except Failure β} (h : (store query >>= f).run.resume met = .ret r) :
    r = .error (.api (.ofStore e)) := by
  have ends : (store query >>= f).run = .ret (.error (.api (.ofStore e))) := by
    rw [run_bind, store, run_inside, fails]
    rfl
  rw [ends, Prog.resume_ret] at h
  exact (Prog.ret.inj h).symm

/-- The request's page query, when it does not give both cursors. -/
def Page.asked (page : Page) : Option PageQuery :=
  match page.afterSeq, page.beforeSeq with
  | some _, some _ => none
  | some cursor, none => some (.after ⟨cursor⟩ page.clamped)
  | none, some cursor => some (.before ⟨cursor⟩ page.clamped)
  | none, none => some (.newest page.clamped)

/-- The steps of `messages::list` find the room, and the page.  The two of them may meet different
tables, since others may post between them. -/
def FindsPage (room : ℕ) (page : Page) (met : List (Moment × World)) : Prop :=
  room ≤ i64Max ∧
    (∃ m w, met[0]? = some (m, w) ∧ m.fails = false ∧ ∃ row ∈ w.db.rooms, row.id = (room : ℤ)) ∧
      ∃ query, page.asked = some query ∧ query.Fits ∧ Works 1 met

variable {state : AppState} {req : Request} {r : Except Failure Response}

theorem listRooms_succeeds (valid : ∀ pair ∈ met, pair.2.db.Valid)
    (h : (listRoomsHandler state req).run.resume met = .ret r) :
    (∃ response, r = .ok response) ↔ Accepted state req met ∧ Works 1 met := by
  rcases authenticated_resume h with ⟨refused, e, rfl, -⟩ | ⟨-, m, w, later, rfl, accepted, rest⟩
  · exact ⟨nofun, fun both => absurd both.1 refused⟩
  · obtain ⟨m', w', later', rfl, ⟨e, saw, rfl⟩ | ⟨rooms, saw, ends⟩⟩ :=
      look_resume listRooms_run rest
    · refine ⟨nofun, ?_⟩
      rintro ⟨-, n, v, at_1, works⟩
      cases at_1
      rw [listRooms_answer (valid (m', w') (by simp)) works] at saw
      cases saw
    · rw [run_pure, Prog.resume_ret] at ends
      refine ⟨fun _ => ⟨accepted, m', w', rfl, ?_⟩, fun _ => ⟨_, (Prog.ret.inj ends).symm⟩⟩
      by_contra fails
      rw [Bool.not_eq_false] at fails
      simp only [fetched, fails] at saw
      cases saw

/-- The answer to a request for a page. -/
def messagesFound (messages : List Message) : Response :=
  { status := 200, body := .messages ⟨messages⟩ }

theorem page_succeeds {query : PageQuery} {room : ℕ}
    (valid : ∀ pair ∈ met, pair.2.db.Valid) (fits : room ≤ i64Max)
    (h : (store (query.query ⟨room⟩) >>= fun messages =>
      (pure (messagesFound messages) : Handler Response)).run.resume met = .ret r) :
    (∃ response, r = .ok response) ↔ query.Fits ∧ Works 0 met := by
  rcases query.run_cases ⟨room⟩ with ⟨-, fits', run⟩ | ⟨unfit, e, run⟩
  · obtain ⟨m, w, later, rfl, ⟨e, saw, rfl⟩ | ⟨messages, saw, ends⟩⟩ := look_resume run h
    · refine ⟨nofun, ?_⟩
      rintro ⟨-, n, v, at_0, works⟩
      cases at_0
      rw [fetched_of_works works] at saw
      cases saw.symm.trans (query.answer_of_valid (valid (m, w) (by simp)) ⟨room⟩)
    · rw [run_pure, Prog.resume_ret] at ends
      refine ⟨fun _ => ⟨fits', m, w, rfl, ?_⟩, fun _ => ⟨_, (Prog.ret.inj ends).symm⟩⟩
      by_contra fails
      rw [Bool.not_eq_false] at fails
      simp only [fetched, fails] at saw
      cases saw
  · rw [error_resume run h]
    exact ⟨nofun, fun both => absurd ⟨fits, both.1⟩ unfit⟩

theorem list_succeeds {room : ℕ} {page : Page} (valid : ∀ pair ∈ met, pair.2.db.Valid)
    (h : (list room page).run.resume met = .ret r) :
    (∃ response, r = .ok response) ↔ FindsPage room page met := by
  have exists_run := roomExists_run ⟨room⟩
  rcases toColumn_cases "room id" room with ⟨fits, column⟩ | ⟨unfit, column⟩
  · rw [column] at exists_run
    obtain ⟨m, w, later, rfl, ⟨e, saw, rfl⟩ | ⟨found, saw, rest⟩⟩ := look_resume exists_run h
    · refine ⟨nofun, ?_⟩
      rintro ⟨-, ⟨n, v, at_0, works, -⟩, -⟩
      cases at_0
      rw [fetched_of_works works] at saw
      cases saw
    · obtain ⟨works, rfl⟩ := fetched_eq_ok saw
      have later_valid : ∀ pair ∈ later, pair.2.db.Valid := fun pair mem =>
        valid pair (List.mem_cons_of_mem _ mem)
      by_cases there : ∃ row ∈ w.db.rooms, row.id = (room : ℤ)
      · have found : Sql.selectRoomExists room w.db = true := decide_eq_true there
        rw [found] at rest
        have pages : ∀ query : PageQuery, page.asked = some query →
            (store (query.query ⟨room⟩) >>= fun messages =>
              (pure (messagesFound messages) : Handler Response)).run.resume later = .ret r →
              ((∃ response, r = .ok response) ↔ FindsPage room page ((m, w) :: later)) := by
          intro query asks ends
          rw [page_succeeds later_valid fits ends]
          refine ⟨fun both => ⟨fits, ⟨m, w, rfl, works, there⟩, query, asks, both⟩, ?_⟩
          rintro ⟨-, -, query', asks', both⟩
          cases asks.symm.trans asks'
          exact both
        rcases page with ⟨limit, _ | cursor, _ | cursor'⟩
        · exact pages (.newest _) rfl rest
        · exact pages (.before ⟨cursor'⟩ _) rfl rest
        · exact pages (.after ⟨cursor⟩ _) rfl rest
        · have ends : (Prog.ret (.error (.api ⟨400, .invalidBody, _⟩)) :
              Prog Moment World (Except Failure Response)) = .ret r := 
            (Prog.resume_ret _ later).symm.trans rest
          cases ends
          refine ⟨nofun, ?_⟩
          rintro ⟨-, -, query, asks, -⟩
          cases asks
      · have absent : Sql.selectRoomExists room w.db = false := decide_eq_false there
        rw [absent] at rest
        have ends : (Prog.ret (.error (.api .roomNotFound)) :
            Prog Moment World (Except Failure Response)) = .ret r :=
          (Prog.resume_ret _ later).symm.trans rest
        cases ends
        refine ⟨nofun, ?_⟩
        rintro ⟨-, ⟨n, v, at_0, -, room⟩, -⟩
        cases at_0
        exact absurd room there
  · rw [column] at exists_run
    rw [error_resume exists_run h]
    exact ⟨nofun, fun both => absurd both.1 unfit⟩

theorem extract_resume {extracted : Option α} {f : α → Handler β} {r : Except Failure β}
    (h : (extract extracted >>= f).run.resume met = .ret r) :
    (extracted = none ∧ r = .error .rejected) ∨
      ∃ a, extracted = some a ∧ (f a).run.resume met = .ret r := by
  cases extracted with
  | none =>
      have ends : (Prog.ret (.error .rejected) : Prog Moment World (Except Failure β)) = .ret r :=
        (Prog.resume_ret _ met).symm.trans h
      exact Or.inl ⟨rfl, (Prog.ret.inj ends).symm⟩
  | some a => exact Or.inr ⟨a, rfl, h⟩

theorem not_success_api {e : ApiError} (refuses : 400 ≤ e.status) :
    ¬ (answerOf (.error (.api e))).isSuccess := by
  have status : (answerOf (.error (.api e))).status = e.status := rfl
  unfold Response.isSuccess
  omega

theorem not_success_rejected : ¬ (answerOf (.error .rejected)).isSuccess := by
  decide

theorem not_carries_rejected : ¬ CarriesEnvelope (answerOf (.error .rejected)) :=
  not_carries not_success_rejected rfl

/-- What a handler answers that fails with an error of the API only. -/
theorem Enveloped.answers {handler : Handler Response} (enveloped : Enveloped handler)
    (h : handler.run.resume met = .ret r) :
    CarriesEnvelope (answerOf r) ∧ ((answerOf r).isSuccess ↔ ∃ response, r = .ok response) := by
  obtain ⟨succeeds, fails⟩ := Prog.always_resume enveloped h
  rcases r with e | response
  · obtain ⟨error, rfl, refuses⟩ := fails e rfl
    refine ⟨carries_intoResponse error, fun success => ?_, nofun⟩
    exact absurd success (not_success_api refuses)
  · have success := succeeds response rfl
    exact ⟨carries_of_success success, fun _ => ⟨response, rfl⟩, fun _ => success⟩

/-- **What `messages::list` answers**, with its extractors: a success when they and its steps
find what it asks for, and plain text only when it is accepted and they do not. -/
theorem listMessages_answers {id : String} (valid : ∀ pair ∈ met, pair.2.db.Valid)
    (h : (listMessages state req id).run.resume met = .ret r) :
    ((answerOf r).isSuccess ↔ Accepted state req met ∧ ∃ room page, pathId id = some room ∧
        Page.ofQuery req.query = some page ∧ FindsPage room page met.tail) ∧
      (CarriesEnvelope (answerOf r) ↔ (Accepted state req met →
        (pathId id).isSome ∧ (Page.ofQuery req.query).isSome)) := by
  rcases authenticated_resume h with ⟨refused, e, rfl, refuses⟩ | ⟨-, m, w, later, rfl, accepted,
    rest⟩
  · exact ⟨⟨fun success => absurd success (not_success_api refuses),
      fun both => absurd both.1 refused⟩,
      fun _ accepted => absurd accepted refused, fun _ => carries_intoResponse e⟩
  rcases extract_resume rest with ⟨none, rfl⟩ | ⟨room, some, rest'⟩
  · refine ⟨⟨fun success => absurd success not_success_rejected, ?_⟩,
      fun carries => absurd carries not_carries_rejected, fun found => ?_⟩
    · rintro ⟨-, room, page, found, -⟩
      rw [none] at found
      cases found
    · have := (found accepted).1
      rw [none] at this
      cases this
  rcases extract_resume rest' with ⟨none, rfl⟩ | ⟨page, some', ends⟩
  · refine ⟨⟨fun success => absurd success not_success_rejected, ?_⟩,
      fun carries => absurd carries not_carries_rejected, fun found => ?_⟩
    · rintro ⟨-, room, page, -, found, -⟩
      rw [none] at found
      cases found
    · have := (found accepted).2
      rw [none] at this
      cases this
  obtain ⟨carries, success⟩ := (enveloped_list room page).answers ends
  refine ⟨?_, fun _ _ => ⟨by rw [some]; rfl, by rw [some']; rfl⟩, fun _ => carries⟩
  rw [success, list_succeeds (fun pair mem => valid pair (List.mem_cons_of_mem _ mem)) ends]
  refine ⟨fun finds => ⟨accepted, room, page, some, some', finds⟩, ?_⟩
  rintro ⟨-, room', page', found, found', finds⟩
  cases some.symm.trans found
  cases some'.symm.trans found'
  exact finds

theorem postMessages_answers {id : String}
    (h : (postMessages state req id).run.resume met = .ret r) :
    CarriesEnvelope (answerOf r) ↔ (Accepted state req met → (pathId id).isSome) := by
  rcases authenticated_resume h with ⟨refused, e, rfl, -⟩ | ⟨username, m, w, later, rfl, accepted,
    rest⟩
  · exact ⟨fun _ accepted => absurd accepted refused, fun _ => carries_intoResponse e⟩
  rcases extract_resume rest with ⟨none, rfl⟩ | ⟨room, some, ends⟩
  · refine ⟨fun carries => absurd carries not_carries_rejected, fun found => ?_⟩
    have := found accepted
    rw [none] at this
    cases this
  · exact ⟨fun _ _ => by rw [some]; rfl,
      fun _ => ((enveloped_post state username room _).answers ends).1⟩

end Met

/-! ### Every request -/

/-- **When a request gets a success or an envelope.**  Its path has to be a route's, with a
handler for its method.  A request for messages that is accepted has to name a room by a
number, and to give a query that parses.  A `HEAD` request has to succeed. -/
def Answered (state : AppState) (req : Request) (met : List (Moment × World)) : Prop :=
  match route req.path, req.method with
  | some .healthz, .get => True
  | some .healthz, .head => True
  | some .server, .get => True
  | some .server, .head => True
  | some .register, .post => True
  | some .login, .post => True
  | some .rooms, .get => True
  | some .rooms, .post => True
  | some .rooms, .head => Accepted state req met ∧ Works 1 met
  | some (.messages id), .get =>
      Accepted state req met → (pathId id).isSome ∧ (Page.ofQuery req.query).isSome
  | some (.messages id), .post => Accepted state req met → (pathId id).isSome
  | some (.messages id), .head => Accepted state req met ∧ ∃ room page, pathId id = some room ∧
      Page.ofQuery req.query = some page ∧ FindsPage room page met.tail
  | _, _ => False

theorem handle_answers {state : AppState} {req : Request} {met : List (Moment × World)}
    {response : Response} (valid : ∀ pair ∈ met, pair.2.db.Valid)
    (h : (handle state req).resume met = .ret response) :
    CarriesEnvelope response ↔ Answered state req met := by
  have plainly : ∀ handler : Handler Response, Enveloped handler →
      handler.respond.resume met = .ret response → (CarriesEnvelope response ↔ True) := by
    intro handler enveloped h
    obtain ⟨r, ends, rfl⟩ := Prog.ret_of_resume_map h
    exact iff_true_intro (enveloped.answers ends).1
  have lost : ∀ other : Response, ¬ other.isSuccess → other.body.decodeError = none →
      (Prog.ret other : Prog Moment World Response).resume met = .ret response →
        (CarriesEnvelope response ↔ False) := by
    intro other fails decodes h
    rw [Prog.resume_ret] at h
    cases h
    exact iff_false_intro (not_carries fails decodes)
  have stripped : ∀ response : Response,
      CarriesEnvelope response.stripped ↔ response.isSuccess := by
    refine fun response => ⟨fun carries => by_contra fun fails => ?_, fun success => ?_⟩
    · have none : ¬ CarriesEnvelope response.stripped := not_carries fails rfl
      exact none carries
    · exact fun fails => absurd success fails
  -- a `HEAD` request loses its envelope, so only a success will do
  have headed : ∀ handler : Handler Response, Enveloped handler →
      (Response.stripped <$> handler.respond).resume met = .ret response →
        ∃ r, handler.run.resume met = .ret r ∧
          (CarriesEnvelope response ↔ ∃ response, r = .ok response) := by
    intro handler enveloped h
    obtain ⟨_, h', rfl⟩ := Prog.ret_of_resume_map h
    obtain ⟨r, ends, rfl⟩ := Prog.ret_of_resume_map h'
    exact ⟨r, ends, (stripped _).trans (enveloped.answers ends).2⟩
  have none_found := lost notFound (by decide) rfl
  have none_allowed := lost methodNotAllowed (by decide) rfl
  unfold handle at h
  unfold Answered
  cases at_route : route req.path with
  | none =>
      rw [at_route] at h
      cases method : req.method <;> exact none_found h
  | some r =>
      rw [at_route] at h
      cases method : req.method with
      | get =>
          rw [method] at h
          rcases r with _ | _ | _ | _ | _ | id
          · exact plainly _ enveloped_healthz h
          · exact plainly _ (enveloped_serverInfo state) h
          · exact none_allowed h
          · exact none_allowed h
          · exact plainly _ (enveloped_listRooms state req) h
          · obtain ⟨r, ends, rfl⟩ := Prog.ret_of_resume_map h
            exact (listMessages_answers valid ends).2
      | head =>
          rw [method] at h
          rcases r with _ | _ | _ | _ | _ | id
          · obtain ⟨r, ends, carries⟩ := headed _ enveloped_healthz h
            refine carries.trans (iff_true_intro ?_)
            rw [healthz, run_pure, Prog.resume_ret] at ends
            exact ⟨_, (Prog.ret.inj ends).symm⟩
          · obtain ⟨r, ends, carries⟩ := headed _ (enveloped_serverInfo state) h
            refine carries.trans (iff_true_intro ?_)
            rw [serverInfo, run_pure, Prog.resume_ret] at ends
            exact ⟨_, (Prog.ret.inj ends).symm⟩
          · exact none_allowed h
          · exact none_allowed h
          · obtain ⟨r, ends, carries⟩ := headed _ (enveloped_listRooms state req) h
            exact carries.trans (listRooms_succeeds valid ends)
          · obtain ⟨_, h', rfl⟩ := Prog.ret_of_resume_map h
            obtain ⟨r, ends, rfl⟩ := Prog.ret_of_resume_map h'
            exact (stripped _).trans (listMessages_answers valid ends).1
      | post =>
          rw [method] at h
          rcases r with _ | _ | _ | _ | _ | id
          · exact none_allowed h
          · exact none_allowed h
          · exact plainly _ (enveloped_register state req) h
          · exact plainly _ (enveloped_login state req) h
          · exact plainly _ (enveloped_createRoom state req) h
          · obtain ⟨r, ends, rfl⟩ := Prog.ret_of_resume_map h
            exact postMessages_answers ends
      | other name =>
          rw [method] at h
          rcases r with _ | _ | _ | _ | _ | id <;> exact none_allowed h

/-- **A request gets a success or an envelope exactly when it is `Answered`**: in every run of a
server that has been started over a directory, whatever ran over it before, and however the
requests interleave. -/
theorem carries_envelope_iff {crypto : Crypto} {events : List HostEvent} {h : Host}
    (ran : Host.Ran crypto events h) {state : AppState} (started : h.running = some (state, []))
    {ls : List (Label Request Moment)} {p : ServerPool}
    (served : run (serve state) (Pool.idle h.world) ls = some p) {k : ℕ} {req : Request}
    {response : Response} (ret : p.Returned k req response) :
    CarriesEnvelope response ↔
      Answered state req (Pool.met (handle state) k (Pool.idle h.world) ls) := by
  obtain ⟨-, sound⟩ := ran.sound.running state [] started
  have valid : ∀ ms q, run (serve state) (Pool.idle h.world) ms = some q → q.state.db.Valid :=
    fun ms q ran => (run_invariant (P := ServerSound state)
      (fun _ _ _ step sound => ServerSound.step sound step) ran sound).inv
  obtain ⟨n, found⟩ := ret
  refine handle_answers ?_ (Pool.resume_met served found)
  exact Pool.met_invariant (P := fun w : World => w.db.Valid) served valid k

namespace Sample

/-- Alice asks for the messages of a room. -/
def reading (id : String) : Request :=
  request .get ["rooms", id, "messages"] (some "alice.604800")

/-- After she has posted, which leaves three requests behind. -/
def readingRun (id : String) : List (Label Request Moment) :=
  session "alice" ++ [.spawn (reading id), .advance 3 {}]

end Sample

/-- A room that is not there: the failure carries the envelope. -/
theorem carries_envelope_no_room : ∃ (h : Host) (p : ServerPool) (response : Response),
    run (serve Sample.state) (Pool.idle h.world) (Sample.readingRun "7" ++ [.advance 3 {}])
        = some p ∧
      p.Returned 3 (Sample.reading "7") response ∧ response.status = 404 ∧
        (CarriesEnvelope response ↔ Answered Sample.state (Sample.reading "7")
          (Pool.met (handle Sample.state) 3 (Pool.idle h.world)
            (Sample.readingRun "7" ++ [.advance 3 {}]))) := by
  obtain ⟨h, p, response, ran, started, served, ret, status⟩ :
      ∃ (h : Host) (p : ServerPool) (response : Response), Host.Ran .plain [Host.starts] h ∧
        h.running = some (Sample.state, []) ∧
          run (serve Sample.state) (Pool.idle h.world) (Sample.readingRun "7" ++ [.advance 3 {}])
            = some p ∧
            p.Returned 3 (Sample.reading "7") response ∧ response.status = 404 :=
    ⟨_, _, _, rfl, rfl, rfl, ⟨2, rfl⟩, rfl⟩
  exact ⟨h, p, response, served, ret, status, carries_envelope_iff ran started served ret⟩

/-- A room id that is not a number: the failure is plain text. -/
theorem not_carries_envelope : ∃ (h : Host) (p : ServerPool) (response : Response),
    Host.Ran .plain [Host.starts] h ∧ h.running = some (Sample.state, []) ∧
      run (serve Sample.state) (Pool.idle h.world) (Sample.readingRun "tea") = some p ∧
        p.Returned 3 (Sample.reading "tea") response ∧ response.status = 400 ∧
          ¬ CarriesEnvelope response :=
  ⟨_, _, _, rfl, rfl, rfl, ⟨1, rfl⟩, rfl, not_carries_rejected⟩

end ScionChat
