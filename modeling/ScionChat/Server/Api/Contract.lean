import ScionChat.Server.Api.Handlers
import ScionChat.Server.Store.Pages

/-!
# What serving a request does, one step at a time

The requests of any number of clients are served at once, their steps interleaved.  `worldContract`
is what holds between the steps: the tables are valid and only grow, and no token that was issued
is forgotten.

On top of it `Acts` says what one step of serving one request writes.  An account is added only by
registering it, in the step that answers so.  A token is issued only to a caller whose password
fits the account, in the step that hands it over.  A message is posted only in the name that an
issued token carries.  Every other step leaves accounts, tokens and messages alone, whatever
becomes of the request.

* `store_meets` lifts an operation of the store, with the contract it meets there, into a handler;
* `handle_meets` is the contract of every request, by the handlers and their steps;
* `handle_third` counts: accounts and messages are written by the third step of a request only.

### design decisions

* **A guarantee is about one step and its response.**  `Acts` sees the world before and after a
  step and, at the last one, the response.  Invariants over runs are derived from it alone, and no
  module after this one opens a handler to find out what it writes.
* **Numbered steps beside the contract.**  Which step of a request is the one that writes matters
  only where a condition speaks of what that step meets.  So it is a statement of its own about the
  program, by recursion on it, and the contract does not count.

### What is load-bearing

`Silent`: most steps write nothing at all, and the rules for `do` blocks give it for all of them
together.  What is left for each handler is the one step that does write.
-/

namespace ScionChat

open Interleaving

/-- The tokens of `w` are still there in `w'`, and so are the rows. -/
structure World.Extends (w w' : World) : Prop where
  db : w.db.Extends w'.db
  issued : w.issued <+: w'.issued

theorem World.Extends.refl (w : World) : w.Extends w :=
  ⟨Db.Extends.refl _, List.prefix_refl _⟩

theorem World.Extends.trans (u v w : World) (h : u.Extends v) (h' : v.Extends w) :
    u.Extends w :=
  ⟨h.db.trans h'.db, h.issued.trans h'.issued⟩

/-- **The contract of a server process.** No moment is ruled out by it: statements may fail and
clocks may jump, unless a result says that they do not. -/
def worldContract (admits : Moment → Prop) : Contract Moment World where
  admits := admits
  inv := fun w => w.db.Valid
  rel := World.Extends
  refl := World.Extends.refl
  trans := World.Extends.trans

/-! ### What one step writes -/

/-- The request registers an account.  It is a `POST` to the route, and its body is read. -/
def Registering (req : Request) (body : RegisterRequest) : Prop :=
  req.method = .post ∧ route req.path = some .register ∧ req.body.register = .ok body

/-- The request logs in. -/
def LoggingIn (req : Request) (body : LoginRequest) : Prop :=
  req.method = .post ∧ route req.path = some .login ∧ req.body.login = .ok body

/-- The request posts a message. -/
def Posting (req : Request) : Prop :=
  req.method = .post ∧ ∃ id, route req.path = some (.messages id)

/-- The answer to a registration that succeeds. -/
def registered : Response := { status := 201, body := .empty }

/-- The answer to a login that succeeds. -/
def loggedIn (reply : LoginResponse) : Response := { status := 200, body := .login reply }

section

variable (state : AppState)

/-- The account that registering adds, while there is room for it: the name as it was sent, and a
hash of the password. -/
def AddsAccount (body : RegisterRequest) (w w' : World) : Prop :=
  w.db.users.length < state.config.maxAccounts.toNat ∧
    ∃ row salt, w'.db.users = w.db.users ++ [row] ∧ row.username = body.username ∧
      state.crypto.hash body.password salt = some row.pwHash

/-- The account of a name verifies the password.  The name is looked up as the table compares
names, and so in any letter case. -/
def Verifies (body : LoginRequest) (db : Db) : Prop :=
  ∃ row ∈ db.users, NoCase row.username body.username ∧
    verifyPassword state.crypto body.password (some row.pwHash) = true

/-- The token that logging in adds.  It is signed under the secret in use, for the name as it was
typed. -/
def AddsToken (body : LoginRequest) (reply : LoginResponse) (w w' : World) : Prop :=
  Verifies state body w.db ∧ ∃ now,
    w'.issued = w.issued ++ [⟨state.tokens.secret, state.tokens.claims body.username now,
      reply.token⟩]

/-- A token of this server names the user. -/
def Names (username : String) (issued : List Issued) : Prop :=
  ∃ entry ∈ issued, entry.secret = state.tokens.secret ∧ entry.claims.sub = username

/-- The token in the header of a request is one of this server, and names the user. -/
def Bears (req : Request) (username : String) (issued : List Issued) : Prop :=
  ∃ entry ∈ issued, entry.secret = state.tokens.secret ∧
    bearerToken req.authorization = some entry.token ∧ entry.claims.sub = username

/-- The room that the path of a post names. -/
def postedTo (req : Request) : Option ℕ :=
  match route req.path with
  | some (.messages id) => pathId id
  | _ => none

/-- The message that posting adds: to the room of the path, which is there, in the name that the
token of the header carries. -/
def AddsMessage (req : Request) (w w' : World) : Prop :=
  ∃ row room, w'.db.messages = w.db.messages ++ [row] ∧ postedTo req = some room ∧
    (∃ home ∈ w.db.rooms, home.id = (room : ℤ)) ∧ Bears state req row.username w.issued

/-- **What a step of serving a request writes**, `o` being the response, if it is its last.  What
is not mentioned stays: a step that is no registration adds no account, and one that is no login
issues no token. -/
structure Acts (req : Request) (w : World) (o : Option Response) (w' : World) : Prop where
  users : w'.db.users = w.db.users ∨ ∃ body, Registering req body ∧ o = some registered ∧
    AddsAccount state body w w'
  /-- A registration is answered so only by the step that adds the account. -/
  accounts : ∀ body, Registering req body → o = some registered → AddsAccount state body w w'
  issued : w'.issued = w.issued ∨ ∃ body reply, LoggingIn req body ∧
    o = some (loggedIn reply) ∧ AddsToken state body reply w w'
  messages : w'.db.messages = w.db.messages ∨ Posting req ∧ AddsMessage state req w w'

/-- A step that writes neither an account, nor a token, nor a message. -/
structure Silent (w w' : World) : Prop where
  users : w'.db.users = w.db.users
  issued : w'.issued = w.issued
  messages : w'.db.messages = w.db.messages

theorem Silent.refl (w : World) : Silent w w := ⟨rfl, rfl, rfl⟩

theorem Silent.acts {w w' : World} (silent : Silent w w') {req : Request}
    {o : Option Response} (other : o = some registered → ∀ body, ¬ Registering req body) :
    Acts state req w o w' :=
  ⟨Or.inl silent.users, fun body registering answer => absurd registering (other answer body),
    Or.inl silent.issued, Or.inl silent.messages⟩

end

/-- An account that a request was told it has registered is there. -/
def Recorded (req : Request) (response : Response) (w : World) : Prop :=
  ∀ body, Registering req body → response = registered →
    ∃ row ∈ w.db.users, row.username = body.username

theorem recorded_of_other {req : Request} (other : ∀ body, ¬ Registering req body)
    (response : Response) (w : World) : Recorded req response w :=
  fun body registering => absurd registering (other body)

theorem recorded_of_ne {req : Request} {response : Response} (differs : response ≠ registered)
    (w : World) : Recorded req response w :=
  fun _ _ same => absurd same differs

/-- A failure is not the answer to a registration that succeeds. -/
theorem answerOf_error_ne (failure : Failure) : answerOf (.error failure) ≠ registered := by
  intro same
  cases failure <;> cases congrArg Response.body same

/-! ### Operations of the store, inside a handler -/

section Store

variable {admits : Moment → Prop} {α : Type}

/-- **An operation of the store, inside a handler**, does to the world what it does to the tables.
The tokens are left alone by it, so that what is issued is a matter of the handlers. -/
theorem store_meets {query : Query α} {guarS : Db → Option (Except StoreError α) → Db → Prop}
    {postS : Except StoreError α → Db → Prop}
    {guar : World → Option (Except Failure α) → World → Prop}
    {post : Except Failure α → World → Prop} {w₀ : World}
    (meets : query.run.Meets (storeContract admits) guarS postS w₀.db)
    (raise : ∀ w o db, w₀.Extends w → guarS w.db o db →
      guar w (o.map (Except.mapError fun e => .api (.ofStore e))) (w.withDb db))
    (ends : ∀ r w, w₀.Extends w → postS r w.db →
      post (r.mapError fun e => .api (.ofStore e)) w) :
    (store query).run.Meets (worldContract admits) guar post w₀ := by
  rw [store, run_inside]
  refine Prog.meets_map _ ?_
  refine Prog.meets_focus ?lower ?lowerRel World.db_withDb ?acts ?ends
    (World.Extends.refl w₀) meets
  case lower => exact fun m w ok valid => ⟨ok, valid⟩
  case lowerRel => exact fun w w' grows => grows.db
  case acts => exact fun w o db rel _ valid grows own =>
    ⟨valid, ⟨grows, List.prefix_refl _⟩, raise w o db rel own⟩
  case ends => exact fun r w rel holds => ends r w rel holds

end Store

/-! ### Handlers that write no account, token or message -/

section Silent

variable {admits : Moment → Prop} {α : Type}

/-- No step of the handler writes an account, a token or a message. -/
def IsSilent (admits : Moment → Prop) (handler : Handler α) : Prop :=
  ∀ w₀, handler.run.Meets (worldContract admits) (fun w _ w' => Silent w w') (fun _ _ => True) w₀

theorem silent_pure (a : α) : IsSilent admits (pure a : Handler α) :=
  fun _ => trivial

theorem silent_refuse_bind {β : Type} (error : ApiError) (f : β → Handler α) :
    IsSilent admits (refuse error >>= f) :=
  fun _ => trivial

theorem silent_except_bind {β : Type} {r : Except Failure β} {f : β → Handler α}
    (rest : ∀ b, IsSilent admits (f b)) : IsSilent admits ((liftM r : Handler β) >>= f) :=
  fun w => meets_except_bind (fun b _ => rest b w) fun _ _ => trivial

theorem silent_authenticated_bind {state : AppState} {authorization : Option (List UInt8)}
    {f : String → Handler α} (rest : ∀ username, IsSilent admits (f username)) :
    IsSilent admits (authenticated state authorization >>= f) := by
  refine fun w₀ => meets_step_bind fun m w ok valid rel =>
    ⟨valid, World.Extends.refl w, Silent.refl w, ?_⟩
  cases authenticate state authorization m.now w.issued with
  | ok username => exact rest username w
  | error e => exact trivial

theorem silent_store_bind {β : Type} {query : Query β}
    {guarS : Db → Option (Except StoreError β) → Db → Prop}
    {postS : Except StoreError β → Db → Prop} {f : β → Handler α}
    (meets : ∀ s₀, query.run.Meets (storeContract admits) guarS postS s₀)
    (quiet : ∀ s o t, guarS s o t → t.users = s.users ∧ t.messages = s.messages)
    (rest : ∀ b, IsSilent admits (f b)) : IsSilent admits (store query >>= f) := by
  refine fun w₀ => meets_run_bind (store_meets (meets w₀.db) (fun w o db _ own => ?_)
    fun r w _ _ => ?_)
  · obtain ⟨users, messages⟩ := quiet _ _ _ own
    exact ⟨users, rfl, messages⟩
  · cases r with
    | ok b => exact rest b w
    | error e => exact trivial

theorem silent_healthz : IsSilent admits healthz :=
  silent_pure _

theorem silent_serverInfo (state : AppState) : IsSilent admits (serverInfo state) :=
  silent_pure _

variable (state : AppState) (req : Request)

theorem silent_listRooms : IsSilent admits (listRoomsHandler state req) :=
  silent_authenticated_bind fun _ =>
    silent_store_bind (listRooms_meets admits) (fun _ _ _ own => by rw [own.1]; exact ⟨rfl, rfl⟩)
      fun _ => silent_pure _

theorem silent_createRoom : IsSilent admits (createRoomHandler state req) := by
  refine silent_authenticated_bind fun _ => silent_except_bind fun body =>
    silent_except_bind fun name =>
      silent_store_bind (createRoom_meets name state.config.maxRooms admits) ?_ fun creation => ?_
  · rintro s o t (rfl | ⟨-, -, -, _, rfl⟩) <;> exact ⟨rfl, rfl⟩
  · cases creation <;> exact silent_pure _

theorem silent_listMessages (id : String) : IsSilent admits (listMessages state req id) := by
  have pages : ∀ (q : PageQuery) (room : RoomId),
      IsSilent admits (store (q.query room) >>= fun messages =>
        (pure { status := 200, body := .messages ⟨messages⟩ } : Handler Response)) := fun q room =>
    silent_store_bind (q.meets room admits) (fun _ _ _ own => by rw [own.1]; exact ⟨rfl, rfl⟩)
      fun _ => silent_pure _
  refine silent_authenticated_bind fun _ => silent_except_bind fun room =>
    silent_except_bind fun page => silent_store_bind (roomExists_meets ⟨room⟩ admits)
      (fun _ _ _ own => by rw [own.1]; exact ⟨rfl, rfl⟩) fun found => ?_
  cases found with
  | false => exact silent_refuse_bind _ _
  | true =>
      rcases page with ⟨limit, _ | cursor, _ | cursor'⟩
      · exact pages (.newest _) ⟨room⟩
      · exact pages (.before ⟨cursor'⟩ _) ⟨room⟩
      · exact pages (.after ⟨cursor⟩ _) ⟨room⟩
      · exact silent_refuse_bind _ _

end Silent

/-! ### Every request -/

section Handlers

variable (state : AppState) (req : Request) {admits : Moment → Prop}

/-- The obligation of a handler of this request. -/
def HandlerMeets (admits : Moment → Prop) (handler : Handler Response) : Prop :=
  ∀ w₀, handler.run.Meets (worldContract admits)
    (fun w o w' => Acts state req w (o.map answerOf) w') (fun r w => Recorded req (answerOf r) w) w₀

theorem IsSilent.meets {handler : Handler Response} (silent : IsSilent admits handler)
    (other : ∀ body, ¬ Registering req body) : HandlerMeets state req admits handler :=
  fun w₀ => (silent w₀).weaken (fun _ _ _ own => own.acts state fun _ => other)
    fun _ _ _ => recorded_of_other other _ _

/-- An error that is only renamed leaves the value. -/
theorem ok_of_mapError {ε ε' α : Type} {f : ε → ε'} {r : Except ε α} {a : α}
    (h : r.mapError f = .ok a) : r = .ok a := by
  cases r with
  | ok b =>
      cases h
      rfl
  | error e => cases h

theorem ok_of_extract {α : Type} {extracted : Option α} {a : α}
    (found : (match extracted with
      | some value => .ok value
      | none => .error .rejected : Except Failure α) = .ok a) : extracted = some a := by
  cases extracted with
  | some b => rw [Except.ok.inj found]
  | none => cases found

theorem parseUsername_eq_ok {raw username : String} (h : parseUsername raw = .ok username) :
    username = raw := by
  simp only [parseUsername] at h
  split at h
  · cases h
    rfl
  · cases h

theorem hashPassword_eq_ok {crypto : Crypto} {password phc : String} {salt : ℕ}
    (h : hashPassword crypto password salt = .ok phc) :
    crypto.hash password salt = some phc := by
  unfold hashPassword at h
  split at h
  next made =>
    cases h
    exact made
  next => cases h

theorem register_meets (method : req.method = .post) (at_route : route req.path = some .register) :
    HandlerMeets state req admits (register state req) := by
  intro w₀
  have fails : ∀ (e : Failure) w, Recorded req (answerOf (.error e)) w :=
    fun e w => recorded_of_ne (answerOf_error_ne e) w
  refine meets_except_bind (fun body bodyOk => ?_) fun e _ => fails e _
  refine meets_except_bind (fun username nameOk => ?_) fun e _ => fails e _
  have registering : Registering req body := ⟨method, at_route, ok_of_mapError bodyOk⟩
  have sent : ∀ body', Registering req body' → body' = body := fun body' registering' =>
    Except.ok.inj (registering'.2.2.symm.trans registering.2.2)
  have name : username = body.username := parseUsername_eq_ok (ok_of_mapError nameOk)
  refine meets_step_bind fun m w ok valid rel => ⟨valid, World.Extends.refl w, ?_⟩
  cases hashed : hashPassword state.crypto body.password m.salt with
  | error e =>
      refine ⟨(Silent.refl w).acts state fun same => ?_, fails _ _⟩
      exact absurd (Option.some.inj same) (answerOf_error_ne _)
  | ok hash =>
      refine ⟨(Silent.refl w).acts state nofun, ?_⟩
      refine meets_run_bind (store_meets
        (insertUser_meets username hash state.config.maxAccounts admits w.db)
        (fun w o db _ own => ?_) fun r w _ holds => ?_)
      · rcases own with ⟨rfl, silent⟩ | ⟨rfl, below, -, createdAt, rfl⟩
        · refine (Silent.refl _).acts state fun same => absurd same ?_
          rcases o with _ | (e | (_ | _))
          · exact nofun
          · exact fun same => absurd (Option.some.inj same) (answerOf_error_ne _)
          · exact absurd rfl silent
          · exact fun same => absurd (Option.some.inj same) (answerOf_error_ne _)
        · have adds : AddsAccount state body w
              (w.withDb { w.db with users := w.db.users ++ [⟨username, hash, createdAt⟩] }) :=
            ⟨below, ⟨username, hash, createdAt⟩, m.salt, rfl, name, hashPassword_eq_ok hashed⟩
          exact ⟨Or.inr ⟨body, registering, rfl, adds⟩,
            fun body' registering' _ => sent body' registering' ▸ adds, Or.inl rfl, Or.inl rfl⟩
      · rcases r with e | (_ | _)
        · exact fails _ _
        · obtain ⟨row, mem, named, -⟩ := holds
          intro body' registering' _
          exact ⟨row, mem, by rw [named, name, sent body' registering']⟩
        · exact fails _ _

theorem login_meets (method : req.method = .post) (at_route : route req.path = some .login) :
    HandlerMeets state req admits (login state req) := by
  intro w₀
  have other : ∀ body, ¬ Registering req body := by
    rintro body ⟨-, at_other, -⟩
    cases at_route.symm.trans at_other
  have quiet : ∀ (w : World) o, Acts state req w o w := fun w o =>
    (Silent.refl w).acts state fun _ => other
  refine meets_except_bind (fun body bodyOk => ?_) fun e _ => recorded_of_other other _ _
  have loggingIn : LoggingIn req body := ⟨method, at_route, ok_of_mapError bodyOk⟩
  refine meets_run_bind (store_meets (passwordHash_meets body.username admits w₀.db)
    (fun w o db _ own => ?_) fun r w _ hashOf => ?_)
  · rw [own]
    exact quiet _ _
  · rcases r with e | stored
    · exact recorded_of_other other _ _
    · cases verified : verifyPassword state.crypto body.password stored with
      | false =>
          simp only [Except.mapError, onOk_ok, verified, Bool.not_false, if_true]
          exact recorded_of_other other _ _
      | true =>
          simp only [Except.mapError, onOk_ok, verified, Bool.not_true, Bool.false_eq_true,
            if_false]
          obtain ⟨phc, rfl, -⟩ := verifyPassword_eq_true verified
          obtain ⟨row, mem, named, rfl⟩ := hashOf
          refine meets_step_bind fun m w' ok valid rel => ?_
          simp only [Tokens.issue]
          cases state.crypto.encode state.tokens.secret
              (state.tokens.claims body.username m.now) with
          | none =>
              exact ⟨valid, World.Extends.refl _, quiet _ _, recorded_of_other other _ _⟩
          | some token =>
              refine ⟨valid, ⟨Db.Extends.refl _, List.prefix_append _ _⟩, ?_,
                recorded_of_other other _ _⟩
              -- the account that was looked up is still there when the token is issued
              have verifies : Verifies state body w'.db := ⟨row, rel.db.user mem, named, verified⟩
              exact ⟨Or.inl rfl, fun body' registering => absurd registering (other body'),
                Or.inr ⟨body, _, loggingIn, rfl, verifies, m.now, rfl⟩, Or.inl rfl⟩

theorem authenticate_eq_ok {authorization : Option (List UInt8)} {now : ℕ}
    {issued : List Issued} {username : String}
    (h : authenticate state authorization now issued = .ok username) :
    ∃ token, bearerToken authorization = some token ∧
      state.tokens.verify token now issued = .ok username := by
  unfold authenticate at h
  split at h
  next => cases h
  next token sent =>
    split at h
    next name verified =>
      cases h
      exact ⟨token, sent, verified⟩
    next => cases h

theorem Names.later {username : String} {w w' : World} (names : Names state username w.issued)
    (rel : w.Extends w') : Names state username w'.issued := by
  obtain ⟨entry, mem, rest⟩ := names
  exact ⟨entry, rel.issued.subset mem, rest⟩

theorem Bears.later {req : Request} {username : String} {w w' : World}
    (bears : Bears state req username w.issued) (rel : w.Extends w') :
    Bears state req username w'.issued := by
  obtain ⟨entry, mem, rest⟩ := bears
  exact ⟨entry, rel.issued.subset mem, rest⟩

theorem Bears.names {req : Request} {username : String} {issued : List Issued}
    (bears : Bears state req username issued) : Names state username issued := by
  obtain ⟨entry, mem, own, -, sub⟩ := bears
  exact ⟨entry, mem, own, sub⟩

theorem postMessages_meets (id : String) (method : req.method = .post)
    (at_route : route req.path = some (.messages id)) :
    HandlerMeets state req admits (postMessages state req id) := by
  intro w₀
  have other : ∀ body, ¬ Registering req body := by
    rintro body ⟨-, at_other, -⟩
    cases at_route.symm.trans at_other
  have quiet : ∀ (w : World) o, Acts state req w o w := fun w o =>
    (Silent.refl w).acts state fun _ => other
  have recorded : ∀ r w, Recorded req (answerOf r) w := fun r w => recorded_of_other other _ w
  refine meets_step_bind fun m w ok valid rel => ⟨valid, World.Extends.refl w, quiet _ _, ?_⟩
  cases accepted : authenticate state req.authorization m.now w.issued with
  | error e => exact recorded _ _
  | ok username =>
      -- whoever posts has presented a token that names them
      have bears : Bears state req username w.issued := by
        obtain ⟨token, sent, verified⟩ := authenticate_eq_ok state accepted
        obtain ⟨entry, mem, secret, rfl, sub, -⟩ := Tokens.verify_eq_ok verified
        exact ⟨entry, mem, secret, sent, sub⟩
      refine meets_except_bind (fun room extracted => ?_) fun _ _ => recorded _ _
      have at_room : postedTo req = some room := by
        unfold postedTo
        rw [at_route]
        exact ok_of_extract extracted
      refine meets_except_bind (fun body _ => ?_) fun _ _ => recorded _ _
      have posts : (store (postMessage ⟨room⟩ username body.body) >>= fun posted =>
          (pure { status := 201, body := .posted posted } : Handler Response)).run.Meets
            (worldContract admits) (fun w o w' => Acts state req w (o.map answerOf) w')
              (fun r w => Recorded req (answerOf r) w) w := by
        refine meets_run_bind (store_meets
          (postMessage_meets ⟨room⟩ username body.body admits w.db)
          (fun w' o db rel own => ?_) fun r w' _ _ => ?_)
        · rcases own with ⟨rfl, -⟩ | ⟨postedAt, home, -, rfl⟩
          · exact quiet _ _
          · exact ⟨Or.inl rfl, fun body' registering => absurd registering (other body'),
              Or.inl rfl, Or.inr ⟨⟨method, id, at_route⟩, _, room, rfl, at_room, home,
                bears.later state rel⟩⟩
        · rcases r with e | posted
          · exact recorded _ _
          · exact recorded _ _
      by_cases large : state.config.maxMessageBytes.toNat < body.body.utf8ByteSize
      · simp only [if_pos large]
        exact recorded _ _
      · simp only [if_neg large]
        by_cases empty : body.body.isEmpty = true
        · simp only [if_pos empty]
          exact recorded _ _
        · simp only [if_neg empty]
          exact posts

/-- **Serving a request**, step by step, is what the request may do and nothing else.  It is proved
handler by handler and step by step, and it is what every invariant over runs of the server is
derived from. -/
theorem handle_meets (w₀ : World) :
    (handle state req).Meets (worldContract admits) (Acts state req) (Recorded req) w₀ := by
  have responds : ∀ handler, HandlerMeets state req admits handler →
      handler.respond.Meets (worldContract admits) (Acts state req) (Recorded req) w₀ :=
    fun handler meets => Prog.meets_map _ (meets w₀)
  rw [handle]
  cases at_route : route req.path with
  | none => exact recorded_of_ne (by decide) _
  | some r =>
      cases method : req.method with
      | get =>
          have other : ∀ body, ¬ Registering req body := by
            rintro body ⟨post, -, -⟩
            cases method.symm.trans post
          have silently : ∀ handler, IsSilent admits handler →
              handler.respond.Meets (worldContract admits) (Acts state req) (Recorded req) w₀ :=
            fun handler silent => responds handler (silent.meets state req other)
          rcases r with _ | _ | _ | _ | _ | id
          · exact silently _ silent_healthz
          · exact silently _ (silent_serverInfo state)
          · exact recorded_of_other other _ _
          · exact recorded_of_other other _ _
          · exact silently _ (silent_listRooms state req)
          · exact silently _ (silent_listMessages state req id)
      | head =>
          have other : ∀ body, ¬ Registering req body := by
            rintro body ⟨post, -, -⟩
            cases method.symm.trans post
          have strips : ∀ handler, IsSilent admits handler →
              (Response.stripped <$> handler.respond).Meets (worldContract admits)
                (Acts state req) (Recorded req) w₀ := by
            intro handler silent
            refine Prog.meets_map _ (Prog.meets_map _ ((silent w₀).weaken (fun w o w' own => ?_)
              fun _ _ _ => recorded_of_other other _ _))
            exact own.acts state fun _ => other
          rcases r with _ | _ | _ | _ | _ | id
          · exact strips _ silent_healthz
          · exact strips _ (silent_serverInfo state)
          · exact recorded_of_other other _ _
          · exact recorded_of_other other _ _
          · exact strips _ (silent_listRooms state req)
          · exact strips _ (silent_listMessages state req id)
      | post =>
          rcases r with _ | _ | _ | _ | _ | id
          · exact recorded_of_ne (by decide) _
          · exact recorded_of_ne (by decide) _
          · exact responds _ (register_meets state req method at_route)
          · exact responds _ (login_meets state req method at_route)
          · refine responds _ ((silent_createRoom state req).meets state req ?_)
            rintro body ⟨-, at_other, -⟩
            cases at_route.symm.trans at_other
          · exact responds _ (postMessages_meets state req id method at_route)
      | other name => exact recorded_of_ne (by decide) _

end Handlers

/-! ### Which step writes -/

/-- A step of a request leaves accounts and messages alone, unless it is the third one, and the
database works. -/
def WritesThird (n : ℕ) (m : Moment) (s t : Db) : Prop :=
  (t.users = s.users ∧ t.messages = s.messages) ∨ n = 2 ∧ m.fails = false

theorem WritesThird.refl (n : ℕ) (m : Moment) (db : Db) : WritesThird n m db db :=
  Or.inl ⟨rfl, rfl⟩

/-- A statement that is the third step. -/
theorem WritesThird.attempt {α : Type} (sql : Moment → Db → Sql.SqlResult α) (m : Moment)
    (db : Db) : WritesThird 2 m db (ScionChat.attempt sql m db).2 := by
  rcases attempt_cases sql m db with ⟨a, after, works, -, -⟩ | ⟨e, failed⟩
  · exact Or.inr ⟨rfl, works⟩
  · rw [failed]
    exact .refl 2 m db

section Third

open Column Sql

variable (username pwHash body : String) (maxAccounts : UInt32) (room : RoomId)

theorem insertUser_third : (insertUser username pwHash maxAccounts).run.StepsDo WritesThird 1 := by
  rw [insertUser_run]
  refine fun m db => ⟨.refl 1 m db, ?_⟩
  dsimp only
  cases toColumn "timestamp" m.now with
  | error e => exact trivial
  | ok createdAt =>
      refine fun m db => ⟨.attempt _ m db, ?_⟩
      dsimp only
      cases (attempt (fun _ => insertUserRow username pwHash createdAt maxAccounts.toNat) m db).1
      with
      | error e => exact trivial
      | ok inserted =>
          cases inserted with
          | true => exact trivial
          | false =>
              refine fun m db => ⟨.refl 3 m db, ?_⟩
              dsimp only
              cases fetched (selectUserExists username) m db with
              | error e => exact trivial
              | ok taken => cases taken <;> exact trivial

theorem postMessage_third : (postMessage room username body).run.StepsDo WritesThird 1 := by
  rw [postMessage_run]
  cases toColumn "room id" room.get with
  | error e => exact trivial
  | ok id =>
      refine fun m db => ⟨.refl 1 m db, ?_⟩
      dsimp only
      cases toColumn "timestamp" m.now with
      | error e => exact trivial
      | ok postedAt =>
          refine fun m db => ⟨.attempt _ m db, ?_⟩
          dsimp only
          cases (attempt (insertMessage room username body postedAt) m db).1 with
          | error e => exact trivial
          | ok row => exact trivial

end Third

/-- The request is one of those that write accounts or messages. -/
def Writing (req : Request) : Prop :=
  (∃ body, Registering req body) ∨ Posting req

/-- **Accounts and messages are written by the third step of a request**: the first one looks at
the token or hashes the password, and the second one at the clock. -/
theorem handle_third (state : AppState) (req : Request) : (handle state req).StepsDo
    (fun n m w w' => Writing req → WritesThird n m w.db w'.db) 0 := by
  have same : ∀ n m (w : World), Writing req → WritesThird n m w.db w.db :=
    fun n m w _ => .refl n m w.db
  have lift : ∀ n m (w : World) db, WritesThird n m w.db db →
      Writing req → WritesThird n m w.db (w.withDb db).db :=
    fun n m w db third _ => World.db_withDb db w ▸ third
  by_cases writing : Writing req
  · rcases writing with ⟨body, method, at_route, -⟩ | ⟨method, id, at_route⟩
    · simp only [handle, at_route, method]
      refine Prog.stepsDo_map _ (stepsDo_except_bind fun body _ => stepsDo_except_bind
        fun username _ => stepsDo_step_bind (same 0) fun hash => stepsDo_run_bind
          (stepsDo_inside lift (insertUser_third _ _ _)) fun registration _ _ => ?_)
      cases registration <;> exact trivial
    · simp only [handle, at_route, method]
      refine Prog.stepsDo_map _ (stepsDo_step_bind (same 0) fun username =>
        stepsDo_except_bind fun room _ => stepsDo_except_bind fun body _ => ?_)
      have posts : (store (postMessage ⟨room⟩ username body.body) >>= fun posted =>
          (pure { status := 201, body := .posted posted } : Handler Response)).run.StepsDo
            (fun n m w w' => Writing req → WritesThird n m w.db w'.db) 1 :=
        stepsDo_run_bind (stepsDo_inside lift (postMessage_third _ _ _)) fun _ _ _ => trivial
      by_cases large : state.config.maxMessageBytes.toNat < body.body.utf8ByteSize
      · simp only [if_pos large]
        exact trivial
      · simp only [if_neg large]
        by_cases empty : body.body.isEmpty = true
        · simp only [if_pos empty]
          exact trivial
        · simp only [if_neg empty]
          exact posts
  · exact Prog.stepsDo_of_all (fun _ _ _ _ writes => absurd writes writing) _ 0

end ScionChat
