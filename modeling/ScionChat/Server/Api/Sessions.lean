import ScionChat.Server.Api.Contract
import ScionChat.Server.Store.Opening

/-!
# Accounts, sessions and authors, over a run of the server

A run of one server process serves any number of requests at once, the steps of their handlers
interleaved by `Pool.step`.  This module follows a name through such a run: from the registration
that made the account, to the login that was given a token, to the request that presents the token
and the message it posts.

`Accounted` is the invariant that ties these together.  Every account goes back to one
registration, every token to one login whose password fits an account, and every message to a
token.  It speaks of requests that *have been answered*, so "earlier in the run" is the statement
that the pool already holds their answers.

Two results are read off it.

* `AuthenticationSound` — whoever a request acts as has logged in, with the password the account
  was registered with; and a request that nobody can be held to account for is refused before it
  looks at the store.
* `AttributedToAccount` — messages carry the name of an account as it was registered, in every run
  in which no message is stored on a token that was typed in another letter case.  The store
  compares names under `NOCASE` and the token repeats what was typed, so without that proviso they
  do not.

### design decisions

* **The proviso is about the storing step.**  `SpelledAsRegistered` asks nothing of a login, of a
  page, or of a post that is refused: only `StoresMessage` steps, which add a row, are looked at.
  That they are the third step of a request is `handle_third`.
* **The password is the registration's.**  `PasswordOf` goes back to the request that registered
  the account, so that the soundness of a login does not mention a hash.

### What is load-bearing

`Accounted.step`: one step of one request adds at most one account, one token or one message, and
the request that has added it is in the pool, with its answer.
-/

namespace ScionChat

open Interleaving TransitionSystem

/-- The requests a server process has received. -/
abbrev ServerPool := Pool Request Moment World Response

/-- The next step of a server process: a request arrives, or one takes its next step. -/
def serve (state : AppState) : ServerPool → Label Request Moment → Option ServerPool :=
  Pool.step (handle state)

/-- **A server process as it starts** on a directory without a database: the store has just
been created, and no token has been issued under the secret. -/
structure Fresh (state : AppState) (w : World) : Prop where
  opens : ∃ ω, SqliteStore.new.run.exec ω none = (.ok (), opened w.db)
  secret : ∀ entry ∈ w.issued, entry.secret ≠ state.tokens.secret

/-- The pool is sound, whatever the clock and the database do. -/
abbrev ServerSound (state : AppState) : ServerPool → Prop :=
  Pool.Sound (worldContract fun _ => True) (Acts state) Recorded

/-- One step of a sound server leaves it sound. -/
theorem ServerSound.step {state : AppState} {p q : ServerPool} {l : Label Request Moment}
    (sound : ServerSound state p) (h : serve state p l = some q) : ServerSound state q :=
  Pool.Sound.step (fun req w _ => handle_meets state req w) (by cases l <;> exact trivial) h sound

/-! ### The handlers that take `Authenticated` -/

/-- The request is for one of the handlers that take `Authenticated`. -/
def Request.Guarded (req : Request) : Prop :=
  (route req.path = some .rooms ∨ ∃ id, route req.path = some (.messages id)) ∧
    (req.method = .get ∨ req.method = .head ∨ req.method = .post)

/-- How a guarded request is refused. -/
def Request.refusal (req : Request) (e : ApiError) : Response :=
  if req.method = .head then e.intoResponse.stripped else e.intoResponse

@[simp] theorem Request.refusal_status (req : Request) (e : ApiError) :
    (req.refusal e).status = e.status := by
  unfold refusal
  split <;> rfl

/-- A header is refused with a 401, whatever is wrong with it. -/
theorem authenticate_error_status {state : AppState} {authorization : Option (List UInt8)}
    {now : ℕ} {issued : List Issued} {e : ApiError}
    (h : authenticate state authorization now issued = .error e) : e.status = 401 := by
  unfold authenticate at h
  split at h
  · cases h
    rfl
  · split at h
    · cases h
    · cases h
      split <;> rfl

/-- **The first step of a guarded request** looks at the header and at the tokens; it goes on
as the user they name, or it is the last one. -/
theorem handle_guarded (state : AppState) {req : Request} (guarded : req.Guarded) :
    ∃ rest : String → Prog Moment World Response,
      handle state req = .step (fun _ w => w) fun m w =>
        match authenticate state req.authorization m.now w.issued with
        | .ok username => rest username
        | .error e => .ret (req.refusal e) := by
  have opens : ∀ (f : String → Handler Response) (g : Response → Response),
      (∀ e : ApiError, g e.intoResponse = req.refusal e) →
        g <$> Handler.respond (authenticated state req.authorization >>= f)
          = .step (fun _ w => w) fun m w =>
            match authenticate state req.authorization m.now w.issued with
            | .ok username => g <$> Handler.respond (f username)
            | .error e => .ret (req.refusal e) := by
    intro f g refuses
    rw [Handler.respond, authenticated, run_tryAtomically_bind]
    refine congrArg _ (funext fun m => funext fun w => ?_)
    show g <$> answerOf <$> onOk f _ = _
    cases authenticate state req.authorization m.now w.issued with
    | ok username => rfl
    | error e => exact congrArg Prog.ret (refuses e)
  obtain ⟨at_route, method⟩ := guarded
  have plain : req.method ≠ .head → ∀ e : ApiError, id e.intoResponse = req.refusal e :=
    fun other e => (if_neg other).symm
  have stripped : req.method = .head →
      ∀ e : ApiError, e.intoResponse.stripped = req.refusal e := fun head e => (if_pos head).symm
  unfold handle
  rcases at_route with rooms | ⟨id', messages⟩
  · rw [rooms]
    rcases method with get | head | post
    · rw [get]
      exact ⟨_, (id_map _).symm.trans (opens _ id (plain (by simp [get])))⟩
    · rw [head]
      exact ⟨_, opens _ Response.stripped (stripped head)⟩
    · rw [post]
      exact ⟨_, (id_map _).symm.trans (opens _ id (plain (by simp [post])))⟩
  · rw [messages]
    rcases method with get | head | post
    · rw [get]
      exact ⟨_, (id_map _).symm.trans (opens _ id (plain (by simp [get])))⟩
    · rw [head]
      exact ⟨_, opens _ Response.stripped (stripped head)⟩
    · rw [post]
      exact ⟨_, (id_map _).symm.trans (opens _ id (plain (by simp [post])))⟩

/-! ### What the tables and the tokens go back to -/

section Accounts

/-- The `k`-th request has registered an account. -/
def HasRegistered (p : ServerPool) (k : ℕ) (body : RegisterRequest) : Prop :=
  ∃ req, p.Returned k req registered ∧ Registering req body

/-- The `k`-th request has logged in, and been given a token. -/
def HasLoggedIn (p : ServerPool) (k : ℕ) (body : LoginRequest) (token : String) : Prop :=
  ∃ req reply, p.Returned k req (loggedIn reply) ∧ LoggingIn req body ∧ reply.token = token

variable {state : AppState} {p q : ServerPool} {l : Label Request Moment}

theorem HasRegistered.step (h : serve state p l = some q) {k : ℕ} {body : RegisterRequest}
    (has : HasRegistered p k body) : HasRegistered q k body := by
  obtain ⟨req, ret, registering⟩ := has
  exact ⟨req, ret.step h, registering⟩

theorem HasLoggedIn.step (h : serve state p l = some q) {k : ℕ} {body : LoginRequest}
    {token : String} (has : HasLoggedIn p k body token) : HasLoggedIn q k body token := by
  obtain ⟨req, reply, ret, rest⟩ := has
  exact ⟨req, reply, ret.step h, rest⟩

/-- An account that has been registered is in the table. -/
theorem HasRegistered.row (sound : ServerSound state p) {k : ℕ} {body : RegisterRequest}
    (has : HasRegistered p k body) : ∃ row ∈ p.state.db.users, row.username = body.username := by
  obtain ⟨req, ret, registering⟩ := has
  obtain ⟨w, rel, recorded⟩ := sound.returned ret
  obtain ⟨row, mem, named⟩ := recorded body registering rfl
  exact ⟨row, rel.db.user mem, named⟩

theorem Verifies.later {body : LoginRequest} {db db' : Db} (verifies : Verifies state body db)
    (grows : db.Extends db') : Verifies state body db' := by
  obtain ⟨row, mem, rest⟩ := verifies
  exact ⟨row, grows.user mem, rest⟩

/-- No request has registered an account by the time it arrives. -/
theorem handle_ret_ne {req : Request} {body : RegisterRequest} (registering : Registering req body)
    {response : Response} (h : handle state req = .ret response) : response ≠ registered := by
  rintro rfl
  have recorded : (handle state req).Meets (worldContract fun _ => True) (Acts state req)
      (Recorded req) ⟨Db.empty, []⟩ := handle_meets state req _
  rw [h] at recorded
  obtain ⟨row, mem, -⟩ := recorded body registering rfl
  exact absurd mem List.not_mem_nil

variable (state) in
/-- **Where accounts, tokens and messages come from.** The three parts lean on each other: a
message is posted with a token, a token is handed out for an account, and an account is there
because somebody has registered it. -/
structure Accounted (p : ServerPool) : Prop where
  users : ∀ row ∈ p.state.db.users, ∃ k body salt, HasRegistered p k body ∧
    row.username = body.username ∧ state.crypto.hash body.password salt = some row.pwHash
  /-- One account, one registration. -/
  once : ∀ j k body body', HasRegistered p j body → HasRegistered p k body' →
    NoCase body.username body'.username → j = k
  issued : ∀ entry ∈ p.state.issued, entry.secret = state.tokens.secret → ∃ k body,
    HasLoggedIn p k body entry.token ∧ entry.claims.sub = body.username ∧
      Verifies state body p.state.db
  messages : ∀ row ∈ p.state.db.messages, Names state row.username p.state.issued

theorem accounted_fresh {w : World} (fresh : Fresh state w) : Accounted state (Pool.idle w) := by
  obtain ⟨ω, opens⟩ := fresh.opens
  obtain ⟨-, users, messages⟩ := new_absent opens
  refine ⟨fun row mem => ?_, fun j k body body' has => ?_, fun entry mem own => ?_,
    fun row mem => ?_⟩
  · rw [Pool.idle, users] at mem
    exact absurd mem List.not_mem_nil
  · obtain ⟨req, ⟨n, at_j⟩, -⟩ := has
    cases at_j
  · exact absurd own (fresh.secret entry mem)
  · rw [Pool.idle, messages] at mem
    exact absurd mem List.not_mem_nil

/-- What is in the tables and the tokens goes back to the same requests after a step that
leaves them alone. -/
theorem Accounted.carried (acc : Accounted state p) (h : serve state p l = some q)
    (rel : p.state.Extends q.state) :
    (∀ row ∈ p.state.db.users, ∃ k body salt, HasRegistered q k body ∧
        row.username = body.username ∧ state.crypto.hash body.password salt = some row.pwHash) ∧
      (∀ entry ∈ p.state.issued, entry.secret = state.tokens.secret → ∃ k body,
        HasLoggedIn q k body entry.token ∧ entry.claims.sub = body.username ∧
          Verifies state body q.state.db) ∧
        ∀ row ∈ p.state.db.messages, Names state row.username q.state.issued := by
  refine ⟨fun row mem => ?_, fun entry mem own => ?_, fun row mem => ?_⟩
  · obtain ⟨k, body, salt, has, rest⟩ := acc.users row mem
    exact ⟨k, body, salt, has.step h, rest⟩
  · obtain ⟨k, body, has, sub, verifies⟩ := acc.issued entry mem own
    exact ⟨k, body, has.step h, sub, verifies.later rel.db⟩
  · exact (acc.messages row mem).later state rel

theorem Accounted.step (sound : ServerSound state p) (h : serve state p l = some q)
    (acc : Accounted state p) : Accounted state q := by
  have sound' : ServerSound state q := sound.step h
  have rel : p.state.Extends q.state := sound.rel (by cases l <;> exact trivial) h
  obtain ⟨users, issued, messages⟩ := acc.carried h rel
  cases l with
  | spawn req =>
      cases h
      refine ⟨users, fun j k body body' hj hk same => ?_, issued, messages⟩
      have before : ∀ {i body}, HasRegistered ⟨p.state, p.threads ++ [⟨req, 0, handle state req⟩]⟩
          i body → HasRegistered p i body := by
        rintro i body ⟨req', ret, registering⟩
        rcases ret.of_spawn with old | ⟨rfl, ends⟩
        · exact ⟨req', old, registering⟩
        · exact absurd rfl (handle_ret_ne registering ends)
      exact acc.once j k body body' (before hj) (before hk) same
  | advance i m =>
      obtain ⟨req, n, old, next, found, eq, -, acts, -⟩ := sound.advance trivial h
      have ended : ∀ {response}, next.outcome = some response → q.Returned i req response :=
        fun outcome => eq ▸ Pool.returned_of_outcome found outcome
      refine ⟨fun row mem => ?_, fun j k body body' hj hk same => ?_, fun entry mem own => ?_,
        fun row mem => ?_⟩
      · rcases acts.users with same | ⟨body, registering, answer, -, row', salt, adds, name, made⟩
        · exact users row (same ▸ mem)
        · rw [adds] at mem
          rcases List.mem_append.mp mem with before | new
          · exact users row before
          · cases List.mem_singleton.mp new
            exact ⟨i, body, salt, ⟨req, ended answer, registering⟩, name, made⟩
      · have latest : ∀ {k body}, HasRegistered q k body → HasRegistered p k body ∨
            k = i ∧ AddsAccount state body p.state q.state := by
          rintro k body ⟨req', ret, registering⟩
          rw [eq] at ret
          rcases Pool.Returned.of_advance found ret with before | ⟨rfl, rfl, answer⟩
          · exact Or.inl ⟨req', before, registering⟩
          · exact Or.inr ⟨rfl, acts.accounts body registering answer⟩
        -- an account added under a name that is taken would be a second row of that name
        have apart : ∀ {k body body'}, HasRegistered p k body →
            AddsAccount state body' p.state q.state → ¬ NoCase body.username body'.username := by
          rintro k body body' has ⟨-, row', salt, adds, name, -⟩ same
          obtain ⟨row, mem, named⟩ := has.row sound
          have distinct := sound'.inv.users
          rw [adds] at distinct
          refine (List.pairwise_append.mp distinct).2.2 row mem row' (List.mem_singleton_self _) ?_
          rw [named, name]
          exact same
        rcases latest hj, latest hk with ⟨hj | ⟨rfl, addsj⟩, hk | ⟨rfl, addsk⟩⟩
        · exact acc.once j k body body' hj hk same
        · exact absurd same (apart hj addsk)
        · exact absurd same.symm (apart hk addsj)
        · rfl
      · rcases acts.issued with same | ⟨body, reply, loggingIn, answer, verifies, now, adds⟩
        · exact issued entry (same ▸ mem) own
        · rw [adds] at mem
          rcases List.mem_append.mp mem with before | new
          · exact issued entry before own
          · cases List.mem_singleton.mp new
            exact ⟨i, body, ⟨req, reply, ended answer, loggingIn, rfl⟩, rfl,
              verifies.later rel.db⟩
      · rcases acts.messages with same | ⟨-, row', room, adds, -, -, bears⟩
        · exact messages row (same ▸ mem)
        · rw [adds] at mem
          rcases List.mem_append.mp mem with before | new
          · exact messages row before
          · cases List.mem_singleton.mp new
            exact (bears.names state).later state rel

/-- **Every run of a fresh server is accounted for.** It starts with nothing to account for, and
each step is one of `Acts`. -/
theorem run_accounted {w : World} (fresh : Fresh state w) {ls : List (Label Request Moment)}
    (ran : run (serve state) (Pool.idle w) ls = some p) :
    ServerSound state p ∧ Accounted state p := by
  obtain ⟨ω, opens⟩ := fresh.opens
  refine run_invariant (P := fun p => ServerSound state p ∧ Accounted state p)
    (fun _ _ _ step inv => ⟨inv.1.step step, inv.2.step inv.1 step⟩) ran
    ⟨Pool.sound_idle (new_absent opens).1, accounted_fresh fresh⟩

end Accounts

/-! ### A server to run -/

namespace Sample

def state : AppState where
  crypto := .plain
  tokens := ⟨List.replicate 32 0, 604800⟩
  config := ⟨10, 10, 100, 7, "0.1.0"⟩

/-- A store that has just been created. -/
def world : World := ⟨⟨[], [⟨1, LOBBY, 0⟩], []⟩, []⟩

theorem world_fresh : Fresh state world :=
  ⟨⟨fun _ => {}, rfl⟩, fun _ mem => absurd mem List.not_mem_nil⟩

/-- A request for a path, without a query or a body. -/
def request (method : Method) (path : List String) (token : Option String) : Request where
  method := method
  path := path
  query := []
  authorization := token.map fun token =>
    ("Bearer " ++ token).toList.map fun c => UInt8.ofNat c.toNat
  body := ⟨.error "no body", .error "no body", .error "no body", .error "no body"⟩

def register (username password : String) : Request :=
  let req := request .post ["register"] none
  { req with body := { req.body with register := .ok ⟨username, password⟩ } }

def login (username password : String) : Request :=
  let req := request .post ["login"] none
  { req with body := { req.body with login := .ok ⟨username, password⟩ } }

def post (token body : String) : Request :=
  let req := request .post ["rooms", "1", "messages"] (some token)
  { req with body := { req.body with postMessage := .ok ⟨body⟩ } }

/-- Alice registers, logs in under the spelling given, and posts. -/
def session (typed : String) : List (Label Request Moment) :=
  [.spawn (register "alice" "pw"), .advance 0 {}, .advance 0 {}, .advance 0 {},
    .spawn (login typed "pw"), .advance 1 {}, .advance 1 {},
    .spawn (post s!"{typed}.604800" "hi"), .advance 2 {}, .advance 2 {}, .advance 2 {}]

/-- Alice's message is posted. -/
theorem session_posts : ∃ p, run (serve state) (Pool.idle world) (session "alice") = some p ∧
    p.state.db.messages = [⟨1, 1, "alice", "hi", 0⟩] :=
  ⟨_, rfl, rfl⟩

end Sample

/-! ### Authentication -/

section Authentication

/-- **The one registration** that has succeeded under the name, in any letter case, was with this
password.  There is one such registration in a run, since a name is never given twice. -/
def PasswordOf (p : ServerPool) (name password : String) : Prop :=
  ∃ k, (∃ body, HasRegistered p k body ∧ NoCase body.username name ∧ body.password = password) ∧
    ∀ j body, HasRegistered p j body → NoCase body.username name → j = k

/-- Somebody has logged in under the name, with the account's password, and was given the
token. -/
def LoggedInAs (p : ServerPool) (username token : String) : Prop :=
  ∃ k body, HasLoggedIn p k body token ∧ body.username = username ∧
    PasswordOf p username body.password

/-- The header of a request presents a token that was given to the user, and that is still
good. -/
def Presents (state : AppState) (p : ServerPool) (authorization : Option (List UInt8)) (now : ℕ)
    (username : String) : Prop :=
  ∃ entry ∈ p.state.issued, entry.secret = state.tokens.secret ∧
    bearerToken authorization = some entry.token ∧ LoggedInAs p username entry.token ∧
      now / 1000 ≤ entry.claims.exp

/-- The `k`-th request has arrived, and has taken no step yet. -/
def Arriving (p : ServerPool) (k : ℕ) (req : Request) : Prop :=
  ∃ rest, p.threads[k]? = some ⟨req, 0, rest⟩

/-- The handler of the `k`-th request runs as the user, who `Authenticated` has made out of
its header in the request's first step. -/
def RunsAs (state : AppState) (p : ServerPool) (k : ℕ) (req : Request) (m : Moment)
    (username : String) : Prop :=
  Arriving p k req ∧ req.Guarded ∧
    authenticate state req.authorization m.now p.state.issued = .ok username

/-- **Authentication is sound** in a pool of requests.  It is a property of one state of the pool;
the theorem has it in every state that is reached. -/
structure AuthenticationSound (state : AppState) (p : ServerPool) : Prop where
  /-- Whoever a guarded request acts as has logged in, and it presents their token. -/
  acts_as : ∀ k req m username, RunsAs state p k req m username →
    Presents state p req.authorization m.now username
  /-- So has the author of every message. -/
  messages : ∀ row ∈ p.state.db.messages, ∃ token, LoggedInAs p row.username token
  /-- A guarded request that presents nobody's token is refused in its first step, which
  leaves the store alone and answers the same over every other one. -/
  refused : ∀ (k : ℕ) (req : Request) (m : Moment), Arriving p k req → req.Guarded →
    (¬ ∃ username, Presents state p req.authorization m.now username) →
      ∃ response : Response, response.status = 401 ∧ ∀ db,
        serve state ⟨p.state.withDb db, p.threads⟩ (.advance k m)
          = some ⟨p.state.withDb db, p.threads.set k ⟨req, 1, .ret response⟩⟩

variable {state : AppState} {p : ServerPool}

/-- With ideal hashing, a password that an account verifies is the one it was registered
with. -/
theorem Accounted.password (ideal : state.crypto.Ideal) (acc : Accounted state p)
    {body : LoginRequest} (verifies : Verifies state body p.state.db) :
    PasswordOf p body.username body.password := by
  obtain ⟨row, mem, named, verified⟩ := verifies
  obtain ⟨k, registration, salt, has, name, made⟩ := acc.users row mem
  have same : NoCase registration.username body.username := name ▸ named
  refine ⟨k, ⟨registration, has, same, (ideal.password_eq made verified).symm⟩, ?_⟩
  intro j other has' same'
  exact acc.once j k other registration has' has (same'.trans same.symm)

theorem Accounted.loggedInAs (ideal : state.crypto.Ideal) (acc : Accounted state p)
    {entry : Issued} (mem : entry ∈ p.state.issued) (own : entry.secret = state.tokens.secret) :
    LoggedInAs p entry.claims.sub entry.token := by
  obtain ⟨k, body, has, sub, verifies⟩ := acc.issued entry mem own
  exact ⟨k, body, has, sub.symm, sub ▸ acc.password ideal verifies⟩

theorem Accounted.presents (ideal : state.crypto.Ideal) (acc : Accounted state p)
    {authorization : Option (List UInt8)} {now : ℕ} {username : String}
    (accepted : authenticate state authorization now p.state.issued = .ok username) :
    Presents state p authorization now username := by
  obtain ⟨token, sent, verified⟩ := authenticate_eq_ok state accepted
  obtain ⟨entry, mem, own, rfl, rfl, live⟩ := Tokens.verify_eq_ok verified
  exact ⟨entry, mem, own, sent, acc.loggedInAs ideal mem own, live⟩

/-- **Authentication is sound** in every run of a server process that starts with a fresh
store and a fresh secret, whatever requests reach it and however they interleave, over ideal
tokens and ideal hashing. -/
theorem authentication_sound (ideal : state.crypto.Ideal) {w : World} (fresh : Fresh state w)
    {ls : List (Label Request Moment)} (ran : run (serve state) (Pool.idle w) ls = some p) :
    AuthenticationSound state p := by
  obtain ⟨-, acc⟩ := run_accounted fresh ran
  refine ⟨fun k req m username runs => acc.presents ideal runs.2.2, fun row mem => ?_,
    fun k req m pending guarded nobody => ?_⟩
  · obtain ⟨entry, mem', own, sub⟩ := acc.messages row mem
    exact ⟨entry.token, sub ▸ acc.loggedInAs ideal mem' own⟩
  · obtain ⟨rest, found⟩ := pending
    have whole : rest = handle state req :=
      Pool.untaken ran _ (List.mem_of_getElem? found) rfl
    obtain ⟨goesOn, first⟩ := handle_guarded state guarded
    cases refusal : authenticate state req.authorization m.now p.state.issued with
    | ok username => exact absurd ⟨username, acc.presents ideal refusal⟩ nobody
    | error e =>
        refine ⟨req.refusal e, ?_, fun db => ?_⟩
        · rw [Request.refusal_status]
          exact authenticate_error_status refusal
        · rw [whole, first] at found
          simp only [serve, Pool.step, found, World.issued_withDb, refusal]

/-- Alice's session: one registration, one login, one message. -/
theorem authentication_sound_session : ∃ p,
    run (serve Sample.state) (Pool.idle Sample.world) (Sample.session "alice") = some p ∧
      p.state.db.messages = [⟨1, 1, "alice", "hi", 0⟩] ∧
        AuthenticationSound Sample.state p := by
  obtain ⟨p, ran, posted⟩ := Sample.session_posts
  exact ⟨p, ran, posted, authentication_sound Crypto.plain_ideal Sample.world_fresh ran⟩

end Authentication

/-! ### Attribution -/

section Attribution

/-- The step that stores a message: the third one of a post, over a database that works and has
the room, and a position left. -/
def StoresMessage (db : Db) (th : Thread Request Moment World Response) (m : Moment) : Prop :=
  th.op.method = .post ∧ th.taken = 2 ∧ m.fails = false ∧ db.messages.length < i64Max ∧
    ∃ home ∈ db.rooms, (postedTo th.op).map Int.ofNat = some home.id

instance (db : Db) (th : Thread Request Moment World Response) (m : Moment) :
    Decidable (StoresMessage db th m) :=
  inferInstanceAs (Decidable (_ ∧ _ ∧ _ ∧ _ ∧ ∃ home ∈ db.rooms, _))

/-- **Whoever posts has logged in as they registered**: where the step stores a message, the name
that was typed to be given the token is spelled as the account is that it stands for. -/
def SpelledAsRegistered (state : AppState) (p : ServerPool) : Label Request Moment → Prop
  | .spawn _ => True
  | .advance k m => ∀ th ∈ p.threads[k]?, StoresMessage p.state.db th m →
      ∀ entry ∈ p.state.issued, entry.secret = state.tokens.secret →
        bearerToken th.op.authorization = some entry.token →
          ∀ row ∈ p.state.db.users, NoCase row.username entry.claims.sub →
            row.username = entry.claims.sub

instance (state : AppState) (p : ServerPool) : ∀ l, Decidable (SpelledAsRegistered state p l)
  | .spawn _ => isTrue trivial
  | .advance k _ => inferInstanceAs (Decidable (∀ th ∈ p.threads[k]?, _))

/-- **Messages are attributed to accounts**: each one carries the name of an account, letter
for letter, and those of one account all carry the same name. -/
structure AttributedToAccount (db : Db) : Prop where
  account : ∀ message ∈ db.messages, ∃ user ∈ db.users, message.username = user.username
  same : ∀ m ∈ db.messages, ∀ m' ∈ db.messages, NoCase m.username m'.username →
    m.username = m'.username

/-- Every token of this server names an account, in some letter case, and every message names one
as it is. -/
structure Spelled (state : AppState) (w : World) : Prop where
  issued : ∀ entry ∈ w.issued, entry.secret = state.tokens.secret →
    ∃ user ∈ w.db.users, NoCase user.username entry.claims.sub
  messages : ∀ message ∈ w.db.messages, ∃ user ∈ w.db.users, message.username = user.username

variable {state : AppState}

theorem Spelled.attributed {w : World} (valid : w.db.Valid) (spelled : Spelled state w) :
    AttributedToAccount w.db := by
  refine ⟨spelled.messages, fun m mem m' mem' same => ?_⟩
  obtain ⟨user, listed, name⟩ := spelled.messages m mem
  obtain ⟨user', listed', name'⟩ := spelled.messages m' mem'
  have one : user = user' := valid.user_unique listed listed' (name ▸ name' ▸ same)
  rw [name, name', one]

/-- What is known of the threads of a server, by the number of their next step. -/
abbrev ServerThreads : ServerPool → Prop :=
  Pool.EachDoes fun req n m w w' => Writing req → WritesThird n m w.db w'.db

/-- A step keeps the spelling, if it stores no message in another one. -/
theorem Spelled.step {p q : ServerPool} {l : Label Request Moment} (sound : ServerSound state p)
    (each : ServerThreads p) (h : serve state p l = some q)
    (spelling : SpelledAsRegistered state p l) (spelled : Spelled state p.state) :
    Spelled state q.state := by
  cases l with
  | spawn req =>
      cases h
      exact spelled
  | advance k m =>
      have valid : q.state.db.Valid := (sound.step h).inv
      obtain ⟨req, n, old, next, found, -, rel, acts, -⟩ := sound.advance trivial h
      obtain ⟨th, at_k, third⟩ := each.advance h
      obtain rfl : th = ⟨req, n, old⟩ := Option.some.inj (at_k.symm.trans found)
      refine ⟨fun entry mem own => ?_, fun message mem => ?_⟩
      · rcases acts.issued with same | ⟨body, reply, -, -, ⟨row, mem', named, -⟩, now, adds⟩
        · obtain ⟨user, listed, name⟩ := spelled.issued entry (same ▸ mem) own
          exact ⟨user, rel.db.user listed, name⟩
        · rw [adds] at mem
          rcases List.mem_append.mp mem with before | new
          · obtain ⟨user, listed, name⟩ := spelled.issued entry before own
            exact ⟨user, rel.db.user listed, name⟩
          · cases List.mem_singleton.mp new
            exact ⟨row, rel.db.user mem', named⟩
      · have kept : message ∈ p.state.db.messages →
            ∃ user ∈ q.state.db.users, message.username = user.username := fun before =>
          (spelled.messages message before).imp fun _ there => there.imp_left rel.db.user
        rcases acts.messages with same | ⟨posting, row, room, adds, at_room, ⟨home, there, at_home⟩,
          entry, issued, own, sent, sub⟩
        · exact kept (same ▸ mem)
        · have stores : StoresMessage p.state.db ⟨req, n, old⟩ m := by
            -- the row is new, so this is the third step, over a database that works
            rcases third (Or.inr posting) with ⟨-, same⟩ | ⟨two, works⟩
            · rw [same] at adds
              exact absurd (congrArg List.length adds) (by simp)
            · refine ⟨posting.1, two, works, ?_, home, there, ?_⟩
              · have fits := valid.messagesFit
                rw [adds, List.length_append] at fits
                exact fits
              · rw [at_room, at_home]
                rfl
          rw [adds] at mem
          rcases List.mem_append.mp mem with before | new
          · exact kept before
          · cases List.mem_singleton.mp new
            obtain ⟨user, listed, name⟩ := spelled.issued entry issued own
            refine ⟨user, rel.db.user listed, ?_⟩
            rw [← sub]
            exact (spelling _ found stores entry issued own sent user listed name).symm

/-- **Messages are attributed to accounts** in every run in which no message is stored on a token
whose name was typed in another letter case than the account's.  That a request stores a message is
decided by the step, so posts that are refused, and logins whose tokens are never posted with, may
spell the name as they like. -/
theorem attributed_to_account {w : World} (fresh : Fresh state w)
    {ls : List (Label Request Moment)}
    (spelling : Along (serve state) (SpelledAsRegistered state) (Pool.idle w) ls) {p : ServerPool}
    (ran : run (serve state) (Pool.idle w) ls = some p) : AttributedToAccount p.state.db := by
  obtain ⟨ω, opens⟩ := fresh.opens
  obtain ⟨valid, -, messages⟩ := new_absent opens
  have start : Spelled state w :=
    ⟨fun entry mem own => absurd own (fresh.secret entry mem), fun message mem =>
      absurd (messages ▸ mem) List.not_mem_nil⟩
  have inv := run_invariant_along
    (P := fun p => (ServerSound state p ∧ ServerThreads p) ∧ Spelled state p.state)
    (fun _ _ _ spelling step inv =>
      ⟨⟨inv.1.1.step step, inv.1.2.step (handle_third state) step⟩,
        inv.2.step inv.1.1 inv.1.2 step spelling⟩)
    spelling ran ⟨⟨Pool.sound_idle valid, fun _ mem => absurd mem List.not_mem_nil⟩, start⟩
  exact inv.2.attributed inv.1.1.inv

/-- Alice logs in as she registered. -/
theorem attributed_to_account_session : ∃ p,
    run (serve Sample.state) (Pool.idle Sample.world) (Sample.session "alice") = some p ∧
      p.state.db.messages = [⟨1, 1, "alice", "hi", 0⟩] ∧ AttributedToAccount p.state.db := by
  obtain ⟨p, ran, posted⟩ := Sample.session_posts
  exact ⟨p, ran, posted, attributed_to_account Sample.world_fresh (by decide) ran⟩

/-- Alice logs in as `ALICE`, and that is the name under her message. -/
theorem attributed_as_typed : Fresh Sample.state Sample.world ∧ ∃ p,
    run (serve Sample.state) (Pool.idle Sample.world) (Sample.session "ALICE") = some p ∧
      p.state.db.users.map UserRow.username = ["alice"] ∧
        p.state.db.messages = [⟨1, 1, "ALICE", "hi", 0⟩] ∧ ¬ AttributedToAccount p.state.db := by
  refine ⟨Sample.world_fresh, _, rfl, rfl, rfl, fun attributed => ?_⟩
  obtain ⟨user, mem, name⟩ := attributed.account _ (List.mem_singleton_self _)
  cases List.mem_singleton.mp mem
  revert name
  decide

end Attribution

end ScionChat
