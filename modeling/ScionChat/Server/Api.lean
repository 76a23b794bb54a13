import ScionChat.Server.Auth

/-!
# The HTTP API: state, requests, and failures

What a handler of `api/` is given and what it answers.  A handler is a program of atomic steps over
the `World`, the tables of the open store together with the tokens that have been issued; it ends
in a response or in a `Failure`.

Two kinds of failure become responses differently.  An `ApiError` carries the error envelope.  A
rejected `Path` or `Query` extractor never reaches the handler's own error type: axum answers it
itself, in plain text.

### design decisions

* **A request is what arrives, not what was meant.**  The path is the list of its segments as they
  were sent, empty ones included, the header is bytes, and the body is what the `Json` extractor
  makes of it for each type a handler may ask for.  Whether any of it is readable is found out in
  the handler, in the order in which the source's extractors run.
* **The tokens are part of the world.**  A token is valid because it was signed, and not because
  somebody remembers it.  The ledger of issued tokens is there to say so without computing a MAC:
  what it means for a signature is a hypothesis on the `Crypto` parameter, and no handler answers
  from the ledger alone.
* **The clock and the salt come with the step.**  A `Moment` is what one atomic step meets: the
  time of day, the random bytes, whether the database works.  Two steps of one request meet two
  moments.

### What is load-bearing

That `store` is one step of a handler per statement of SQLite, and `tryAtomically` exactly one.
Every result over interleaved requests is about these steps, so a handler that was modelled as one
big step would prove less than it says.
-/

namespace ScionChat

open Interleaving

/-! ### What a handler is given -/

/-- The part of `Config` the API reads, and the package version it reports.  Its caps are the
store's, and its lifetime is given in days. -/
structure Config where
  maxAccounts : UInt32
  maxRooms : UInt32
  maxMessageBytes : UInt32
  tokenExpiryDays : UInt32
  version : String

namespace Config

/-- The caps the store enforces. -/
def caps (config : Config) : Caps :=
  ⟨config.maxAccounts, config.maxRooms⟩

/-- How long an issued token stays valid, in seconds.  The source computes it in a `u64`, in which
no number of days overflows. -/
def tokenValidity (config : Config) : ℕ :=
  config.tokenExpiryDays.toNat * 24 * 60 * 60

end Config

/-- What every handler is given, apart from the store.  It is shared by all requests and changed by
none. -/
structure AppState where
  crypto : Crypto
  tokens : Tokens
  config : Config

/-- The tables of the open store, and the tokens that have been issued. -/
structure World where
  db : Db
  issued : List Issued
  deriving DecidableEq

/-- The same tokens over other tables. -/
def World.withDb (db : Db) (w : World) : World :=
  { w with db := db }

@[simp] theorem World.db_withDb (db : Db) (w : World) : (w.withDb db).db = db := rfl

@[simp] theorem World.issued_withDb (db : Db) (w : World) : (w.withDb db).issued = w.issued := rfl

@[simp] theorem World.withDb_self (w : World) : w.withDb w.db = w := rfl

/-- The method of a request.  `HEAD` is one of them because axum serves it by the handler for
`GET`; any other is known by its name. -/
inductive Method
  | get
  | head
  | post
  | other (name : String)
  deriving DecidableEq, Repr

/-- What the `Json` extractor makes of a request's body, for each type a handler may ask for:
the value, or the text of the rejection. -/
structure JsonBody where
  register : Except String RegisterRequest
  login : Except String LoginRequest
  createRoom : Except String CreateRoomRequest
  postMessage : Except String PostMessageRequest

/-- A request under `/api/v1`: the segments of its path as they were sent, the pairs of its
query string as they decode, the bytes of its `Authorization` header, and its body. -/
structure Request where
  method : Method
  path : List String
  query : List (String × String)
  authorization : Option (List UInt8)
  body : JsonBody

/-! ### What it answers -/

/-- The body of a response. -/
inductive Body
  | empty
  /-- Text that is not JSON. -/
  | plain
  | failure (envelope : ErrorResponse)
  | health
  | server (info : ServerInfo)
  | login (reply : LoginResponse)
  | room (room : Room)
  | rooms (reply : RoomsResponse)
  | messages (reply : MessagesResponse)
  | posted (reply : PostMessageResponse)
  deriving DecidableEq

/-- The body, decoded as an `ErrorResponse`. -/
def Body.decodeError : Body → Option ErrorResponse
  | failure envelope => some envelope
  | _ => none

/-- What `serde_json` has against a body that is no `ErrorResponse`.  What axum says in plain text
starts with a letter that no JSON value starts with.  A success is never read as an envelope, and
so its complaint goes without the place. -/
def Body.complaint : Body → String
  | empty => "EOF while parsing a value at line 1 column 0"
  | plain => "expected value at line 1 column 1"
  | _ => "missing field `error`"

/-- The body, as `refusal` is given it. -/
def Body.envelope (body : Body) : Except String ErrorResponse :=
  match body.decodeError with
  | some envelope => .ok envelope
  | none => .error body.complaint

/-- A response. -/
structure Response where
  status : ℕ
  location : Option String := none
  body : Body
  deriving DecidableEq

/-- The status is one of the 2xx. -/
def Response.isSuccess (response : Response) : Prop :=
  200 ≤ response.status ∧ response.status < 300

instance (response : Response) : Decidable response.isSuccess :=
  inferInstanceAs (Decidable (_ ∧ _))

/-! ### Failures -/

/-- A failure on its way to becoming a response. -/
structure ApiError where
  status : ℕ
  code : ErrorCode
  message : String
  deriving DecidableEq, Repr

namespace ApiError

/-- The request carried no usable bearer token.  Nothing is said about what was wrong with it. -/
def unauthorized : ApiError :=
  ⟨401, .unauthorized, "a valid bearer token is required"⟩

/-- The token was this server's, but it has run out.  It is told from the failure above by its
code, and by nothing else: both are a 401. -/
def expiredToken : ApiError :=
  ⟨401, .expiredToken, "the token has expired; log in again"⟩

/-- The server failed for a reason the caller is not told.  What it was goes to the log of the
server. -/
def internal : ApiError :=
  ⟨500, .internal, "the server failed to handle this request"⟩

/-- No room has the requested id. -/
def roomNotFound : ApiError :=
  ⟨404, .roomNotFound, "no room with that id"⟩

/-- `From<StoreError>`.  A room that is not there and a cap that is reached are the caller's to
know; any other failure is the server's own. -/
def ofStore : StoreError → ApiError
  | .notFound _ => roomNotFound
  | .capExceeded what => ⟨429, .capExceeded, s!"this server accepts no more {what}s"⟩
  | _ => internal

/-- `From<AuthError>`.  It is never the caller's doing: a password that does not fit is no failure
of this kind. -/
def ofAuth (_ : AuthError) : ApiError :=
  internal

/-- `From<JsonRejection>`.  The text of the rejection goes into the message of the envelope. -/
def ofJson (bodyText : String) : ApiError :=
  ⟨400, .invalidBody, bodyText⟩

/-- `IntoResponse`: the status, and the envelope. -/
def intoResponse (error : ApiError) : Response :=
  { status := error.status, body := .failure ⟨error.code, error.message⟩ }

end ApiError

/-- How a request fails: with an error of the API, or in an extractor of axum's own. -/
inductive Failure
  | api (error : ApiError)
  | rejected
  deriving DecidableEq, Repr

/-- A rejected `Path` or `Query` is answered 400, in plain text.  The envelope is for those
failures that a handler has made itself. -/
def Failure.intoResponse : Failure → Response
  | api error => error.intoResponse
  | rejected => { status := 400, body := .plain }

/-! ### Handlers -/

/-- A handler, or a part of one. -/
abbrev Handler (α : Type) := Fallible Moment Failure World α

/-- An operation of the store, its errors turned into the API's.  Each of its statements is a step
of the handler, and other requests run in between. -/
def store {α : Type} (query : Query α) : Handler α :=
  inside World.db World.withDb (fun e => .api (.ofStore e)) query

/-- A failure of the API. -/
def refuse {α : Type} (error : ApiError) : Handler α :=
  throw (.api error)

/-- A JSON body, or its rejection.  The rejection is an error of the API, unlike those of `Path`
and `Query`. -/
def json {α : Type} (body : Except String α) : Handler α :=
  (body.mapError fun text => Failure.api (.ofJson text) : Except Failure α)

/-- A handler's outcome as a response. -/
def answerOf : Except Failure Response → Response
  | .ok response => response
  | .error failure => failure.intoResponse

/-- A handler, up to its response. -/
def Handler.respond (handler : Handler Response) : Prog Moment World Response :=
  answerOf <$> handler.run

end ScionChat
