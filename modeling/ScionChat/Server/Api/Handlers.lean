import Mathlib.Data.List.DropRight
import ScionChat.Server.Api

/-!
# The handlers

Every handler of `api/server.rs`, `api/auth.rs`, `api/rooms.rs` and `api/messages.rs`, in the order
the source has them, with the checks each one makes and the order in which its extractors run:
`Authenticated` first, then the path, then the query or the body.

Each handler is a `do` block over `Handler`, with one line for a line of the source.  What Rust
writes with `?` is a bind here, `refuse` is its early return, and `store` is a call into the
database, which takes as many steps as it runs statements.  `handle` is the router over them: the
path to a `Route`, the route and the method to a handler, and what the handler ends in to a
response.

### design decisions

* **Texts are the source's.**  Status, code and message of every refusal are written out as the
  handler has them, also where no theorem reads them.  A client tells its user what it got, so a
  text is behaviour.
* **The standard library is modelled where it decides.**  `headerText`, `splitOnce`, `trim` and
  `parseUnsigned` are Rust's functions by their documentation, over bytes and characters, because
  which header is a token and which segment is a number hangs on them.
* **Hashing and signing are not.**  Those come from `AppState`, where the cryptography is a
  parameter.
-/

namespace ScionChat

open Interleaving

/-! ### What the server says about itself -/

/-- `server::healthz`.  It looks at nothing, so it is answered while the database fails. -/
def healthz : Handler Response :=
  return { status := 200, body := .health }

/-- `server::server_info`.  The lifetime of a token is reported in 32 bits, and cut to the largest
number of them. -/
def serverInfo (state : AppState) : Handler Response :=
  return { status := 200
           body := .server
            { version := state.config.version
              isdAs := none
              maxAccounts := state.config.maxAccounts
              maxRooms := state.config.maxRooms
              maxMessageBytes := state.config.maxMessageBytes
              tokenValiditySeconds := min state.config.tokenValidity u32Max } }

/-! ### Accounts -/

/-- `char::is_control`: the Unicode category Cc. -/
def isControl (c : Char) : Bool :=
  c.toNat < 32 || (127 ≤ c.toNat && c.toNat < 160)

/-- `Username::parse`: 1–32 characters with nothing unprintable in them.  The length is in
characters, and so a name may have up to 128 bytes. -/
def parseUsername (raw : String) : Except ApiError String :=
  let length := raw.toList.length
  let printable := !raw.toList.any isControl
  if 1 ≤ length ∧ length ≤ 32 ∧ printable then .ok raw
  else .error ⟨422, .invalidUsername,
    "a username is 1 to 32 characters and holds no control characters"⟩

/-- `HeaderValue::to_str`: visible ASCII, spaces and tabs.  A header with another byte in it counts
as one that is missing. -/
def headerText (value : List UInt8) : Option (List Char) :=
  if value.all fun b => (32 ≤ b && b < 127) || b == 9 then
    some (value.map fun b => Char.ofNat b.toNat)
  else none

/-- `str::split_once(' ')`.  The scheme is what stands before the first blank, and the token is all
the rest of it. -/
def splitOnce (text : List Char) : Option (List Char × List Char) :=
  if ' ' ∈ text then some (text.takeWhile (· ≠ ' '), (text.dropWhile (· ≠ ' ')).tail) else none

/-- `eq_ignore_ascii_case("Bearer")`. -/
def isBearer (scheme : List Char) : Bool :=
  scheme.map Char.toLower = "bearer".toList

/-- `str::trim`, on text that holds no other white space than spaces and tabs. -/
def trim (text : List Char) : List Char :=
  (text.dropWhile Char.isWhitespace).rdropWhile Char.isWhitespace

/-- The token of an `Authorization` header.  Every way of not having one comes to the same. -/
def bearerToken (authorization : Option (List UInt8)) : Option String := do
  let text ← headerText (← authorization)
  let (scheme, token) ← splitOnce text
  if isBearer scheme then some (String.ofList (trim token)) else none

/-- What `Authenticated` makes of a header at a time, over the tokens there are. -/
def authenticate (state : AppState) (authorization : Option (List UInt8)) (now : ℕ)
    (issued : List Issued) : Except ApiError String :=
  match bearerToken authorization with
  | none => .error .unauthorized
  | some token =>
      match state.tokens.verify token now issued with
      | .ok username => .ok username
      | .error e => .error (if e.isExpiredToken then .expiredToken else .unauthorized)

/-- `Authenticated::from_request_parts`: the username the bearer token names.  It is one step: the
clock and the ledger are looked at together. -/
def authenticated (state : AppState) (authorization : Option (List UInt8)) : Handler String :=
  tryAtomically fun m w =>
    ((authenticate state authorization m.now w.issued).mapError .api, w)

/-- `auth::register`.  The name is checked before the password is hashed, which is slow, and before
the store is asked. -/
def register (state : AppState) (req : Request) : Handler Response := do
  let body ← json req.body.register
  let username ← ((parseUsername body.username).mapError .api : Except Failure String)
  let hash ← tryAtomically fun m w =>
    ((hashPassword state.crypto body.password m.salt).mapError fun e => .api (.ofAuth e), w)
  match ← store (insertUser username hash state.config.maxAccounts) with
  | .created => return { status := 201, body := .empty }
  | .usernameTaken => refuse ⟨409, .usernameTaken, "that username is already registered"⟩

/-- `auth::login`.  The name is not checked: one that no account can have is answered like a wrong
password. -/
def login (state : AppState) (req : Request) : Handler Response := do
  let body ← json req.body.login
  let stored ← store (passwordHash body.username)
  if !verifyPassword state.crypto body.password stored then
    refuse ⟨401, .invalidCredentials, "that username and password do not match"⟩
  let (token, expiresAt) ← tryAtomically fun m w =>
    let issuing := state.tokens.issue state.crypto body.username m.now w.issued
    (issuing.1.mapError fun e => .api (.ofAuth e), { w with issued := issuing.2 })
  return { status := 200, body := .login ⟨token, expiresAt⟩ }

/-! ### Rooms -/

/-- `RoomName::parse`: 1–64 printable ASCII characters.  Its length is in bytes, which for ASCII is
in characters. -/
def parseRoomName (raw : String) : Except ApiError String :=
  let printable := raw.toList.all fun c => (33 ≤ c.toNat && c.toNat ≤ 126) || c == ' '
  if 1 ≤ raw.utf8ByteSize ∧ raw.utf8ByteSize ≤ 64 ∧ printable then .ok raw
  else .error ⟨422, .invalidName, "a room name is 1 to 64 printable ASCII characters"⟩

/-- `rooms::list`. -/
def listRoomsHandler (state : AppState) (req : Request) : Handler Response := do
  let _ ← authenticated state req.authorization
  let rooms ← store listRooms
  return { status := 200, body := .rooms ⟨rooms⟩ }

/-- A 201 carries the location of what it created. -/
def created (room : Room) : Response :=
  { status := 201, location := some s!"/api/v1/rooms/{room.id.get}", body := .room room }

/-- `rooms::create`.  A name that is taken is a success, with another status and without a
location. -/
def createRoomHandler (state : AppState) (req : Request) : Handler Response := do
  let _ ← authenticated state req.authorization
  let body ← json req.body.createRoom
  let name ← ((parseRoomName body.name).mapError .api : Except Failure String)
  match ← store (createRoom name state.config.maxRooms) with
  | .created room => return created room
  | .existing room => return { status := 200, body := .room room }

/-! ### Messages -/

/-- `FromStr` for an unsigned type: an optional plus, and decimal digits up to `max`. -/
def parseUnsigned (max : ℕ) (text : List Char) : Option ℕ :=
  let digits := match text with
    | '+' :: rest => rest
    | _ => text
  if digits ≠ [] ∧ digits.all Char.isDigit then
    let value := digits.foldl (fun n c => 10 * n + (c.toNat - 48)) 0
    if value ≤ max then some value else none
  else none

/-- The value of a hexadecimal digit. -/
def hexDigit (c : Char) : Option ℕ :=
  if '0' ≤ c ∧ c ≤ '9' then some (c.toNat - 48)
  else if 'a' ≤ c ∧ c ≤ 'f' then some (c.toNat - 87)
  else if 'A' ≤ c ∧ c ≤ 'F' then some (c.toNat - 55)
  else none

/-- Percent-decoding, byte by byte: an escape that is not one stays as it is. -/
def percentDecode : List Char → List Char
  | '%' :: a :: b :: rest =>
      match hexDigit a, hexDigit b with
      | some high, some low => Char.ofNat (16 * high + low) :: percentDecode rest
      | _, _ => '%' :: percentDecode (a :: b :: rest)
  | c :: rest => c :: percentDecode rest
  | [] => []

/-- `Path<u64>`: the segment in place of a room id, decoded and parsed.  It is decoded first, so a
digit may be written as a percent sign and two others. -/
def pathId (segment : String) : Option ℕ :=
  parseUnsigned u64Max (percentDecode segment.toList)

/-- Which page of a room's messages to return. -/
structure Page where
  limit : Option ℕ
  afterSeq : Option ℕ
  beforeSeq : Option ℕ
  deriving DecidableEq, Repr

/-- The default page size, and the most a caller can ask for. -/
def DEFAULT_LIMIT : ℕ := 50
def MAX_LIMIT : ℕ := 200

namespace Page

/-- Clamps `limit` into 1..=200.  A caller that asks for more is not told that it has got less. -/
def clamped (page : Page) : ℕ :=
  max 1 (min (page.limit.getD DEFAULT_LIMIT) MAX_LIMIT)

/-- One field of a query string: absent, or given once and parsed. -/
def field (key : String) (max : ℕ) (query : List (String × String)) : Option (Option ℕ) :=
  match query.filter fun pair => pair.1 = key with
  | [] => some none
  | [pair] => (parseUnsigned max pair.2.toList).map some
  | _ => none

/-- `Query<Page>`: unknown fields are ignored, a field given twice or badly is an error. -/
def ofQuery (query : List (String × String)) : Option Page := do
  return { limit := ← field "limit" u32Max query
           afterSeq := ← field "after_seq" u64Max query
           beforeSeq := ← field "before_seq" u64Max query }

end Page

/-- An extractor of axum's own: what it yields, or its rejection.  It does not carry the envelope,
whatever it says. -/
def extract {α : Type} (extracted : Option α) : Handler α :=
  (match extracted with
    | some value => .ok value
    | none => .error .rejected : Except Failure α)

/-- `messages::list`, given what its extractors yield.  The room is looked up first, and that both
cursors are given is found out only then. -/
def list (room : ℕ) (page : Page) : Handler Response := do
  let room := RoomId.mk room
  if !(← store (roomExists room)) then
    refuse .roomNotFound
  let limit := page.clamped
  let messages ← match page.afterSeq, page.beforeSeq with
    | some _, some _ =>
        refuse ⟨400, .invalidBody, "after_seq and before_seq cannot be combined"⟩
    | some cursor, none => store (after room ⟨cursor⟩ limit)
    | none, some cursor => store (before room ⟨cursor⟩ limit)
    | none, none => store (newest room limit)
  return { status := 200, body := .messages ⟨messages⟩ }

/-- `messages::list`, with its extractors. -/
def listMessages (state : AppState) (req : Request) (id : String) : Handler Response := do
  let _ ← authenticated state req.authorization
  let room ← extract (pathId id)
  let page ← extract (Page.ofQuery req.query)
  list room page

/-- `messages::post`, given what its extractors yield.  The size of the text is checked before its
emptiness, and both before the store is asked. -/
def post (state : AppState) (username : String) (room : ℕ)
    (body : Except String PostMessageRequest) : Handler Response := do
  let body ← json body
  let room := RoomId.mk room
  if state.config.maxMessageBytes.toNat < body.body.utf8ByteSize then
    refuse ⟨413, .messageTooLarge,
      s!"a message body is at most {state.config.maxMessageBytes.toNat} bytes"⟩
  if body.body.isEmpty then
    refuse ⟨422, .invalidBody, "a message body cannot be empty"⟩
  let posted ← store (postMessage room username body.body)
  return { status := 201, body := .posted posted }

/-- `messages::post`, with its extractors. -/
def postMessages (state : AppState) (req : Request) (id : String) : Handler Response := do
  let username ← authenticated state req.authorization
  let room ← extract (pathId id)
  post state username room req.body.postMessage

/-! ### The router -/

/-- The routes there are. -/
inductive Route
  | healthz
  | server
  | register
  | login
  | rooms
  | messages (id : String)
  deriving DecidableEq, Repr

/-- The route of a path.  A parameter matches any one segment, an empty one as well: what it says is
for the extractor to judge. -/
def route : List String → Option Route
  | ["healthz"] => some .healthz
  | ["server"] => some .server
  | ["register"] => some .register
  | ["login"] => some .login
  | ["rooms"] => some .rooms
  | ["rooms", id, "messages"] => some (.messages id)
  | _ => none

namespace Route

variable (state : AppState) (req : Request)

/-- The handler a route has for `GET`. -/
def get : Route → Option (Handler Response)
  | healthz => some ScionChat.healthz
  | server => some (serverInfo state)
  | rooms => some (listRoomsHandler state req)
  | messages id => some (listMessages state req id)
  | _ => none

/-- The handler a route has for `POST`. -/
def post : Route → Option (Handler Response)
  | register => some (ScionChat.register state req)
  | login => some (ScionChat.login state req)
  | rooms => some (createRoomHandler state req)
  | messages id => some (postMessages state req id)
  | _ => none

end Route

/-- No route has the path.  It is axum's answer, and has no body. -/
def notFound : Response := { status := 404, body := .empty }

/-- The route does not have the method. -/
def methodNotAllowed : Response := { status := 405, body := .empty }

/-- A response to `HEAD`: that of `GET`, without its body. -/
def Response.stripped (response : Response) : Response :=
  { response with body := .empty }

/-- **The router**: one request, from its route to its response.  A route with a `GET`
handler serves `HEAD` with it. -/
def handle (state : AppState) (req : Request) : Prog Moment World Response :=
  match route req.path with
  | none => .ret notFound
  | some r =>
      match req.method with
      | .get => ((r.get state req).map Handler.respond).getD (.ret methodNotAllowed)
      | .head =>
          ((r.get state req).map fun handler => Response.stripped <$> handler.respond).getD
            (.ret methodNotAllowed)
      | .post => ((r.post state req).map Handler.respond).getD (.ret methodNotAllowed)
      | .other _ => .ret methodNotAllowed

end ScionChat
