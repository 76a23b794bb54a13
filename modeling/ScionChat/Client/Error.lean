import ScionChat.Core.V1

/-!
# Errors the client returns

`error.rs` of the client core, and how it reads a reply that is not a success.

There are two layers, as in the source.  A `TransportError` is why a request never came back:
it says nothing about the server.  A `ChatError` is what a method of the client returns, one
variant for each thing that a caller may want to do about it; after two of them nobody is logged
in any more, and whoever shows the error tells them apart by the variant.

`ChatError.display` is the text that the terminal client puts on the screen.  It is kept with the
error, because what becomes of a screen after a failure is a claim about that text.
-/

namespace ScionChat

/-- Why a request never came back.  Whether the request arrived is not known then. -/
inductive TransportError
  | resolution (detail : String)
  | connect (detail : String)
  | tls (detail : String)
  | streamReset (detail : String)
  | protocol (detail : String)
  | bodyTooLarge (limit : ℕ)
  | timeout
  deriving DecidableEq, Repr

/-- Anything a client method can fail with. -/
inductive ChatError
  /-- The configuration cannot be used. -/
  | config (detail : String)
  /-- The request did not complete. -/
  | transport (source : TransportError)
  /-- The server refused the request and said why. -/
  | api (status : ℕ) (code : ErrorCode) (message : String)
  /-- A reply arrived that could not be decoded. -/
  | protocol (detail : String)
  /-- The call needs a token and nobody has logged in. -/
  | notLoggedIn
  /-- The token was refused, and the client has forgotten it. -/
  | sessionExpired
  deriving DecidableEq, Repr

/-- The text of a transport error. -/
def TransportError.display : TransportError → String
  | resolution detail => s!"cannot resolve the server: {detail}"
  | connect detail => s!"cannot reach the server: {detail}"
  | tls detail => s!"the server's identity was refused: {detail}"
  | streamReset detail => s!"the connection dropped: {detail}"
  | protocol detail => s!"the exchange did not follow HTTP: {detail}"
  | bodyTooLarge limit => s!"the reply exceeds the {limit} byte limit"
  | timeout => "the server did not answer in time"

/-- A code as its `Debug` form.  It is what the message of an error shows of a code. -/
def ErrorCode.debug : ErrorCode → String
  | invalidBody => "InvalidBody"
  | internal => "Internal"
  | unauthorized => "Unauthorized"
  | expiredToken => "ExpiredToken"
  | invalidCredentials => "InvalidCredentials"
  | usernameTaken => "UsernameTaken"
  | invalidUsername => "InvalidUsername"
  | invalidName => "InvalidName"
  | roomNotFound => "RoomNotFound"
  | messageTooLarge => "MessageTooLarge"
  | capExceeded => "CapExceeded"
  | other code => s!"Other(UnknownCode({code.quote}))"

/-- The text of an error. -/
def ChatError.display : ChatError → String
  | config detail => s!"configuration: {detail}"
  | transport source => source.display
  | api status code message => s!"{code.debug} ({status}): {message}"
  | protocol detail => s!"the server sent a reply this client cannot read: {detail}"
  | notLoggedIn => "no one is logged in"
  | sessionExpired => "the session has ended; log in again"

/-- `refusal`: a refused reply as the error a caller sees, from what its body decodes to as an
`ErrorResponse`, or from why it does not. -/
def refusal (status : ℕ) (body : Except String ErrorResponse) : ChatError :=
  match body with
  | .ok envelope => .api status envelope.code envelope.message
  | .error why => .protocol s!"{status} carried no error envelope: {why}"

end ScionChat
