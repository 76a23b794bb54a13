import Mathlib.Algebra.Group.Nat.Defs
import Mathlib.Order.Defs.LinearOrder
import Mathlib.Order.Lattice
import Mathlib.Data.Nat.Basic

/-!
# The wire types of API v1

The bodies that `chat-core` declares, shared by the server and every client.  The
newtypes over `u64` are structures over `ℕ`: nothing on either side does arithmetic on
an id, a position or a time, and where a width matters (a column, a parsed query) the
code that converts checks it, and so does its model.

### design decisions

* **One declaration for both ends.**  The source has these types in a crate of their own, and the
  server, the Rust client and both apps read and write them.  So has the model: a body that the
  server answers with and the one that a client decodes are of one type, and a round trip between
  them is a statement about a codec alone.
* **Unknown codes are kept.**  `ErrorCode.other` holds the text of a code that this build does not
  know, as the source does, so that an error from a newer server can still be told.
* **Structures, not numbers.**  `RoomId`, `Seq` and `UnixMillis` do not convert into each other.
  The order on `Seq` is the only operation that anything needs of them.
-/

namespace ScionChat

/-- `u64::MAX`. -/
def u64Max : ℕ := 2 ^ 64 - 1

/-- `u32::MAX`. -/
def u32Max : ℕ := 2 ^ 32 - 1

/-- Identifier of a room. -/
structure RoomId where
  get : ℕ
  deriving DecidableEq, Repr

/-- Position of a message in the server's message sequence.  Every room of a server shares the one
sequence, so the positions of a room have gaps. -/
structure Seq where
  get : ℕ
  deriving Repr

/-- Milliseconds since the Unix epoch. -/
structure UnixMillis where
  get : ℕ
  deriving DecidableEq, Repr

namespace Seq

/-- The position before every message, which no message ever occupies.  A reader that has nothing
yet asks for what is newer than this. -/
def START : Seq := ⟨0⟩

theorem get_injective : Function.Injective get := by
  rintro ⟨a⟩ ⟨b⟩ same
  exact congrArg Seq.mk same

instance : LinearOrder Seq := LinearOrder.lift' get get_injective

theorem lt_iff {a b : Seq} : a < b ↔ a.get < b.get := Iff.rfl

theorem le_iff {a b : Seq} : a ≤ b ↔ a.get ≤ b.get := Iff.rfl

@[simp] theorem mk_lt_mk {a b : ℕ} : (⟨a⟩ : Seq) < ⟨b⟩ ↔ a < b := Iff.rfl

@[simp] theorem mk_le_mk {a b : ℕ} : (⟨a⟩ : Seq) ≤ ⟨b⟩ ↔ a ≤ b := Iff.rfl

theorem START_le (s : Seq) : START ≤ s := Nat.zero_le _

end Seq

/-! ### Messages -/

/-- One message in a room. -/
structure Message where
  seq : Seq
  username : String
  body : String
  postedAt : UnixMillis
  deriving DecidableEq, Repr

/-- The text of a message being posted. -/
structure PostMessageRequest where
  body : String
  deriving DecidableEq, Repr

/-- Where a posted message landed. -/
structure PostMessageResponse where
  seq : Seq
  postedAt : UnixMillis
  deriving DecidableEq, Repr

/-- A page of a room's messages, oldest first.  Nothing in it says whether there is more: a reader
judges that by how many there are. -/
structure MessagesResponse where
  messages : List Message
  deriving DecidableEq, Repr

/-! ### Rooms -/

/-- A room, with the `seq` of its newest message, or `0` while it has none. -/
structure Room where
  id : RoomId
  name : String
  latestSeq : Seq
  deriving DecidableEq, Repr

/-- Every room on the server. -/
structure RoomsResponse where
  rooms : List Room
  deriving DecidableEq, Repr

/-- The name a new room is created under. -/
structure CreateRoomRequest where
  name : String
  deriving DecidableEq, Repr

/-! ### Accounts -/

/-- The credentials a new account is created with. -/
structure RegisterRequest where
  username : String
  password : String
  deriving DecidableEq, Repr

/-- The credentials an existing account is authenticated with. -/
structure LoginRequest where
  username : String
  password : String
  deriving DecidableEq, Repr

/-- The bearer token a successful login yields, and when it stops being accepted.  The instant is
in milliseconds, while the token itself carries whole seconds. -/
structure LoginResponse where
  token : String
  expiresAt : UnixMillis
  deriving DecidableEq, Repr

/-! ### The server -/

/-- What the server says about itself.  It is answered to anybody, without a token. -/
structure ServerInfo where
  version : String
  isdAs : Option String
  maxAccounts : UInt32
  maxRooms : UInt32
  maxMessageBytes : UInt32
  tokenValiditySeconds : ℕ
  deriving DecidableEq

/-! ### Errors -/

/-- Every failure this API distinguishes.  `other` is a code this build does not know. -/
inductive ErrorCode
  | invalidBody
  | internal
  | unauthorized
  | expiredToken
  | invalidCredentials
  | usernameTaken
  | invalidUsername
  | invalidName
  | roomNotFound
  | messageTooLarge
  | capExceeded
  | other (code : String)
  deriving DecidableEq, Repr

namespace ErrorCode

/-- The name of a code on the wire.  The client reads a code by this name, and keeps a name it does
not know. -/
def wire : ErrorCode → String
  | invalidBody => "invalid_body"
  | internal => "internal"
  | unauthorized => "unauthorized"
  | expiredToken => "expired_token"
  | invalidCredentials => "invalid_credentials"
  | usernameTaken => "username_taken"
  | invalidUsername => "invalid_username"
  | invalidName => "invalid_name"
  | roomNotFound => "room_not_found"
  | messageTooLarge => "message_too_large"
  | capExceeded => "cap_exceeded"
  | other code => code

end ErrorCode

/-- The body of every failing response: the envelope around a code and a message. -/
structure ErrorResponse where
  code : ErrorCode
  message : String
  deriving DecidableEq, Repr

end ScionChat
