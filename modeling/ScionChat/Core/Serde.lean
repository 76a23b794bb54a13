import ScionChat.Core.V1

/-!
# What `serde_json` is relied on for

The bodies of API v1 are JSON.  They are written and read by `serde_json`, through what `serde`
derives for the types of `api/v1`, and neither of the two is part of this repository.  So nothing
here says which text a value is written as, or which texts are read: how a type is written and read
is a parameter, a `JsonCodec`, and `Serde` is one of them for each type that is sent.

### What is relied on

`fromSlice_toVec` is all that either side needs: a value that fits is read back as it was.  A value
fits if the source's own type can hold it.  Here ids, positions and times are in `ℕ`, and there they
are of 64 bits, so that `Fits` is about numbers, but for an error code: one that this build does not
know has to have a name that this build does not know either, or it would be read as another.

The two laws besides are about the one text that the client makes up itself, the `{}` that it reads
instead of an empty body: no value is written as an empty text, and `{}` is read by `IgnoredAny`,
which takes any JSON.

That every value which is sent fits is not assumed.  It is proved of every run of a server, in
`Server/Api/Bodies.lean`.  And the laws can be met: `Serde.json` of `Core/Wire.lean` is a reader and
a writer of JSON for which they are proved.
-/

namespace ScionChat

/-! ### Which values fit -/

namespace ErrorCode

/-- The codes this build knows. -/
def all : List ErrorCode :=
  [invalidBody, internal, unauthorized, expiredToken, invalidCredentials, usernameTaken,
    invalidUsername, invalidName, roomNotFound, messageTooLarge, capExceeded]

/-- The code of a name. -/
def ofName (name : String) : Option ErrorCode :=
  all.find? fun code => code.wire = name

/-- The code is one that this build knows, or was read. -/
def Sound (code : ErrorCode) : Prop :=
  ∀ name, code = .other name → ofName name = none

end ErrorCode

/-- The code in an envelope is sound. -/
def ErrorResponse.Fits (envelope : ErrorResponse) : Prop :=
  envelope.code.Sound

/-- The numbers of a room fit their types. -/
def Room.Fits (room : Room) : Prop :=
  room.id.get ≤ u64Max ∧ room.latestSeq.get ≤ u64Max

/-- And those of a message. -/
def Message.Fits (message : Message) : Prop :=
  message.seq.get ≤ u64Max ∧ message.postedAt.get ≤ u64Max

def LoginResponse.Fits (reply : LoginResponse) : Prop :=
  reply.expiresAt.get ≤ u64Max

def ServerInfo.Fits (info : ServerInfo) : Prop :=
  info.tokenValiditySeconds ≤ u32Max

def RoomsResponse.Fits (reply : RoomsResponse) : Prop :=
  ∀ room ∈ reply.rooms, room.Fits

def MessagesResponse.Fits (reply : MessagesResponse) : Prop :=
  ∀ message ∈ reply.messages, message.Fits

def PostMessageResponse.Fits (reply : PostMessageResponse) : Prop :=
  reply.seq.get ≤ u64Max ∧ reply.postedAt.get ≤ u64Max

/-! ### How they are written and read -/

/-- **How the values of a type are written and read**: as `to_vec` and `from_slice` do it, whose
texts are UTF-8.  A value that fits is read back as it was. -/
structure JsonCodec {α : Type} (Fits : α → Prop) where
  toVec : α → List Char
  /-- The value of a text, or what there is against it. -/
  fromSlice : List Char → Except String α
  fromSlice_toVec : ∀ value, Fits value → fromSlice (toVec value) = .ok value
  /-- No JSON is empty. -/
  toVec_ne_nil : ∀ value, toVec value ≠ []

/-- **`serde_json`, for each type that is sent.**  What a handler asks for is read by axum's `Json`,
and so what there is against such a text is said in axum's words. -/
structure Serde where
  register : JsonCodec fun _ : RegisterRequest => True
  login : JsonCodec fun _ : LoginRequest => True
  createRoom : JsonCodec fun _ : CreateRoomRequest => True
  postMessage : JsonCodec fun _ : PostMessageRequest => True
  loggedIn : JsonCodec LoginResponse.Fits
  server : JsonCodec ServerInfo.Fits
  rooms : JsonCodec RoomsResponse.Fits
  room : JsonCodec Room.Fits
  posted : JsonCodec PostMessageResponse.Fits
  messages : JsonCodec MessagesResponse.Fits
  error : JsonCodec ErrorResponse.Fits
  /-- What the server says of its health, which is read as an `IgnoredAny`. -/
  health : JsonCodec fun _ : Unit => True
  ignores_empty : health.fromSlice ['{', '}'] = .ok ()

end ScionChat
