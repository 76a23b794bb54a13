import ScionChat.Core.Json
import ScionChat.Core.Serde
import ScionChat.Lib.JsonReader

/-!
# A reader and a writer of the wire types

`Serde.json` is JSON for the types of `api/v1`, as `serde` derives it.  A record is written as an
object with its fields in the order they are declared in; it is read from an object with those
fields in any order, whatever other fields there are, or from an array of exactly its fields.  Ids,
positions and times are numbers of 64 bits.  An error code is read by its name, and a code of
another name is kept as it is (`ErrorCode.ofJson_wire`, `ErrorCode.wire_of_ofJson`).

The laws of a `JsonCodec` are `writes_register` and its siblings.  Nothing that is proved of the
server or of a client depends on this reader: they are proved of every `Serde`, and this one shows
that there are any, and is there to run samples with.  It is not `serde_json`.  The two differ where
no law speaks, on texts that nobody has written: a surrogate that stands alone is no string for this
reader, wherever it stands, and `serde_json` passes over it in the strings that it skips; this one
reads values however deep they are nested, and `serde_json` only 128 levels; and there is no text in
what this one has against a body.
-/

namespace ScionChat

open Json Json.Value

/-- A number of 64 bits, and one of 32. -/
def asU64 : Value → Option ℕ := asNat u64Max
def asU32 : Value → Option ℕ := asNat u32Max

/-- A newtype over `u64` is written and read as what it wraps. -/
def Seq.ofJson (v : Value) : Option Seq := Seq.mk <$> asU64 v
def RoomId.ofJson (v : Value) : Option RoomId := RoomId.mk <$> asU64 v
def UnixMillis.ofJson (v : Value) : Option UnixMillis := UnixMillis.mk <$> asU64 v

theorem writes_u64 {α : Type} (wrap : ℕ → α) {n : ℕ} (fits : n ≤ u64Max) :
    Writes (fun v => wrap <$> asU64 v) (number n) (wrap n) :=
  ⟨.number (number n), reads_number n, congrArg (fun read => wrap <$> read) (asNat_number fits)⟩

theorem writes_seq {seq : Seq} (fits : seq.get ≤ u64Max) :
    Writes Seq.ofJson (number seq.get) seq :=
  writes_u64 Seq.mk fits

theorem writes_roomId {id : RoomId} (fits : id.get ≤ u64Max) :
    Writes RoomId.ofJson (number id.get) id :=
  writes_u64 RoomId.mk fits

theorem writes_millis {time : UnixMillis} (fits : time.get ≤ u64Max) :
    Writes UnixMillis.ofJson (number time.get) time :=
  writes_u64 UnixMillis.mk fits

/-- A limit of the server's. -/
def limitOfJson (v : Value) : Option UInt32 := UInt32.ofNat <$> asU32 v

theorem writes_limit (n : UInt32) : Writes limitOfJson (number n.toNat) n := by
  have fits : n.toNat ≤ u32Max := by
    have := n.toNat_lt
    simp only [u32Max]
    omega
  refine ⟨.number (number n.toNat), reads_number _, ?_⟩
  rw [limitOfJson, asU32, asNat_number fits]
  exact congrArg some UInt32.ofNat_toNat

/-! ### Accounts -/

/-- A `RegisterRequest`. -/
def RegisterRequest.json (request : RegisterRequest) : List Char :=
  object [("username", string request.username), ("password", string request.password)]

def RegisterRequest.ofJson (v : Value) : Option RegisterRequest :=
  match v.struct ["username", "password"] with
  | some [username, password] => do
      return { username := ← needed asString username
               password := ← needed asString password }
  | _ => none

/-- A `LoginRequest`. -/
def LoginRequest.json (request : LoginRequest) : List Char :=
  object [("username", string request.username), ("password", string request.password)]

def LoginRequest.ofJson (v : Value) : Option LoginRequest :=
  match v.struct ["username", "password"] with
  | some [username, password] => do
      return { username := ← needed asString username
               password := ← needed asString password }
  | _ => none

/-- A `LoginResponse`. -/
def LoginResponse.json (reply : LoginResponse) : List Char :=
  object [("token", string reply.token), ("expires_at", number reply.expiresAt.get)]

def LoginResponse.ofJson (v : Value) : Option LoginResponse :=
  match v.struct ["token", "expires_at"] with
  | some [token, expiresAt] => do
      return { token := ← needed asString token
               expiresAt := ← needed UnixMillis.ofJson expiresAt }
  | _ => none

/-! ### Rooms -/

/-- A `Room`. -/
def Room.json (room : Room) : List Char :=
  object [("id", number room.id.get), ("name", string room.name),
    ("latest_seq", number room.latestSeq.get)]

def Room.ofJson (v : Value) : Option Room :=
  match v.struct ["id", "name", "latest_seq"] with
  | some [id, name, latestSeq] => do
      return { id := ← needed RoomId.ofJson id
               name := ← needed asString name
               latestSeq := ← needed Seq.ofJson latestSeq }
  | _ => none

/-- A `RoomsResponse`. -/
def RoomsResponse.json (reply : RoomsResponse) : List Char :=
  object [("rooms", array (reply.rooms.map Room.json))]

def RoomsResponse.ofJson (v : Value) : Option RoomsResponse :=
  match v.struct ["rooms"] with
  | some [rooms] => do return { rooms := ← needed (asList Room.ofJson) rooms }
  | _ => none

/-- A `CreateRoomRequest`. -/
def CreateRoomRequest.json (request : CreateRoomRequest) : List Char :=
  object [("name", string request.name)]

def CreateRoomRequest.ofJson (v : Value) : Option CreateRoomRequest :=
  match v.struct ["name"] with
  | some [name] => do return { name := ← needed asString name }
  | _ => none

/-! ### Messages -/

def Message.ofJson (v : Value) : Option Message :=
  match v.struct ["seq", "username", "body", "posted_at"] with
  | some [seq, username, body, postedAt] => do
      return { seq := ← needed Seq.ofJson seq
               username := ← needed asString username
               body := ← needed asString body
               postedAt := ← needed UnixMillis.ofJson postedAt }
  | _ => none

def MessagesResponse.ofJson (v : Value) : Option MessagesResponse :=
  match v.struct ["messages"] with
  | some [messages] => do return { messages := ← needed (asList Message.ofJson) messages }
  | _ => none

def PostMessageRequest.ofJson (v : Value) : Option PostMessageRequest :=
  match v.struct ["body"] with
  | some [body] => do return { body := ← needed asString body }
  | _ => none

/-- A `PostMessageResponse`. -/
def PostMessageResponse.json (reply : PostMessageResponse) : List Char :=
  object [("seq", number reply.seq.get), ("posted_at", number reply.postedAt.get)]

def PostMessageResponse.ofJson (v : Value) : Option PostMessageResponse :=
  match v.struct ["seq", "posted_at"] with
  | some [seq, postedAt] => do
      return { seq := ← needed Seq.ofJson seq
               postedAt := ← needed UnixMillis.ofJson postedAt }
  | _ => none

/-! ### The server -/

/-- A text that may be missing. -/
def optionJson : Option String → List Char
  | none => nullText
  | some text => string text

/-- A `ServerInfo`. -/
def ServerInfo.json (info : ServerInfo) : List Char :=
  object [("version", string info.version), ("isd_as", optionJson info.isdAs),
    ("max_accounts", number info.maxAccounts.toNat), ("max_rooms", number info.maxRooms.toNat),
    ("max_message_bytes", number info.maxMessageBytes.toNat),
    ("token_validity_seconds", number info.tokenValiditySeconds)]

def ServerInfo.ofJson (v : Value) : Option ServerInfo :=
  match v.struct ["version", "isd_as", "max_accounts", "max_rooms", "max_message_bytes",
      "token_validity_seconds"] with
  | some [version, isdAs, maxAccounts, maxRooms, maxMessageBytes, tokenValiditySeconds] => do
      return { version := ← needed asString version
               isdAs := ← optional asString isdAs
               maxAccounts := ← needed limitOfJson maxAccounts
               maxRooms := ← needed limitOfJson maxRooms
               maxMessageBytes := ← needed limitOfJson maxMessageBytes
               tokenValiditySeconds := ← needed asU32 tokenValiditySeconds }
  | _ => none

/-! ### Errors -/

namespace ErrorCode

/-- A code is read by its name, as the tag of an enum; any other text is kept. -/
def ofJson : Value → Option ErrorCode
  | .string name => some ((ofName name).getD (.other name))
  | .object [(name, .null)] => ofName name
  | _ => none

end ErrorCode

/-- An `ErrorResponse`: the envelope, and the `ApiError` in it. -/
def ErrorResponse.json (envelope : ErrorResponse) : List Char :=
  object [("error", object [("code", string envelope.code.wire),
    ("message", string envelope.message)])]

/-- The contents of an envelope. -/
def ErrorResponse.ofContents (v : Value) : Option ErrorResponse :=
  match v.struct ["code", "message"] with
  | some [code, message] => do
      return { code := ← needed ErrorCode.ofJson code
               message := ← needed asString message }
  | _ => none

def ErrorResponse.ofJson (v : Value) : Option ErrorResponse :=
  match v.struct ["error"] with
  | some [contents] => needed ErrorResponse.ofContents contents
  | _ => none

/-! ### Written and read again -/

section RoundTrips

theorem writes_register (request : RegisterRequest) :
    WritesAlways RegisterRequest.ofJson request.json request := by
  refine record_writes ["username", "password"]
    [string request.username, string request.password]
    [.string request.username, .string request.password] (by decide)
    (.cons (reads_string _).reads (.cons (reads_string _).reads .nil)) rfl fun v picked => ?_
  rw [RegisterRequest.ofJson, picked]
  rfl

theorem writes_login (request : LoginRequest) :
    WritesAlways LoginRequest.ofJson request.json request := by
  refine record_writes ["username", "password"]
    [string request.username, string request.password]
    [.string request.username, .string request.password] (by decide)
    (.cons (reads_string _).reads (.cons (reads_string _).reads .nil)) rfl fun v picked => ?_
  rw [LoginRequest.ofJson, picked]
  rfl

theorem writes_createRoom (request : CreateRoomRequest) :
    WritesAlways CreateRoomRequest.ofJson request.json request := by
  refine record_writes ["name"] [string request.name]
    [.string request.name] (by decide)
    (.cons (reads_string _).reads .nil) rfl fun v picked => ?_
  rw [CreateRoomRequest.ofJson, picked]
  rfl

theorem writes_postMessage (request : PostMessageRequest) :
    WritesAlways PostMessageRequest.ofJson request.json request := by
  refine record_writes ["body"] [string request.body]
    [.string request.body] (by decide)
    (.cons (reads_string _).reads .nil) rfl fun v picked => ?_
  rw [PostMessageRequest.ofJson, picked]
  rfl

theorem writes_loginResponse {reply : LoginResponse} (fits : reply.Fits) :
    WritesAlways LoginResponse.ofJson reply.json reply := by
  obtain ⟨v, reads, takes⟩ := writes_millis fits
  refine record_writes ["token", "expires_at"]
    [string reply.token, number reply.expiresAt.get]
    [.string reply.token, v] (by decide)
    (.cons (reads_string _).reads (.cons reads .nil)) rfl fun w picked => ?_
  rw [LoginResponse.ofJson, picked]
  simp only [List.map_cons, List.map_nil, needed, Option.bind_some, asString, takes]
  rfl

theorem writes_posted {reply : PostMessageResponse} (fits : reply.Fits) :
    WritesAlways PostMessageResponse.ofJson reply.json reply := by
  obtain ⟨v, reads, takes⟩ := writes_seq fits.1
  obtain ⟨w, reads', takes'⟩ := writes_millis fits.2
  refine record_writes ["seq", "posted_at"]
    [number reply.seq.get, number reply.postedAt.get]
    [v, w] (by decide)
    (.cons reads (.cons reads' .nil)) rfl fun x picked => ?_
  rw [PostMessageResponse.ofJson, picked]
  simp only [List.map_cons, List.map_nil, needed, Option.bind_some, takes, takes']
  rfl

theorem writes_room {room : Room} (fits : room.Fits) :
    WritesAlways Room.ofJson room.json room := by
  obtain ⟨v, reads, takes⟩ := writes_roomId fits.1
  obtain ⟨w, reads', takes'⟩ := writes_seq fits.2
  refine record_writes ["id", "name", "latest_seq"]
    [number room.id.get, string room.name, number room.latestSeq.get]
    [v, .string room.name, w] (by decide)
    (.cons reads (.cons (reads_string _).reads (.cons reads' .nil))) rfl fun x picked => ?_
  rw [Room.ofJson, picked]
  simp only [List.map_cons, List.map_nil, needed, Option.bind_some, asString, takes, takes']
  rfl

theorem writes_rooms {reply : RoomsResponse} (fits : reply.Fits) :
    WritesAlways RoomsResponse.ofJson reply.json reply := by
  obtain ⟨v, reads, takes⟩ := writes_list fun room mem => (writes_room (fits room mem)).writes
  refine record_writes ["rooms"] [array (reply.rooms.map Room.json)]
    [v] (by decide) (.cons reads.reads .nil) rfl fun x picked => ?_
  rw [RoomsResponse.ofJson, picked]
  simp only [List.map_cons, List.map_nil, needed, Option.bind_some, takes]
  rfl

theorem writes_message {message : Message} (fits : message.Fits) :
    WritesAlways Message.ofJson message.json message := by
  obtain ⟨v, reads, takes⟩ := writes_seq fits.1
  obtain ⟨w, reads', takes'⟩ := writes_millis fits.2
  refine record_writes ["seq", "username", "body", "posted_at"]
    [number message.seq.get, string message.username, string message.body,
      number message.postedAt.get]
    [v, .string message.username, .string message.body, w] (by decide)
    (.cons reads (.cons (reads_string _).reads (.cons (reads_string _).reads
      (.cons reads' .nil)))) rfl fun x picked => ?_
  rw [Message.ofJson, picked]
  simp only [List.map_cons, List.map_nil, needed, Option.bind_some, asString, takes, takes']
  rfl

theorem writes_messages {reply : MessagesResponse} (fits : reply.Fits) :
    WritesAlways MessagesResponse.ofJson reply.json reply := by
  obtain ⟨v, reads, takes⟩ := writes_list fun m mem => (writes_message (fits m mem)).writes
  refine record_writes ["messages"] [array (reply.messages.map Message.json)]
    [v] (by decide)
    (.cons reads.reads .nil) rfl fun x picked => ?_
  rw [MessagesResponse.ofJson, picked]
  simp only [List.map_cons, List.map_nil, needed, Option.bind_some, takes]
  rfl

theorem writes_option (text : Option String) :
    Writes (asOption asString) (optionJson text) text := by
  cases text with
  | none => exact writes_none
  | some text => exact writes_some (writes_string text).writes rfl

theorem writes_server {info : ServerInfo} (fits : info.Fits) :
    WritesAlways ServerInfo.ofJson info.json info := by
  obtain ⟨isdAs, reads_isdAs, takes_isdAs⟩ := writes_option info.isdAs
  obtain ⟨accounts, reads_accounts, takes_accounts⟩ := writes_limit info.maxAccounts
  obtain ⟨rooms, reads_rooms, takes_rooms⟩ := writes_limit info.maxRooms
  obtain ⟨body, reads_body, takes_body⟩ := writes_limit info.maxMessageBytes
  obtain ⟨validity, reads_validity, takes_validity⟩ := writes_number fits
  refine record_writes ["version", "isd_as", "max_accounts", "max_rooms", "max_message_bytes",
      "token_validity_seconds"]
    [string info.version, optionJson info.isdAs, number info.maxAccounts.toNat,
      number info.maxRooms.toNat, number info.maxMessageBytes.toNat,
      number info.tokenValiditySeconds]
    [.string info.version, isdAs, accounts, rooms, body, validity] (by decide)
    (.cons (reads_string _).reads (.cons reads_isdAs (.cons reads_accounts (.cons reads_rooms
      (.cons reads_body (.cons reads_validity .nil)))))) rfl fun x picked => ?_
  rw [ServerInfo.ofJson, picked]
  simp only [List.map_cons, List.map_nil, needed, Value.optional, Option.bind_some, asString, asU32,
    takes_isdAs, takes_accounts, takes_rooms, takes_body, takes_validity]
  rfl

/-- **A code that this build knows is read by its name.** Any other text is kept as it is, and is
sent as it is. -/
theorem ErrorCode.ofJson_wire {code : ErrorCode} (sound : code.Sound) :
    ErrorCode.ofJson (.string code.wire) = some code := by
  cases code with
  | other name =>
      show some ((ofName name).getD (.other name)) = _
      rw [sound name rfl]
      rfl
  | _ => rfl

/-- **What is read is written as it was**, and a code kept as it is has no name of this build's:
reading is all that makes one. -/
theorem ErrorCode.wire_of_ofJson {name : String} {code : ErrorCode}
    (h : ErrorCode.ofJson (.string name) = some code) : code.wire = name ∧ code.Sound := by
  obtain rfl := Option.some.inj h
  cases found : ofName name with
  | none =>
      refine ⟨rfl, fun other same => ?_⟩
      obtain rfl := ErrorCode.other.inj same
      exact found
  | some known =>
      have picked : all.find? (fun code => code.wire = name) = some known := found
      have named : known.wire = name := by simpa using List.find?_some picked
      refine ⟨named, fun other same => ?_⟩
      have listed := List.mem_of_find?_eq_some picked
      obtain rfl : known = .other other := same
      simp [all] at listed

theorem writes_error {envelope : ErrorResponse} (fits : envelope.Fits) :
    WritesAlways ErrorResponse.ofJson envelope.json envelope := by
  have contents : WritesAlways ErrorResponse.ofContents
      (object [("code", string envelope.code.wire), ("message", string envelope.message)])
        envelope := by
    refine record_writes ["code", "message"]
      [string envelope.code.wire, string envelope.message]
      [.string envelope.code.wire, .string envelope.message] (by decide)
      (.cons (reads_string _).reads (.cons (reads_string _).reads .nil)) rfl fun v picked => ?_
    rw [ErrorResponse.ofContents, picked]
    simp only [List.map_cons, List.map_nil, needed, Option.bind_some, ErrorCode.ofJson_wire fits,
      asString]
    rfl
  obtain ⟨v, reads, takes⟩ := contents
  refine record_writes ["error"]
    [object [("code", string envelope.code.wire), ("message", string envelope.message)]]
    [v] (by decide) (.cons reads.reads .nil) rfl fun w picked => ?_
  rw [ErrorResponse.ofJson, picked]
  exact takes

/-- What the server says about its health is JSON. -/
theorem writes_health :
    WritesAlways (fun _ => some ()) (object [("status", string "ok")]) () := by
  have status : ReadsField ("status", string "ok") ("status", .string "ok") :=
    ⟨rfl, (reads_string "ok").reads⟩
  exact ⟨_, reads_object (.cons status .nil), rfl⟩

end RoundTrips

/-! ### The codecs -/

/-- The codec of a type, from how its values are written and what a JSON value is read as. -/
def codec {α : Type} {Fits : α → Prop} (toVec : α → List Char) (ofJson : Value → Option α)
    (writes : ∀ value, Fits value → WritesAlways ofJson (toVec value) value)
    (some_ : ∀ value, toVec value ≠ []) : JsonCodec Fits where
  toVec := toVec
  fromSlice := fun text =>
    match parse text >>= ofJson with
    | some value => .ok value
    | none => .error ""
  fromSlice_toVec := fun value fits => by rw [(writes value fits).parse]
  toVec_ne_nil := some_

theorem object_ne_nil (fields : List (String × List Char)) : object fields ≠ [] :=
  List.cons_ne_nil _ _

/-- **JSON, for each type that is sent.** It shows that what is asked of a codec can be met, and
runs on concrete bodies are made with it. -/
def Serde.json : Serde where
  register := codec RegisterRequest.json RegisterRequest.ofJson
    (fun body _ => writes_register body) fun _ => object_ne_nil _
  login := codec LoginRequest.json LoginRequest.ofJson
    (fun body _ => writes_login body) fun _ => object_ne_nil _
  createRoom := codec CreateRoomRequest.json CreateRoomRequest.ofJson
    (fun body _ => writes_createRoom body) fun _ => object_ne_nil _
  postMessage := codec PostMessageRequest.json PostMessageRequest.ofJson
    (fun body _ => writes_postMessage body) fun _ => object_ne_nil _
  loggedIn := codec LoginResponse.json LoginResponse.ofJson
    (fun _ fits => writes_loginResponse fits) fun _ => object_ne_nil _
  server := codec ServerInfo.json ServerInfo.ofJson
    (fun _ fits => writes_server fits) fun _ => object_ne_nil _
  rooms := codec RoomsResponse.json RoomsResponse.ofJson
    (fun _ fits => writes_rooms fits) fun _ => object_ne_nil _
  room := codec Room.json Room.ofJson
    (fun _ fits => writes_room fits) fun _ => object_ne_nil _
  posted := codec PostMessageResponse.json PostMessageResponse.ofJson
    (fun _ fits => writes_posted fits) fun _ => object_ne_nil _
  messages := codec MessagesResponse.json MessagesResponse.ofJson
    (fun _ fits => writes_messages fits) fun _ => object_ne_nil _
  error := codec ErrorResponse.json ErrorResponse.ofJson
    (fun _ fits => writes_error fits) fun _ => object_ne_nil _
  health := codec (fun _ => object [("status", string "ok")]) (fun _ => some ())
    (fun _ _ => writes_health) fun _ => object_ne_nil _
  ignores_empty := rfl

end ScionChat
