import ScionChat.Client.Paging
import ScionChat.Core.Serde
import ScionChat.Lib.Json

/-!
# Between a client and the server

What becomes of a request of the Rust client on its way into a handler, and of a response on
its way back.  The client names a URI and writes a body; the server finds the path and the query
behind the authority of the URI, cuts the path into segments and the query into pairs, and has
axum's `Json` read the body.  The client reads the body of the response in turn, an empty one as
an empty object.

* `receive_build` — what a handler is given is what the call has asked for (`Ask`), whatever the
  ids, the cursors and the texts in it are;
* `RequestBody.readAs_text` and `Body.readAs_read` — the same about the bodies of either direction:
  the type that a handler, or a call, asks for is read as the value that was written.

### What is translated, and what is relied on

Which URI a call names is the client's own work (`messages_path`, `pagePath`, `build`), and so is
what it does to an empty body.  How the path and the query of a URI are taken apart is `http`'s and
axum's; it is written out here, because a theorem that took it as given would say nothing about the
paths that the client makes.  `Ask.Plain` is what makes it go through: no segment and no field has a
character in it that a URI gives a meaning to.  The JSON is `serde_json`'s, and a parameter
(`Serde`).
-/

namespace ScionChat

open Interleaving

/-! ### A request, as it arrives -/

/-- What is left of a URI behind its scheme.  Behind it come the host and the path. -/
def pastScheme : List Char → List Char
  | ':' :: '/' :: '/' :: rest => rest
  | _ :: rest => pastScheme rest
  | [] => []

/-- The path and the query of a URI: what follows the authority, up to a fragment. -/
def pathAndQuery (uri : String) : List Char :=
  let behind := (pastScheme uri.toList).dropWhile fun c => c ≠ '/' ∧ c ≠ '?' ∧ c ≠ '#'
  behind.takeWhile (· ≠ '#')

/-- The segments of a path under `/api/v1`, as they were sent.  There is no route for any other
path. -/
def segments (path : List Char) : List String :=
  match (path.splitOn '/').map String.ofList with
  | "" :: "api" :: "v1" :: rest => rest
  | _ => []

/-- `application/x-www-form-urlencoded`: a plus stands for a space, an escape for its byte. -/
def formDecode (text : List Char) : String :=
  String.ofList (percentDecode (text.map fun c => if c = '+' then ' ' else c))

/-- The pairs of a query string. -/
def queryPairs (query : List Char) : List (String × String) :=
  ((query.splitOn '&').filter (· ≠ [])).map fun pair =>
    (formDecode (pair.takeWhile (· ≠ '=')), formDecode (pair.dropWhile (· ≠ '=')).tail)

/-- A method by its name. -/
def Method.named : String → Method
  | "GET" => get
  | "HEAD" => head
  | "POST" => post
  | name => other name

/-- `encode`: the text of a body. -/
def RequestBody.text (serde : Serde) : RequestBody → List Char
  | register body => serde.register.toVec body
  | login body => serde.login.toVec body
  | createRoom body => serde.createRoom.toVec body
  | postMessage body => serde.postMessage.toVec body

/-- What the `Json` extractor makes of a body, for one type: what it reads, or its complaint. -/
def extracted {α : Type} {Fits : α → Prop} (codec : JsonCodec Fits) :
    Option (List Char) → Except String α
  | none => .error "Expected request with `Content-Type: application/json`"
  | some text => codec.fromSlice text

/-- What it makes of a body, for each type there is. -/
def JsonBody.read (serde : Serde) (text : Option (List Char)) : JsonBody where
  register := extracted serde.register text
  login := extracted serde.login text
  createRoom := extracted serde.createRoom text
  postMessage := extracted serde.postMessage text

/-- The bytes of an `Authorization` header. -/
def bearerHeader (token : String) : List UInt8 :=
  Json.bytes ("Bearer " ++ token).toList

/-- **A request, as a handler is given it.** The path is cut at its slashes and the query at its
ampersands, and nothing is decoded that the server's extractors would not decode. -/
def WireRequest.receive (serde : Serde) (wired : WireRequest) : Request where
  method := .named wired.method
  path := segments ((pathAndQuery wired.uri).takeWhile (· ≠ '?'))
  query := queryPairs ((pathAndQuery wired.uri).dropWhile (· ≠ '?')).tail
  authorization := wired.bearer.map bearerHeader
  body := .read serde (wired.body.map (RequestBody.text serde))

/-! ### A response, as it comes back -/

/-- The text of a body, but for what an extractor of axum's own says: that is no JSON. -/
def Body.text (serde : Serde) : Body → Option (List Char)
  | empty => some []
  | plain => none
  | failure envelope => some (serde.error.toVec envelope)
  | health => some (serde.health.toVec ())
  | server info => some (serde.server.toVec info)
  | login reply => some (serde.loggedIn.toVec reply)
  | room reply => some (serde.room.toVec reply)
  | rooms reply => some (serde.rooms.toVec reply)
  | messages reply => some (serde.messages.toVec reply)
  | posted reply => some (serde.posted.toVec reply)

/-- `decode`: a success that sends nothing is read as the empty JSON object. -/
def decoded {α : Type} {Fits : α → Prop} (codec : JsonCodec Fits) :
    Option (List Char) → Except String α
  | none => .error Body.plain.complaint
  | some text => codec.fromSlice (if text = [] then ['{', '}'] else text)

/-- What the client reads a body as, for each type it may ask for, and as an error envelope. -/
def ReplyBody.read (serde : Serde) (body : Body) : ReplyBody where
  ignored := decoded serde.health (body.text serde)
  login := decoded serde.loggedIn (body.text serde)
  server := decoded serde.server (body.text serde)
  rooms := decoded serde.rooms (body.text serde)
  room := decoded serde.room (body.text serde)
  posted := decoded serde.posted (body.text serde)
  messages := decoded serde.messages (body.text serde)
  envelope :=
    match body.text serde with
    | none => .error Body.plain.complaint
    | some text => serde.error.fromSlice text

/-- **A response, as the client is given it.** The status is a number, and the body is read as
whatever type the call asks for. -/
def Response.reply (serde : Serde) (response : Response) : Reply ReplyBody :=
  ⟨response.status, .read serde response.body⟩

/-! ### The bodies -/

section Bodies

/-- What was written for a value that fits is decoded. -/
theorem decoded_toVec {α : Type} {Fits : α → Prop} (codec : JsonCodec Fits) {value : α}
    (fits : Fits value) :
    decoded codec (some (codec.toVec value)) = .ok value := by
  rw [decoded, if_neg (codec.toVec_ne_nil value)]
  exact codec.fromSlice_toVec value fits

/-- What a handler reads of the body it asks for. -/
def RequestBody.ReadAs (json : JsonBody) : RequestBody → Prop
  | register body => json.register = .ok body
  | login body => json.login = .ok body
  | createRoom body => json.createRoom = .ok body
  | postMessage body => json.postMessage = .ok body

/-- **A handler reads the body that the client has written.** Every type a request has is one that
the codec reads back, whatever its fields hold. -/
theorem RequestBody.readAs_text (serde : Serde) (body : RequestBody) :
    body.ReadAs (.read serde (some (body.text serde))) := by
  cases body with
  | register body => exact serde.register.fromSlice_toVec body trivial
  | login body => exact serde.login.fromSlice_toVec body trivial
  | createRoom body => exact serde.createRoom.fromSlice_toVec body trivial
  | postMessage body => exact serde.postMessage.fromSlice_toVec body trivial

/-- The value in a body fits its type. -/
def Body.Fits : Body → Prop
  | empty | plain | health => True
  | failure envelope => envelope.Fits
  | server info => info.Fits
  | login reply => reply.Fits
  | room reply => reply.Fits
  | rooms reply => reply.Fits
  | messages reply => reply.Fits
  | posted reply => reply.Fits

/-- What the client reads of the body it asks for. -/
def Body.ReadAs (reply : ReplyBody) : Body → Prop
  | empty | health => reply.ignored = .ok ()
  | plain => reply.envelope = Body.plain.envelope
  | failure envelope => reply.envelope = .ok envelope
  | server info => reply.server = .ok info
  | login body => reply.login = .ok body
  | room body => reply.room = .ok body
  | rooms body => reply.rooms = .ok body
  | messages body => reply.messages = .ok body
  | posted body => reply.posted = .ok body

/-- **The client reads the body that the server has written.** Unlike a request, a response has to
fit: it shows what is in the tables. -/
theorem Body.readAs_read (serde : Serde) (body : Body) (fits : body.Fits) :
    body.ReadAs (.read serde body) := by
  cases body with
  | empty => exact serde.ignores_empty
  | plain => exact rfl
  | health => exact decoded_toVec serde.health trivial
  | failure envelope => exact serde.error.fromSlice_toVec envelope fits
  | server info => exact decoded_toVec serde.server fits
  | login reply => exact decoded_toVec serde.loggedIn fits
  | room reply => exact decoded_toVec serde.room fits
  | rooms reply => exact decoded_toVec serde.rooms fits
  | messages reply => exact decoded_toVec serde.messages fits
  | posted reply => exact decoded_toVec serde.posted fits

end Bodies

/-! ### What a call asks for -/

/-- What a call of the client asks the server for. -/
structure Ask where
  method : String
  path : List String
  query : List (String × String)
  body : Option RequestBody

namespace Ask

/-- The path a request names, with its query. -/
def target (ask : Ask) : String :=
  "/api/v1/" ++ "/".intercalate ask.path ++
    if ask.query = [] then "" else "?" ++ renderQuery ask.query

/-- The request that a handler is to be given. -/
def request (serde : Serde) (ask : Ask) (sent : Option String) : Request where
  method := .named ask.method
  path := ask.path
  query := ask.query
  authorization := sent.map bearerHeader
  body := .read serde (ask.body.map (RequestBody.text serde))

/-- A character that stands for itself, in a path and in a query. -/
def isPlain (c : Char) : Bool :=
  c ∉ ['/', '?', '#', '&', '=', '+', '%']

/-- The texts of a path and of a query stand for themselves. -/
structure Plain (ask : Ask) : Prop where
  path : ask.path ≠ [] ∧ ∀ segment ∈ ask.path, segment.toList.all isPlain
  query : ∀ pair ∈ ask.query, pair.1.toList.all isPlain ∧ pair.2.toList.all isPlain

end Ask

/-- The client is configured with an origin, and perhaps slashes behind it. -/
def ChatClient.AtOrigin (client : ChatClient) : Prop :=
  ∃ scheme authority, client.base = scheme ++ "://" ++ authority ∧ ':' ∉ scheme.toList ∧
    ∀ c ∈ authority.toList, c ≠ '/' ∧ c ≠ '?' ∧ c ≠ '#'

section Receiving

theorem pastScheme_append {scheme rest : List Char} (plain : ':' ∉ scheme) :
    pastScheme (scheme ++ ':' :: '/' :: '/' :: rest) = rest := by
  induction scheme with
  | nil => rfl
  | cons c scheme ih =>
      have differs : c ≠ ':' := fun same => plain (same ▸ List.mem_cons_self)
      have later := ih fun mem => plain (List.mem_cons_of_mem c mem)
      rw [List.cons_append, pastScheme]
      · exact later
      · intro _ same
        exact absurd same differs

/-- The path and the query of a URI under an origin are what was put behind it. -/
theorem pathAndQuery_append {client : ChatClient} (origin : client.AtOrigin) {path : String}
    (rooted : path.toList.head? = some '/') (whole : '#' ∉ path.toList) :
    pathAndQuery (client.base ++ path) = path.toList := by
  obtain ⟨scheme, authority, base, plain, host⟩ := origin
  obtain ⟨rest, at_root⟩ : ∃ rest, path.toList = '/' :: rest := by
    cases path_eq : path.toList with
    | nil => rw [path_eq] at rooted; cases rooted
    | cons c rest => 
        rw [path_eq] at rooted
        exact ⟨rest, by rw [Option.some.inj rooted]⟩
  have uri : (client.base ++ path).toList
      = scheme.toList ++ ':' :: '/' :: '/' :: (authority.toList ++ path.toList) := by
    rw [base]
    simp only [String.toList_append, List.append_assoc]
    rfl
  have behind : (authority.toList ++ path.toList).dropWhile
      (fun c => decide (c ≠ '/' ∧ c ≠ '?' ∧ c ≠ '#')) = path.toList := by
    rw [List.dropWhile_append_of_pos fun c mem => decide_eq_true (host c mem), at_root]
    rfl
  simp only [pathAndQuery, uri, pastScheme_append plain, behind]
  refine List.takeWhile_eq_self_iff.mpr fun c mem => ?_
  exact decide_eq_true fun same => whole (same ▸ mem)

/-- What stands for itself holds none of the marks. -/
theorem Ask.not_mem_of_isPlain {text : List Char} (plain : text.all isPlain) {c : Char}
    (mark : isPlain c = false) : c ∉ text := fun mem => by
  rw [List.all_eq_true.mp plain c mem] at mark
  cases mark

theorem formDecode_of_isPlain {text : String} (plain : text.toList.all Ask.isPlain) :
    formDecode text.toList = text := by
  have no_plus : (text.toList.map fun c => if c = '+' then ' ' else c) = text.toList := by
    refine (List.map_congr_left fun c mem => ?_).trans (List.map_id _)
    refine if_neg fun same => ?_
    exact Ask.not_mem_of_isPlain plain rfl (same ▸ mem)
  rw [formDecode, no_plus, percentDecode_of_digits, String.ofList_toList]
  rintro c mem rfl
  exact Ask.not_mem_of_isPlain plain rfl mem

/-- The pairs of a query string are found again. -/
theorem queryPairs_renderQuery {pairs : List (String × String)} (some_ : pairs ≠ [])
    (plain : ∀ pair ∈ pairs, pair.1.toList.all Ask.isPlain ∧ pair.2.toList.all Ask.isPlain) :
    queryPairs (renderQuery pairs).toList = pairs := by
  have texts : (renderQuery pairs).toList
      = ['&'].intercalate (pairs.map fun pair => pair.1.toList ++ '=' :: pair.2.toList) := by
    rw [renderQuery, String.toList_intercalate, List.map_map]
    refine congrArg _ (List.map_congr_left fun pair _ => ?_)
    simp only [Function.comp_apply, String.toList_append, List.append_assoc]
    rfl
  have apart : ∀ text ∈ pairs.map (fun pair => pair.1.toList ++ '=' :: pair.2.toList),
      '&' ∉ text := by
    intro text mem
    obtain ⟨pair, there, rfl⟩ := List.mem_map.mp mem
    obtain ⟨first, second⟩ := plain pair there
    have := Ask.not_mem_of_isPlain first (c := '&') rfl
    have := Ask.not_mem_of_isPlain second (c := '&') rfl
    simp_all
  rw [queryPairs, texts, List.splitOn_intercalate '&' apart (by simpa using some_),
    List.filter_eq_self.mpr, List.map_map]
  · refine (List.map_congr_left fun pair mem => ?_).trans (List.map_id _)
    obtain ⟨first, second⟩ := plain pair mem
    have keys : ∀ c ∈ pair.1.toList, decide (c ≠ '=') = true := fun c there =>
      decide_eq_true fun same => Ask.not_mem_of_isPlain first rfl (same ▸ there)
    simp only [Function.comp_apply]
    rw [List.takeWhile_append_of_pos keys, List.dropWhile_append_of_pos keys]
    simp only [ne_eq, not_true_eq_false, decide_false, Bool.false_eq_true, not_false_eq_true,
      List.takeWhile_cons_of_neg, List.append_nil, List.dropWhile_cons_of_neg, List.tail_cons,
      formDecode_of_isPlain first, formDecode_of_isPlain second, id_eq]
  · intro text mem
    obtain ⟨pair, -, rfl⟩ := List.mem_map.mp mem
    simp

theorem not_mem_intercalate {c x : Char} (differs : c ≠ x) {texts : List (List Char)}
    (absent : ∀ text ∈ texts, c ∉ text) : c ∉ [x].intercalate texts := by
  induction texts with
  | nil => exact List.not_mem_nil
  | cons text rest ih =>
      have later := ih fun text mem => absent text (List.mem_cons_of_mem _ mem)
      have first := absent text List.mem_cons_self
      cases rest with
      | nil =>
          rw [List.intercalate_singleton]
          exact first
      | cons second rest =>
          rw [List.intercalate_cons_cons]
          simp only [List.mem_append, List.mem_singleton]
          rintro ((here | same) | there)
          · exact first here
          · exact differs same
          · exact later there

/-- The segments of a target, those of the prefix included. -/
def Ask.parts (ask : Ask) : List (List Char) :=
  [] :: "api".toList :: "v1".toList :: ask.path.map String.toList

theorem Ask.path_toList {ask : Ask} (some_ : ask.path ≠ []) :
    ("/api/v1/" ++ "/".intercalate ask.path).toList = ['/'].intercalate ask.parts := by
  obtain ⟨first, rest, eq⟩ := List.exists_cons_of_ne_nil some_
  rw [parts, eq, List.map_cons, List.intercalate_cons_cons, List.intercalate_cons_cons,
    List.intercalate_cons_cons, String.toList_append, String.toList_intercalate, List.map_cons]
  rfl

theorem Ask.not_mem_parts {ask : Ask} (plain : ask.Plain) {c : Char} (mark : isPlain c = false) :
    ∀ text ∈ ask.parts, c ∉ text := by
  intro text mem
  have plain_text : text.all isPlain := by
    rcases List.mem_cons.mp mem with rfl | mem
    · rfl
    rcases List.mem_cons.mp mem with rfl | mem
    · rfl
    rcases List.mem_cons.mp mem with rfl | mem
    · rfl
    obtain ⟨segment, there, rfl⟩ := List.mem_map.mp mem
    exact plain.path.2 segment there
  exact not_mem_of_isPlain plain_text mark

/-- The query of a target, as it stands in it. -/
def Ask.suffix (ask : Ask) : List Char :=
  if ask.query = [] then [] else '?' :: (renderQuery ask.query).toList

theorem Ask.target_toList {ask : Ask} (some_ : ask.path ≠ []) :
    ask.target.toList = ['/'].intercalate ask.parts ++ ask.suffix := by
  rw [target, String.toList_append, path_toList some_, suffix]
  split
  · rfl
  · rw [String.toList_append]
    rfl

/-- The path of a target, and its query, are the ones it was made of. -/
theorem Ask.target_parts {ask : Ask} (plain : ask.Plain) :
    segments (ask.target.toList.takeWhile (· ≠ '?')) = ask.path ∧
      queryPairs (ask.target.toList.dropWhile (· ≠ '?')).tail = ask.query := by
  have before : ∀ c ∈ ['/'].intercalate ask.parts, decide (c ≠ '?') = true := by
    refine fun c mem => decide_eq_true fun same => ?_
    subst same
    exact not_mem_intercalate (by decide) (not_mem_parts plain rfl) mem
  have query : ask.suffix.takeWhile (· ≠ '?') = [] ∧
      queryPairs (ask.suffix.dropWhile (· ≠ '?')).tail = ask.query := by
    rw [suffix]
    by_cases none : ask.query = []
    · rw [if_pos none, none]
      exact ⟨rfl, rfl⟩
    · rw [if_neg none]
      exact ⟨rfl, queryPairs_renderQuery none plain.query⟩
  rw [target_toList plain.path.1, List.takeWhile_append_of_pos before,
    List.dropWhile_append_of_pos before, query.1, List.append_nil]
  refine ⟨?_, query.2⟩
  have cut := List.splitOn_intercalate '/' (not_mem_parts plain rfl) (List.cons_ne_nil _ _)
  have texts : ask.parts.map String.ofList = "" :: "api" :: "v1" :: ask.path := by
    simp only [parts, List.map_cons, List.map_map, String.ofList_nil, String.ofList_toList]
    refine congrArg _ (congrArg _ (congrArg _ ?_))
    exact (List.map_congr_left fun segment _ => String.ofList_toList).trans (List.map_id _)
  rw [segments, cut, texts]
  rfl

theorem Ask.whole {ask : Ask} (plain : ask.Plain) : '#' ∉ ask.target.toList := by
  rw [target_toList plain.path.1, List.mem_append, not_or]
  refine ⟨not_mem_intercalate (by decide) (not_mem_parts plain rfl), ?_⟩
  rw [suffix]
  split
  · exact List.not_mem_nil
  · rw [List.mem_cons, not_or, renderQuery, String.toList_intercalate]
    refine ⟨by decide, not_mem_intercalate (by decide) fun text mem => ?_⟩
    obtain ⟨_, printed, rfl⟩ := List.mem_map.mp mem
    obtain ⟨pair, there, rfl⟩ := List.mem_map.mp printed
    obtain ⟨first, second⟩ := plain.query pair there
    simp only [String.toList_append, List.mem_append, not_or]
    exact ⟨⟨not_mem_of_isPlain first rfl, by decide⟩, not_mem_of_isPlain second rfl⟩

/-- **A handler is given what the call asks for.** The request that arrives has the path, the
query, the token and the body of the call, letter for letter, where the client talks to the origin
of the server and the texts of the call need no escaping. -/
theorem receive_build {client : ChatClient} (origin : client.AtOrigin) {ask : Ask}
    (plain : ask.Plain) {sent : Option String} {wired : WireRequest}
    (built : client.build ask.method ask.target ask.body sent = .ok wired)
    (serde : Serde) : wired.receive serde = ask.request serde sent := by
  have made : wired = ⟨ask.method, client.base ++ ask.target, ask.body, sent⟩ := by
    unfold ChatClient.build at built
    split at built
    · cases built
    · split at built
      · cases built
        rfl
      · cases built
  have rooted : ask.target.toList.head? = some '/' := by
    rw [Ask.target_toList plain.path.1]
    rfl
  obtain ⟨path, query⟩ := Ask.target_parts plain
  subst made
  simp only [WireRequest.receive, pathAndQuery_append origin rooted (Ask.whole plain), path, query]
  rfl

end Receiving

end ScionChat
