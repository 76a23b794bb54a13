import ScionChat.Client.Session
import ScionChat.Server.Api.Handlers
import ScionChat.Server.Store.Pages

/-!
# What the server makes of the client's page requests

The client asks for `limit` messages, a `usize`, and takes a page that holds fewer for the end
of what there is.  The server reads the limit as a `u32` and clamps it to 1..=200.  `served` is
what comes of one request, and `list_served` shows that it is what the handler answers.

Where the two sides agree on what a short page means is for the feed to say.

### design decisions

* **One function for both ends.**  `served` is neither the client's nor the server's: it is the
  composition of the request that the one builds with the handler of the other, as a function of
  the log.  The feeds of all clients are stated over it, so a change of either end is a change of
  this module alone.
* **The decimal digits are part of it.**  The limit and the cursor travel in the query string.
  That they come back as the numbers they were is proved here, of the text, with the width of the
  type that each side parses into.

### What is load-bearing

`list_served` needs the room to be there, the token to be good and the database to work, and no
more.  What happens without these is in the modules of the API.
-/

namespace ScionChat

open Interleaving KeyedLog

/-! ### The request -/

namespace ChatClient.Cursor

/-- The query string of a fetch, in pairs. -/
def pairs (limit : ℕ) : Cursor → List (String × String)
  | newest => [("limit", toString limit)]
  | after seq => [("limit", toString limit), ("after_seq", toString seq.get)]
  | before seq => [("limit", toString limit), ("before_seq", toString seq.get)]

/-- The page the server reads, once it has clamped the limit. -/
def query (limit : ℕ) : Cursor → PageQuery
  | newest => .newest (max 1 (min limit MAX_LIMIT))
  | after seq => .after seq (max 1 (min limit MAX_LIMIT))
  | before seq => .before seq (max 1 (min limit MAX_LIMIT))

/-- The position of a cursor, if it names one. -/
def position : Cursor → Option Seq
  | newest => none
  | after seq | before seq => some seq

end ChatClient.Cursor

/-- The pairs as they stand in a URL. -/
def renderQuery (pairs : List (String × String)) : String :=
  "&".intercalate (pairs.map fun pair => pair.1 ++ "=" ++ pair.2)

/-- The path of a fetch is that of the room's messages, and its pairs. -/
theorem pagePath_eq (room : RoomId) (limit : ℕ) (cursor : ChatClient.Cursor) :
    ChatClient.pagePath room limit cursor
      = ChatClient.messagesPath room ++ "?" ++ renderQuery (cursor.pairs limit) := by
  have limits : "?limit=" = "?" ++ ("limit" ++ "=") := rfl
  have afters : "&after_seq=" = "&" ++ ("after_seq" ++ "=") := rfl
  have befores : "&before_seq=" = "&" ++ ("before_seq" ++ "=") := rfl
  cases cursor with
  | newest =>
      change ChatClient.messagesPath room ++ "?limit=" ++ toString limit
        = ChatClient.messagesPath room ++ "?" ++ ("limit" ++ "=" ++ toString limit)
      rw [limits]
      simp only [String.append_assoc]
  | after seq =>
      change ChatClient.messagesPath room ++ "?limit=" ++ toString limit ++ "&after_seq="
          ++ toString seq.get
        = ChatClient.messagesPath room ++ "?" ++ ("limit" ++ "=" ++ toString limit ++ "&"
          ++ ("after_seq" ++ "=" ++ toString seq.get))
      rw [limits, afters]
      simp only [String.append_assoc]
  | before seq =>
      change ChatClient.messagesPath room ++ "?limit=" ++ toString limit ++ "&before_seq="
          ++ toString seq.get
        = ChatClient.messagesPath room ++ "?" ++ ("limit" ++ "=" ++ toString limit ++ "&"
          ++ ("before_seq" ++ "=" ++ toString seq.get))
      rw [limits, befores]
      simp only [String.append_assoc]

/-- The fetch as a request under `/api/v1`. -/
def pageRequest (authorization : Option (List UInt8)) (body : JsonBody) (room : RoomId)
    (limit : ℕ) (cursor : ChatClient.Cursor) : Request where
  method := .get
  path := ["rooms", toString room.get, "messages"]
  query := cursor.pairs limit
  authorization := authorization
  body := body

/-! ### What is read off it -/

theorem parseUnsigned_toDigits (max n : ℕ) :
    parseUnsigned max (Nat.toDigits 10 n) = if n ≤ max then some n else none := by
  have digits : (Nat.toDigits 10 n).all Char.isDigit := List.all_eq_true.mpr fun c mem =>
    Nat.isDigit_of_mem_toDigits (by decide) (by decide) mem
  have value : (Nat.toDigits 10 n).foldl (fun n c => 10 * n + (c.toNat - 48)) 0 = n :=
    Nat.ofDigitChars_ten_toDigits
  obtain ⟨c, rest, eq⟩ := List.exists_cons_of_ne_nil (Nat.toDigits_ne_nil (n := n) (b := 10))
  have plain : c ≠ '+' := by
    rintro rfl
    rw [eq] at digits
    cases digits
  rw [eq] at digits value ⊢
  unfold parseUnsigned
  split
  · rename_i same
    cases same
    exact absurd rfl plain
  · rw [if_pos ⟨List.cons_ne_nil c rest, digits⟩, value]

theorem parseUnsigned_toString (max n : ℕ) :
    parseUnsigned max (toString n).toList = if n ≤ max then some n else none := by
  rw [Nat.toString_eq_repr, Nat.toList_repr, parseUnsigned_toDigits]

/-- Digits decode to themselves. -/
theorem percentDecode_of_digits {text : List Char} (digits : ∀ c ∈ text, c ≠ '%') :
    percentDecode text = text := by
  induction text with
  | nil => rfl
  | cons c rest ih =>
      have here := digits c List.mem_cons_self
      unfold percentDecode
      split
      · rename_i same
        exact absurd (List.cons.inj same).1 here
      · rename_i same
        obtain ⟨rfl, rfl⟩ := List.cons.inj same
        rw [ih fun d mem => digits d (List.mem_cons_of_mem _ mem)]
      · rename_i same
        cases same

/-- The segment of a room parses to the room. -/
theorem pathId_toString {n : ℕ} (fits : n ≤ u64Max) : pathId (toString n) = some n := by
  unfold pathId
  rw [percentDecode_of_digits, parseUnsigned_toString, if_pos fits]
  intro c mem percent
  subst percent
  rw [Nat.toString_eq_repr, Nat.toList_repr] at mem
  have := Nat.isDigit_of_mem_toDigits (by decide) (by decide) mem
  cases this

/-- One field of the query string that stands in it once. -/
theorem field_of_once (key : String) (max n : ℕ) (before after : List (String × String))
    (others : ∀ pair ∈ before ++ after, pair.1 ≠ key) :
    Page.field key max (before ++ (key, toString n) :: after)
      = if n ≤ max then some (some n) else none := by
  have none_before : before.filter (fun pair => pair.1 = key) = [] :=
    List.filter_eq_nil_iff.mpr fun pair mem => by
      simpa using others pair (List.mem_append_left _ mem)
  have none_after : after.filter (fun pair => pair.1 = key) = [] :=
    List.filter_eq_nil_iff.mpr fun pair mem => by
      simpa using others pair (List.mem_append_right _ mem)
  unfold Page.field
  rw [List.filter_append, none_before, List.filter_cons_of_pos (by simp), none_after]
  change (parseUnsigned max (toString n).toList).map some = _
  rw [parseUnsigned_toString]
  split <;> rfl

/-- A field of the query string that does not stand in it. -/
theorem field_of_absent (key : String) (max : ℕ) (query : List (String × String))
    (others : ∀ pair ∈ query, pair.1 ≠ key) : Page.field key max query = some none := by
  unfold Page.field
  rw [List.filter_eq_nil_iff.mpr fun pair mem => by simpa using others pair mem]

/-- The page that a cursor asks for. -/
def ChatClient.Cursor.page (limit : ℕ) : ChatClient.Cursor → Page
  | newest => ⟨some limit, none, none⟩
  | after seq => ⟨some limit, some seq.get, none⟩
  | before seq => ⟨some limit, none, some seq.get⟩

/-- The query string is read as the page it asks for, if the limit is a `u32`. -/
theorem ofQuery_pairs (limit : ℕ) (cursor : ChatClient.Cursor)
    (position : ∀ seq ∈ cursor.position, seq.get ≤ u64Max) :
    Page.ofQuery (cursor.pairs limit)
      = if limit ≤ u32Max then some (cursor.page limit) else none := by
  unfold Page.ofQuery
  cases cursor with
  | newest =>
      have limits := field_of_once "limit" u32Max limit [] [] (by simp)
      rw [ChatClient.Cursor.pairs, ← List.nil_append [_], limits]
      split <;> rfl
  | after seq =>
      have fits : seq.get ≤ u64Max := position seq rfl
      have limits := field_of_once "limit" u32Max limit []
        [("after_seq", toString seq.get)] (by simp)
      have cursors := field_of_once "after_seq" u64Max seq.get
        [("limit", toString limit)] [] (by simp)
      have rest := field_of_absent "before_seq" u64Max
        [("limit", toString limit), ("after_seq", toString seq.get)] (by simp)
      rw [List.nil_append] at limits
      rw [List.cons_append, List.nil_append, if_pos fits] at cursors
      rw [ChatClient.Cursor.pairs, limits, cursors, rest]
      split <;> rfl
  | before seq =>
      have fits : seq.get ≤ u64Max := position seq rfl
      have limits := field_of_once "limit" u32Max limit []
        [("before_seq", toString seq.get)] (by simp)
      have cursors := field_of_once "before_seq" u64Max seq.get
        [("limit", toString limit)] [] (by simp)
      have rest := field_of_absent "after_seq" u64Max
        [("limit", toString limit), ("before_seq", toString seq.get)] (by simp)
      rw [List.nil_append] at limits
      rw [List.cons_append, List.nil_append, if_pos fits] at cursors
      rw [ChatClient.Cursor.pairs, limits, cursors, rest]
      split <;> rfl

/-- The room's messages have a route. -/
theorem route_messages (id : String) : route ["rooms", id, "messages"] = some (.messages id) :=
  rfl

/-! ### What the handler answers -/

/-- **What comes of a fetch**, when the room is there and nothing fails: the page, or how the
request is turned away. -/
def served (log : List Message) (limit : ℕ) (cursor : ChatClient.Cursor) :
    Except ChatError (List Message) :=
  if u32Max < limit then .error (refusal 400 Body.plain.envelope)
  else if (cursor.query limit).Fits then .ok ((cursor.query limit).page log)
  else .error (refusal 500 (.ok ⟨.internal, "the server failed to handle this request"⟩))

/-- A response, as `messages` of the client reads it. -/
def received (response : Response) : Except ChatError (List Message) :=
  if response.isSuccess then
    match response.body with
    | .messages reply => .ok reply.messages
    | _ => .error (.protocol "")
  else .error (refusal response.status response.body.envelope)

/-- An operation of the store that looks once, as a part of a handler. -/
theorem run_look_bind {α β : Type} {query : Query α} {look : Moment → Db → Except StoreError α}
    (looks : query.run = .step (fun _ db => db) fun m db => .ret (look m db))
    (f : α → Handler β) : (store query >>= f).run
      = .step (fun _ w => w) fun m w =>
          onOk f ((look m w.db).mapError fun e => .api (.ofStore e)) := by
  rw [run_bind, store, run_inside, looks]
  rfl

section

variable {ω : ℕ → Moment} {w : World} {room : RoomId} {limit : ℕ} {cursor : ChatClient.Cursor}

/-- The page of a room that is there. -/
theorem page_exec (valid : w.db.Valid) (fits : room.get ≤ i64Max) (works : (ω 0).fails = false)
    (query : PageQuery) : received (answerOf ((store (query.query room) >>= fun messages =>
        (pure { status := 200, body := .messages ⟨messages⟩ } : Handler Response)).run.exec ω w).1)
      = if query.Fits then Except.ok (query.page (w.db.log room))
        else .error (refusal 500
          (.ok ⟨.internal, "the server failed to handle this request"⟩)) := by
  by_cases cursor_fits : query.Fits
  · rcases query.run_cases room with ⟨-, -, run⟩ | ⟨unfit, -⟩
    · rw [run_look_bind run, if_pos cursor_fits, Prog.exec_step, fetched_of_works works,
        Except.bind, query.answer_of_valid valid room]
      rfl
    · exact absurd ⟨fits, cursor_fits⟩ unfit
  · obtain ⟨value, run⟩ := query.run_of_unfit fits cursor_fits
    rw [if_neg cursor_fits, run_bind, store, run_inside, run]
    rfl

/-- **What the handler answers to a fetch of the client** is what the client is served.  Both sides
of the boundary are in it, the client's request for a page and the handler's query of the store, so
what is said of served pages is said of the server. -/
theorem list_served {state : AppState} {authorization : Option (List UInt8)} {body : JsonBody}
    {username : String}
    (accepted : authenticate state authorization (ω 0).now w.issued = .ok username)
    (valid : w.db.Valid) (there : ∃ row ∈ w.db.rooms, row.id = room.get)
    (works : ∀ n, (ω n).fails = false) (position : ∀ seq ∈ cursor.position, seq.get ≤ u64Max) :
    received ((handle state (pageRequest authorization body room limit cursor)).exec ω w).1
      = served (w.db.log room) limit cursor := by
  have fits : room.get ≤ i64Max := by
    obtain ⟨row, mem, id⟩ := there
    have := valid.id_le mem
    omega
  have exists_run := roomExists_run room
  rw [Column.toColumn_of_le _ fits] at exists_run
  have found : Sql.selectRoomExists room.get w.db = true := decide_eq_true there
  have handled : (handle state (pageRequest authorization body room limit cursor))
      = (listMessages state (pageRequest authorization body room limit cursor)
          (toString room.get)).respond := by
    rw [handle, pageRequest, route_messages]
    rfl
  rw [handled, Handler.respond, Prog.exec_map, listMessages, authenticated,
    run_tryAtomically_bind, Prog.exec_step]
  dsimp only [pageRequest]
  rw [accepted, Except.mapError, onOk_ok, pathId_toString (fits.trans (by decide)), extract,
    run_except_bind, onOk_ok, ofQuery_pairs limit cursor position]
  by_cases small : limit ≤ u32Max
  · rw [if_pos small, extract, run_except_bind, onOk_ok, list, run_look_bind exists_run,
      Prog.exec_step,
      fetched_of_works (works 1), found]
    unfold served
    rw [if_neg (not_lt.mpr small)]
    cases cursor with
    | newest => exact page_exec valid fits (works 2) (.newest _)
    | after seq => exact page_exec valid fits (works 2) (.after seq _)
    | before seq => exact page_exec valid fits (works 2) (.before seq _)
  · rw [if_neg small, extract, run_except_bind, onOk_error]
    unfold served
    rw [if_pos (not_le.mp small)]
    rfl

end

end ScionChat
