import ScionChat.Client.Feed
import ScionChat.Client.Transport
import ScionChat.Server.Api.Messages
import ScionChat.Server.Api.Sizes

/-!
# Whether the client can read every page

The server bounds a page by the number of its messages, and a message by the bytes of its body.
The client bounds a reply by its bytes, `MAX_BODY_BYTES`.  JSON stands in between, which makes six
bytes of a control character.

* `pages_fit_iff` — for which `max_message_bytes` every page can be read, and a feed gets past
  every message, whatever servers with it have stored: those of at most 6955 bytes.
* `page_too_large` — two hundred messages of 64 KiB, each accepted, which no client can read.

### design decisions

* **The sizes are exact.**  A page is measured by the length of the JSON that serde_json writes,
  separators and field names included, because the bound is one: at 6955 bytes the worst page
  fits, and at 6956 it does not.
* **Any history of servers.**  The messages that are there may have been stored by an earlier
  server of the directory.  All of them have the bound in question, which is why `bytes` is the
  parameter of the run and not of a state.

### What is load-bearing

`MessagesResponse.le_size_json` and `size_json_le` close the bound from both sides.  For the half
that needs a run, `holds` posts a text of control characters as often as there are positions, and
is the reason that the condition cannot be weakened.
-/

namespace ScionChat

open Interleaving TransitionSystem KeyedLog Json

/-! ### Reading a page -/

/-- **The client reads the page**: its text is no longer than what a reply may be, and it is read
whole, however it is cut. -/
structure Readable (page : MessagesResponse) : Prop where
  fits : size page.json ≤ MAX_BODY_BYTES
  whole : ∀ chunks : List (List UInt8), chunks.flatten = bytes page.json →
    readCapped (chunks.map .ok) = .ok (bytes page.json)

theorem readable_of_size {page : MessagesResponse} (fits : size page.json ≤ MAX_BODY_BYTES) :
    Readable page := by
  refine ⟨fits, fun chunks cut => ?_⟩
  rw [readCapped_chunks, cut, length_bytes, if_neg (not_lt.mpr fits)]

/-- One turn of a feed: when the reply to its fetch is there, and how it has been cut. -/
structure Turn where
  now : ℕ
  cut : List UInt8 → List (List UInt8)

/-- The turn has all of every reply. -/
def Turn.Whole (turn : Turn) : Prop :=
  ∀ body, (turn.cut body).flatten = body

/-- What the feed is handed of what the server answers.  The text of a page is read as the page it
was written from. -/
def Turn.delivered (turn : Turn) (fetched : Except ChatError (List Message)) :
    Except ChatError (List Message) :=
  match fetched with
  | .error e => .error e
  | .ok page =>
      match readCapped ((turn.cut (bytes (MessagesResponse.json ⟨page⟩))).map .ok) with
      | .error e => .error (.transport e)
      | .ok _ => .ok page

theorem Turn.delivered_of_readable {turn : Turn} (whole : turn.Whole) {page : List Message}
    (readable : Readable ⟨page⟩) : turn.delivered (.ok page) = .ok page := by
  simp only [delivered, readable.whole _ (whole _)]

section

variable (poll : PollConfig) (log : List Message) (turns : ℕ → Turn) (feed : MessagesFeed)

/-- The feed after so many fetches. -/
def MessagesFeed.fetches : ℕ → MessagesFeed
  | 0 => feed
  | n + 1 =>
      let feed := MessagesFeed.fetches n
      (feed.settle poll (turns n).now ((turns n).delivered
        (served log poll.pageSize (.after feed.cursor)))).1

end

/-- **A feed gets past every message** of the log, from any position that the server can look up.
The log may be as long as it likes; what is asked is that no page of it is too large to be read,
since a feed that cannot read a page never gets behind it. -/
def PassesAll (poll : PollConfig) (log : List Message) : Prop :=
  ∀ (feed : MessagesFeed) (turns : ℕ → Turn), feed.cursor.get ≤ i64Max →
    (∀ n, (turns n).Whole) →
      ∀ message ∈ log, ∃ n, message.seq ≤ (feed.fetches poll log turns n).cursor

/-- It does if it can read every page, and asks for no more than the server takes a number for. -/
theorem passesAll_of_readable {poll : PollConfig} {log : List Message}
    (small : poll.pageSize ≤ u32Max) (stored : ∀ message ∈ log, message.seq.get ≤ i64Max)
    (readable : ∀ (limit : ℕ) (cursor : ChatClient.Cursor),
      Readable ⟨(cursor.query limit).page log⟩) : PassesAll poll log := by
  intro feed turns at_ whole message mem
  have turns_page (n : ℕ) (fits : (feed.fetches poll log turns n).cursor.get ≤ i64Max) :
      (feed.fetches poll log turns (n + 1)).cursor
        = nextCursor Message.seq (feed.fetches poll log turns n).cursor
            (pageAfter Message.seq (feed.fetches poll log turns n).cursor
              (max 1 (min poll.pageSize MAX_LIMIT)) log) := by
    have answered : served log poll.pageSize (.after (feed.fetches poll log turns n).cursor)
        = .ok (pageAfter Message.seq (feed.fetches poll log turns n).cursor
            (max 1 (min poll.pageSize MAX_LIMIT)) log) := by
      unfold served
      rw [if_neg (not_lt.mpr small)]
      exact if_pos fits
    have reads := Turn.delivered_of_readable (whole n)
      (readable poll.pageSize (.after (feed.fetches poll log turns n).cursor))
    rw [MessagesFeed.fetches, answered]
    exact (congrArg (fun fetched => ((feed.fetches poll log turns n).settle poll (turns n).now
      fetched).1.cursor) reads).trans (settle_cursor _)
  -- the cursor is where the feed started, or at a message
  have fits (n : ℕ) : (feed.fetches poll log turns n).cursor.get ≤ i64Max := by
    induction n with
    | zero => exact at_
    | succ n ih =>
        rw [turns_page n ih]
        cases last : (pageAfter Message.seq (feed.fetches poll log turns n).cursor
            (max 1 (min poll.pageSize MAX_LIMIT)) log).getLast? with
        | none =>
            rw [nextCursor, last]
            exact ih
        | some newest =>
            rw [nextCursor_of_getLast last]
            exact stored newest (mem_of_mem_pageAfter (List.mem_of_getLast? last))
  exact passes (le_max_left _ _) mem fun n => turns_page n (fits n)

/-! ### What pages of sized messages take -/

/-- A stored message takes its body, six times over at most, and little else. -/
theorem size_row_le {row : MessageRow} {most : ℕ} (named : NameFits row.username)
    (sized : RowSized most row) (seq : row.seq ≤ i64Max) :
    size row.message.json ≤ 211 + 6 * most := by
  have digits : i64Max < 10 ^ 19 := by decide
  have seq_size : size (number row.seq.toNat) ≤ 19 := by
    refine size_number_le (by decide) ?_
    omega
  have posted_size : size (number row.postedAt.toNat) ≤ 19 := by
    refine size_number_le (by decide) ?_
    have := sized.postedAt
    omega
  have name_size := size_string_le_of_printable named.printable
  have short := named.short
  have body_size := size_string_le row.body
  have body := sized.body
  rw [Message.size_json]
  simp only [MessageRow.message]
  omega

/-- A page of few messages, all of them sized, is read. -/
theorem readable_of_sized {db : Db} {most : ℕ} (small : most ≤ 6955) (valid : db.Valid)
    (sized : db.SizedTo most) {page : MessagesResponse}
    (few : page.messages.length ≤ MAX_LIMIT)
    (stored : ∀ message ∈ page.messages, ∃ row ∈ db.messages, row.message = message) :
    Readable page := by
  have each : ∀ message ∈ page.messages, size message.json ≤ 41941 := by
    intro message mem
    obtain ⟨row, there, rfl⟩ := stored message mem
    obtain ⟨named, row_sized⟩ := sized.messages row there
    have seq : row.seq ≤ i64Max := by
      have := valid.seq_le there
      have := valid.messagesFit
      omega
    exact (size_row_le named row_sized seq).trans (by omega)
  refine readable_of_size ?_
  calc size page.json
      ≤ 15 + page.messages.length * (41941 + 1) := MessagesResponse.size_json_le each
    _ ≤ 15 + MAX_LIMIT * (41941 + 1) := Nat.add_le_add_left (Nat.mul_le_mul_right _ few) 15
    _ ≤ MAX_BODY_BYTES := by decide +kernel

/-! ### What the servers of a directory send -/

/-- **Every page that the server sends fits what the client reads**: in the answers it has given,
and for whatever page of its log is asked for; and a feed gets past every message. -/
structure PagesFit (p : ServerPool) : Prop where
  replies : ∀ k req response reply, p.Returned k req response → Listing req →
    response.body = .messages reply → Readable reply
  pages : ∀ room limit (cursor : ChatClient.Cursor),
    Readable ⟨(cursor.query limit).page (p.state.db.log room)⟩
  feeds : ∀ room (poll : PollConfig), poll.pageSize ≤ u32Max →
    PassesAll poll (p.state.db.log room)

theorem pagesFit_of_sized {app : AppState} {p : ServerPool} {most : ℕ} (small : most ≤ 6955)
    (sound : PageSound app p) (sized : p.state.db.SizedTo most) : PagesFit p := by
  have valid : p.state.db.Valid := sound.inv
  have pages : ∀ room limit (cursor : ChatClient.Cursor),
      Readable ⟨(cursor.query limit).page (p.state.db.log room)⟩ := by
    intro room limit cursor
    have limited : (cursor.query limit).limit ≤ MAX_LIMIT := by
      cases cursor <;> exact max_le (by decide) (min_le_right _ _)
    refine readable_of_sized small valid sized
      ((PageQuery.length_page_le _ _).trans limited) fun message mem => ?_
    obtain ⟨row, there, eq⟩ := List.mem_map.mp ((PageQuery.page_sublist _ _).subset mem)
    exact ⟨row, List.mem_of_mem_filter there, eq⟩
  refine ⟨?_, pages, ?_⟩
  · intro k req response reply ret listing answer
    obtain ⟨w, rel, holds⟩ := sound.returned ret
    obtain ⟨few, stored⟩ := (holds listing).later rel reply answer
    exact readable_of_sized small valid sized few stored
  · intro room poll few
    refine passesAll_of_readable few (fun message mem => ?_) fun limit cursor => ?_
    · exact (log_seq_le valid mem).trans valid.messagesFit
    · exact pages room limit cursor

/-! ### A page that does not fit -/

/-- An operation of the store, run alone inside a handler, and what follows it. -/
theorem exec_store_bind {α β : Type} (query : Query α) (f : α → Handler β) (ω : ℕ → Moment)
    (w : World) : ∃ n, (store query >>= f).run.exec ω w
      = (onOk f ((query.run.exec ω w.db).1.mapError fun e => .api (.ofStore e))).exec
          (fun k => ω (k + n)) (w.withDb (query.run.exec ω w.db).2) :=
  exec_inside_bind (fun db => w.withDb db) (fun _ => rfl) (fun _ _ => rfl) _ query f ω w.db

namespace Sample

/-- A stand-in for the two libraries under which a token is short, whomever it names. -/
def brief : Crypto := { Crypto.plain with encode := fun _ _ => some "t" }

/-- A time with as many digits as one can have. -/
def late : Moment := { now := 10 ^ 18 }

def accepting (bytes : UInt32) : Config := ⟨10, 10, bytes, 7, "0.1.0"⟩

def serving (bytes : UInt32) : AppState where
  crypto := brief
  tokens := ⟨List.replicate 32 0, (accepting bytes).tokenValidity⟩
  config := accepting bytes

/-- The tables with one account. -/
def held (name : String) : Db :=
  ⟨[⟨name, "pw", 10 ^ 18⟩], [⟨1, LOBBY, 0⟩], []⟩

theorem register_exec (bytes : UInt32) {name : String} (fits : parseUsername name = .ok name) :
    ((handle (serving bytes) (register name "pw")).exec (fun _ => late) world).2
      = ⟨held name, []⟩ := by
  have handles : handle (serving bytes) (register name "pw")
      = (ScionChat.register (serving bytes) (register name "pw")).respond := rfl
  have sends : (register name "pw").body.register = .ok ⟨name, "pw"⟩ := rfl
  rw [handles, Handler.respond, Prog.exec_map]
  simp only [ScionChat.register, sends, json, Except.mapError, run_except_bind, onOk_ok, fits]
  rfl

/-- The claims of a token that is issued late. -/
def lateClaims (bytes : UInt32) (name : String) : Claims :=
  (serving bytes).tokens.claims name late.now

theorem login_exec (bytes : UInt32) (name : String) :
    ((handle (serving bytes) (login name "pw")).exec (fun _ => late) ⟨held name, []⟩).2
      = ⟨held name, [⟨(serving bytes).tokens.secret, lateClaims bytes name, "t"⟩]⟩ := by
  have handles : handle (serving bytes) (login name "pw")
      = (ScionChat.login (serving bytes) (login name "pw")).respond := rfl
  have sends : (login name "pw").body.login = .ok ⟨name, "pw"⟩ := rfl
  have looks : (passwordHash name).run = .step (fun _ db => db) fun m db =>
      .ret (fetched (Sql.selectPwHash name) m db) := run_fetch _
  have works : late.fails = false := rfl
  have found : Sql.selectPwHash name (held name) = some "pw" := by
    simp [Sql.selectPwHash, held, NoCase.refl]
  have verified : verifyPassword (serving bytes).crypto "pw" (some "pw") = true := rfl
  rw [handles, Handler.respond, Prog.exec_map]
  simp only [ScionChat.login, sends, json, Except.mapError, run_except_bind, onOk_ok]
  rw [run_look_bind looks, Prog.exec_step, fetched_of_works works, found]
  simp only [Except.mapError, onOk_ok, verified, Bool.not_true, Bool.false_eq_true, if_false]
  rfl

/-- A row of a text, posted late to the first room. -/
def postedRow (db : Db) (username text : String) : MessageRow :=
  ⟨db.messages.length + 1, ((1 : ℕ) : ℤ), username, text, ((10 ^ 18 : ℕ) : ℤ)⟩

theorem post_exec {bytes : UInt32} {w : World} {username text : String}
    (accepted : authenticate (serving bytes) (post "t" text).authorization late.now w.issued
      = .ok username) (valid : w.db.Valid) (there : ∃ row ∈ w.db.rooms, row.id = ((1 : ℕ) : ℤ))
    (left : w.db.messages.length < i64Max) (sized : Sized (accepting bytes) ⟨text⟩) :
    ((handle (serving bytes) (post "t" text)).exec (fun _ => late) w).2
      = w.withDb
          { w.db with messages := w.db.messages ++ [postedRow w.db username text] } := by
  have handles : handle (serving bytes) (post "t" text)
      = (postMessages (serving bytes) (post "t" text) "1").respond := rfl
  have at_room : pathId "1" = some 1 := rfl
  have sends : (post "t" text).body.postMessage = .ok ⟨text⟩ := rfl
  have column : Column.toColumn "room id" (RoomId.mk 1).get = .ok ((1 : ℕ) : ℤ) :=
    Column.toColumn_of_le _ (by decide)
  have stamp : Column.toColumn "timestamp" late.now = .ok ((10 ^ 18 : ℕ) : ℤ) :=
    Column.toColumn_of_le _ (by decide)
  have inserts : attempt (insertMessage ⟨1⟩ username text ((10 ^ 18 : ℕ) : ℤ)) late w.db
      = (.ok _, _) := attempt_of_ok rfl
    (Sql.insertMessageRow_ok valid none ((10 ^ 18 : ℕ) : ℤ) username text left there)
  have stores : ((postMessage ⟨1⟩ username text).run.exec (fun _ => late) w.db).2
      = { w.db with messages := w.db.messages ++ [postedRow w.db username text] } := by
    simp only [postMessage_run, column, Prog.exec_step, stamp, inserts]
    rfl
  rw [handles, Handler.respond, Prog.exec_map, postMessages, authenticated,
    run_tryAtomically_bind, Prog.exec_step, accepted, Except.mapError, onOk_ok, at_room, extract,
    run_except_bind, onOk_ok, sends, post_sized sized]
  obtain ⟨n, ends⟩ := exec_store_bind (postMessage ⟨1⟩ username text) (fun posted =>
    (pure { status := 201, body := .posted posted } : Handler Response)) (fun _ => late) w
  refine (congrArg Prod.snd ends).trans ?_
  rw [stores]
  cases ((postMessage ⟨1⟩ username text).run.exec (fun _ => late) w.db).1 <;> rfl


/-- What has been stored once a text has been posted so many times. -/
structure Holds (bytes : UInt32) (name text : String) (n : ℕ) (h : Host) : Prop where
  running : ∃ threads, h.running = some (serving bytes, threads)
  issued : h.issued = [⟨(serving bytes).tokens.secret, lateClaims bytes name, "t"⟩]
  rooms : h.world.db.rooms = [⟨1, LOBBY, 0⟩]
  length : h.world.db.messages.length = n
  rows : ∀ row ∈ h.world.db.messages, row.roomId = ((1 : ℕ) : ℤ) ∧ row.username = name ∧
    row.body = text ∧ row.postedAt = ((10 ^ 18 : ℕ) : ℤ)

/-- The token is accepted. -/
theorem accepts {bytes : UInt32} {name text : String} {n : ℕ} {h : Host}
    (holds : Holds bytes name text n h) :
    authenticate (serving bytes) (post "t" text).authorization late.now h.issued = .ok name := by
  have sent : bearerToken (post "t" text).authorization = some "t" := rfl
  have live : ¬ (lateClaims bytes name).exp < late.now / 1000 :=
    not_lt.mpr (Nat.div_le_div_right (Nat.le_add_right _ _))
  simp only [authenticate, sent, holds.issued, Tokens.verify, Tokens.decode]
  simp only [List.find?_cons, and_self, decide_true, if_neg live]
  rfl

/-- A run goes on with a request that is let alone. -/
theorem serves {bytes : UInt32} {events : List HostEvent} {g : Host}
    {threads : List (Thread Request Moment World Response)} (ran : Host.Ran brief events g)
    (within : ∀ event ∈ events, event.Within bytes)
    (running : g.running = some (serving bytes, threads)) (req : Request)
    (small : ∀ body, req.body.postMessage = .ok body → size body.json ≤ DEFAULT_BODY_LIMIT) :
    ∃ (events' : List HostEvent) (h : Host), Host.Ran brief events' h ∧
      (∀ event ∈ events', event.Within bytes) ∧
        (∃ threads', h.running = some (serving bytes, threads')) ∧
          h.world = ((handle (serving bytes) req).exec (fun _ => late) g.world).2 := by
  obtain ⟨moments, h, threads', onward, running', ends⟩ :=
    Host.run_alone brief ran.sound running req fun _ => late
  have ran' : Host.Ran brief (events ++ .request (.spawn req) ::
      moments.map fun m => .request (.advance threads.length m)) h :=
    (run_append Host.new events _).trans (by rw [ran]; exact onward)
  refine ⟨_, h, ran', ?_, ⟨threads', running'⟩, ends⟩
  refine List.forall_mem_append.mpr ⟨within, List.forall_mem_cons.mpr ⟨small, ?_⟩⟩
  intro event mem
  obtain ⟨m, -, rfl⟩ := List.mem_map.mp mem
  exact trivial

/-- The account is registered, and has logged in. -/
theorem holds_zero (bytes : UInt32) {name : String} (fits : parseUsername name = .ok name)
    (text : String) : ∃ (events : List HostEvent) (h : Host), Host.Ran brief events h ∧
      (∀ event ∈ events, event.Within bytes) ∧ Holds bytes name text 0 h := by
  obtain ⟨g, started, running, at_world⟩ : ∃ g, Host.Ran brief
      [.start (accepting bytes) fun _ => {}] g ∧ g.running = some (serving bytes, []) ∧
        g.world = world := ⟨_, rfl, rfl, rfl⟩
  have within : ∀ event ∈ [HostEvent.start (accepting bytes) fun _ => {}], event.Within bytes :=
    List.forall_mem_singleton.mpr rfl
  obtain ⟨events₁, h₁, ran₁, within₁, ⟨threads₁, running₁⟩, ends₁⟩ := serves
    started within running (register name "pw") nofun
  obtain ⟨events₂, h₂, ran₂, within₂, running₂, ends₂⟩ := serves ran₁ within₁ running₁
    (login name "pw") nofun
  rw [ends₁, at_world, register_exec bytes fits, login_exec bytes name] at ends₂
  refine ⟨events₂, h₂, ran₂, within₂, running₂, ?_, ?_, ?_, ?_⟩
  · exact congrArg World.issued ends₂
  · rw [ends₂]
    rfl
  · rw [ends₂]
    rfl
  · rw [ends₂]
    exact fun row mem => absurd mem List.not_mem_nil

/-- **A text can be posted any number of times** that there are positions for.  A room that is
filled with one text is what the direction is shown on in which a page does not fit. -/
theorem holds (bytes : UInt32) {name text : String} (fits : parseUsername name = .ok name)
    (sized : Sized (accepting bytes) ⟨text⟩)
    (small : size (PostMessageRequest.json ⟨text⟩) ≤ DEFAULT_BODY_LIMIT) (n : ℕ)
    (left : n ≤ i64Max) :
    ∃ (events : List HostEvent) (h : Host), Host.Ran brief events h ∧
      (∀ event ∈ events, event.Within bytes) ∧ Holds bytes name text n h := by
  induction n with
  | zero => exact holds_zero bytes fits text
  | succ n ih =>
      obtain ⟨events, g, ran, within, before⟩ := ih (by omega)
      obtain ⟨threads, running⟩ := before.running
      obtain ⟨events', h, ran', within', running', ends⟩ := serves ran within running
        (post "t" text) fun body sends => by
          cases sends
          exact small
      obtain ⟨⟨db, at_file⟩, sound⟩ := ran.sound.running _ threads running
      have there : ∃ row ∈ g.world.db.rooms, row.id = ((1 : ℕ) : ℤ) := by
        rw [before.rooms]
        exact ⟨_, List.mem_singleton_self _, rfl⟩
      have next := before.length ▸ left
      rw [post_exec (accepts before) sound.inv there (by rw [before.length]; omega) sized] at ends
      refine ⟨events', h, ran', within', running', ?_, ?_, ?_, ?_⟩
      · exact (congrArg World.issued ends).trans before.issued
      · rw [ends]
        exact before.rooms
      · rw [ends]
        show (g.world.db.messages ++ [_]).length = n + 1
        rw [List.length_append, before.length]
        rfl
      · rw [ends]
        exact List.forall_mem_append.mpr ⟨before.rows,
          List.forall_mem_singleton.mpr ⟨rfl, rfl, rfl, rfl⟩⟩

/-- A page of rows takes at least what each of them takes. -/
theorem le_size_rows {rows : List MessageRow} {k : ℕ}
    (each : ∀ row ∈ rows, k ≤ size row.message.json) :
    15 + rows.length * k + (rows.length - 1)
      ≤ size (MessagesResponse.json ⟨rows.map MessageRow.message⟩) := by
  have all : ∀ message ∈ rows.map MessageRow.message, k ≤ size message.json := by
    intro message mem
    obtain ⟨row, there, rfl⟩ := List.mem_map.mp mem
    exact each row there
  have least : 15 + (rows.map MessageRow.message).length * k
      + ((rows.map MessageRow.message).length - 1)
        ≤ size (MessagesResponse.json ⟨rows.map MessageRow.message⟩) :=
    MessagesResponse.le_size_json all
  rwa [List.length_map] at least

/-- Where the newest messages take too much, the newest page is too large. -/
theorem not_pagesFit {bytes : UInt32} {name text : String} {n : ℕ} {h : Host}
    {threads : List (Thread Request Moment World Response)}
    (stored : Holds bytes name text n h) (most : MAX_LIMIT ≤ n) {k : ℕ}
    (each : ∀ row ∈ h.world.db.messages.drop (n - MAX_LIMIT), k ≤ size row.message.json)
    (large : MAX_BODY_BYTES < 15 + MAX_LIMIT * k + (MAX_LIMIT - 1)) :
    ¬ PagesFit ⟨h.world, threads⟩ := by
  intro fit
  have small := (fit.pages ⟨1⟩ MAX_LIMIT .newest).fits
  have rows : h.world.db.logRows ⟨1⟩ = h.world.db.messages :=
    List.filter_eq_self.mpr fun row mem => decide_eq_true (stored.rows row mem).1
  have page : (ChatClient.Cursor.newest.query MAX_LIMIT).page (h.world.db.log ⟨1⟩)
      = (h.world.db.messages.drop (n - MAX_LIMIT)).map MessageRow.message := by
    show (h.world.db.log ⟨1⟩).rtake MAX_LIMIT = _
    rw [Db.log, rows, rtake_map, List.rtake, stored.length]
  have length : (h.world.db.messages.drop (n - MAX_LIMIT)).length = MAX_LIMIT := by
    rw [List.length_drop, stored.length]
    omega
  rw [page] at small
  have least := le_size_rows each
  rw [length] at least
  exact absurd (least.trans small) (not_le.mpr large)

/-- A name of 32 characters of four bytes each. -/
def clefs : String :=
  String.ofList (List.replicate 32 (Char.ofNat 119070))

theorem clefs_fit : parseUsername clefs = .ok clefs := by
  have characters : clefs.toList = List.replicate 32 (Char.ofNat 119070) := String.toList_ofList
  unfold parseUsername
  rw [characters]
  exact if_pos (by decide +kernel)

theorem sized_of_bytes {bytes : UInt32} {text : String}
    (small : text.utf8ByteSize ≤ bytes.toNat) (some_ : 0 < text.utf8ByteSize) :
    Sized (accepting bytes) ⟨text⟩ := by
  refine ⟨not_lt.mpr small, ?_⟩
  rw [Bool.eq_false_iff]
  intro empty
  obtain rfl : text = "" := String.isEmpty_iff.mp empty
  exact absurd some_ (by decide)

/-- A message takes its text, its name and its numbers. -/
theorem size_held {bytes : UInt32} {text : String} {n : ℕ} {h : Host}
    (stored : Holds bytes clefs text n h) {row : MessageRow} (mem : row ∈ h.world.db.messages) :
    size row.message.json
      = 171 + size (number row.seq.toNat) + size (string text) + size (number (10 ^ 18)) := by
  obtain ⟨-, named, body, postedAt⟩ := stored.rows row mem
  have name : size (string clefs) = 130 := size_string_replicate 32 _
  rw [Message.size_json]
  simp only [MessageRow.message, named, body, postedAt, name, Int.toNat_natCast]
  omega

end Sample

open Sample in
/-- **A page that is too large**: two hundred messages of 64 KiB, which the server accepts one by
one, and hands out together. -/
theorem page_too_large : ∃ (events : List HostEvent) (h : Host) (app : AppState)
    (threads : List (Thread Request Moment World Response)), Host.Ran brief events h ∧
      (∀ event ∈ events, event.Within 65536) ∧ h.running = some (app, threads) ∧
        ¬ PagesFit ⟨h.world, threads⟩ := by
  obtain ⟨text, long, body⟩ := exists_repeated 65536 'a'
  have letter : Char.utf8Size 'a' = 1 ∧ size (escaped 'a') = 1 := ⟨rfl, rfl⟩
  rw [letter.1, Nat.mul_one] at long
  rw [letter.2, Nat.mul_one] at body
  have sized : Sized (accepting 65536) ⟨text⟩ :=
    sized_of_bytes (le_of_eq long) (by rw [long]; decide +kernel)
  have small : size (PostMessageRequest.json ⟨text⟩) ≤ DEFAULT_BODY_LIMIT := by
    rw [PostMessageRequest.size_json, body]
    decide +kernel
  obtain ⟨events, h, ran, within, stored⟩ := holds 65536 clefs_fit sized small MAX_LIMIT
    (by decide)
  obtain ⟨threads, running⟩ := stored.running
  refine ⟨events, h, _, threads, ran, within, running, not_pagesFit (k := 65709) stored le_rfl
    (fun row mem => ?_) (by decide +kernel)⟩
  rw [size_held stored (List.mem_of_mem_drop mem), body]
  omega

open Sample in
/-- **Which servers send only pages that fit**: those whose messages have at most 6955 bytes.  The
bound is exact: with one byte more there is a run of the server after which a page can be asked for
that no client reads. -/
theorem pages_fit_iff (bytes : UInt32) :
    (∀ (crypto : Crypto) (events : List HostEvent) (h : Host) (app : AppState)
      (threads : List (Thread Request Moment World Response)), Host.Ran crypto events h →
        (∀ event ∈ events, event.Within bytes) →
          h.running = some (app, threads) → PagesFit ⟨h.world, threads⟩) ↔ bytes.toNat ≤ 6955 := by
  constructor
  · intro fit
    by_contra large
    -- bodies of control characters, at a position and a time of many digits
    obtain ⟨text, long, body⟩ := exists_repeated 6956 (Char.ofNat 1)
    have control : Char.utf8Size (Char.ofNat 1) = 1 ∧ size (escaped (Char.ofNat 1)) = 6 :=
      ⟨rfl, rfl⟩
    rw [control.1, Nat.mul_one] at long
    rw [control.2] at body
    have sized : Sized (accepting bytes) ⟨text⟩ := sized_of_bytes (by omega) (by omega)
    have small : size (PostMessageRequest.json ⟨text⟩) ≤ DEFAULT_BODY_LIMIT := by
      rw [PostMessageRequest.size_json, body]
      decide +kernel
    obtain ⟨events, h, ran, within, stored⟩ := holds bytes clefs_fit sized small
      (10 ^ 13 + MAX_LIMIT) (by decide +kernel)
    obtain ⟨threads, running⟩ := stored.running
    have valid : h.world.db.Valid := (ran.sound.running _ threads running).2.inv
    refine not_pagesFit (k := 41942) stored (Nat.le_add_left _ _) (fun row mem => ?_)
      (by decide +kernel) (fit brief events h _ threads ran within running)
    have late_ : 18 < size (number (10 ^ 18)) := lt_size_number (by decide) le_rfl
    have position : 13 < size (number row.seq.toNat) := by
      refine lt_size_number (by decide) ?_
      have := valid.lt_seq_of_mem_drop mem
      omega
    rw [size_held stored (List.mem_of_mem_drop mem), body]
    omega
  · intro small crypto events h app threads ran within running
    obtain ⟨sound, sized⟩ := ran.sizedTo within
    obtain ⟨⟨db, at_file⟩, -⟩ := sound.running app threads running
    have native : ¬ Foreign h.disk.database := at_file ▸ not_foreign_opened db
    exact pagesFit_of_sized small (sized.running app threads running).2 (sized.tables native)

end ScionChat
