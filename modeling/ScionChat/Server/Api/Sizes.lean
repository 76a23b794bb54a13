import ScionChat.Server.Host
import ScionChat.Server.Store.Log
import ScionChat.Core.Json

/-!
# How large what is stored can be

A page of messages is as large as its messages, and those are as large as the server has accepted
them: a body has at most `max_message_bytes`, and a username comes from a token, and so from a
login to an account that has once been registered under 1 to 32 characters.

* `handle_adds` says what one step of serving a request adds;
* `handle_shows` says what a request for a page is answered: rows of the tables, and no more than a
  page may have;
* `Host.SizedTo` is the invariant that comes of them, of the tables and of the ledger of tokens,
  and `Host.Ran.sizedTo` has it over every run of servers that have had the same
  `max_message_bytes`.

### design decisions

* **The bound is the configuration's, and it may change.**  A directory outlives the server that
  wrote to it.  A server with a smaller `max_message_bytes` still serves what a larger one has
  accepted, so a bound on a page needs all servers of the run to have had it.
* **Bytes are counted where the source counts them.**  A username is counted in characters and a
  body in bytes of UTF-8; how many bytes either takes as JSON is not a matter of the tables.

### What is load-bearing

`NameFits` is about the name that was *typed* at login, which reaches the tables through a token.
It holds because `NOCASE` equates it with the name of an account, and folding ASCII letters changes
neither how many characters a name has nor whether one of them is a control character.
-/

namespace ScionChat

open Interleaving TransitionSystem Column

/-! ### Names -/

/-- What is known of a username: it has at most 32 characters, and no C0 control characters. -/
structure NameFits (name : String) : Prop where
  short : name.toList.length ≤ 32
  printable : ∀ c ∈ name.toList, 32 ≤ c.toNat

theorem nameFits_of_parse {raw username : String} (h : parseUsername raw = .ok username) :
    NameFits username := by
  obtain rfl := parseUsername_eq_ok h
  simp only [parseUsername] at h
  split at h
  · next fits =>
      refine ⟨fits.2.1, fun c mem => ?_⟩
      by_contra control
      have some_control : username.toList.any isControl = true :=
        List.any_eq_true.mpr ⟨c, mem, by simp [isControl, not_le.mp control]⟩
      rw [some_control] at fits
      exact absurd fits.2.2 (by decide)
  · cases h

/-- A letter in lower case is no more a control character than it was before. -/
theorem toLower_control {c : Char} : 32 ≤ c.toLower.toNat ↔ 32 ≤ c.toNat := by
  unfold Char.toLower
  split
  · next upper =>
      have letter : 65 ≤ c.toNat ∧ c.toNat ≤ 90 := upper
      show 32 ≤ (c.val + 32).toNat ↔ 32 ≤ c.val.toNat
      rw [UInt32.toNat_add]
      show 32 ≤ (c.toNat + 32) % 2 ^ 32 ↔ 32 ≤ c.toNat
      omega
  · exact Iff.rfl

/-- A name that `NOCASE` equates with one that fits does. -/
theorem NameFits.noCase {a b : String} (fits : NameFits a) (same : NoCase a b) : NameFits b := by
  unfold NoCase foldCase at same
  refine ⟨?_, fun c mem => ?_⟩
  · have lengths := congrArg List.length same
    rw [List.length_map, List.length_map] at lengths
    exact lengths ▸ fits.short
  · have folded : c.toLower ∈ a.toList.map Char.toLower := same ▸ List.mem_map_of_mem mem
    obtain ⟨d, there, eq⟩ := List.mem_map.mp folded
    rw [← toLower_control, ← eq, toLower_control]
    exact fits.printable d there

/-! ### What serving a request adds -/

/-- A message as `post` accepts it, where bodies have at most so many bytes. -/
structure RowSized (bytes : ℕ) (row : MessageRow) : Prop where
  body : row.body.utf8ByteSize ≤ bytes
  postedAt : row.postedAt ≤ i64Max

/-- **What a step adds**: an account under a name that fits, a token for a name that `NOCASE`
equates with that of an account, and a message that `post` accepts, under the name of a token. -/
structure Adds (bytes : ℕ) (w w' : World) : Prop where
  users : w'.db.users = w.db.users ∨
    ∃ row, w'.db.users = w.db.users ++ [row] ∧ NameFits row.username
  issued : w'.issued = w.issued ∨ ∃ entry, w'.issued = w.issued ++ [entry] ∧
    ∃ row ∈ w.db.users, NoCase row.username entry.claims.sub
  messages : w'.db.messages = w.db.messages ∨ ∃ row,
    w'.db.messages = w.db.messages ++ [row] ∧ RowSized bytes row ∧
      ∃ entry ∈ w.issued, entry.claims.sub = row.username

theorem Adds.refl (bytes : ℕ) (w : World) : Adds bytes w w :=
  ⟨Or.inl rfl, Or.inl rfl, Or.inl rfl⟩

section Posting

variable {state : AppState} {req : Request} {admits : Moment → Prop}

/-- What a step of `postMessage` adds: a message, posted at a time that its column holds. -/
def PostsSized (username body : String) (s t : Db) : Prop :=
  t = s ∨ ∃ (seq id postedAt : ℤ), postedAt ≤ i64Max ∧
    t = { s with messages := s.messages ++ [⟨seq, id, username, body, postedAt⟩] }

theorem postMessage_sized (room : RoomId) (username body : String) (s₀ : Db) :
    (postMessage room username body).run.Meets (storeContract admits)
      (fun s _ t => PostsSized username body s t) (fun _ _ => True) s₀ := by
  rw [postMessage_run]
  cases toColumn "room id" room.get with
  | error e => exact trivial
  | ok id =>
      refine meets_quiet fun m db _ _ _ => ?_
      rcases toColumn_cases "timestamp" m.now with ⟨clock, column⟩ | ⟨-, column⟩
      · rw [column]
        refine ⟨Or.inl rfl, ?_⟩
        refine meets_statement (fun m' db row after _ valid _ works result attempted => ?_)
          fun m' db e _ _ _ attempted => ?_
        · simp only [attempted]
          obtain ⟨home, left, rfl, rfl⟩ := Sql.insertMessageRow_cases valid result
          refine ⟨valid.addMessage _ rfl left (Int.natCast_nonneg _) home,
            ⟨List.prefix_refl _, List.prefix_refl _, List.prefix_append _ _⟩, ?_, trivial⟩
          exact Or.inr ⟨_, _, _, Int.ofNat_le.mpr clock, rfl⟩
        · simp only [attempted]
          exact ⟨Or.inl rfl, trivial⟩
      · rw [column]
        exact ⟨Or.inl rfl, trivial⟩

/-- **What posting adds.** -/
theorem postMessages_adds (id : String) (w₀ : World) :
    (postMessages state req id).run.Meets (worldContract admits)
      (fun w _ w' => Adds state.config.maxMessageBytes.toNat w w') (fun _ _ => True) w₀ := by
  refine meets_step_bind fun m w ok valid rel => ⟨valid, World.Extends.refl w, Adds.refl _ w, ?_⟩
  cases accepted : authenticate state req.authorization m.now w.issued with
  | error e => exact trivial
  | ok username =>
      -- whoever posts has presented a token that names them
      have names : Names state username w.issued := by
        obtain ⟨token, -, verified⟩ := authenticate_eq_ok state accepted
        obtain ⟨entry, mem, secret, -, sub, -⟩ := Tokens.verify_eq_ok verified
        exact ⟨entry, mem, secret, sub⟩
      refine meets_except_bind (fun room _ => ?_) fun _ _ => trivial
      refine meets_except_bind (fun body _ => ?_) fun _ _ => trivial
      have posts (small : body.body.utf8ByteSize ≤ state.config.maxMessageBytes.toNat) :
          (store (postMessage ⟨room⟩ username body.body) >>= fun posted =>
            (pure { status := 201, body := .posted posted } : Handler Response)).run.Meets
              (worldContract admits)
              (fun w _ w' => Adds state.config.maxMessageBytes.toNat w w') (fun _ _ => True) w := by
        refine meets_run_bind (store_meets (postMessage_sized ⟨room⟩ username body.body w.db)
          (fun w' o db rel own => ?_) fun r w' _ _ => ?_)
        · rcases own with rfl | ⟨seq, there, postedAt, clock, rfl⟩
          · exact Adds.refl _ w'
          · obtain ⟨entry, mem, -, sub⟩ := names.later state rel
            exact ⟨Or.inl rfl, Or.inl rfl, Or.inr ⟨_, rfl, ⟨small, clock⟩, entry, mem, sub⟩⟩
        · cases r with
          | error e => exact trivial
          | ok posted => exact trivial
      by_cases large : state.config.maxMessageBytes.toNat < body.body.utf8ByteSize
      · simp only [if_pos large]
        exact trivial
      · simp only [if_neg large]
        by_cases empty : body.body.isEmpty = true
        · simp only [if_pos empty]
          exact trivial
        · simp only [if_neg empty]
          exact posts (not_lt.mp large)

/-- A registration under a name that does not parse takes no step. -/
theorem register_unparsed {body : RegisterRequest} {e : ApiError}
    (sends : req.body.register = .ok body) (unfit : parseUsername body.username = .error e) :
    (register state req).run = .ret (.error (.api e)) := by
  simp only [register, json, sends, Except.mapError, run_except_bind, onOk_ok, unfit, onOk_error]

/-- **What serving a request adds.** It is derived from what a step writes, and from what the
handler has checked before. -/
theorem handle_adds (w₀ : World) :
    (handle state req).Meets (worldContract admits)
      (fun w _ w' => Adds state.config.maxMessageBytes.toNat w w') (fun _ _ => True) w₀ := by
  by_cases posting : Posting req
  · obtain ⟨method, id, at_route⟩ := posting
    simp only [handle, at_route, method]
    exact Prog.meets_map _ (postMessages_adds id w₀)
  by_cases unparsed : ∃ body e, Registering req body ∧ parseUsername body.username = .error e
  · obtain ⟨body, e, ⟨method, at_route, sends⟩, unfit⟩ := unparsed
    simp only [handle, at_route, method]
    refine Prog.meets_map _ ?_
    rw [register_unparsed sends unfit]
    exact trivial
  refine (handle_meets state req w₀).weaken (fun w o w' acts => ?_) fun _ _ _ => trivial
  refine ⟨?_, ?_, ?_⟩
  · rcases acts.users with same | ⟨body, registering, -, -, row, salt, added, named, -⟩
    · exact Or.inl same
    · refine Or.inr ⟨row, added, ?_⟩
      cases parsed : parseUsername body.username with
      | error e => exact absurd ⟨body, e, registering, parsed⟩ unparsed
      | ok username =>
          rw [named, ← parseUsername_eq_ok parsed]
          exact nameFits_of_parse parsed
  · rcases acts.issued with same | ⟨body, reply, -, -, ⟨row, mem, named, -⟩, now, added⟩
    · exact Or.inl same
    · exact Or.inr ⟨_, added, row, mem, named⟩
  · rcases acts.messages with same | ⟨posts, -⟩
    · exact Or.inl same
    · exact absurd posts posting

end Posting

/-! ### What is answered to a request for a page -/

/-- The request asks for a page of messages. -/
def Listing (req : Request) : Prop :=
  req.method = .get ∧ ∃ id, route req.path = some (.messages id)

/-- **A page** in a response has no more messages than a page may have, all from the tables.
Whatever else a response has in it, a page is the one body that grows with the tables. -/
def Shows (response : Response) (w : World) : Prop :=
  ∀ reply, response.body = .messages reply →
    reply.messages.length ≤ MAX_LIMIT ∧
      ∀ message ∈ reply.messages, ∃ row ∈ w.db.messages, row.message = message

theorem shows_of_error (failure : Failure) (w : World) : Shows (answerOf (.error failure)) w := by
  intro reply same
  cases failure <;> cases same

theorem Shows.later {response : Response} {w w' : World} (shows_ : Shows response w)
    (rel : w.Extends w') : Shows response w' := by
  intro reply same
  obtain ⟨few, stored⟩ := shows_ reply same
  refine ⟨few, fun message mem => ?_⟩
  obtain ⟨row, there, eq⟩ := stored message mem
  exact ⟨row, rel.db.messages.subset there, eq⟩

theorem PageQuery.length_page_le (q : PageQuery) (log : List Message) :
    (q.page log).length ≤ q.limit := by
  have last (l : List Message) (n : ℕ) : (l.rtake n).length ≤ n := by
    rw [List.rtake, List.length_drop]
    omega
  cases q with
  | newest limit => exact last log limit
  | after cursor limit => exact List.length_take_le limit _
  | before cursor limit => exact last _ limit

section Listing

variable {state : AppState} {req : Request} {admits : Moment → Prop}

/-- What a page query reads, as the operation of a handler. -/
theorem page_shows (q : PageQuery) (small : q.limit ≤ MAX_LIMIT) (room : RoomId) (w₀ : World) :
    (store (q.query room) >>= fun messages =>
      (pure { status := 200, body := .messages ⟨messages⟩ } : Handler Response)).run.Meets
        (worldContract admits) (fun _ _ _ => True) (fun r w => Shows (answerOf r) w) w₀ := by
  have reads : (q.query room).run.Meets (storeContract admits) (fun _ _ _ => True)
      (fun r db => ∀ messages, r = .ok messages → messages = q.page (db.log room)) w₀.db := by
    rcases q.run_cases room with ⟨-, -, run⟩ | ⟨-, e, run⟩
    · rw [run]
      refine meets_quiet fun m db _ valid _ => ⟨trivial, fun messages answered => ?_⟩
      rcases fetched_cases (q.rows room) m db with saw | failed
      · rw [saw, Except.bind, q.answer_of_valid valid room] at answered
        exact (Except.ok.inj answered).symm
      · rw [failed] at answered
        cases answered
    · rw [run]
      exact nofun
  refine meets_run_bind (store_meets reads (fun _ _ _ _ _ => trivial) fun r w _ holds => ?_)
  cases r with
  | error e => exact shows_of_error _ w
  | ok messages =>
      rintro reply ⟨⟩
      obtain rfl := holds messages rfl
      refine ⟨(q.length_page_le _).trans small, fun message mem => ?_⟩
      obtain ⟨row, there, eq⟩ := List.mem_map.mp ((q.page_sublist _).subset mem)
      exact ⟨row, List.mem_of_mem_filter there, eq⟩

/-- **What a request for a page is answered.** -/
theorem listMessages_shows (id : String) (w₀ : World) :
    (listMessages state req id).run.Meets (worldContract admits)
      (fun _ _ _ => True) (fun r w => Shows (answerOf r) w) w₀ := by
  refine meets_step_bind fun m w ok valid rel => ⟨valid, World.Extends.refl w, trivial, ?_⟩
  cases authenticate state req.authorization m.now w.issued with
  | error e => exact shows_of_error _ w
  | ok username =>
      refine meets_except_bind (fun room _ => ?_) fun e _ => shows_of_error e w
      refine meets_except_bind (fun page _ => ?_) fun e _ => shows_of_error e w
      have clamped : page.clamped ≤ MAX_LIMIT := max_le (by decide) (min_le_right _ _)
      refine meets_run_bind (store_meets (roomExists_meets ⟨room⟩ admits w.db)
        (fun _ _ _ _ _ => trivial) fun r w' _ _ => ?_)
      rcases r with e | (_ | _)
      · exact shows_of_error _ w'
      · exact shows_of_error _ w'
      · rcases page with ⟨limit, _ | cursor, _ | cursor'⟩
        · exact page_shows (.newest _) clamped ⟨room⟩ w'
        · exact page_shows (.before ⟨cursor'⟩ _) clamped ⟨room⟩ w'
        · exact page_shows (.after ⟨cursor⟩ _) clamped ⟨room⟩ w'
        · exact shows_of_error _ w'

theorem handle_shows (w₀ : World) :
    (handle state req).Meets (worldContract admits) (fun _ _ _ => True)
      (fun response w => Listing req → Shows response w) w₀ := by
  by_cases listing : Listing req
  · obtain ⟨method, id, at_route⟩ := listing
    simp only [handle, at_route, method]
    refine Prog.meets_map _ ?_
    exact (listMessages_shows id w₀).weaken (fun _ _ _ _ => trivial) fun r w holds _ => holds
  · exact (handle_meets state req w₀).weaken (fun _ _ _ _ => trivial)
      fun _ _ _ listing' => absurd listing' listing

end Listing

/-! ### What a host holds -/

/-- The tables have names that fit, and messages as `post` accepts them. -/
structure Db.SizedTo (bytes : ℕ) (db : Db) : Prop where
  users : ∀ row ∈ db.users, NameFits row.username
  messages : ∀ row ∈ db.messages, NameFits row.username ∧ RowSized bytes row

theorem Db.sizedTo_nil {bytes : ℕ} {db : Db} (users : db.users = []) (messages : db.messages = []) :
    db.SizedTo bytes :=
  ⟨fun _ mem => absurd (users ▸ mem) List.not_mem_nil,
    fun _ mem => absurd (messages ▸ mem) List.not_mem_nil⟩

/-- What a step adds is sized as what there was. -/
theorem Adds.sizedTo {bytes : ℕ} {w w' : World} (adds : Adds bytes w w')
    (sized : w.db.SizedTo bytes) (names : ∀ entry ∈ w.issued, NameFits entry.claims.sub) :
    w'.db.SizedTo bytes ∧ ∀ entry ∈ w'.issued, NameFits entry.claims.sub := by
  refine ⟨⟨?_, ?_⟩, ?_⟩
  · rcases adds.users with same | ⟨row, added, fits⟩
    · rw [same]
      exact sized.users
    · rw [added]
      exact List.forall_mem_append.mpr ⟨sized.users, List.forall_mem_singleton.mpr fits⟩
  · rcases adds.messages with same | ⟨row, added, fits, entry, mem, sub⟩
    · rw [same]
      exact sized.messages
    · rw [added]
      exact List.forall_mem_append.mpr ⟨sized.messages,
        List.forall_mem_singleton.mpr ⟨sub ▸ names entry mem, fits⟩⟩
  · rcases adds.issued with same | ⟨entry, added, row, mem, named⟩
    · rw [same]
      exact names
    · rw [added]
      exact List.forall_mem_append.mpr ⟨names,
        List.forall_mem_singleton.mpr ((sized.users row mem).noCase named)⟩

/-- What becomes of the requests of a server that runs. -/
abbrev PageSound (state : AppState) : ServerPool → Prop :=
  Pool.Sound (worldContract fun _ => True)
    (fun _ w _ w' => Adds state.config.maxMessageBytes.toNat w w')
    fun req response w => Listing req → Shows response w

theorem PageSound.step {state : AppState} {p q : ServerPool} {l : Label Request Moment}
    (sound : PageSound state p) (h : serve state p l = some q) : PageSound state q := by
  refine Pool.Sound.step (fun req w _ => ?_) (by cases l <;> exact trivial) h sound
  exact ((handle_adds w).and (handle_shows w)).weaken (fun _ _ _ own => own.1)
    fun _ _ ends => ends.2

/-- The most that axum's `Json` extractor reads of a body. -/
def DEFAULT_BODY_LIMIT : ℕ := 2 * 1024 * 1024

/-- **The events of servers with this `max_message_bytes`.**  A body that posts a message has a
text that the extractor reads, and a build of another schema version keeps the names as this one
does. -/
def HostEvent.Within (bytes : UInt32) : HostEvent → Prop
  | .start config _ => config.maxMessageBytes = bytes
  | .request (.spawn req) => ∀ body, req.body.postMessage = .ok body →
      Json.size body.json ≤ DEFAULT_BODY_LIMIT
  | .otherBuild _ tokens => ∀ entry ∈ tokens, NameFits entry.claims.sub
  | _ => True

/-- **What a host holds** whose servers have all had this `max_message_bytes`.  Another build's
database is left out, since it is discarded before anything is served from it. -/
structure Host.SizedTo (bytes : UInt32) (h : Host) : Prop where
  tables : ¬ Foreign h.disk.database → h.world.db.SizedTo bytes.toNat
  issued : ∀ entry ∈ h.issued, NameFits entry.claims.sub
  running : ∀ app threads, h.running = some (app, threads) →
    app.config.maxMessageBytes = bytes ∧ PageSound app ⟨h.world, threads⟩

/-- A server that has been started has the configuration it was started with. -/
theorem ChatServer.state_config {crypto : Crypto} {config : Config} {ω : ℕ → Moment} {disk : Disk}
    {app : AppState} (started : ((ChatServer.state crypto config).run.exec ω disk).1 = .ok app) :
    app.config = config := by
  unfold ChatServer.state at started
  obtain ⟨n, opening⟩ :=
    exec_onDatabase_bind (fun _ => onSecret loadOrCreateSecret >>= fun secret =>
    pure ({ crypto := crypto
            tokens := { secret := secret, validity := config.tokenValidity }
            config := config } : AppState)) ω disk SqliteStore.new
  rw [opening] at started
  revert started
  rcases SqliteStore.new.run.exec ω disk.database with ⟨e | done, file⟩
  · exact nofun
  · simp only [Except.mapError, onOk_ok]
    obtain ⟨m, loading⟩ := exec_onSecret_bind (fun secret => pure
      ({ crypto := crypto
         tokens := { secret := secret, validity := config.tokenValidity }
         config := config } : AppState)) (fun k => ω (k + n)) (disk.withDatabase file)
      loadOrCreateSecret
    rw [loading]
    rcases loadOrCreateSecret.run.exec (fun k => ω (k + n)) (disk.withDatabase file).secret with
      ⟨e | secret, left⟩
    · exact nofun
    · rintro ⟨⟩
      rfl

namespace Host

variable {crypto : Crypto} {g h : Host} {bytes : UInt32}

theorem sizedTo_new : SizedTo bytes new :=
  ⟨fun _ => Db.sizedTo_nil rfl rfl, fun _ mem => absurd mem List.not_mem_nil, nofun⟩

/-- **One event keeps what a host holds in size.** -/
theorem SizedTo.step {event : HostEvent} (sound : Sound g) (within : event.Within bytes)
    (stepped : Host.step crypto g event = some h) (sized : SizedTo bytes g) : SizedTo bytes h := by
  cases event with
  | start config ω =>
      have sound' := sound.step stepped
      simp only [Host.step] at stepped
      split at stepped
      · cases stepped
      · cases stepped
        obtain ⟨database, -⟩ := ChatServer.state_exec crypto config ω g.disk
        refine ⟨fun native => ?_, sized.issued, fun app threads running => ?_⟩
        · unfold Host.world
          dsimp only at native ⊢
          rw [database] at native ⊢
          rcases opening_tables ω sound.valid native with ⟨native', users, messages⟩ |
            ⟨users, messages⟩
          · refine ⟨?_, ?_⟩
            · rw [users]
              exact (sized.tables native').users
            · rw [messages]
              exact (sized.tables native').messages
          · exact Db.sizedTo_nil users messages
        · obtain ⟨-, before⟩ := sound'.running app threads running
          obtain ⟨app', ran, same⟩ := Option.map_eq_some_iff.mp running
          cases same
          have started : ((ChatServer.state crypto config).run.exec ω g.disk).1 = .ok app := by
            revert ran
            cases ((ChatServer.state crypto config).run.exec ω g.disk).1 with
            | error e =>
                intro ran
                cases ran
            | ok app' => exact fun ran => congrArg _ (Option.some.inj ran)
          rw [ChatServer.state_config started]
          exact ⟨within, Pool.sound_idle before.inv⟩
  | stop =>
      cases stepped
      refine ⟨sized.tables, sized.issued, fun app threads running => ?_⟩
      cases running
  | request label =>
      obtain ⟨app, threads, q, running, served, rfl⟩ := step_request stepped
      obtain ⟨⟨db, at_file⟩, -⟩ := sound.running app threads running
      obtain ⟨same, before⟩ := sized.running app threads running
      have native : ¬ Foreign g.disk.database := at_file ▸ not_foreign_opened db
      have after : PageSound app q := before.step served
      have at_world : (g.after app q).world = q.state :=
        congrArg (fun file => (⟨DbFile.db (DbFile.withDb q.state.db file), q.state.issued⟩ : World))
          at_file
      have added : q.state.db.SizedTo bytes.toNat ∧
          ∀ entry ∈ q.state.issued, NameFits entry.claims.sub := by
        cases label with
        | spawn req =>
            cases served
            exact ⟨sized.tables native, sized.issued⟩
        | advance k m =>
            obtain ⟨-, -, -, -, -, -, -, adds, -⟩ := before.advance trivial served
            rw [same] at adds
            exact adds.sizedTo (sized.tables native) sized.issued
      refine ⟨fun _ => ?_, added.2, fun app' threads' running' => ?_⟩
      · rw [at_world]
        exact added.1
      · cases running'
        rw [at_world]
        exact ⟨same, after⟩
  | otherBuild file tokens =>
      simp only [Host.step] at stepped
      split at stepped
      · cases stepped
      next free =>
        cases stepped
        obtain ⟨stopped, foreign⟩ := not_or.mp free
        refine ⟨fun native => absurd native foreign,
          List.forall_mem_append.mpr ⟨sized.issued, within⟩, fun app threads running => ?_⟩
        exact absurd (by rw [running]; rfl) stopped

/-- **What servers with this `max_message_bytes` leave in a directory**, in every run.  What holds
of one event is carried along, from a directory with nothing in it. -/
theorem Ran.sizedTo {events : List HostEvent} (ran : Ran crypto events h)
    (within : ∀ event ∈ events, event.Within bytes) : Sound h ∧ SizedTo bytes h := by
  refine run_invariant_of (L := fun event : HostEvent => event.Within bytes)
    (P := fun h => Sound h ∧ SizedTo bytes h) ?_ within ran ⟨sound_new, sizedTo_new⟩
  intro g event h ok stepped both
  exact ⟨both.1.step stepped, both.2.step both.1 ok stepped⟩

end Host

end ScionChat
