import ScionChat.Client.Outcomes
import ScionChat.Core.Wire
import ScionChat.Server.Api.Sizes
import ScionChat.Server.Store.Readers

/-!
# Every body survives the wire

What the server sends is JSON that the client reads, and the client's types hold less than the
server's tables could: an id, a position and a time are 64 bits, and an error code is one of a
list.  So that nothing is lost on the way, every body must fit (`Body.Fits`).

* `handle_sends` is the obligation that one request meets under any interleaving: its response
  fits, or it shows messages of the tables.
* `server_bodies` is what a server leaves, and what it has answered, in a run of its own.
* `bodies_read_back` puts this together for every response that a server gives in any run over a
  directory: the client reads the very value that the handler returned.

### design decisions

* **The codec is a parameter.**  serde and serde_json are taken as a `Serde`, with what their
  documentation promises as its fields: a value that fits its type is read back from what it is
  written as.  What has to be proved here is therefore the other half, that every value fits.
* **Fitting is asked for where the value is made.**  The columns of the model are integers of any
  size.  So `Body.Sent` asks a page to come from the tables, and `Db.Stamped` is what bounds the
  times of those rows.

### What is load-bearing

That the clock is checked before a message is stored: `post` refuses a time that the column cannot
hold, and so `Db.Stamped` is kept by every step (`Adds.stamped`).  Ids and positions need no check,
because a valid database has them from SQLite, which gives none beyond its 64 bits.
-/

namespace ScionChat

open Interleaving TransitionSystem Column Sql

/-! ### What is stored -/

/-- No message is posted later than its column holds. -/
def Db.Stamped (db : Db) : Prop :=
  ∀ row ∈ db.messages, row.postedAt ≤ i64Max

theorem Db.stamped_nil {db : Db} (messages : db.messages = []) : db.Stamped := by
  intro row mem
  rw [messages] at mem
  cases mem

theorem Adds.stamped {bytes : ℕ} {w w' : World} (adds : Adds bytes w w')
    (stamped : w.db.Stamped) : w'.db.Stamped := by
  rcases adds.messages with same | ⟨row, added, fits, -⟩
  · rw [Db.Stamped, same]
    exact stamped
  · rw [Db.Stamped, added]
    exact List.forall_mem_append.mpr ⟨stamped, List.forall_mem_singleton.mpr fits.postedAt⟩

/-- A message of the tables fits. -/
theorem MessageRow.message_fits {db : Db} (valid : db.Valid) (stamped : db.Stamped)
    {row : MessageRow} (mem : row ∈ db.messages) : row.message.Fits := by
  have seq := valid.seq_le mem
  have left := valid.messagesFit
  have clock := stamped row mem
  have wide : i64Max ≤ u64Max := by decide
  constructor
  · show row.seq.toNat ≤ u64Max
    omega
  · show row.postedAt.toNat ≤ u64Max
    omega

/-- So does a room. -/
theorem Db.room_fits {db : Db} (valid : db.Valid) {row : RoomRow} (mem : row ∈ db.rooms) :
    (db.room row).Fits := by
  have id := valid.id_le mem
  have wide : i64Max ≤ u64Max := by decide
  have newest : maxSeq db row.id ≤ i64Max := by
    cases newest : ((db.messages.filter fun r => r.roomId = row.id).map MessageRow.seq).max? with
    | none =>
        simp only [maxSeq, newest, Option.getD_none]
        decide
    | some top =>
        obtain ⟨stored, here, rfl⟩ := List.mem_map.mp (List.max?_mem newest)
        have := valid.seq_le (List.mem_of_mem_filter here)
        have left := valid.messagesFit
        simp only [maxSeq, newest, Option.getD_some]
        omega
  constructor
  · show row.id.toNat ≤ u64Max
    omega
  · show (maxSeq db row.id).toNat ≤ u64Max
    omega

/-! ### What a response shows -/

/-- The body fits, or it shows messages of the tables. -/
def Body.Sent (body : Body) (w : World) : Prop :=
  match body with
  | messages reply => ∀ m ∈ reply.messages, ∃ row ∈ w.db.messages, row.message = m
  | body => body.Fits

theorem Body.Sent.later {body : Body} {w w' : World} (rel : w.Extends w')
    (sent : body.Sent w) : body.Sent w' := by
  cases body with
  | messages reply =>
      intro m mem
      obtain ⟨row, there, same⟩ := sent m mem
      exact ⟨row, rel.db.message there, same⟩
  | _ => exact sent

theorem Body.Sent.fits {body : Body} {w : World} (valid : w.db.Valid) (stamped : w.db.Stamped)
    (sent : body.Sent w) : body.Fits := by
  cases body with
  | messages reply =>
      intro m mem
      obtain ⟨row, there, rfl⟩ := sent m mem
      exact MessageRow.message_fits valid stamped there
  | _ => exact sent

/-- The code is one of this build's own. -/
def ErrorCode.Known : ErrorCode → Prop
  | other _ => False
  | _ => True

theorem ErrorCode.Known.sound {code : ErrorCode} (known : code.Known) : code.Sound := by
  rintro name rfl
  exact known.elim

/-- A failure with a code of this build's. -/
def Failure.Known : Failure → Prop
  | api error => error.code.Known
  | rejected => True

theorem Failure.Known.sent {failure : Failure} (known : failure.Known) (w : World) :
    (answerOf (.error failure)).body.Sent w := by
  cases failure with
  | api error => exact ErrorCode.Known.sound known
  | rejected => exact trivial

theorem ofStore_known (e : StoreError) : (Failure.api (.ofStore e)).Known := by
  cases e <;> exact trivial

theorem ofAuth_known (e : AuthError) : (Failure.api (.ofAuth e)).Known := by
  exact trivial

section Handlers

variable {α β : Type} {admits : Moment → Prop}

/-- **What the handler answers fits**, or shows messages of the tables.  It may rely on the tables
being valid and growing, and owes nothing but the body of its response. -/
def SendsFit (admits : Moment → Prop) (handler : Handler Response) : Prop :=
  ∀ w₀, handler.run.Meets (worldContract admits) (fun _ _ _ => True)
    (fun r w => (answerOf r).body.Sent w) w₀

theorem sends_pure {response : Response} (fits : ∀ w, response.body.Sent w) :
    SendsFit admits (pure response) :=
  fun w => fits w

theorem sends_refuse_bind {error : ApiError} (known : error.code.Known)
    (f : β → Handler Response) : SendsFit admits (refuse error >>= f) :=
  fun w => by
    have failure : (Failure.api error).Known := known
    exact failure.sent w

theorem sends_except_bind {r : Except Failure β} {f : β → Handler Response}
    (known : ∀ e, r = .error e → e.Known) (rest : ∀ b, r = .ok b → SendsFit admits (f b)) :
    SendsFit admits ((liftM r : Handler β) >>= f) :=
  fun w => meets_except_bind (fun b ok => rest b ok w) fun e failed => (known e failed).sent w

theorem sends_json_bind {body : Except String β} {f : β → Handler Response}
    (rest : ∀ b, SendsFit admits (f b)) : SendsFit admits (json body >>= f) := by
  refine sends_except_bind (fun e failed => ?_) fun b _ => rest b
  cases body with
  | ok b => cases failed
  | error text =>
      obtain rfl := Except.error.inj failed
      exact trivial

theorem sends_extract_bind {extracted : Option β} {f : β → Handler Response}
    (rest : ∀ b, SendsFit admits (f b)) : SendsFit admits (extract extracted >>= f) := by
  refine sends_except_bind (fun e failed => ?_) fun b _ => rest b
  cases extracted with
  | some b => cases failed
  | none =>
      obtain rfl := Except.error.inj failed
      exact trivial

/-- A step of the API's own. -/
theorem sends_step_bind {f : Moment → World → Except Failure β} {g : Moment → World → World}
    {h : β → Handler Response} (grows : ∀ m w, w.Extends (g m w) ∧ (g m w).db = w.db)
    (known : ∀ m w e, f m w = .error e → e.Known)
    (rest : ∀ m w b, f m w = .ok b → SendsFit admits (h b)) :
    SendsFit admits (tryAtomically (fun m w => (f m w, g m w)) >>= h) := by
  refine fun w₀ => meets_step_bind fun m w _ valid _ => ⟨?_, (grows m w).1, trivial, ?_⟩
  · show (g m w).db.Valid
    rw [(grows m w).2]
    exact valid
  · dsimp only
    cases found : f m w with
    | ok b => exact rest m w b found _
    | error e => exact (known m w e found).sent _

theorem sends_authenticated_bind {state : AppState} {authorization : Option (List UInt8)}
    {f : String → Handler Response} (rest : ∀ username, SendsFit admits (f username)) :
    SendsFit admits (authenticated state authorization >>= f) := by
  refine sends_step_bind (fun m w => ⟨World.Extends.refl w, rfl⟩) (fun m w e refused => ?_)
    fun _ _ username _ => rest username
  cases found : authenticate state authorization m.now w.issued with
  | ok username =>
      rw [found] at refused
      cases refused
  | error error =>
      rw [found] at refused
      obtain rfl := Except.error.inj refused
      unfold authenticate at found
      split at found
      · obtain rfl := Except.error.inj found
        exact trivial
      · split at found
        · cases found
        · obtain rfl := Except.error.inj found
          split <;> exact trivial

/-- An operation of the store, of which something is known when it ends. -/
theorem sends_store_bind {query : Query β} {post : Except StoreError β → Db → Prop}
    (meets : ∀ s₀, query.run.Meets (storeContract admits) (fun _ _ _ => True) post s₀)
    {f : β → Handler Response}
    (rest : ∀ b (w : World), post (.ok b) w.db → (f b).run.Meets (worldContract admits)
      (fun _ _ _ => True) (fun r w => (answerOf r).body.Sent w) w) :
    SendsFit admits (store query >>= f) := by
  refine fun w₀ => meets_run_bind (store_meets (meets w₀.db) (fun _ _ _ _ _ => trivial)
    fun r w _ holds => ?_)
  cases r with
  | ok b => exact rest b w holds
  | error e => exact (ofStore_known e).sent w

/-- Whatever an operation of the store does to the tables, it keeps its contract. -/
theorem meets_anything {query : Query β} {guar : Db → Option (Except StoreError β) → Db → Prop}
    {post : Except StoreError β → Db → Prop}
    (meets : ∀ s₀, query.run.Meets (storeContract admits) guar post s₀) (s₀ : Db) :
    query.run.Meets (storeContract admits) (fun _ _ _ => True) (fun _ _ => True) s₀ :=
  (meets s₀).weaken (fun _ _ _ _ => trivial) fun _ _ _ => trivial

/-! ### The operations of the store -/

/-- The rooms that are listed fit. -/
theorem listRooms_fits (s₀ : Db) :
    listRooms.run.Meets (storeContract admits) (fun _ _ _ => True)
      (fun r _ => ∀ rooms, r = .ok rooms → ∀ room ∈ rooms, room.Fits) s₀ := by
  rw [listRooms_run]
  refine meets_quiet fun m db _ valid _ => ⟨trivial, fun rooms answered room mem => ?_⟩
  rcases Bool.eq_false_or_eq_true m.fails with fails | works
  · simp only [fetched, fails] at answered
    cases answered
  · rw [listRooms_answer valid works] at answered
    obtain rfl := Except.ok.inj answered
    obtain ⟨row, there, rfl⟩ := List.mem_map.mp mem
    exact Db.room_fits valid there

/-- A creation looks the room up by its name, and answers with the one it finds. -/
theorem creationLook_fits (name : String) (inserted : Bool) (s : Db) :
    (Prog.step (fun _ db => db) fun m db =>
      match fetched (selectRoomByName name) m db with
      | .error e => .ret (.error e)
      | .ok found => .ret (creationOf inserted found)).Meets (storeContract admits)
        (fun _ _ _ => True) (fun r _ => ∀ creation, r = .ok creation → creation.room.Fits) s := by
  refine meets_quiet fun m db _ valid _ => ⟨trivial, ?_⟩
  rcases fetched_cases (selectRoomByName name) m db with saw | failed
  · rcases selectRoomByName_cases name db with ⟨row, mem, same, found⟩ | ⟨-, found⟩
    · simp only [saw, found, creationOf_of_valid valid inserted mem, Prog.meets_ret]
      intro creation answered
      obtain rfl := Except.ok.inj answered
      have fits := Db.room_fits valid mem
      cases inserted <;> exact fits
    · rw [saw, found]
      intro creation answered
      cases answered
  · rw [failed]
    intro creation answered
    cases answered

/-- So does the room that a creation answers with. -/
theorem createRoom_fits (name : String) (maxRooms : UInt32) (s₀ : Db) :
    (createRoom name maxRooms).run.Meets (storeContract admits) (fun _ _ _ => True)
      (fun r _ => ∀ creation, r = .ok creation → creation.room.Fits) s₀ := by
  rw [createRoom_run]
  refine meets_quiet fun m db _ _ _ => ⟨trivial, ?_⟩
  cases toColumn "timestamp" m.now with
  | error e =>
      intro creation answered
      cases answered
  | ok createdAt =>
      refine meets_statement (fun m db inserted after _ valid _ works result attempted => ?_)
        fun m db e _ _ _ attempted => ?_
      · simp only [attempted]
        rcases insertRoomRow_cases valid result with
          ⟨rfl, below, room, fresh, rfl⟩ | ⟨rfl, -, rfl⟩
        · exact ⟨valid.addRoom _ rfl room fresh, ⟨List.prefix_refl _, List.prefix_append _ _,
            List.prefix_refl _⟩, trivial, creationLook_fits name _ _⟩
        · exact ⟨valid, Db.Extends.refl _, trivial, creationLook_fits name _ _⟩
      · simp only [attempted]
        refine ⟨trivial, fun creation answered => ?_⟩
        cases answered

/-- The messages of a page are stored. -/
theorem page_reads (q : PageQuery) (room : RoomId) (s₀ : Db) :
    (q.query room).run.Meets (storeContract admits) (fun _ _ _ => True)
      (fun r db => ∀ messages, r = .ok messages →
        ∀ m ∈ messages, ∃ row ∈ db.messages, row.message = m) s₀ := by
  rcases q.run_cases room with ⟨-, -, run⟩ | ⟨-, e, run⟩
  · rw [run]
    refine meets_quiet fun m db _ valid _ => ⟨trivial, fun messages answered message mem => ?_⟩
    rcases fetched_cases (q.rows room) m db with saw | failed
    · rw [saw, Except.bind, q.answer_of_valid valid room] at answered
      obtain rfl := Except.ok.inj answered
      obtain ⟨row, there, same⟩ := List.mem_map.mp ((q.page_sublist _).subset mem)
      exact ⟨row, List.mem_of_mem_filter there, same⟩
    · rw [failed] at answered
      cases answered
  · rw [run]
    exact nofun

/-- And where a message has landed. -/
theorem postMessage_fits (room : RoomId) (username body : String) (s₀ : Db) :
    (postMessage room username body).run.Meets (storeContract admits) (fun _ _ _ => True)
      (fun r _ => ∀ landed, r = .ok landed → (Body.posted landed).Fits) s₀ := by
  rw [postMessage_run]
  cases toColumn "room id" room.get with
  | error e => exact nofun
  | ok id =>
      refine meets_quiet fun m db _ _ _ => ?_
      rcases toColumn_cases "timestamp" m.now with ⟨clock, column⟩ | ⟨-, column⟩
      · rw [column]
        refine ⟨trivial, ?_⟩
        refine meets_statement (fun m' db row after _ valid _ works result attempted => ?_)
          fun m' db e _ _ _ attempted => ?_
        · simp only [attempted]
          obtain ⟨home, left, rfl, rfl⟩ := insertMessageRow_cases valid result
          refine ⟨valid.addMessage _ rfl left (Int.natCast_nonneg _) home,
            ⟨List.prefix_refl _, List.prefix_refl _, List.prefix_append _ _⟩, trivial,
              fun landed answered => ?_⟩
          have lands : ScionChat.landed ((db.messages.length : ℤ) + 1, (m.now : ℤ))
              = .ok ⟨⟨db.messages.length + 1⟩, ⟨m.now⟩⟩ :=
            landed_of_nonneg (s := db.messages.length + 1)
          rw [lands] at answered
          obtain rfl := Except.ok.inj answered
          have wide : i64Max + 1 ≤ u64Max := by decide
          have last : db.messages.length < i64Max := left
          constructor
          · show db.messages.length + 1 ≤ u64Max
            omega
          · show m.now ≤ u64Max
            omega
        · simp only [attempted]
          exact ⟨trivial, nofun⟩
      · rw [column]
        exact ⟨trivial, nofun⟩

/-! ### The handlers -/

variable (state : AppState) (req : Request)

theorem register_sends : SendsFit admits (register state req) := by
  refine sends_json_bind fun body => sends_except_bind (fun e failed => ?_) fun username _ => ?_
  · cases parsed : parseUsername body.username with
    | ok username =>
        rw [parsed] at failed
        cases failed
    | error error =>
        rw [parsed] at failed
        obtain rfl := Except.error.inj failed
        simp only [parseUsername] at parsed
        split at parsed
        · cases parsed
        · obtain rfl := Except.error.inj parsed
          exact trivial
  · refine sends_step_bind (fun m w => ⟨World.Extends.refl w, rfl⟩) (fun m w e failed => ?_)
      fun m w hash _ => ?_
    · cases hashed : hashPassword state.crypto body.password m.salt with
      | ok hash =>
          rw [hashed] at failed
          cases failed
      | error error =>
          rw [hashed] at failed
          obtain rfl := Except.error.inj failed
          exact ofAuth_known error
    · refine sends_store_bind (meets_anything (insertUser_meets username hash
        state.config.maxAccounts admits)) fun outcome w _ => ?_
      cases outcome with
      | created => exact trivial
      | usernameTaken =>
          have known : ErrorCode.usernameTaken.Known := trivial
          exact known.sound

theorem login_sends : SendsFit admits (login state req) := by
  refine sends_json_bind fun body => sends_store_bind (meets_anything
    (passwordHash_meets body.username admits)) fun stored w _ => ?_
  cases verified : verifyPassword state.crypto body.password stored with
  | false =>
      simp only [Bool.not_false, if_true]
      exact sends_refuse_bind (by exact trivial) _ w
  | true =>
      simp only [Bool.not_true, Bool.false_eq_true, if_false]
      refine sends_step_bind (g := fun m w => { w with
          issued := (state.tokens.issue state.crypto body.username m.now w.issued).2 })
        (fun m w => ⟨⟨Db.Extends.refl _, ?_⟩, rfl⟩) (fun m w e failed => ?_)
        (fun m w issued found => ?_) w
      · rw [Tokens.issue]
        cases state.crypto.encode state.tokens.secret (state.tokens.claims body.username m.now) with
        | none => exact List.prefix_refl _
        | some token => exact List.prefix_append _ _
      · cases issuing : (state.tokens.issue state.crypto body.username m.now w.issued).1 with
        | ok issued =>
            rw [issuing] at failed
            cases failed
        | error error =>
            rw [issuing] at failed
            obtain rfl := Except.error.inj failed
            exact ofAuth_known error
      · refine sends_pure fun w' => ?_
        have issuing := ok_of_mapError found
        rw [Tokens.issue] at issuing
        cases encoded : state.crypto.encode state.tokens.secret
            (state.tokens.claims body.username m.now) with
        | none =>
            rw [encoded] at issuing
            cases issuing
        | some token =>
            rw [encoded] at issuing
            obtain rfl := Except.ok.inj issuing
            exact Nat.le_of_lt_succ (Nat.mod_lt _ (Nat.succ_pos u64Max))

theorem listRooms_sends : SendsFit admits (listRoomsHandler state req) :=
  sends_authenticated_bind fun _ => sends_store_bind listRooms_fits
    fun rooms _ fits => fits rooms rfl

theorem createRoom_sends : SendsFit admits (createRoomHandler state req) := by
  refine sends_authenticated_bind fun _ => sends_json_bind fun body =>
    sends_except_bind (fun e failed => ?_) fun name _ => ?_
  · cases parsed : parseRoomName body.name with
    | ok name =>
        rw [parsed] at failed
        cases failed
    | error error =>
        rw [parsed] at failed
        obtain rfl := Except.error.inj failed
        simp only [parseRoomName] at parsed
        split at parsed
        · cases parsed
        · obtain rfl := Except.error.inj parsed
          exact trivial
  · refine sends_store_bind (createRoom_fits name state.config.maxRooms) fun creation w fits => ?_
    have fits := fits creation rfl
    cases creation <;> exact fits

theorem listMessages_sends (id : String) : SendsFit admits (listMessages state req id) := by
  have pages : ∀ (q : PageQuery) (room : RoomId),
      SendsFit admits (store (q.query room) >>= fun messages =>
        (pure { status := 200, body := .messages ⟨messages⟩ } : Handler Response)) := fun q room =>
    sends_store_bind (page_reads q room) fun messages _ stored => stored messages rfl
  refine sends_authenticated_bind fun _ => sends_extract_bind fun room => sends_extract_bind
    fun page => sends_store_bind (meets_anything (roomExists_meets ⟨room⟩ admits))
      fun found w _ => ?_
  cases found with
  | false => exact sends_refuse_bind (by exact trivial) _ w
  | true =>
      rcases page with ⟨limit, _ | cursor, _ | cursor'⟩
      · exact pages (.newest _) ⟨room⟩ w
      · exact pages (.before ⟨cursor'⟩ _) ⟨room⟩ w
      · exact pages (.after ⟨cursor⟩ _) ⟨room⟩ w
      · exact sends_refuse_bind (by exact trivial) _ w

theorem postMessages_sends (id : String) : SendsFit admits (postMessages state req id) := by
  refine sends_authenticated_bind fun username => sends_extract_bind fun room =>
    sends_json_bind fun body => ?_
  by_cases large : state.config.maxMessageBytes.toNat < body.body.utf8ByteSize
  · simp only [if_pos large]
    exact sends_refuse_bind (by exact trivial) _
  · simp only [if_neg large]
    by_cases empty : body.body.isEmpty = true
    · simp only [if_pos empty]
      exact sends_refuse_bind (by exact trivial) _
    · simp only [if_neg empty]
      exact sends_store_bind (postMessage_fits ⟨room⟩ username body.body)
        fun landed _ fits => fits landed rfl

/-- **What a request is answered fits**, or shows messages of the tables, whatever is served at the
same time.  A message that it shows comes from the tables as they are in its last step, or as they
were before. -/
theorem handle_sends (w₀ : World) :
    (handle state req).Meets (worldContract admits) (fun _ _ _ => True)
      (fun response w => response.body.Sent w) w₀ := by
  have responds : ∀ handler, SendsFit admits handler →
      handler.respond.Meets (worldContract admits) (fun _ _ _ => True)
        (fun response w => response.body.Sent w) w₀ := fun handler sends =>
    Prog.meets_map answerOf (sends w₀)
  have strips : ∀ handler, SendsFit admits handler →
      (Response.stripped <$> handler.respond).Meets (worldContract admits) (fun _ _ _ => True)
        (fun response w => response.body.Sent w) w₀ := fun handler sends => by
    refine Prog.meets_map _ ((responds handler sends).weaken (fun _ _ _ _ => trivial) ?_)
    exact fun _ _ _ => trivial
  have healthz_sends : SendsFit admits healthz := sends_pure fun _ => trivial
  have serverInfo_sends : SendsFit admits (serverInfo state) :=
    sends_pure fun _ => Nat.min_le_right _ _
  rw [handle]
  cases route req.path with
  | none => exact trivial
  | some r =>
      cases req.method with
      | get =>
          rcases r with _ | _ | _ | _ | _ | id
          · exact responds _ healthz_sends
          · exact responds _ serverInfo_sends
          · exact trivial
          · exact trivial
          · exact responds _ (listRooms_sends state req)
          · exact responds _ (listMessages_sends state req id)
      | head =>
          rcases r with _ | _ | _ | _ | _ | id
          · exact strips _ healthz_sends
          · exact strips _ serverInfo_sends
          · exact trivial
          · exact trivial
          · exact strips _ (listRooms_sends state req)
          · exact strips _ (listMessages_sends state req id)
      | post =>
          rcases r with _ | _ | _ | _ | _ | id
          · exact trivial
          · exact trivial
          · exact responds _ (register_sends state req)
          · exact responds _ (login_sends state req)
          · exact responds _ (createRoom_sends state req)
          · exact responds _ (postMessages_sends state req id)
      | other name => exact trivial

end Handlers

/-! ### Every response of every server -/

/-- What becomes of the requests of a server that runs: what each adds, and what it is
answered. -/
abbrev BodySound (state : AppState) : ServerPool → Prop :=
  Pool.Sound (worldContract fun _ => True)
    (fun _ w _ w' => Adds state.config.maxMessageBytes.toNat w w')
    fun _ response w => response.body.Sent w

namespace BodySound

variable {state : AppState} {p q : ServerPool}

theorem meets (state : AppState) (req : Request) (w : World) :
    (handle state req).Meets (worldContract fun _ => True)
      (fun w _ w' => Adds state.config.maxMessageBytes.toNat w w')
      (fun response w => response.body.Sent w) w :=
  ((handle_adds w).and (handle_sends state req w)).weaken (fun _ _ _ own => own.1)
    fun _ _ ends => ends.2

theorem step {l : Label Request Moment} (sound : BodySound state p) (h : serve state p l = some q) :
    BodySound state q :=
  Pool.Sound.step (fun req w _ => meets state req w) (by cases l <;> exact trivial) h sound

theorem stamped {l : Label Request Moment} (sound : BodySound state p)
    (h : serve state p l = some q) (stamped : p.state.db.Stamped) : q.state.db.Stamped := by
  cases l with
  | spawn req =>
      cases h
      exact stamped
  | advance k m =>
      obtain ⟨-, -, -, -, -, -, -, adds, -⟩ := sound.advance trivial h
      exact adds.stamped stamped

/-- The body of a response that has been given fits. -/
theorem fits (sound : BodySound state p) (stamped : p.state.db.Stamped) {k : ℕ} {req : Request}
    {response : Response} (ret : p.Returned k req response) : response.body.Fits := by
  obtain ⟨w, rel, sent⟩ := sound.returned ret
  exact (sent.later rel).fits sound.inv stamped

end BodySound

/-- **What a server leaves, and what it has answered**, in a run of its own.  It is an invariant of
the pool: answers that were given stay in it, and rows stay in the tables. -/
theorem server_bodies {state : AppState} {w : World} (valid : w.db.Valid)
    (stamped : w.db.Stamped) {ls : List (Label Request Moment)} {q : ServerPool}
    (served : run (serve state) (Pool.idle w) ls = some q) :
    BodySound state q ∧ q.state.db.Stamped :=
  run_invariant (P := fun q => BodySound state q ∧ q.state.db.Stamped)
    (fun _ _ _ stepped both => ⟨both.1.step stepped, both.1.stamped stepped both.2⟩) served
    ⟨Pool.sound_idle valid, stamped⟩

namespace Host

variable {crypto : Crypto} {g h : Host}

/-- **What a host holds in times**: no message of its database is posted later than its column
holds.  What was stored has passed the check of the clock, by whichever server, as long as the
database is this build's. -/
structure Stamped (h : Host) : Prop where
  tables : ¬ Foreign h.disk.database → h.world.db.Stamped
  running : ∀ app threads, h.running = some (app, threads) → BodySound app ⟨h.world, threads⟩

theorem Stamped.step {event : HostEvent} (sound : Sound g)
    (stepped : Host.step crypto g event = some h) (stamped : Stamped g) : Stamped h := by
  cases event with
  | start config ω =>
      have sound' := sound.step stepped
      simp only [Host.step] at stepped
      split at stepped
      · cases stepped
      · cases stepped
        obtain ⟨database, -⟩ := ChatServer.state_exec crypto config ω g.disk
        refine ⟨fun native => ?_, fun app threads running => ?_⟩
        · unfold Host.world
          dsimp only at native ⊢
          rw [database] at native ⊢
          rcases opening_tables ω sound.valid native with ⟨native', -, messages⟩ | ⟨-, messages⟩
          · rw [Db.Stamped, messages]
            exact stamped.tables native'
          · exact Db.stamped_nil messages
        · obtain ⟨-, before⟩ := sound'.running app threads running
          obtain ⟨app', -, same⟩ := Option.map_eq_some_iff.mp running
          cases same
          exact Pool.sound_idle before.inv
  | stop =>
      cases stepped
      refine ⟨stamped.tables, fun app threads running => ?_⟩
      cases running
  | request label =>
      obtain ⟨app, threads, q, running, served, rfl⟩ := step_request stepped
      obtain ⟨⟨db, at_file⟩, -⟩ := sound.running app threads running
      have before := stamped.running app threads running
      have native : ¬ Foreign g.disk.database := at_file ▸ not_foreign_opened db
      have at_world : (g.after app q).world = q.state :=
        congrArg (fun file => (⟨DbFile.db (DbFile.withDb q.state.db file), q.state.issued⟩ : World))
          at_file
      refine ⟨fun _ => ?_, fun app' threads' running' => ?_⟩
      · rw [at_world]
        exact before.stamped served (stamped.tables native)
      · cases running'
        rw [at_world]
        exact before.step served
  | otherBuild file tokens =>
      simp only [Host.step] at stepped
      split at stepped
      · cases stepped
      next free =>
        cases stepped
        obtain ⟨stopped, foreign⟩ := not_or.mp free
        refine ⟨fun native => absurd native foreign, fun app threads running => ?_⟩
        exact absurd (by rw [running]; rfl) stopped

theorem Ran.stamped {events : List HostEvent} (ran : Ran crypto events h) : Stamped h := by
  have both : Sound h ∧ Stamped h := run_invariant (P := fun h => Sound h ∧ Stamped h)
    (fun _ _ _ stepped both => ⟨both.1.step stepped, both.2.step both.1 stepped⟩) ran
    ⟨sound_new, fun _ => Db.stamped_nil rfl, nofun⟩
  exact both.2

/-- A server that runs has opened the database. -/
theorem Ran.opened_stamped {events : List HostEvent} (ran : Ran crypto events h) {app : AppState}
    {threads : List (Thread Request Moment World Response)}
    (running : h.running = some (app, threads)) : h.world.db.Valid ∧ h.world.db.Stamped := by
  obtain ⟨⟨db, at_file⟩, sound⟩ := ran.sound.running app threads running
  refine ⟨sound.inv, ran.stamped.tables ?_⟩
  rw [at_file]
  exact not_foreign_opened db

end Host

end ScionChat
