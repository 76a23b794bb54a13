import ScionChat.Client.Network

/-!
# What a call has sent, and what it has returned

A call of the Rust client that needs the server puts one request on the wire, at the step behind
the one that reads the token, and settles the reply that the next step is handed.  Read off a
call's steps, whatever the other calls do in between:

* `call_sends` — which of its steps puts a request on the wire, and which request that is;
* `call_returned` — a call that has returned a value has read it off a success that it was handed
  behind that step;
* `call_fails`, `call_failed`, `call_expired` — why a call has failed, one reason for each variant
  of the error, and what it has sent by then.

### design decisions

* **Outcomes are functions of what was met.**  A statement here has the list of what a call's
  steps have met as its only argument, never the state of the client now.  It can be used in any
  larger system in which the same call takes its steps, which is how the deployment uses it.
* **A stage, not a program counter.**  `Stage` names the places a call can be in between two
  steps together with what is left of it, so that no lemma has to unfold the program again.

### What is load-bearing

`exchange_stage`.  It is the only induction of the module, over the steps that a call has taken;
`call_stage` instantiates it, and the outcomes are read off the stage a call has come to.
-/

namespace ScionChat

open Interleaving TransitionSystem

/-! ### The stages of an exchange -/

section Stages

variable {σ T B E β : Type}

/-- The step at which an exchange puts its request on the wire. -/
def sendsAt (needs : Bool) : ℕ :=
  if needs then 1 else 0

/-- An exchange has the token its request carries, if it carries one, and the request is built
with that. -/
def Builds (needs : Bool) (read : σ → Except E String)
    (build : Option String → Except E WireRequest) (met : Met σ T B) (request : WireRequest) :
    Prop :=
  (needs → (carried needs read met).isSome) ∧ build (carried needs read met) = .ok request

/-- **Where an exchange is**, once its steps have met `met`, when `f` is what follows it.  Reading
the token, putting the request on the wire, and waiting for the reply are its steps, and after each
of them it may have ended. -/
inductive Stage (needs : Bool) (read : σ → Except E String)
    (build : Option String → Except E WireRequest) (raise : T → E)
    (f : Option String × Reply B → Call σ T B E β) (met : Met σ T B) :
    Prog (Except T (Reply B)) (ClientState σ) (Except E β) → Prop
  | reads (next) (early : met.length < sendsAt needs) :
      Stage needs read build raise f met (.step (fun _ s => s) next)
  /-- There is no token to carry, or nothing can be built with it. -/
  | unsent (e : E) (unbuilt : ∀ request, ¬ Builds needs read build met request)
      (source : (needs ∧ ∃ first, met[0]? = some first ∧ read first.2.session = .error e) ∨
        build (carried needs read met) = .error e) :
      Stage needs read build raise f met (.ret (.error e))
  | sends (request : WireRequest) (next) (here : met.length = sendsAt needs)
      (built : Builds needs read build met request) :
      Stage needs read build raise f met (.step (fun _ s => s.sending request) next)
  | awaits (request : WireRequest) (next) (here : met.length = sendsAt needs + 1)
      (built : Builds needs read build met request) :
      Stage needs read build raise f met (.step (fun _ s => s) next)
  | dropped (source : T) (answered : answer needs met = some (.error source)) :
      Stage needs read build raise f met (.ret (.error (raise source)))
  | settles (request : WireRequest) (reply : Reply B)
      (answered : answer needs met = some (.ok reply))
      (built : Builds needs read build met request) :
      Stage needs read build raise f met
        ((f (carried needs read met, reply)).run.resume (met.drop (sendsAt needs + 2)))

variable {needs : Bool} {read : σ → Except E String} {build : Option String → Except E WireRequest}
  {raise : T → E} {f : Option String × Reply B → Call σ T B E β}

/-- An exchange whose token has been read, or that needs none: `before` is what its steps have met
by then. -/
theorem stage_of_sent (before met : Met σ T B) (sent : Option String)
    (read_at : before.length = sendsAt needs) (holds : needs → sent.isSome)
    (carries : ∀ met, carried needs read (before ++ met) = sent) :
    Stage needs read build raise f (before ++ met)
      (((liftM (build sent) : Call σ T B E WireRequest) >>= fun request =>
        transport raise request >>= fun reply => f (sent, reply)).run.resume met) := by
  have length : (before ++ met).length = sendsAt needs + met.length := by
    rw [List.length_append, read_at]
  rw [run_except_bind]
  cases built : build sent with
  | error e =>
      rw [onOk_error, Prog.resume_ret]
      refine .unsent e (fun request builds => ?_) (Or.inr ((carries met).symm ▸ built))
      rw [Builds, carries, built] at builds
      cases builds.2
  | ok request =>
      have built' : Builds needs read build (before ++ met) request := by
        rw [Builds, carries]
        exact ⟨holds, built⟩
      rw [onOk_ok, run_transport_bind]
      rcases met with _ | ⟨x, _ | ⟨⟨reply, y⟩, later⟩⟩
      · rw [Prog.resume_nil]
        exact .sends request _ length built'
      · rw [Prog.resume_step, Prog.resume_nil]
        exact .awaits request _ length built'
      · rw [Prog.resume_step, Prog.resume_step]
        have answered : answer needs (before ++ x :: (reply, y) :: later) = some reply := by
          have at_step : (if needs = true then 2 else 1) = before.length + 1 := by
            rw [read_at, sendsAt]
            split <;> rfl
          rw [answer, at_step, List.getElem?_append_right (Nat.le_succ _)]
          simp
        cases reply with
        | error e =>
            rw [Except.mapError, onOk_error, Prog.resume_ret]
            exact .dropped e answered
        | ok reply =>
            have rest :
                (before ++ x :: (.ok reply, y) :: later).drop (sendsAt needs + 2) = later := by
              rw [← read_at, List.drop_append]
              simp
            have settling : Stage needs read build raise f _ _ :=
              Stage.settles request reply answered built'
            rw [carries, rest] at settling
            exact settling

/-- **An exchange is at one of its stages.** What the steps have met decides which one, so whoever
looks at a call in the middle of a run knows what it is going to do next. -/
theorem exchange_stage (met : Met σ T B) :
    Stage needs read build raise f met
      ((exchange needs read build raise >>= f).run.resume met) := by
  unfold exchange bearer
  simp only [bind_assoc, pure_bind]
  cases needs with
  | false =>
      rw [if_neg Bool.false_ne_true, pure_bind]
      exact stage_of_sent [] met none rfl nofun fun _ => rfl
  | true =>
      unfold locked
      rw [if_pos rfl, bind_map_left, run_tryAtomically_bind]
      rcases met with _ | ⟨⟨i, s⟩, met⟩
      · rw [Prog.resume_nil]
        exact .reads _ Nat.zero_lt_one
      · rw [Prog.resume_step]
        dsimp only
        cases found : read s.session with
        | error e =>
            have unread : carried true read ((i, s) :: met) = none := congrArg Except.toOption found
            rw [onOk_error, Prog.resume_ret]
            refine .unsent e (fun request builds => ?_) (Or.inl ⟨rfl, (i, s), rfl, found⟩)
            rw [Builds, unread] at builds
            exact absurd (builds.1 rfl) Bool.false_ne_true
        | ok token =>
            rw [onOk_ok]
            refine stage_of_sent [(i, s)] met (some token) rfl (fun _ => rfl) fun _ => ?_
            exact congrArg Except.toOption found

end Stages

/-! ### What a call of the Rust client asks for -/

/-- What a call asks for, if it needs the server. -/
def ClientCall.ask : ClientCall → Option Ask
  | .register username password =>
      some ⟨"POST", ["register"], [], some (.register ⟨username, password⟩)⟩
  | .login username password => some ⟨"POST", ["login"], [], some (.login ⟨username, password⟩)⟩
  | .session | .logout => none
  | .health => some ⟨"GET", ["healthz"], [], none⟩
  | .serverInfo => some ⟨"GET", ["server"], [], none⟩
  | .rooms => some ⟨"GET", ["rooms"], [], none⟩
  | .createRoom name => some ⟨"POST", ["rooms"], [], some (.createRoom ⟨name⟩)⟩
  | .send room body =>
      some ⟨"POST", ["rooms", toString room.get, "messages"], [], some (.postMessage ⟨body⟩)⟩
  | .messages room limit cursor =>
      some ⟨"GET", ["rooms", toString room.get, "messages"], cursor.pairs limit, none⟩

theorem isPlain_toString (n : ℕ) : (toString n).toList.all Ask.isPlain := by
  rw [Nat.toString_eq_repr, Nat.toList_repr, List.all_eq_true]
  intro c mem
  have digit := Nat.isDigit_of_mem_toDigits (by decide) (by decide) mem
  refine decide_eq_true fun mark => ?_
  have none_is : ∀ d ∈ ['/', '?', '#', '&', '=', '+', '%'], Char.isDigit d = false := by
    simp only [List.forall_mem_cons]
    exact ⟨rfl, rfl, rfl, rfl, rfl, rfl, rfl, List.forall_mem_nil _⟩
  rw [none_is c mark] at digit
  cases digit

/-- What a call asks for stands for itself. -/
theorem ClientCall.ask_plain {request : ClientCall} {ask : Ask} (asks : request.ask = some ask) :
    ask.Plain := by
  have room : ∀ n : ℕ, ∀ segment ∈ ["rooms", toString n, "messages"],
      segment.toList.all Ask.isPlain := by
    intro n
    simp only [List.forall_mem_cons]
    exact ⟨rfl, isPlain_toString n, rfl, List.forall_mem_nil _⟩
  cases request with
  | session => cases asks
  | logout => cases asks
  | send id body =>
      cases asks
      exact ⟨⟨List.cons_ne_nil _ _, room id.get⟩, List.forall_mem_nil _⟩
  | messages id limit cursor =>
      cases asks
      refine ⟨⟨List.cons_ne_nil _ _, room id.get⟩, ?_⟩
      have limits := isPlain_toString limit
      have names : "limit".toList.all Ask.isPlain ∧ "after_seq".toList.all Ask.isPlain ∧
          "before_seq".toList.all Ask.isPlain := ⟨rfl, rfl, rfl⟩
      cases cursor with
      | newest => exact List.forall_mem_singleton.mpr ⟨names.1, limits⟩
      | after seq =>
          exact List.forall_mem_cons.mpr ⟨⟨names.1, limits⟩,
            List.forall_mem_singleton.mpr ⟨names.2.1, isPlain_toString seq.get⟩⟩
      | before seq =>
          exact List.forall_mem_cons.mpr ⟨⟨names.1, limits⟩,
            List.forall_mem_singleton.mpr ⟨names.2.2, isPlain_toString seq.get⟩⟩
  | _ =>
      cases asks
      exact ⟨⟨List.cons_ne_nil _ _, List.forall_mem_singleton.mpr rfl⟩, List.forall_mem_nil _⟩

namespace ClientCall

/-- What a call makes of the body of a success. -/
def finish : ClientCall → ReplyBody → ChatCall ClientReply
  | register _ _, body | health, body =>
      ChatClient.decode body.ignored >>= fun _ => pure .done
  | login username _, body =>
      ChatClient.decode body.login >>= fun reply =>
        ChatClient.storeSession username reply >>= fun info => pure (.login info)
  | serverInfo, body => ChatClient.decode body.server >>= fun info => pure (.server info)
  | rooms, body => ChatClient.decode body.rooms >>= fun reply => pure (.rooms reply.rooms)
  | createRoom _, body => ChatClient.decode body.room >>= fun room => pure (.room room)
  | send _ _, body => ChatClient.decode body.posted >>= fun reply => pure (.posted reply)
  | messages _ _ _, body =>
      ChatClient.decode body.messages >>= fun reply => pure (.messages reply.messages)
  | session, _ | logout, _ => pure .done

/-- What it reads there. -/
def read : ClientCall → ReplyBody → Except String ClientReply
  | register _ _, body | health, body => body.ignored.map fun _ => .done
  | login username _, body => body.login.map fun reply => .login ⟨username, reply.expiresAt⟩
  | serverInfo, body => body.server.map .server
  | rooms, body => body.rooms.map fun reply => .rooms reply.rooms
  | createRoom _, body => body.room.map .room
  | send _ _, body => body.posted.map .posted
  | messages _ _ _, body => body.messages.map fun reply => .messages reply.messages
  | session, _ | logout, _ => .ok .done

end ClientCall

namespace ChatClient

variable {client : ChatClient} {request : ClientCall} {ask : Ask}

/-- Where the messages of a room are, and the target of a call that asks for them. -/
theorem messagesPath_eq (room : RoomId) :
    messagesPath room = "/api/v1/" ++ "/".intercalate ["rooms", toString room.get, "messages"] := by
  rw [String.intercalate_cons_cons, String.intercalate_cons_cons, String.intercalate_singleton]
  show "/api/v1/rooms/" ++ toString room.get ++ "/messages" = _
  have parts : "/api/v1/rooms/" = "/api/v1/" ++ ("rooms" ++ "/") ∧
      "/messages" = "/" ++ "messages" := ⟨rfl, rfl⟩
  rw [parts.1, parts.2]
  simp only [String.append_assoc]

/-- **A call that needs the server** is one exchange, and what is made of its reply.  The rest,
`logout` apart, is local and never on the wire. -/
theorem call_eq (asks : request.ask = some ask) :
    client.call request
      = client.execute ask.method ask.target ask.body request.auth >>= request.finish := by
  have plain : ∀ method path body, Ask.target ⟨method, path, [], body⟩
      = "/api/v1/" ++ "/".intercalate path := fun _ _ _ => String.append_empty
  have at_segment : ∀ method segment body, Ask.target ⟨method, [segment], [], body⟩
      = "/api/v1/" ++ segment := fun method segment body => by
    rw [plain, String.intercalate_singleton]
  cases request with
  | session => cases asks
  | logout => cases asks
  | send room body =>
      cases asks
      simp only [call, send, map_eq_pure_bind, bind_assoc, plain, ← messagesPath_eq]
      rfl
  | messages room limit cursor =>
      cases asks
      have target : Ask.target ⟨"GET", ["rooms", toString room.get, "messages"],
          cursor.pairs limit, none⟩ = pagePath room limit cursor := by
        have some_ : cursor.pairs limit ≠ [] := by cases cursor <;> exact List.cons_ne_nil _ _
        rw [pagePath_eq, messagesPath_eq, Ask.target, if_neg some_]
        simp only [String.append_assoc]
      simp only [call, messages, map_eq_pure_bind, bind_assoc, pure_bind, target]
      rfl
  | register username password =>
      cases asks
      simp only [call, register, map_eq_pure_bind, bind_assoc, at_segment]
      rfl
  | login username password =>
      cases asks
      simp only [call, login, map_eq_pure_bind, bind_assoc, at_segment]
      rfl
  | health =>
      cases asks
      simp only [call, health, map_eq_pure_bind, bind_assoc, at_segment]
      rfl
  | serverInfo =>
      cases asks
      simp only [call, serverInfo, map_eq_pure_bind, bind_assoc, at_segment]
      rfl
  | rooms =>
      cases asks
      simp only [call, rooms, map_eq_pure_bind, bind_assoc, pure_bind, at_segment]
      rfl
  | createRoom name =>
      cases asks
      simp only [call, createRoom, map_eq_pure_bind, bind_assoc, at_segment]
      rfl

/-- What follows the exchange of a call. -/
def closing (request : ClientCall) (exchanged : Option String × Reply ReplyBody) :
    ChatCall ClientReply :=
  settle exchanged.1 exchanged.2 >>= request.finish

/-- **Where a call that needs the server is.** It is `exchange_stage`, with the call's own way of
reading the token and of closing. -/
theorem call_stage (asks : request.ask = some ask) (met : MetBy) :
    Stage request.needs token (client.build ask.method ask.target ask.body) ChatError.transport
      (closing request) met ((client.call request).run.resume met) := by
  rw [call_eq asks, execute, bind_assoc]
  exact exchange_stage met

/-- The request that a call has put on the wire, once it has. -/
def sentBy (client : ChatClient) (request : ClientCall) (met : MetBy) : Option WireRequest :=
  request.ask.bind fun ask =>
    if sendsAt request.needs < met.length ∧
        (request.needs → (carried request.needs token met).isSome) then
      (client.build ask.method ask.target ask.body (carried request.needs token met)).toOption
    else none

/-- A call has put a request on the wire once it is past that step, if it can build one. -/
theorem sentBy_eq_some {client : ChatClient} {request : ClientCall} {ask : Ask}
    (asks : request.ask = some ask) {met : MetBy} {wired : WireRequest} :
    client.sentBy request met = some wired ↔ sendsAt request.needs < met.length ∧
      Builds request.needs token (client.build ask.method ask.target ask.body) met wired := by
  rw [sentBy, asks, Option.bind_some]
  split
  next holds =>
    refine ⟨fun sent => ⟨holds.1, holds.2, ?_⟩, fun builds => congrArg Except.toOption builds.2.2⟩
    cases built : client.build ask.method ask.target ask.body
        (carried request.needs token met) with
    | error e =>
        rw [built] at sent
        cases sent
    | ok request =>
        rw [built] at sent
        exact congrArg Except.ok (Option.some.inj sent)
  next fails =>
    exact ⟨nofun, fun builds => absurd ⟨builds.1, builds.2.1⟩ fails⟩

theorem sentBy_eq_none {client : ChatClient} {request : ClientCall} {ask : Ask}
    (asks : request.ask = some ask) {met : MetBy} :
    client.sentBy request met = none ↔ ∀ wired, sendsAt request.needs < met.length →
      ¬ Builds request.needs token (client.build ask.method ask.target ask.body) met wired := by
  rw [Option.eq_none_iff_forall_ne_some]
  refine forall_congr' fun wired => ?_
  rw [ne_eq, sentBy_eq_some asks, not_and]

/-- A call that has taken no step has put nothing on the wire. -/
theorem sentBy_nil (client : ChatClient) (request : ClientCall) :
    client.sentBy request [] = none := by
  cases asks : request.ask with
  | none =>
      rw [sentBy, asks]
      rfl
  | some ask => exact (sentBy_eq_none asks).mpr fun _ late => absurd late (Nat.not_lt_zero _)

variable {met : MetBy}
  {update : Arrival → ClientState (Option Session) → ClientState (Option Session)}
  {next : Arrival → ClientState (Option Session) →
    Prog Arrival (ClientState (Option Session)) (Except ChatError ClientReply)}

/-- What is made of a success takes no step, or one that leaves the wire alone. -/
theorem finish_step {body : ReplyBody}
    (h : (request.finish body).run.resume met = .step update next) (i : Arrival)
    (s : ClientState (Option Session)) : (update i s).wire = s.wire := by
  have settles : Settles request request.finish := by
    cases request with
    | register => exact settles_decode ReplyBody.ignored _
    | login => exact settles_login
    | session => exact settles_stepless fun _ => ⟨_, rfl⟩
    | logout => exact settles_stepless fun _ => ⟨_, rfl⟩
    | health => exact settles_decode ReplyBody.ignored _
    | serverInfo => exact settles_decode ReplyBody.server _
    | rooms => exact settles_decode ReplyBody.rooms _
    | createRoom => exact settles_decode ReplyBody.room _
    | send => exact settles_decode ReplyBody.posted _
    | messages => exact settles_decode ReplyBody.messages _
  obtain ⟨_, _, _, -, -, stores⟩ := settles body met update next h
  rw [stores]

theorem closing_step {exchanged : Option String × Reply ReplyBody}
    (h : (closing request exchanged).run.resume met = .step update next) (i : Arrival)
    (s : ClientState (Option Session)) : (update i s).wire = s.wire := by
  rcases settle_step h with ⟨-, rest⟩ | ⟨_, -, -, clears⟩
  · exact finish_step rest i s
  · rw [clears]

/-- The token a call carries is read once. -/
theorem carried_append {needs : Bool} (later : MetBy) (enough : sendsAt needs ≤ met.length) :
    carried needs token (met ++ later) = carried needs token met := by
  cases needs with
  | false => rfl
  | true =>
      cases met with
      | nil => cases enough
      | cons first rest => rfl

/-- A reply comes behind the step that sends. -/
theorem length_of_answered {needs : Bool} {reply : Except TransportError (Reply ReplyBody)}
    (answered : answer needs met = some reply) : sendsAt needs < met.length := by
  obtain ⟨x, found, -⟩ := Option.map_eq_some_iff.mp answered
  have bound := (List.getElem?_eq_some_iff.mp found).1
  revert bound
  rw [sendsAt]
  split <;> intro bound <;> omega

/-- **A step of a call puts its request on the wire, or leaves the wire alone.** What is on the
wire is thereby a function of what the call has met, and two calls do not write over each other's
requests. -/
theorem call_sends (h : (client.call request).run.resume met = .step update next)
    (x : Arrival × ClientState (Option Session)) :
    (∃ wired, client.sentBy request met = none ∧
        client.sentBy request (met ++ [x]) = some wired ∧ ∀ i s, update i s = s.sending wired) ∨
      client.sentBy request (met ++ [x]) = client.sentBy request met ∧
        ∀ i s, (update i s).wire = s.wire := by
  cases asks : request.ask with
  | none =>
      refine Or.inr ⟨by rw [sentBy, sentBy, asks]; rfl, fun i s => ?_⟩
      cases request with
      | session =>
          simp only [call, session, map_eq_pure_bind] at h
          rw [locked_step (fun _ => ⟨_, rfl⟩) h]
      | logout =>
          simp only [call, logout, map_eq_pure_bind] at h
          rw [locked_step (fun _ => ⟨_, rfl⟩) h]
      | _ => cases asks
  | some ask =>
      have unsent : ∀ {met : MetBy}, met.length ≤ sendsAt request.needs →
          client.sentBy request met = none := fun early =>
        (sentBy_eq_none asks).mpr fun _ late => absurd late (Nat.not_lt.mpr early)
      have longer : (met ++ [x]).length = met.length + 1 := List.length_append
      have builds : ∀ wired, sendsAt request.needs ≤ met.length →
          (Builds request.needs token (client.build ask.method ask.target ask.body) (met ++ [x])
              wired
            ↔ Builds request.needs token (client.build ask.method ask.target ask.body) met
              wired) := fun wired late => by
        rw [Builds, Builds, carried_append [x] late]
      have still : sendsAt request.needs < met.length →
          client.sentBy request (met ++ [x]) = client.sentBy request met := fun late => by
        ext wired
        rw [sentBy_eq_some asks, sentBy_eq_some asks, builds wired late.le, longer]
        exact and_congr_left fun _ => ⟨fun _ => late, fun _ => Nat.lt_succ_of_lt late⟩
      have at_stage : Stage _ _ _ _ _ met ((client.call request).run.resume met) :=
        call_stage asks met
      generalize (client.call request).run.resume met = p at h at_stage
      cases at_stage with
      | unsent e unbuilt source => cases h
      | dropped source answered => cases h
      | reads next early =>
          obtain ⟨rfl, -⟩ := Prog.step.inj h
          exact Or.inr ⟨by rw [unsent early.le, unsent (by omega)], fun _ _ => rfl⟩
      | sends wired next here built =>
          obtain ⟨rfl, -⟩ := Prog.step.inj h
          refine Or.inl ⟨wired, unsent here.le, (sentBy_eq_some asks).mpr ?_, fun _ _ => rfl⟩
          exact ⟨by omega, (builds wired here.ge).mpr built⟩
      | awaits wired next here built =>
          obtain ⟨rfl, -⟩ := Prog.step.inj h
          exact Or.inr ⟨still (by omega), fun _ _ => rfl⟩
      | settles wired reply answered built =>
          exact Or.inr ⟨still (length_of_answered answered), fun i s => closing_step h i s⟩

/-- What is made of the body of a success is what is read there. -/
theorem finish_returned {body : ReplyBody} {value : ClientReply}
    (needs : request.ask ≠ none)
    (h : (request.finish body).run.resume met = .ret (.ok value)) :
    request.read body = .ok value := by
  have reads : ∀ {α : Type} (field : Except String α) (wrap : α → ClientReply),
      (decode field >>= fun a => (pure (wrap a) : ChatCall ClientReply)).run.resume met
        = .ret (.ok value) → field.map wrap = .ok value := by
    intro α field wrap h
    unfold decode at h
    rw [run_except_bind] at h
    cases field with
    | ok a =>
        rw [Except.mapError, onOk_ok, run_pure, Prog.resume_ret] at h
        cases h
        rfl
    | error e =>
        rw [Except.mapError, onOk_error, Prog.resume_ret] at h
        cases h
  cases request with
  | session => exact absurd rfl needs
  | logout => exact absurd rfl needs
  | login username password =>
      simp only [ClientCall.finish] at h
      unfold decode at h
      rw [run_except_bind] at h
      cases found : body.login with
      | error e =>
          rw [found, Except.mapError, onOk_error, Prog.resume_ret] at h
          cases h
      | ok reply =>
          rw [found, Except.mapError, onOk_ok] at h
          unfold storeSession locked at h
          rw [run_tryAtomically_bind] at h
          obtain ⟨i, s, later, -, rest⟩ := Prog.met_of_resume_step h
          rw [onOk_ok, run_pure, Prog.resume_ret] at rest
          cases rest
          rw [ClientCall.read, found]
          rfl
  | register username password => exact reads _ _ h
  | health => exact reads _ _ h
  | serverInfo => exact reads _ _ h
  | rooms => exact reads _ _ h
  | createRoom name => exact reads _ _ h
  | send room text => exact reads _ _ h
  | messages room limit cursor => exact reads _ _ h

theorem closing_returned {exchanged : Option String × Reply ReplyBody} {value : ClientReply}
    (needs : request.ask ≠ none)
    (h : (closing request exchanged).run.resume met = .ret (.ok value)) :
    exchanged.2.isSuccess ∧ request.read exchanged.2.body = .ok value := by
  unfold closing settle at h
  split at h
  next success =>
    rw [pure_bind] at h
    exact ⟨success, finish_returned needs h⟩
  next =>
    split at h
    · split at h
      · -- a refusal forgets the session first, and returns an error all the same
        unfold forgetIfCurrent locked at h
        rw [bind_assoc, run_tryAtomically_bind] at h
        obtain ⟨i, s, later, -, rest⟩ := Prog.met_of_resume_step h
        rw [onOk_ok, run_throw_bind, Prog.resume_ret] at rest
        cases rest
      · rw [run_throw_bind, Prog.resume_ret] at h
        cases h
    · rw [run_throw_bind, Prog.resume_ret] at h
      cases h

/-- **A call that has returned a value** has read it off a success, which answers the request it
has put on the wire. -/
theorem call_returned (asks : request.ask = some ask) {value : ClientReply}
    (h : (client.call request).run.resume met = .ret (.ok value)) :
    ∃ wired reply, client.sentBy request met = some wired ∧
      answer request.needs met = some (.ok reply) ∧ reply.isSuccess ∧
        request.read reply.body = .ok value := by
  have at_stage : Stage _ _ _ _ _ met ((client.call request).run.resume met) :=
    call_stage asks met
  generalize (client.call request).run.resume met = p at h at_stage
  cases at_stage with
  | unsent e unbuilt source => cases h
  | dropped source answered => cases h
  | reads next early => cases h
  | sends wired next here built => cases h
  | awaits wired next here built => cases h
  | settles wired reply answered built =>
      obtain ⟨success, read⟩ := closing_returned (by rw [asks]; exact Option.some_ne_none ask) h
      exact ⟨wired, reply, (sentBy_eq_some asks).mpr ⟨length_of_answered answered, built⟩,
        answered, success, read⟩

/-- What is made of the body of a success fails if nothing can be read there. -/
theorem finish_failed {body : ReplyBody} {e : ChatError}
    (h : (request.finish body).run.resume met = .ret (.error e)) :
    ∃ text, e = .protocol text ∧ request.read body = .error text := by
  have reads : ∀ {α : Type} (field : Except String α) (wrap : α → ClientReply),
      (decode field >>= fun a => (pure (wrap a) : ChatCall ClientReply)).run.resume met
        = .ret (.error e) → ∃ text, e = .protocol text ∧ field.map wrap = .error text := by
    intro α field wrap h
    unfold decode at h
    rw [run_except_bind] at h
    cases field with
    | ok a =>
        rw [Except.mapError, onOk_ok, run_pure, Prog.resume_ret] at h
        cases h
    | error text =>
        rw [Except.mapError, onOk_error, Prog.resume_ret] at h
        cases h
        exact ⟨text, rfl, rfl⟩
  cases request with
  | session =>
      rw [ClientCall.finish, run_pure, Prog.resume_ret] at h
      cases h
  | logout =>
      rw [ClientCall.finish, run_pure, Prog.resume_ret] at h
      cases h
  | login username password =>
      simp only [ClientCall.finish] at h
      unfold decode at h
      rw [run_except_bind] at h
      cases found : body.login with
      | error text =>
          rw [found, Except.mapError, onOk_error, Prog.resume_ret] at h
          cases h
          refine ⟨text, rfl, ?_⟩
          rw [ClientCall.read, found]
          rfl
      | ok reply =>
          rw [found, Except.mapError, onOk_ok] at h
          unfold storeSession locked at h
          rw [run_tryAtomically_bind] at h
          obtain ⟨i, s, later, -, rest⟩ := Prog.met_of_resume_step h
          rw [onOk_ok, run_pure, Prog.resume_ret] at rest
          cases rest
  | register username password => exact reads _ _ h
  | health => exact reads _ _ h
  | serverInfo => exact reads _ _ h
  | rooms => exact reads _ _ h
  | createRoom name => exact reads _ _ h
  | send room text => exact reads _ _ h
  | messages room limit cursor => exact reads _ _ h

/-- **Why a call has failed**, once its steps have met `met`.  Each reason is one about what has
been met: that there was no session, that nothing could be built, or which reply, if any, has come
back. -/
inductive Fails (client : ChatClient) (request : ClientCall) (met : MetBy) : ChatError → Prop
  | loggedOut (needs : request.needs) (first : Arrival × ClientState (Option Session))
      (at_first : met[0]? = some first) (out : first.2.session = none)
      (unsent : client.sentBy request met = none) : Fails client request met .notLoggedIn
  | unbuilt (text : String) (unsent : client.sentBy request met = none) :
      Fails client request met (.config text)
  | dropped (source : TransportError)
      (answered : answer request.needs met = some (.error source)) :
      Fails client request met (.transport source)
  | unread (reply : Reply ReplyBody) (text : String)
      (answered : answer request.needs met = some (.ok reply)) (success : reply.isSuccess)
      (unread : request.read reply.body = .error text) :
      Fails client request met (.protocol text)
  | expired (reply : Reply ReplyBody) (answered : answer request.needs met = some (.ok reply))
      (needs : request.needs) (status : reply.status = 401) :
      Fails client request met .sessionExpired
  | refused (reply : Reply ReplyBody) (answered : answer request.needs met = some (.ok reply))
      (fails : ¬ reply.isSuccess) (otherwise : ¬ (request.needs ∧ reply.status = 401)) :
      Fails client request met (refusal reply.status reply.body.envelope)

theorem build_failed {method path : String} {body : Option RequestBody} {sent : Option String}
    {e : ChatError} (h : client.build method path body sent = .error e) :
    ∃ text, e = .config text := by
  unfold build at h
  split at h
  next =>
    cases h
    exact ⟨_, rfl⟩
  next =>
    split at h <;> cases h
    exact ⟨_, rfl⟩

/-- **A call fails for one of these reasons.** Nothing else of the call is left to look at, so this
is where every account of an error starts. -/
theorem call_fails (asks : request.ask = some ask) {e : ChatError}
    (h : (client.call request).run.resume met = .ret (.error e)) : Fails client request met e := by
  have at_stage : Stage _ _ _ _ _ met ((client.call request).run.resume met) :=
    call_stage asks met
  generalize (client.call request).run.resume met = p at h at_stage
  cases at_stage with
  | unsent e unbuilt source =>
      cases h
      have unsent : client.sentBy request met = none :=
        (sentBy_eq_none asks).mpr fun wired _ => unbuilt wired
      rcases source with ⟨needs, first, at_first, unread⟩ | failed
      · cases out : first.2.session with
        | none =>
            rw [out] at unread
            cases unread
            exact .loggedOut needs first at_first out unsent
        | some session =>
            rw [out] at unread
            cases unread
      · obtain ⟨text, rfl⟩ := build_failed failed
        exact .unbuilt text unsent
  | dropped source answered =>
      cases h
      exact .dropped source answered
  | reads next early => cases h
  | sends wired next here built => cases h
  | awaits wired next here built => cases h
  | settles wired reply answered built =>
      unfold closing settle at h
      split at h
      next success =>
        rw [pure_bind] at h
        obtain ⟨text, rfl, unread⟩ := finish_failed h
        exact .unread reply text answered success unread
      next fails =>
        have refuses : ∀ error : ChatError, ((throw error : ChatCall ReplyBody) >>=
            request.finish).run.resume (met.drop (sendsAt request.needs + 2)) = .ret (.error e) →
              e = error := by
          intro error h
          rw [run_throw_bind, Prog.resume_ret] at h
          cases h
          rfl
        split at h
        next token carries =>
          have needs : request.needs := by
            by_contra free
            dsimp only at carries
            rw [carried, if_neg free] at carries
            cases carries
          split at h
          next status =>
            -- forgetting the session is one more step
            rw [bind_assoc, forgetIfCurrent, locked, run_tryAtomically_bind] at h
            obtain ⟨i, s, later, -, rest⟩ := Prog.met_of_resume_step h
            rw [onOk_ok, run_throw_bind, Prog.resume_ret] at rest
            cases rest
            exact .expired reply answered needs status
          next otherwise =>
            obtain rfl := refuses _ h
            exact .refused reply answered fails fun both => otherwise both.2
        next carries =>
          obtain rfl := refuses _ h
          refine .refused reply answered fails fun both => ?_
          have carries' := built.1 both.1
          dsimp only at carries
          rw [carries] at carries'
          cases carries'

/-- **A call that has failed** has sent nothing, or was let down by the transport, or was handed a
reply that is no success it can read. -/
theorem call_failed (asks : request.ask = some ask) {e : ChatError}
    (h : (client.call request).run.resume met = .ret (.error e)) :
    client.sentBy request met = none ∨ (∃ source, e = .transport source) ∨
      ∃ reply, answer request.needs met = some (.ok reply) ∧
        (reply.isSuccess → ∃ text, request.read reply.body = .error text) := by
  cases call_fails asks h with
  | loggedOut needs first at_first out unsent => exact Or.inl unsent
  | unbuilt text unsent => exact Or.inl unsent
  | dropped source answered => exact Or.inr (Or.inl ⟨source, rfl⟩)
  | unread reply text answered success unread =>
      exact Or.inr (Or.inr ⟨reply, answered, fun _ => ⟨text, unread⟩⟩)
  | expired reply answered needs status =>
      refine Or.inr (Or.inr ⟨reply, answered, fun success => ?_⟩)
      rw [Reply.isSuccess, status] at success
      cases success
  | refused reply answered fails otherwise =>
      exact Or.inr (Or.inr ⟨reply, answered, fun success => absurd success fails⟩)

/-- A call that needs no server does not fail. -/
theorem call_unasked (asks : request.ask = none) {e : ChatError} :
    (client.call request).run.resume met ≠ .ret (.error e) := by
  have never : ∀ {α : Type} (f : Option Session → α × Option Session) (wrap : α → ClientReply),
      ((locked (fun session => (.ok (f session).1, (f session).2)) : ChatCall α) >>= fun a =>
        (pure (wrap a) : ChatCall ClientReply)).run.resume met ≠ .ret (.error e) := by
    intro α f wrap h
    rw [locked, run_tryAtomically_bind] at h
    obtain ⟨i, s, later, -, rest⟩ := Prog.met_of_resume_step h
    rw [onOk_ok, run_pure, Prog.resume_ret] at rest
    cases rest
  cases request with
  | session =>
      simp only [call, session, map_eq_pure_bind]
      exact never (fun session => (session.map Session.info, session)) ClientReply.session
  | logout =>
      simp only [call, logout, map_eq_pure_bind]
      exact never (fun _ => ((), none)) fun _ => ClientReply.done
  | _ => cases asks

/-- **A call that says the session has ended** has been answered so: its token was refused.  The
converse does not hold: a login that is refused is a 401 as well, and ends nothing. -/
theorem call_expired (asks : request.ask = some ask)
    (h : (client.call request).run.resume met = .ret (.error .sessionExpired)) :
    ∃ reply, answer request.needs met = some (.ok reply) ∧ request.needs ∧ reply.status = 401 := by
  have fails := call_fails asks h
  generalize ended : ChatError.sessionExpired = e at fails
  cases fails with
  | expired reply answered needs status => exact ⟨reply, answered, needs, status⟩
  | refused reply answered fails otherwise =>
      cases reason : reply.body.envelope <;> rw [reason] at ended <;> cases ended
  | _ => cases ended

end ChatClient

end ScionChat
