import ScionChat.Core.V1
import ScionChat.Lib.Observed

/-!
# One exchange with the server, over a session that calls share

Every client of the chat API makes a call in the same way: it reads the token, if the call
needs one, puts a request on the wire, and some time later has a reply to settle.  What it
holds between its calls is a session, which all calls read and some of them write; other
calls run in between any two of these steps.

`exchange` is that skeleton, over any type of session.  `exchange_step` says what each of its
steps does (`ExchangeStep`), and `carried` which token is in the request: the one that was there
when the call took its first step.

### design decisions

* **The network is an oracle.**  A call that is waiting takes its answer off `ClientState.reply`,
  which whoever drives the client fills in; nothing is assumed here about who does.  What a
  server makes of the request is tied to it one layer up, where both ends are in one system.
* **The session is a parameter.**  The Rust client keeps a token with its expiry, the mobile
  clients a token alone, and the three differ in when they forget it.  They share every step of
  an exchange but the last.

### What is load-bearing

`exchange_step`.  Every fact about a call of a client — which token it carried, whether it took
the reply that was meant for it, what it does to the session — is read off the three cases of
this lemma, by the moments that the call has met so far.
-/

namespace ScionChat

open Interleaving TransitionSystem

/-! ### Requests and replies -/

/-- The JSON in the body of a request.  Each kind of request has its own type, and is written by
its own codec. -/
inductive RequestBody
  | register (body : RegisterRequest)
  | login (body : LoginRequest)
  | createRoom (body : CreateRoomRequest)
  | postMessage (body : PostMessageRequest)
  deriving DecidableEq, Repr

/-- A request as it is put on the wire, with the token in its `Authorization` header. -/
structure WireRequest where
  method : String
  uri : String
  body : Option RequestBody
  bearer : Option String
  deriving DecidableEq, Repr

/-- What came back: the status, and what the body decodes to.  The headers are left out: no client
reads one. -/
structure Reply (B : Type) where
  status : ℕ
  body : B

/-- The status is one of the 2xx. -/
def Reply.isSuccess {B : Type} (reply : Reply B) : Bool :=
  decide (200 ≤ reply.status ∧ reply.status < 300)

/-! ### The skeleton -/

/-- The session that all calls of a client share, and what they have put on the wire. -/
structure ClientState (σ : Type) where
  session : σ
  wire : List WireRequest
  deriving DecidableEq

/-- The state with one more request on the wire.  Requests are kept in the order in which they were
sent, and none is taken back. -/
def ClientState.sending {σ : Type} (request : WireRequest) (s : ClientState σ) : ClientState σ :=
  { s with wire := s.wire ++ [request] }

section

variable {σ T B E α β : Type}

/-- A part of a call: its steps are handed what the transport makes of its request. -/
abbrev Call (σ T B E α : Type) := Fallible (Except T (Reply B)) E (ClientState σ) α

/-- What is done to the session while it is locked.  Nobody else reads or writes the session while
that step is taken. -/
def locked (f : σ → Except E α × σ) : Call σ T B E α :=
  tryAtomically fun _ s => ((f s.session).1, { s with session := (f s.session).2 })

/-- Puts a request on the wire and brings the reply back.  It is two steps, and anything may happen
between them, also that the reply is never there. -/
def transport (raise : T → E) (request : WireRequest) : Call σ T B E (Reply B) := do
  tryAtomically fun _ s => (.ok (), s.sending request)
  tryAtomically fun reply s => (reply.mapError raise, s)

/-- The request carries the token that `read` finds in the session, if the call needs one. -/
def bearer (needs : Bool) (read : σ → Except E String) : Call σ T B E (Option String) :=
  if needs then some <$> locked fun session => (read session, session) else pure none

/-- **One exchange**: a request, built around the token it carries, and the reply to it.  It is
`execute` of the source, and the three apps' clients have it as well: what differs is how a token
is read, what a request is built from, and what a failure is raised as. -/
def exchange (needs : Bool) (read : σ → Except E String)
    (build : Option String → Except E WireRequest) (raise : T → E) :
    Call σ T B E (Option String × Reply B) := do
  let sent ← bearer needs read
  let request ← build sent
  let reply ← transport raise request
  return (sent, reply)

/-! ### What its steps have met -/

/-- What the steps of a call have met. -/
abbrev Met (σ T B : Type) := List (Except T (Reply B) × ClientState σ)

/-- The token that a call's request carries, or would: what `read` finds when the call takes
its first step. -/
def carried (needs : Bool) (read : σ → Except E String) (met : Met σ T B) : Option String :=
  if needs then met.head?.bind fun first => (read first.2.session).toOption else none

/-- What came back for a call's request, once something has: its second step after the token is
read, if it reads one. -/
def answer (needs : Bool) (met : Met σ T B) : Option (Except T (Reply B)) :=
  (met[if needs then 2 else 1]?).map Prod.fst

/-- **What a step of a call does**, when `f` is what follows the exchange: it looks, or it puts
the request on the wire, or the reply is there and the step is one of `f`'s. -/
inductive ExchangeStep (needs : Bool) (read : σ → Except E String)
    (build : Option String → Except E WireRequest) (f : Option String × Reply B → Call σ T B E β)
    (met : Met σ T B) (update : Except T (Reply B) → ClientState σ → ClientState σ)
    (next : Except T (Reply B) → ClientState σ →
      Prog (Except T (Reply B)) (ClientState σ) (Except E β)) : Prop
  | looks (unanswered : answer needs met = none) (same : ∀ i s, update i s = s)
  | sends (request : WireRequest) (unanswered : answer needs met = none)
      (holds : needs → (carried needs read met).isSome)
      (built : build (carried needs read met) = .ok request)
      (appends : ∀ i s, update i s = s.sending request)
  | settles (reply : Reply B) (answered : answer needs met = some (.ok reply))
      (holds : needs → (carried needs read met).isSome)
      (stepped : (f (carried needs read met, reply)).run.resume (met.drop (if needs then 3 else 2))
        = .step update next)

variable {needs : Bool} {read : σ → Except E String} {build : Option String → Except E WireRequest}
  {raise : T → E} {f : Option String × Reply B → Call σ T B E β} {met : Met σ T B}
  {update : Except T (Reply B) → ClientState σ → ClientState σ}
  {next : Except T (Reply B) → ClientState σ →
    Prog (Except T (Reply B)) (ClientState σ) (Except E β)}

/-- A call that locks the session, and does nothing after that, takes one step. -/
theorem locked_step {α : Type} {g : σ → Except E α × σ} {rest : α → Call σ T B E β}
    (stepless : ∀ a, ∃ r, (rest a).run = .ret r)
    (h : ((locked g : Call σ T B E α) >>= rest).run.resume met = .step update next) :
    ∀ i s, update i s = { s with session := (g s.session).2 } := by
  unfold locked at h
  rw [run_tryAtomically_bind] at h
  cases met with
  | nil =>
      rw [Prog.resume_nil] at h
      obtain ⟨rfl, -⟩ := Prog.step.inj h
      exact fun _ _ => rfl
  | cons pair later =>
      rw [Prog.resume_step] at h
      dsimp only at h
      cases result : (g pair.2.session).1 with
      | ok a =>
          obtain ⟨r, returned⟩ := stepless a
          rw [result, onOk_ok, returned, Prog.resume_ret] at h
          cases h
      | error e =>
          rw [result, onOk_error, Prog.resume_ret] at h
          cases h

theorem run_transport_bind (raise : T → E) (request : WireRequest)
    (g : Reply B → Call σ T B E β) :
    (transport raise request >>= g).run
      = .step (fun _ s => s.sending request) fun _ _ =>
          .step (fun _ s => s) fun reply _ => onOk g (reply.mapError raise) := by
  unfold transport
  rw [bind_assoc, run_tryAtomically_bind]
  refine congrArg _ (funext fun _ => funext fun _ => ?_)
  exact run_tryAtomically_bind _ g

/-- A step of a call whose token has been read, or that needs none. -/
theorem sent_step {sent : Option String} {g : Reply B → Call σ T B E β}
    (h : ((liftM (build sent) : Call σ T B E WireRequest) >>= fun request =>
      transport raise request >>= g).run.resume met = .step update next) :
    (met[1]? = none ∧ ∀ i s, update i s = s) ∨
      (∃ request, met[1]? = none ∧ build sent = .ok request ∧
        ∀ i s, update i s = s.sending request) ∨
        ∃ reply x y later, met = x :: (.ok reply, y) :: later ∧
          (g reply).run.resume later = .step update next := by
  rw [run_except_bind] at h
  cases built : build sent with
  | error e =>
      rw [built, onOk_error, Prog.resume_ret] at h
      cases h
  | ok request =>
      rw [built, onOk_ok, run_transport_bind] at h
      -- it is about to send the request, to await the reply, or has the reply
      rcases met with _ | ⟨x, _ | ⟨⟨reply, y⟩, later⟩⟩
      · rw [Prog.resume_nil] at h
        obtain ⟨rfl, -⟩ := Prog.step.inj h
        exact Or.inr (Or.inl ⟨request, rfl, rfl, fun _ _ => rfl⟩)
      · rw [Prog.resume_step, Prog.resume_nil] at h
        obtain ⟨rfl, -⟩ := Prog.step.inj h
        exact Or.inl ⟨rfl, fun _ _ => rfl⟩
      · rw [Prog.resume_step, Prog.resume_step] at h
        rcases reply with e | reply
        · rw [Except.mapError, onOk_error, Prog.resume_ret] at h
          cases h
        · exact Or.inr (Or.inr ⟨reply, x, y, later, rfl, h⟩)

theorem exchange_step
    (h : (exchange needs read build raise >>= f).run.resume met = .step update next) :
    ExchangeStep needs read build f met update next := by
  unfold exchange bearer at h
  simp only [bind_assoc, pure_bind] at h
  cases needs with
  | false =>
      rw [if_neg Bool.false_ne_true, pure_bind] at h
      rcases sent_step h with ⟨early, looks⟩ | ⟨request, early, built, sends⟩ |
        ⟨reply, x, y, later, rfl, rest⟩
      · exact .looks (congrArg _ early) looks
      · exact .sends request (congrArg _ early) nofun built sends
      · exact .settles reply rfl nofun rest
  | true =>
      -- the session is read first, in a step of its own under the lock
      unfold locked at h
      rw [if_pos rfl, bind_map_left, run_tryAtomically_bind] at h
      rcases met with _ | ⟨⟨i, s⟩, met⟩
      · rw [Prog.resume_nil] at h
        obtain ⟨rfl, -⟩ := Prog.step.inj h
        exact .looks rfl fun _ _ => rfl
      · rw [Prog.resume_step] at h
        dsimp only at h
        cases found : read s.session with
        | error e =>
            rw [found, onOk_error, Prog.resume_ret] at h
            cases h
        | ok token =>
            rw [found, onOk_ok] at h
            have carries : carried true read ((i, s) :: met) = some token :=
              congrArg Except.toOption found
            have holds : (carried true read ((i, s) :: met)).isSome := carries ▸ rfl
            rcases sent_step h with ⟨early, looks⟩ | ⟨request, early, built, sends⟩ |
              ⟨reply, x, y, later, rfl, rest⟩
            · exact .looks (congrArg _ early) looks
            · exact .sends request (congrArg _ early) (fun _ => holds) (carries ▸ built) sends
            · exact .settles reply rfl (fun _ => holds) (carries ▸ rest)

end

end ScionChat
