import ScionChat.Client.Outcomes
import ScionChat.Server.Api.Moments

/-!
# A server, its clients, and the network between them

One server, any number of Rust clients, each making any number of calls at once, and whoever else
sends the server requests.  A request that a call has put on the wire is a `Flight`.  It may
arrive, once, or never; the server may take its time over it; and the call that is waiting for
the answer may be handed it, or give up at any time.

`Deployment.Sound` is what the runs of a deployment keep: each call has at most one flight, each
flight at most one thread of the server, and a call that was handed an answer was handed that of
its own.

* `Sound.answered`, `Sound.failed` — what stands behind a value, or an error, that a call has
  returned.
* `served_after` — a call which starts later is served later.

### design decisions

* **The parts are the parts.**  The server is the pool that `Sessions` is about, a client the one
  that `Session` is about, and neither is changed for being put into a deployment.  `run_serves`
  says that what the server does in a run is a run of the server, so everything that is proved of
  one holds of the other.
* **The network has no state of its own.**  A flight that is never taken up is a lost request; an
  answer that is never handed over is a lost answer; and order is nobody's.  What it cannot do is
  deliver a request twice: the client opens a connection for each, and does not retry.
* **Other requests are arbitrary.**  `DeploymentEvent.other` stands for every client that is not
  one of ours, well-formed or not.  No theorem assumes anything about them.
* **`finds` is a parameter of the invariant.**  It says in what states the steps of a call have
  found their client.  Most modules take it to be trivial; `Sessions` takes it to be the history of
  the client's state.

### What is load-bearing

`CallSound` ties three numberings together: the call of the client, its flight, and the thread of
the server.  The tie goes through the list of what the call's steps have met, which the client's
own theorems are about.  `CallSound.advanced` is the step that matters: it is there that a flight
comes into being, and there that an answer is taken.
-/

namespace ScionChat

open Interleaving TransitionSystem

/-! ### The system -/

/-- A request that a call of a client has put on the wire, and the thread of the server that
serves it, once it has arrived. -/
structure Flight where
  client : ℕ
  call : ℕ
  wired : WireRequest
  served : Option ℕ
  deriving DecidableEq

/-- What does not change about a flight. -/
def Flight.label (flight : Flight) : ℕ × ℕ × WireRequest :=
  (flight.client, flight.call, flight.wired)

/-- What does not change: the server's configuration and those of the clients. -/
structure Site where
  app : AppState
  client : ℕ → ChatClient
  serde : Serde

/-- A server, its clients, and what is on the wire between them. -/
structure Deployment where
  server : ServerPool
  clients : ℕ → ClientPool
  flights : List Flight

/-- What happens. -/
inductive DeploymentEvent
  /-- Somebody makes a call of a client. -/
  | call (client : ℕ) (request : ClientCall)
  /-- A call takes a step, without an answer.  One that waits gives up, for that reason. -/
  | step (client call : ℕ) (reason : TransportError)
  /-- A call that waits is handed the answer to a flight. -/
  | answer (client call flight : ℕ)
  /-- A flight arrives at the server. -/
  | arrive (flight : ℕ)
  /-- Some other request arrives there. -/
  | other (request : Request)
  /-- The server takes a step of a request. -/
  | serve (thread : ℕ) (moment : Moment)

namespace Deployment

/-- Nothing has been asked yet. -/
def start (w : World) (sessions : ℕ → Option Session) : Deployment where
  server := Pool.idle w
  clients := fun c => Pool.idle ⟨sessions c, []⟩
  flights := []

variable (site : Site)

/-- The answer to a flight of a call, once the server has given it. -/
def answerTo (d : Deployment) (c k n : ℕ) : Option Response := do
  let flight ← d.flights[n]?
  if flight.client = c ∧ flight.call = k then
    let thread ← d.server.threads[← flight.served]?
    thread.prog.outcome
  else none

/-- A call takes a step, and what it has put on the wire is in flight. -/
def advance (d : Deployment) (c k : ℕ) (arrival : Arrival) : Option Deployment := do
  let client ← (site.client c).step (d.clients c) (.advance k arrival)
  let sent := client.state.wire.drop (d.clients c).state.wire.length
  return { d with
    clients := Function.update d.clients c client
    flights := d.flights ++ sent.map fun wired => ⟨c, k, wired, none⟩ }

/-- One event. -/
def step (d : Deployment) : DeploymentEvent → Option Deployment
  | .call c request => do
      let client ← (site.client c).step (d.clients c) (.spawn request)
      return { d with clients := Function.update d.clients c client }
  | .step c k reason => d.advance site c k (.error reason)
  | .answer c k n => do
      let response ← d.answerTo c k n
      d.advance site c k (.ok (response.reply site.serde))
  | .arrive n =>
      match d.flights[n]? with
      | some ⟨c, k, wired, none⟩ => do
          let server ← ScionChat.serve site.app d.server (.spawn (wired.receive site.serde))
          return { d with
            server := server
            flights := d.flights.set n ⟨c, k, wired, some d.server.threads.length⟩ }
      | _ => none
  | .other request => do
      let server ← ScionChat.serve site.app d.server (.spawn request)
      return { d with server := server }
  | .serve j m => do
      let server ← ScionChat.serve site.app d.server (.advance j m)
      return { d with server := server }

/-! ### What one event does -/

/-- The flights of a call. -/
def flightsOf (d : Deployment) (c k : ℕ) : List Flight :=
  d.flights.filter fun flight => flight.client = c ∧ flight.call = k

/-- A reply is the answer the server has given to a flight of the call. -/
def Answered (d : Deployment) (c k : ℕ) (reply : Reply ReplyBody) : Prop :=
  ∃ flight ∈ d.flightsOf c k, ∃ j ∈ flight.served, ∃ request response,
    d.server.Returned j request response ∧ reply = response.reply site.serde

/-- The flights that a step of a call adds. -/
def launched (c k : ℕ) (before after : ClientState (Option Session)) : List Flight :=
  (after.wire.drop before.wire.length).map fun wired => ⟨c, k, wired, none⟩

variable {site} {d d' : Deployment}

/-- **What one event does.** A call is made or takes a step, perhaps with the reply it is handed; a
request, its own or somebody else's, arrives at the server; or a thread of the server takes a
step. -/
inductive Happens (site : Site) (d : Deployment) : Deployment → Prop
  | call (c : ℕ) (request : ClientCall) : Happens site d { d with
      clients := Function.update d.clients c { d.clients c with
        threads := (d.clients c).threads ++ [⟨request, 0, ((site.client c).call request).run⟩] } }
  | advance (c k : ℕ) (arrival : Arrival) (request : ClientCall) (n : ℕ)
      (update : Arrival → ClientState (Option Session) → ClientState (Option Session))
      (next : Arrival → ClientState (Option Session) →
        Prog Arrival (ClientState (Option Session)) (Except ChatError ClientReply))
      (found : (d.clients c).threads[k]? = some ⟨request, n, .step update next⟩)
      (answered : ∀ reply, arrival = .ok reply → Answered site d c k reply) :
      Happens site d { d with
        clients := Function.update d.clients c
          ⟨update arrival (d.clients c).state, (d.clients c).threads.set k
            ⟨request, n + 1, next arrival (d.clients c).state⟩⟩
        flights := d.flights ++ launched c k (d.clients c).state
          (update arrival (d.clients c).state) }
  | arrive (n c k : ℕ) (wired : WireRequest) (waiting : d.flights[n]? = some ⟨c, k, wired, none⟩) :
      Happens site d { d with
        server := { d.server with
          threads := d.server.threads ++ [⟨wired.receive site.serde, 0,
            handle site.app (wired.receive site.serde)⟩] }
        flights := d.flights.set n ⟨c, k, wired, some d.server.threads.length⟩ }
  | serve (l : Label Request Moment) (server : ServerPool)
      (served : ScionChat.serve site.app d.server l = some server) :
      Happens site d { d with server := server }

theorem happens_of_advance {c k : ℕ} {arrival : Arrival}
    (answered : ∀ reply, arrival = .ok reply → Answered site d c k reply)
    (h : d.advance site c k arrival = some d') : Happens site d d' := by
  obtain ⟨client, stepped, rest⟩ := Option.bind_eq_some_iff.mp h
  obtain ⟨request, n, update, next, found, rfl⟩ := Pool.step_advance stepped
  obtain rfl := Option.some.inj rest
  exact .advance c k arrival request n update next found answered

theorem answered_of_answerTo {c k n : ℕ} {response : Response}
    (h : d.answerTo c k n = some response) :
    Answered site d c k (response.reply site.serde) := by
  obtain ⟨flight, at_n, rest⟩ := Option.bind_eq_some_iff.mp h
  split at rest
  next own =>
    obtain ⟨j, served, rest⟩ := Option.bind_eq_some_iff.mp rest
    obtain ⟨thread, at_j, ended⟩ := Option.bind_eq_some_iff.mp rest
    have mem : flight ∈ d.flightsOf c k :=
      List.mem_filter.mpr ⟨List.mem_of_getElem? at_n, decide_eq_true own⟩
    refine ⟨flight, mem, j, served, thread.op, response, ⟨thread.taken, ?_⟩, rfl⟩
    obtain ⟨op, taken, prog⟩ := thread
    cases prog with
    | ret a =>
        obtain rfl := Option.some.inj ended
        exact at_j
    | step update next => cases ended
  next => cases rest

theorem happens_of_step {event : DeploymentEvent} (h : d.step site event = some d') :
    Happens site d d' := by
  cases event with
  | call c request =>
      simp only [step, Option.bind_eq_bind, Option.bind_eq_some_iff] at h
      obtain ⟨client, spawned, rest⟩ := h
      cases spawned
      cases rest
      exact .call c request
  | step c k reason => exact happens_of_advance (fun reply same => by cases same) h
  | answer c k n =>
      simp only [step, Option.bind_eq_bind, Option.bind_eq_some_iff] at h
      obtain ⟨response, answer, rest⟩ := h
      refine happens_of_advance (fun reply same => ?_) rest
      rw [← Except.ok.inj same]
      exact answered_of_answerTo answer
  | arrive n =>
      simp only [step] at h
      split at h
      next c k wired waiting =>
        obtain ⟨server, spawned, rest⟩ := Option.bind_eq_some_iff.mp h
        cases spawned
        cases rest
        exact .arrive n c k wired waiting
      next => cases h
  | other request =>
      simp only [step, Option.bind_eq_bind, Option.bind_eq_some_iff] at h
      obtain ⟨server, spawned, rest⟩ := h
      cases rest
      exact .serve _ server spawned
  | serve j m =>
      simp only [step, Option.bind_eq_bind, Option.bind_eq_some_iff] at h
      obtain ⟨server, served, rest⟩ := h
      cases rest
      exact .serve _ server served

/-! ### What the runs keep -/

/-- A call that has taken `i` steps so far, and is to take another one, finds its client in the
state. -/
def Finds (d : Deployment) (c k i : ℕ) (s : ClientState (Option Session)) : Prop :=
  (d.clients c).state = s ∧ ∃ request update next,
    (d.clients c).threads[k]? = some ⟨request, i, .step update next⟩

/-- **What has become of a call**: it has been handed answers to its own flights only, there is
one flight of it, if it has put a request on the wire, and its steps have found its client in
states that `finds` tells. -/
structure CallSound (site : Site) (finds : ℕ → ℕ → ℕ → ClientState (Option Session) → Prop)
    (d : Deployment) (c k : ℕ) (request : ClientCall) (n : ℕ)
    (prog : Prog Arrival (ClientState (Option Session)) (Except ChatError ClientReply))
    (met : ChatClient.MetBy) : Prop where
  resumed : prog = ((site.client c).call request).run.resume met
  taken : met.length = n
  found : ∀ i pair, met[i]? = some pair → finds c k i pair.2
  answers : ∀ pair ∈ met, ∀ reply, pair.1 = .ok reply → Answered site d c k reply
  sent : (d.flightsOf c k).map Flight.wired = ((site.client c).sentBy request met).toList

/-- **The invariant of a deployment.** Every call is where what it has met leads to, what is on the
wire is of a call that has started, a thread that serves it serves what is in it, and no thread
serves two. -/
structure Sound (site : Site) (finds : ℕ → ℕ → ℕ → ClientState (Option Session) → Prop)
    (d : Deployment) : Prop where
  calls : ∀ c k request n prog, (d.clients c).threads[k]? = some ⟨request, n, prog⟩ →
    ∃ met, CallSound site finds d c k request n prog met
  /-- A flight is that of a call that has started. -/
  own : ∀ flight ∈ d.flights, flight.call < (d.clients flight.client).threads.length
  /-- A thread that serves a flight serves what is in it. -/
  served : ∀ flight ∈ d.flights, ∀ j ∈ flight.served, ∃ th, d.server.threads[j]? = some th ∧
    th.op = flight.wired.receive site.serde
  /-- No thread serves two flights. -/
  distinct : d.flights.Pairwise fun f f' => ∀ j ∈ f.served, j ∉ f'.served

variable {finds finds' : ℕ → ℕ → ℕ → ClientState (Option Session) → Prop}

/-- What goes on around a call leaves what has become of it: its flights stay, but for being
served, and answers stay. -/
theorem CallSound.onward {c k n : ℕ} {request : ClientCall}
    {prog : Prog Arrival (ClientState (Option Session)) (Except ChatError ClientReply)}
    {met : ChatClient.MetBy} (sound : CallSound site finds d c k request n prog met)
    (before : ∀ i s, finds c k i s → finds' c k i s)
    (same : (d'.flightsOf c k).map Flight.wired = (d.flightsOf c k).map Flight.wired)
    (answered : ∀ reply, Answered site d c k reply → Answered site d' c k reply) :
    CallSound site finds' d' c k request n prog met where
  resumed := sound.resumed
  taken := sound.taken
  found := fun i pair at_i => before i pair.2 (sound.found i pair at_i)
  answers := fun pair mem reply handed => answered reply (sound.answers pair mem reply handed)
  sent := same.trans sound.sent

/-- Answers stay when flights do, and the server goes on. -/
theorem Answered.onward {c k : ℕ} {reply : Reply ReplyBody} (answered : Answered site d c k reply)
    (flights : ∀ flight ∈ d.flightsOf c k, flight.served ≠ none → flight ∈ d'.flightsOf c k)
    (server : ∀ j request response, d.server.Returned j request response →
      d'.server.Returned j request response) : Answered site d' c k reply := by
  obtain ⟨flight, mem, j, serves, request, response, ret, same⟩ := answered
  refine ⟨flight, flights flight mem ?_, j, serves, request, response, server _ _ _ ret, same⟩
  rw [Option.mem_def.mp serves]
  exact Option.some_ne_none j

/-- The requests in the flights of a call are read off what does not change about flights. -/
theorem wired_congr (same : d'.flights.map Flight.label = d.flights.map Flight.label) (c k : ℕ) :
    (d'.flightsOf c k).map Flight.wired = (d.flightsOf c k).map Flight.wired := by
  have read : ∀ d : Deployment, (d.flightsOf c k).map Flight.wired
      = ((d.flights.map Flight.label).filter fun label => label.1 = c ∧ label.2.1 = k).map
          fun label => label.2.2 := by
    intro d
    rw [flightsOf, List.filter_map, List.map_map]
    rfl
  rw [read, read, same]

/-- A flight that is served is the same flight. -/
theorem label_set {flights : List Flight} {n : ℕ} {flight flight' : Flight}
    (found : flights[n]? = some flight) (same : flight'.label = flight.label) :
    (flights.set n flight').map Flight.label = flights.map Flight.label := by
  obtain ⟨bound, rfl⟩ := List.getElem?_eq_some_iff.mp found
  rw [List.map_set, same, ← List.map_set, List.set_getElem_self]

/-- One element changes, and stays apart from all there were. -/
theorem pairwise_set {R : Flight → Flight → Prop} {flight : Flight} :
    ∀ {flights : List Flight} {n : ℕ}, flights.Pairwise R →
      (∀ f ∈ flights, R f flight ∧ R flight f) → (flights.set n flight).Pairwise R
  | [], _, _, _ => List.Pairwise.nil
  | f :: flights, 0, apart, new =>
      List.pairwise_cons.mpr ⟨fun f' mem => (new f' (List.mem_cons_of_mem f mem)).2,
        (List.pairwise_cons.mp apart).2⟩
  | f :: flights, n + 1, apart, new => by
      obtain ⟨head, tail⟩ := List.pairwise_cons.mp apart
      refine List.pairwise_cons.mpr ⟨fun f' mem => ?_,
        pairwise_set tail fun f' mem => new f' (List.mem_cons_of_mem f mem)⟩
      rcases List.mem_or_eq_of_mem_set mem with before | rfl
      · exact head f' before
      · exact (new f List.mem_cons_self).1

theorem sound_start (w : World) (sessions : ℕ → Option Session) :
    Sound site finds (start w sessions) where
  calls := fun c k request n prog found => by cases found
  own := fun flight mem => by cases mem
  served := fun flight mem => by cases mem
  distinct := List.Pairwise.nil

/-- A call that has not started has put nothing on the wire. -/
theorem Sound.unstarted (sound : Sound site finds d) {c k : ℕ}
    (unstarted : (d.clients c).threads.length ≤ k) : d.flightsOf c k = [] := by
  refine List.filter_eq_nil_iff.mpr fun flight mem own => ?_
  obtain ⟨rfl, rfl⟩ := of_decide_eq_true own
  exact absurd (sound.own flight mem) (Nat.not_lt.mpr unstarted)

/-- A call that has just started has nothing in flight, and nothing behind it. -/
theorem CallSound.spawned (sound : Sound site finds d) {c k : ℕ}
    (unstarted : (d.clients c).threads.length ≤ k) (request : ClientCall) :
    CallSound site finds d c k request 0 ((site.client c).call request).run [] where
  resumed := (Prog.resume_nil _).symm
  taken := rfl
  found := fun i pair at_i => by cases at_i
  answers := fun pair mem => absurd mem List.not_mem_nil
  sent := by
    rw [sound.unstarted unstarted, ChatClient.sentBy_nil]
    rfl

/-- The flights a step adds are those of the call that takes it. -/
theorem flightsOf_append (d : Deployment) (c k c' k' : ℕ)
    (before after : ClientState (Option Session)) (clients : ℕ → ClientPool) :
    flightsOf { d with clients := clients, flights := d.flights ++ launched c k before after } c' k'
      = d.flightsOf c' k' ++ if c = c' ∧ k = k' then launched c k before after else [] := by
  rw [flightsOf, List.filter_append]
  refine congrArg _ ?_
  by_cases own : c = c' ∧ k = k'
  · rw [if_pos own]
    refine List.filter_eq_self.mpr fun flight mem => ?_
    obtain ⟨wired, -, rfl⟩ := List.mem_map.mp mem
    exact decide_eq_true own
  · rw [if_neg own]
    refine List.filter_eq_nil_iff.mpr fun flight mem same => own ?_
    obtain ⟨wired, -, rfl⟩ := List.mem_map.mp mem
    exact of_decide_eq_true same

theorem mem_launched {c k : ℕ} {before after : ClientState (Option Session)} {flight : Flight}
    (mem : flight ∈ launched c k before after) :
    flight.client = c ∧ flight.call = k ∧ flight.served = none := by
  obtain ⟨wired, -, rfl⟩ := List.mem_map.mp mem
  exact ⟨rfl, rfl, rfl⟩

/-- **The step of a call**: what it meets, and what it puts on the wire.  Only a step may put
something on the wire, and what it puts there is built from what the call has met. -/
theorem CallSound.advanced {c k n : ℕ} {arrival : Arrival} {request : ClientCall}
    {update : Arrival → ClientState (Option Session) → ClientState (Option Session)}
    {next : Arrival → ClientState (Option Session) →
      Prog Arrival (ClientState (Option Session)) (Except ChatError ClientReply)}
    {met : ChatClient.MetBy} (sound : CallSound site finds d c k request n (.step update next) met)
    (before : ∀ i s, finds c k i s → finds' c k i s)
    (answered : ∀ reply, arrival = .ok reply → Answered site d c k reply)
    (onward : ∀ reply, Answered site d c k reply → Answered site d' c k reply)
    {s : ClientState (Option Session)} (now : finds' c k n s)
    (flights : d'.flightsOf c k = d.flightsOf c k ++ launched c k s (update arrival s)) :
    CallSound site finds' d' c k request (n + 1) (next arrival s) (met ++ [(arrival, s)]) where
  resumed := by
    rw [Prog.resume_append, ← sound.resumed, Prog.resume_step, Prog.resume_nil]
  taken := by
    rw [List.length_append, sound.taken, List.length_singleton]
  found := fun i pair at_i => by
    rcases Nat.lt_or_ge i met.length with earlier | last
    · rw [List.getElem?_append_left earlier] at at_i
      exact before i pair.2 (sound.found i pair at_i)
    · rw [List.getElem?_append_right last] at at_i
      have here : i = n := by
        have := (List.getElem?_eq_some_iff.mp at_i).1
        rw [List.length_singleton, sound.taken] at this
        rw [sound.taken] at last
        omega
      obtain rfl := List.mem_singleton.mp (List.mem_of_getElem? at_i)
      rw [here]
      exact now
  answers := fun pair mem reply handed => by
    rcases List.mem_append.mp mem with before | last
    · exact onward reply (sound.answers pair before reply handed)
    · obtain rfl := List.mem_singleton.mp last
      exact onward reply (answered reply handed)
  sent := by
    rw [flights, List.map_append, sound.sent]
    rcases ChatClient.call_sends sound.resumed.symm (arrival, s) with
      ⟨wired, unsent, sent, appends⟩ | ⟨same, stays⟩
    · rw [unsent, sent, launched, appends, ClientState.sending, List.drop_left]
      rfl
    · rw [same, launched, stays, List.drop_length]
      exact List.append_nil _

/-- What a client holds once one more call of it has started. -/
theorem thread_of_call {clients : ℕ → ClientPool} {c c' k : ℕ} {request : ClientCall}
    {prog : Prog Arrival (ClientState (Option Session)) (Except ChatError ClientReply)}
    {th : Thread ClientCall Arrival (ClientState (Option Session)) (Except ChatError ClientReply)}
    (found : (Function.update clients c { clients c with
      threads := (clients c).threads ++ [⟨request, 0, prog⟩] } c').threads[k]? = some th) :
    (clients c').threads[k]? = some th ∨
      c' = c ∧ (clients c).threads.length ≤ k ∧ th = ⟨request, 0, prog⟩ := by
  by_cases same : c' = c
  · subst same
    rw [Function.update_self] at found
    rcases Nat.lt_or_ge k (clients c').threads.length with old_thread | new_thread
    · rw [List.getElem?_append_left old_thread] at found
      exact Or.inl found
    · rw [List.getElem?_append_right new_thread] at found
      exact Or.inr ⟨rfl, new_thread, List.mem_singleton.mp (List.mem_of_getElem? found)⟩
  · rw [Function.update_of_ne same] at found
    exact Or.inl found

/-- What a client holds once a call of it has taken a step. -/
theorem thread_of_advance {clients : ℕ → ClientPool} {c c' k k' : ℕ}
    {s : ClientState (Option Session)}
    {old new th : Thread ClientCall Arrival (ClientState (Option Session))
      (Except ChatError ClientReply)}
    (at_k : (clients c).threads[k]? = some old)
    (found : (Function.update clients c ⟨s, (clients c).threads.set k new⟩ c').threads[k']?
      = some th) :
    (¬ (c = c' ∧ k = k') ∧ (clients c').threads[k']? = some th) ∨ c = c' ∧ k = k' ∧ th = new := by
  by_cases same : c' = c
  · subst same
    rw [Function.update_self] at found
    by_cases own : k = k'
    · subst own
      rw [List.getElem?_set_self (List.getElem?_eq_some_iff.mp at_k).1] at found
      exact Or.inr ⟨rfl, rfl, (Option.some.inj found).symm⟩
    · rw [List.getElem?_set_ne own] at found
      exact Or.inl ⟨fun both => own both.2, found⟩
  · rw [Function.update_of_ne same] at found
    exact Or.inl ⟨fun both => same both.1.symm, found⟩

/-- A client that goes on leaves the others alone. -/
theorem calls_update {clients : ℕ → ClientPool} {c : ℕ} {client : ClientPool}
    (grows : (clients c).threads.length ≤ client.threads.length) (c' : ℕ) :
    (clients c').threads.length ≤ (Function.update clients c client c').threads.length := by
  by_cases same : c' = c
  · subst same
    rw [Function.update_self]
    exact grows
  · rw [Function.update_of_ne same]

/-- No client loses a call. -/
theorem Happens.calls_le (happens : Happens site d d') (c : ℕ) :
    (d.clients c).threads.length ≤ (d'.clients c).threads.length := by
  cases happens with
  | call c' request =>
      refine calls_update ?_ c
      rw [List.length_append]
      exact Nat.le_add_right _ _
  | advance c' k arrival request n update next found answered =>
      refine calls_update ?_ c
      rw [List.length_set]
  | arrive n c' k wired waiting => exact Nat.le_refl _
  | serve l server served => exact Nat.le_refl _

/-- The server's steps, seen from the deployment. -/
theorem Happens.serves (happens : Happens site d d') :
    d'.server = d.server ∨ ∃ l, ScionChat.serve site.app d.server l = some d'.server := by
  cases happens with
  | call c request => exact Or.inl rfl
  | advance c k arrival request n update next found answered => exact Or.inl rfl
  | arrive n c k wired waiting =>
      exact Or.inr ⟨.spawn (wired.receive site.serde), rfl⟩
  | serve l server served => exact Or.inr ⟨l, served⟩

theorem Happens.returned (happens : Happens site d d') {j : ℕ} {request : Request}
    {response : Response} (ret : d.server.Returned j request response) :
    d'.server.Returned j request response := by
  rcases happens.serves with same | ⟨l, served⟩
  · rw [same]
    exact ret
  · exact Pool.Returned.step served ret

/-- A thread of the server stays in its place, with its request. -/
theorem Happens.thread (happens : Happens site d d') {j : ℕ} {request : Request}
    (there : ∃ th, d.server.threads[j]? = some th ∧ th.op = request) :
    ∃ th, d'.server.threads[j]? = some th ∧ th.op = request := by
  rcases happens.serves with same | ⟨l, served⟩
  · rw [same]
    exact there
  · exact Pool.op_step served there

/-- A flight that is served stays as it is. -/
theorem Happens.flight (happens : Happens site d d') {flight : Flight} (mem : flight ∈ d.flights)
    (serves : flight.served ≠ none) : flight ∈ d'.flights := by
  cases happens with
  | call c request => exact mem
  | advance c k arrival request n update next found answered => exact List.mem_append_left _ mem
  | arrive n c k wired waiting =>
      obtain ⟨m, at_m⟩ := List.getElem?_of_mem mem
      refine List.mem_of_getElem? (i := m) ?_
      rw [List.getElem?_set_ne, at_m]
      rintro rfl
      rw [waiting] at at_m
      cases at_m
      exact serves rfl
  | serve l server served => exact mem

theorem Happens.answered (happens : Happens site d d') {c k : ℕ} {reply : Reply ReplyBody}
    (answered : Answered site d c k reply) : Answered site d' c k reply := by
  refine answered.onward (fun flight mem serves => ?_) fun _ _ _ => happens.returned
  obtain ⟨there, own⟩ := List.mem_filter.mp mem
  exact List.mem_filter.mpr ⟨happens.flight there serves, own⟩

/-- **One event keeps the invariant.** What the server does is a step of the server by itself, and
what a client does is one of the client by itself; only the two that carry something across have
more to show. -/
theorem Sound.happens (sound : Sound site finds d) (happens : Happens site d d')
    (before : ∀ c k i s, finds c k i s → finds' c k i s)
    (now : ∀ c k i s, d.Finds c k i s → finds' c k i s) : Sound site finds' d' := by
  have own_onward : ∀ flight ∈ d.flights, flight.call < (d'.clients flight.client).threads.length :=
    fun flight mem => Nat.lt_of_lt_of_le (sound.own flight mem) (happens.calls_le _)
  have served_onward : ∀ flight ∈ d.flights, ∀ j ∈ flight.served, ∃ th,
      d'.server.threads[j]? = some th ∧ th.op = flight.wired.receive site.serde :=
    fun flight mem j serves => happens.thread (sound.served flight mem j serves)
  have answered_onward : ∀ c k reply, Answered site d c k reply → Answered site d' c k reply :=
    fun _ _ _ => happens.answered
  cases happens with
  | call c request =>
      refine ⟨fun c' k request' n prog found => ?_, own_onward, served_onward, sound.distinct⟩
      rcases thread_of_call found with old_thread | ⟨rfl, unstarted, same⟩
      · obtain ⟨met, call⟩ := sound.calls c' k request' n prog old_thread
        exact ⟨met, call.onward (before c' k) rfl (answered_onward c' k)⟩
      · cases same
        exact ⟨[], (CallSound.spawned sound unstarted request).onward (before c' k) rfl
          (answered_onward c' k)⟩
  | advance c k arrival request n update next found answered =>
      refine ⟨fun c' k' request' n' prog found' => ?_, fun flight mem => ?_,
        fun flight mem j serves => ?_, ?_⟩
      · have flights := flightsOf_append d c k c' k' (d.clients c).state
          (update arrival (d.clients c).state)
        rcases thread_of_advance found found' with ⟨other, old_thread⟩ | ⟨rfl, rfl, same⟩
        · obtain ⟨met, call⟩ := sound.calls c' k' request' n' prog old_thread
          refine ⟨met, call.onward (before c' k') ?_ (answered_onward c' k')⟩
          rw [flights, if_neg other, List.append_nil]
        · cases same
          obtain ⟨met, call⟩ := sound.calls c k request n _ found
          have state_now : d.Finds c k n (d.clients c).state := ⟨rfl, request, update, next, found⟩
          refine ⟨_, call.advanced (before c k) answered (answered_onward c k)
            (now c k n _ state_now) ?_⟩
          rw [flights, if_pos ⟨rfl, rfl⟩]
      · rcases List.mem_append.mp mem with before | new_flight
        · exact own_onward flight before
        · obtain ⟨rfl, rfl, -⟩ := mem_launched new_flight
          refine Nat.lt_of_lt_of_le (List.getElem?_eq_some_iff.mp found).1 (calls_update ?_ _)
          rw [List.length_set]
      · rcases List.mem_append.mp mem with before | new_flight
        · exact served_onward flight before j serves
        · rw [(mem_launched new_flight).2.2] at serves
          cases serves
      · refine List.pairwise_append.mpr ⟨sound.distinct, ?_, fun f _ f' mem' j _ serves' => ?_⟩
        · refine List.Pairwise.imp_of_mem (fun mem _ _ j serves => ?_) (List.pairwise_of_forall
            (R := fun _ _ => True) fun _ _ => trivial)
          rw [(mem_launched mem).2.2] at serves
          cases serves
        · rw [(mem_launched mem').2.2] at serves'
          cases serves'
  | arrive n c k wired waiting =>
      have bound : n < d.flights.length := (List.getElem?_eq_some_iff.mp waiting).1
      have mem_n : (⟨c, k, wired, none⟩ : Flight) ∈ d.flights := List.mem_of_getElem? waiting
      refine ⟨fun c' k' request n' prog found => ?_, fun flight mem => ?_,
        fun flight mem j serves => ?_, ?_⟩
      · obtain ⟨met, call⟩ := sound.calls c' k' request n' prog found
        have labels : (d.flights.set n ⟨c, k, wired, some d.server.threads.length⟩).map Flight.label
            = d.flights.map Flight.label := label_set waiting rfl
        exact ⟨met, call.onward (before c' k') (wired_congr labels c' k') (answered_onward c' k')⟩
      · rcases List.mem_or_eq_of_mem_set mem with before | rfl
        · exact own_onward flight before
        · exact own_onward ⟨c, k, wired, none⟩ mem_n
      · rcases List.mem_or_eq_of_mem_set mem with before | rfl
        · exact served_onward flight before j serves
        · obtain rfl := Option.some.inj serves
          exact ⟨_, List.getElem?_concat_length, rfl⟩
      · -- no other flight is served by the thread that has just started
        have fresh : ∀ flight ∈ d.flights, d.server.threads.length ∉ flight.served := by
          intro flight mem serves
          obtain ⟨th, at_j, -⟩ := sound.served flight mem _ serves
          exact absurd (List.getElem?_eq_some_iff.mp at_j).1 (Nat.lt_irrefl _)
        refine pairwise_set sound.distinct (fun flight mem => ⟨fun j serves serves' => ?_,
          fun j serves serves' => ?_⟩)
        · obtain rfl := Option.some.inj serves'
          exact fresh flight mem serves
        · obtain rfl := Option.some.inj serves
          exact fresh flight mem serves'
  | serve l server served =>
      refine ⟨fun c k request n prog found => ?_, own_onward, served_onward, sound.distinct⟩
      obtain ⟨met, call⟩ := sound.calls c k request n prog found
      exact ⟨met, call.onward (before c k) rfl (answered_onward c k)⟩

/-! ### Every run -/

/-- At some point of a run, a call that had taken `i` steps found its client in the state. -/
def Found (site : Site) (w : World) (sessions : ℕ → Option Session)
    (events : List DeploymentEvent) (c k i : ℕ) (s : ClientState (Option Session)) : Prop :=
  ∃ early late mid, events = early ++ late ∧
    run (step site) (start w sessions) early = some mid ∧ mid.Finds c k i s

theorem Found.onward {w : World} {sessions : ℕ → Option Session}
    {events more : List DeploymentEvent} {c k i : ℕ} {s : ClientState (Option Session)}
    (found : Found site w sessions events c k i s) :
    Found site w sessions (events ++ more) c k i s := by
  obtain ⟨early, late, mid, rfl, first, finds⟩ := found
  exact ⟨early, late ++ more, mid, List.append_assoc .., first, finds⟩

/-- **Every run of a deployment is sound.** It is the induction that every result about deployments
starts from. -/
theorem run_sound {w : World} {sessions : ℕ → Option Session} {events : List DeploymentEvent}
    (h : run (step site) (start w sessions) events = some d) :
    Sound site (Found site w sessions events) d := by
  refine run_induction (motive := fun events d => Sound site (Found site w sessions events) d)
    (sound_start w sessions) ?_ h
  intro events d event d' before sound stepped
  exact sound.happens (happens_of_step stepped) (fun _ _ _ _ found => found.onward)
    fun _ _ _ _ finds => ⟨events, [event], d, rfl, before, finds⟩

/-- What the server does at an event. -/
def served (site : Site) (d : Deployment) : DeploymentEvent → List (Label Request Moment)
  | .arrive n => (d.flights[n]?).elim [] fun flight => [.spawn (flight.wired.receive site.serde)]
  | .other request => [.spawn request]
  | .serve j m => [.advance j m]
  | .call _ _ | .step _ _ _ | .answer _ _ _ => []

theorem serves_step {event : DeploymentEvent} (h : d.step site event = some d') :
    run (ScionChat.serve site.app) d.server (d.served site event) = some d'.server := by
  have advances : ∀ {c k arrival}, d.advance site c k arrival = some d' →
      some d.server = some d'.server := by
    intro c k arrival h
    obtain ⟨client, -, rest⟩ := Option.bind_eq_some_iff.mp h
    obtain rfl := Option.some.inj rest
    rfl
  cases event with
  | call c request =>
      simp only [step, Option.bind_eq_bind, Option.bind_eq_some_iff] at h
      obtain ⟨client, -, rest⟩ := h
      obtain rfl := Option.some.inj rest
      rfl
  | step c k reason => exact advances h
  | answer c k n =>
      simp only [step, Option.bind_eq_bind, Option.bind_eq_some_iff] at h
      obtain ⟨response, -, rest⟩ := h
      exact advances rest
  | arrive n =>
      simp only [step] at h
      split at h
      next c k wired waiting =>
        obtain ⟨server, spawned, rest⟩ := Option.bind_eq_some_iff.mp h
        obtain rfl := Option.some.inj rest
        rw [served, waiting, Option.elim_some, run_singleton]
        exact spawned
      next => cases h
  | other request =>
      simp only [step, Option.bind_eq_bind, Option.bind_eq_some_iff] at h
      obtain ⟨server, spawned, rest⟩ := h
      obtain rfl := Option.some.inj rest
      rw [served, run_singleton]
      exact spawned
  | serve j m =>
      simp only [step, Option.bind_eq_bind, Option.bind_eq_some_iff] at h
      obtain ⟨server, advanced, rest⟩ := h
      obtain rfl := Option.some.inj rest
      rw [served, run_singleton]
      exact advanced

/-- **What the server does in a run of a deployment is a run of the server.** Whatever holds of the
server over all runs, holds of it here, with requests that clients have sent. -/
theorem run_serves {events : List DeploymentEvent} (h : run (step site) d events = some d') :
    run (ScionChat.serve site.app) d.server (images (step site) (served site) d events)
      = some d'.server :=
  run_images Deployment.server (fun _ _ _ stepped => serves_step stepped) h

/-- What has started stays, and the server loses no request. -/
theorem Happens.requests_le (happens : Happens site d d') :
    d.server.threads.length ≤ d'.server.threads.length := by
  rcases happens.serves with same | ⟨l, served⟩
  · rw [same]
  · have ran : run (ScionChat.serve site.app) d.server [l] = some d'.server :=
      (run_singleton _ _).trans served
    exact Pool.length_le ran

/-! ### Which request is that of which call -/

/-- The thread `j` of the server serves the call `k` of the client `c`. -/
def Serves (d : Deployment) (j c k : ℕ) : Prop :=
  ∃ flight ∈ d.flightsOf c k, j ∈ flight.served

/-- A thread serves one call. -/
theorem Sound.serves_injective (sound : Sound site finds d) {j c k c' k' : ℕ} (one : d.Serves j c k)
    (two : d.Serves j c' k') : c = c' ∧ k = k' := by
  obtain ⟨flight, mem, serves⟩ := one
  obtain ⟨flight', mem', serves'⟩ := two
  obtain ⟨there, own⟩ := List.mem_filter.mp mem
  obtain ⟨there', own'⟩ := List.mem_filter.mp mem'
  have apart : d.flights.Pairwise fun f f' => ∀ j ∈ f.served, j ∈ f'.served → f = f' :=
    sound.distinct.imp fun differ j serves serves' => absurd serves' (differ j serves)
  have flipped : d.flights.Pairwise (flip fun f f' => ∀ j ∈ f.served, j ∈ f'.served → f = f') :=
    sound.distinct.imp fun differ j serves serves' => absurd serves (differ j serves')
  obtain rfl := apart.forall_of_forall_of_flip (fun _ _ _ _ _ => rfl) flipped there there' j
    serves serves'
  obtain ⟨rfl, rfl⟩ := of_decide_eq_true own
  exact of_decide_eq_true own'

/-- The flight of a call holds the request which that call has put on the wire. -/
theorem CallSound.flight {c k n : ℕ} {request : ClientCall}
    {prog : Prog Arrival (ClientState (Option Session)) (Except ChatError ClientReply)}
    {met : ChatClient.MetBy} (call : CallSound site finds d c k request n prog met)
    {flight : Flight} (mem : flight ∈ d.flightsOf c k) :
    d.flightsOf c k = [flight] ∧ (site.client c).sentBy request met = some flight.wired := by
  have wired := call.sent
  cases sent : (site.client c).sentBy request met with
  | none =>
      rw [sent, Option.toList_none, List.map_eq_nil_iff] at wired
      rw [wired] at mem
      cases mem
  | some request =>
      rw [sent, Option.toList_some] at wired
      obtain ⟨only, alone, same⟩ := List.map_eq_singleton_iff.mp wired
      rw [alone] at mem ⊢
      obtain rfl := List.mem_singleton.mp mem
      exact ⟨rfl, congrArg some same.symm⟩

/-- A flight is that of a call that has started. -/
theorem Sound.call (sound : Sound site finds d) {c k : ℕ} {flight : Flight}
    (mem : flight ∈ d.flightsOf c k) : ∃ request n prog met,
      (d.clients c).threads[k]? = some ⟨request, n, prog⟩ ∧
        CallSound site finds d c k request n prog met := by
  obtain ⟨there, own⟩ := List.mem_filter.mp mem
  obtain ⟨rfl, rfl⟩ := of_decide_eq_true own
  have found := List.getElem?_eq_getElem (sound.own flight there)
  obtain ⟨met, call⟩ := sound.calls _ _ _ _ _ found
  exact ⟨_, _, _, met, found, call⟩

/-- One thread serves a call. -/
theorem Sound.serves_unique (sound : Sound site finds d) {j j' c k : ℕ} (one : d.Serves j c k)
    (two : d.Serves j' c k) : j = j' := by
  obtain ⟨flight, mem, serves⟩ := one
  obtain ⟨flight', mem', serves'⟩ := two
  obtain ⟨_, _, _, _, -, call⟩ := sound.call mem
  rw [(call.flight mem).1] at mem'
  obtain rfl := List.mem_singleton.mp mem'
  exact Option.some.inj (serves.symm.trans serves')

/-- What a call has put on the wire is what it asks for, with the token it carries. -/
theorem receive_sentBy {client : ChatClient} (origin : client.AtOrigin) {request : ClientCall}
    {met : ChatClient.MetBy} {wired : WireRequest} (sent : client.sentBy request met = some wired)
    (serde : Serde) : ∃ ask, request.ask = some ask ∧
      (request.needs → (carried request.needs ChatClient.token met).isSome) ∧
        wired.receive serde
          = ask.request serde (carried request.needs ChatClient.token met) := by
  obtain ⟨ask, asks, -⟩ := Option.bind_eq_some_iff.mp sent
  obtain ⟨-, holds, built⟩ := (ChatClient.sentBy_eq_some asks).mp sent
  exact ⟨ask, asks, holds,
    receive_build origin (ClientCall.ask_plain asks) built serde⟩

/-- A call that carries a token has found it in the session, when it took its first step. -/
def Bears (finds : ℕ → ℕ → ℕ → ClientState (Option Session) → Prop) (c k : ℕ) (request : ClientCall)
    (sent : Option String) : Prop :=
  request.needs → ∃ s session, finds c k 0 s ∧ s.session = some session ∧ sent = some session.token

theorem CallSound.bears {c k n : ℕ} {request : ClientCall}
    {prog : Prog Arrival (ClientState (Option Session)) (Except ChatError ClientReply)}
    {met : ChatClient.MetBy} (sound : CallSound site finds d c k request n prog met)
    (holds : request.needs → (carried request.needs ChatClient.token met).isSome) :
    Bears finds c k request (carried request.needs ChatClient.token met) := by
  intro needs
  obtain ⟨token, carries⟩ := Option.isSome_iff_exists.mp (holds needs)
  have read := carries
  rw [carried, if_pos needs] at read
  obtain ⟨first, at_head, found⟩ := Option.bind_eq_some_iff.mp read
  obtain ⟨i, s⟩ := first
  refine ⟨s, ?_⟩
  cases session : s.session with
  | none =>
      rw [session] at found
      cases found
  | some current =>
      rw [session] at found
      obtain rfl := Option.some.inj found
      rw [List.head?_eq_getElem?] at at_head
      exact ⟨current, sound.found 0 (i, s) at_head, rfl, carries⟩

/-- A thread that serves a call serves what that call asks for, with the token it carries. -/
theorem Sound.serves_call (sound : Sound site finds d) {j c k n : ℕ} {request : ClientCall}
    {prog : Prog Arrival (ClientState (Option Session)) (Except ChatError ClientReply)}
    {met : ChatClient.MetBy} (call : CallSound site finds d c k request n prog met)
    (origin : (site.client c).AtOrigin) (serves : d.Serves j c k) : ∃ ask th,
      request.ask = some ask ∧ d.server.threads[j]? = some th ∧
        th.op = ask.request site.serde (carried request.needs ChatClient.token met) ∧
          Bears finds c k request (carried request.needs ChatClient.token met) := by
  obtain ⟨flight, mem, by_j⟩ := serves
  obtain ⟨ask, asks, holds, received⟩ := receive_sentBy origin (call.flight mem).2 site.serde
  obtain ⟨th, at_j, op⟩ := sound.served flight (List.mem_of_mem_filter mem) j by_j
  exact ⟨ask, th, asks, at_j, op.trans received, call.bears holds⟩

/-- **A thread that serves a call serves what that call asks for**, with the token it has found.
The request was not changed on its way, and the token is the one that the call carries. -/
theorem Sound.serves_ask (sound : Sound site finds d) {j c k : ℕ}
    (origin : (site.client c).AtOrigin) (serves : d.Serves j c k) :
    ∃ request n prog ask sent th, (d.clients c).threads[k]? = some ⟨request, n, prog⟩ ∧
      request.ask = some ask ∧ d.server.threads[j]? = some th ∧
        th.op = ask.request site.serde sent ∧ Bears finds c k request sent := by
  obtain ⟨flight, mem, by_j⟩ := serves
  obtain ⟨request, n, prog, met, found, call⟩ := sound.call mem
  obtain ⟨ask, th, asks, at_j, op, bears⟩ := sound.serves_call call origin ⟨flight, mem, by_j⟩
  exact ⟨request, n, prog, ask, _, th, found, asks, at_j, op, bears⟩

/-- An answer that a call may be handed is the server's, to what the call asks for. -/
theorem Sound.handed (sound : Sound site finds d) {c k n : ℕ} {request : ClientCall}
    {prog : Prog Arrival (ClientState (Option Session)) (Except ChatError ClientReply)}
    {met : ChatClient.MetBy} (call : CallSound site finds d c k request n prog met)
    (origin : (site.client c).AtOrigin) {ask : Ask} (asks : request.ask = some ask)
    {reply : Reply ReplyBody} (answered : Answered site d c k reply) : ∃ j response,
      d.Serves j c k ∧ Bears finds c k request (carried request.needs ChatClient.token met) ∧
        d.server.Returned j (ask.request site.serde
          (carried request.needs ChatClient.token met)) response ∧
            reply = response.reply site.serde := by
  obtain ⟨flight, mem, j, by_j, asked, response, returned, rfl⟩ := answered
  have serves : d.Serves j c k := ⟨flight, mem, by_j⟩
  obtain ⟨ask', th, asks', at_j, op, bears⟩ := sound.serves_call call origin serves
  obtain ⟨taken, at_j'⟩ := returned
  -- what the call asks for, and the thread, are each found twice
  obtain rfl := Option.some.inj (asks.symm.trans asks')
  rw [at_j'] at at_j
  obtain rfl := Option.some.inj at_j
  have same : asked = ask.request site.serde _ := op
  exact ⟨j, response, serves, bears, ⟨taken, same ▸ at_j'⟩, rfl⟩

/-- **What stands behind a value that a call has returned**: the server has answered what the call
has asked for with a success, and the value is what the client reads in it. -/
theorem Sound.answered (sound : Sound site finds d) {c k : ℕ} (origin : (site.client c).AtOrigin)
    {request : ClientCall} {ask : Ask} (asks : request.ask = some ask) {value : ClientReply}
    (ret : (d.clients c).Returned k request (.ok value)) : ∃ j sent response, d.Serves j c k ∧
      Bears finds c k request sent ∧
        d.server.Returned j (ask.request site.serde sent) response ∧
          (response.reply site.serde).isSuccess ∧
            request.read (response.reply site.serde).body = .ok value := by
  obtain ⟨n, found⟩ := ret
  obtain ⟨met, call⟩ := sound.calls c k request n _ found
  obtain ⟨wired, reply, sent, answers, success, read⟩ :=
    ChatClient.call_returned asks call.resumed.symm
  obtain ⟨pair, at_step, handed⟩ := Option.map_eq_some_iff.mp answers
  obtain ⟨j, response, serves, bears, returned, rfl⟩ := sound.handed call origin asks
    (call.answers pair (List.mem_of_getElem? at_step) reply handed)
  exact ⟨j, _, response, serves, bears, returned, success, read⟩

/-- **What stands behind an error that a call has returned**: the transport, or nothing has been
sent, or the server has answered with what is no success that the client can read. -/
theorem Sound.failed (sound : Sound site finds d) {c k : ℕ} (origin : (site.client c).AtOrigin)
    {request : ClientCall} {ask : Ask} (asks : request.ask = some ask) {e : ChatError}
    (ret : (d.clients c).Returned k request (.error e)) : (∃ source, e = .transport source) ∨
      (∀ j, ¬ d.Serves j c k) ∨ ∃ j sent response, d.Serves j c k ∧
        Bears finds c k request sent ∧
          d.server.Returned j (ask.request site.serde sent) response ∧
            ((response.reply site.serde).isSuccess →
              ∃ text, request.read (response.reply site.serde).body = .error text) := by
  obtain ⟨n, found⟩ := ret
  obtain ⟨met, call⟩ := sound.calls c k request n _ found
  rcases ChatClient.call_failed asks call.resumed.symm with unsent | dropped |
    ⟨reply, answers, unread⟩
  · refine Or.inr (Or.inl fun j serves => ?_)
    obtain ⟨flight, mem, -⟩ := serves
    have sent := (call.flight mem).2
    rw [unsent] at sent
    cases sent
  · exact Or.inl dropped
  · obtain ⟨pair, at_step, handed⟩ := Option.map_eq_some_iff.mp answers
    obtain ⟨j, response, serves, bears, returned, rfl⟩ := sound.handed call origin asks
      (call.answers pair (List.mem_of_getElem? at_step) reply handed)
    exact Or.inr (Or.inr ⟨j, _, response, serves, bears, returned, unread⟩)

/-- **A call whose request comes later is served later**: by a thread of the server that starts
later.  What the server did before that is therefore done when the request arrives. -/
theorem served_after {mid : Deployment} {events : List DeploymentEvent}
    (h : run (step site) mid events = some d) {j c k : ℕ} (unsent : mid.flightsOf c k = [])
    (serves : d.Serves j c k) : mid.server.threads.length ≤ j := by
  have later : mid.server.threads.length ≤ d.server.threads.length ∧ ∀ flight ∈ d.flights,
      mid.flightsOf flight.client flight.call = [] →
        ∀ j ∈ flight.served, mid.server.threads.length ≤ j := by
    refine run_invariant (P := fun d : Deployment =>
      mid.server.threads.length ≤ d.server.threads.length ∧ ∀ flight ∈ d.flights,
        mid.flightsOf flight.client flight.call = [] →
          ∀ j ∈ flight.served, mid.server.threads.length ≤ j) ?_ h ⟨Nat.le_refl _, ?_⟩
    · rintro d event d' stepped ⟨grown, later⟩
      have happens := happens_of_step stepped
      refine ⟨Nat.le_trans grown happens.requests_le, fun flight mem unsent j by_j => ?_⟩
      cases happens with
      | call c request => exact later flight mem unsent j by_j
      | advance c k arrival request n update next found answered =>
          rcases List.mem_append.mp mem with before | new_flight
          · exact later flight before unsent j by_j
          · rw [(mem_launched new_flight).2.2] at by_j
            cases by_j
      | arrive n c k wired waiting =>
          rcases List.mem_or_eq_of_mem_set mem with before | rfl
          · exact later flight before unsent j by_j
          · obtain rfl := Option.some.inj by_j
            exact grown
      | serve l server served => exact later flight mem unsent j by_j
    · intro flight mem unsent
      have own : flight ∈ mid.flightsOf flight.client flight.call :=
        List.mem_filter.mpr ⟨mem, decide_eq_true ⟨rfl, rfl⟩⟩
      rw [unsent] at own
      cases own
  obtain ⟨flight, mem, by_j⟩ := serves
  obtain ⟨there, own⟩ := List.mem_filter.mp mem
  obtain ⟨rfl, rfl⟩ := of_decide_eq_true own
  exact later.2 flight there unsent j by_j

/-- A call that has not taken its first step has put nothing on the wire. -/
theorem Sound.untaken (sound : Sound site finds d) {c k : ℕ} {s : ClientState (Option Session)}
    (finds : d.Finds c k 0 s) : d.flightsOf c k = [] := by
  obtain ⟨-, request, update, next, found⟩ := finds
  obtain ⟨met, call⟩ := sound.calls c k request 0 _ found
  obtain rfl := List.length_eq_zero_iff.mp call.taken
  have sent := call.sent
  rw [ChatClient.sentBy_nil, Option.toList_none, List.map_eq_nil_iff] at sent
  exact sent

end Deployment

end ScionChat
