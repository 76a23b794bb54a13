import ScionChat.Deployment.Calls

/-!
# What clients see of each other

Clients make calls of one server, at the same time and over a network that may delay, reorder and
drop them.  `deployment_linearizable` says that the calls which have returned a value could as well
have been carried out one after the other at the server, each at once, in an order that real time
does not contradict: a call that has returned before another one starts, at whichever client, comes
first.

`SeesEarlier` is what a user can rely on for that reason: who reads after a post was acknowledged
sees the post, and who reads after somebody else has read sees at least as much.

### design decisions

* **The server's history is the clients' history.**  No new order is made for the calls: they are
  placed where the server has their requests.  A call that returns before another one starts has
  been answered by then, so its request was served before the other one arrived, and real time at
  the clients is real time at the server.
* **A run is cut in two.**  "Later" means that the run is `early ++ late`, that the earlier call has
  returned after `early`, and that the later one is not there yet.  The two may be of any clients.
* **The directory has a past.**  `Ran` lets the server be one that was started over whatever earlier
  servers have left, other builds included.

### What is load-bearing

`Accounted` carries the history, and `calls_in_order` cuts it between two calls.  Every field of
`SeesEarlier` is then one of `Readers`' lemmas about two operations of the store, of which the
second finds a store that extends what the first has left.
-/

namespace ScionChat

open Interleaving TransitionSystem

namespace Deployment

variable {crypto : Crypto} {site : Site} {w : World} {sessions : ℕ → Option Session}
  {events early late : List DeploymentEvent} {mid d : Deployment}

/-- **A run of a deployment**: its server has been started over a directory, whatever servers have
run over it before, and its clients know where the server is. -/
structure Ran (crypto : Crypto) (site : Site) (w : World) (sessions : ℕ → Option Session)
    (events : List DeploymentEvent) (d : Deployment) : Prop where
  started : ∃ hostEvents h, Host.Ran crypto hostEvents h ∧ h.running = some (site.app, []) ∧
    h.world = w
  origin : ∀ c, (site.client c).AtOrigin
  happened : run (step site) (start w sessions) events = some d

namespace Ran

variable (ran : Ran crypto site w sessions events d)
include ran

theorem sound : Sound site (Found site w sessions events) d :=
  run_sound ran.happened

theorem valid : w.db.Valid ∧ w.db.Stamped := by
  obtain ⟨hostEvents, h, hosted, running, rfl⟩ := ran.started
  exact hosted.opened_stamped running

/-- The labels of the server's run. -/
theorem serves : run (serve site.app) (Pool.idle w)
    (images (step site) (served site) (start w sessions) events) = some d.server :=
  run_serves ran.happened

theorem history : ∃ history, ServerHistory site.app w
    (images (step site) (served site) (start w sessions) events) d.server history :=
  server_linearizable_of_valid ran.valid.1 ran.serves

/-- What the server has answered fits the client's types. -/
theorem fits {j : ℕ} {req : Request} {response : Response}
    (ret : d.server.Returned j req response) : response.body.Fits := by
  have bodies := server_bodies ran.valid.1 ran.valid.2 ran.serves
  exact bodies.1.fits bodies.2 ret

end Ran

theorem Ran.split (ran : Ran crypto site w sessions (early ++ late) d) :
    ∃ mid, Ran crypto site w sessions early mid ∧ run (step site) mid late = some d := by
  obtain ⟨mid, first, rest⟩ := run_split ran.happened
  exact ⟨mid, ⟨ran.started, ran.origin, first⟩, rest⟩

/-! ### From the clients to the server -/

theorem Happens.serves_onward {d d' : Deployment} (happens : Happens site d d') {j c k : ℕ}
    (serves : d.Serves j c k) : d'.Serves j c k := by
  obtain ⟨flight, mem, by_j⟩ := serves
  obtain ⟨there, own⟩ := List.mem_filter.mp mem
  have some_ : flight.served ≠ none := by
    rw [Option.mem_def.mp by_j]
    exact Option.some_ne_none j
  exact ⟨flight, List.mem_filter.mpr ⟨happens.flight there some_, own⟩, by_j⟩

/-- A thread serves its call for good. -/
theorem Serves.run {j c k : ℕ} (h : run (step site) mid late = some d)
    (serves : mid.Serves j c k) : d.Serves j c k :=
  run_invariant (P := fun d : Deployment => d.Serves j c k)
    (fun _ _ _ stepped serves => (happens_of_step stepped).serves_onward serves) h serves

/-- A request that is served at once keeps the tables valid, and only adds to the world. -/
theorem served_steps (app : AppState) : ∀ req (s : World) response t, s.db.Valid →
    ServedAtOnce app req s response t → t.db.Valid ∧ s.Extends t :=
  fun _ _ _ _ valid served => served_grows valid served

/-! ### One order for all calls -/

/-- **The history accounts for the deployment**: served one after the other, each at once, its
requests lead from what the server started with to what it has; every call that has returned a
value is one of them, by which the value is explained; and a call that had returned a value before
another one started comes before it, at whichever clients the two were made. -/
structure Accounted (site : Site) (w : World) (sessions : ℕ → Option Session)
    (events : List DeploymentEvent) (d : Deployment) (history : List (Entry Request World)) :
    Prop where
  chained : Chained w history d.server.state
  distinct : history.Pairwise fun e e' => e.thread ≠ e'.thread
  served : ∀ e ∈ history, ∃ response, ServedAtOnce site.app e.op e.before response e.after
  returned : ∀ c k request value, ClientCall.ask request ≠ none →
    (d.clients c).Returned k request (.ok value) → ∃ e ∈ history, ∃ sent,
      d.Serves e.thread c k ∧ Happened site.app sent e.before e.after request value
  ordered : ∀ early late mid, events = early ++ late →
    run (step site) (start w sessions) early = some mid → ∀ c k request value,
      ClientCall.ask request ≠ none → (mid.clients c).Returned k request (.ok value) →
        ∀ c' k', (mid.clients c').threads.length ≤ k' → ∀ j j', d.Serves j c k →
          d.Serves j' c' k' → Precedes history j j'

/-- **The calls that have returned a value are linearizable**, in every run of a deployment: over
any network, with any number of clients and calls at once, whatever fails.  What a call came to at
its moment is `Happened`, and that leaves out the position of a room that the call has just created,
as the history of the server does. -/
theorem deployment_linearizable (ran : Ran crypto site w sessions events d) :
    ∃ history, Accounted site w sessions events d history := by
  obtain ⟨history, lin⟩ := ran.history
  have steps := lin.steps (P := fun s : World => s.db.Valid) (R := World.Extends)
    (served_steps site.app) ran.valid.1
  refine ⟨history, lin.chained, lin.distinct, fun e mem => (lin.started e mem).2,
    fun c k request value needs ret => ?_, ?_⟩
  · obtain ⟨ask, asks⟩ := Option.ne_none_iff_exists'.mp needs
    obtain ⟨j, sent, response, serves, -, answered, success, read⟩ :=
      ran.sound.answered (ran.origin c) asks ret
    obtain ⟨e, mem, rfl, -, at_once⟩ := lin.returned j _ response answered
    exact ⟨e, mem, sent, serves, happened_of_served asks (steps e mem).1 at_once
      (ran.fits answered) success read⟩
  · rintro early late mid rfl first c k request value needs ret c' k' unstarted j j' serves serves'
    obtain ⟨ask, asks⟩ := Option.ne_none_iff_exists'.mp needs
    obtain ⟨mid', ran', rest⟩ := ran.split
    obtain rfl : mid' = mid := Option.some.inj (ran'.happened.symm.trans first)
    -- the thread of the earlier call had answered by then, and that of the later one starts later
    obtain ⟨j₀, sent, response, serves₀, -, answered, -, -⟩ :=
      ran'.sound.answered (ran.origin c) asks ret
    obtain rfl : j₀ = j := ran.sound.serves_unique (serves₀.run rest) serves
    have later := served_after rest (ran'.sound.unstarted unstarted) serves'
    exact lin.ordered _ _ mid'.server (images_append late first) ran'.serves j₀ _ response
      answered j' later

/-! ### A deployment to run -/

end Deployment

namespace Sample

open Deployment

/-- The sample server, and clients that know it under the name `chat`. -/
def site : Site where
  app := state
  client := fun _ => ⟨"http://chat", fun _ => none⟩
  serde := .json

theorem site_origin (c : ℕ) : (site.client c).AtOrigin := by
  have base : (site.client c).base = "http" ++ "://" ++ "chat" := by
    show String.ofList ("http://chat".toList.rdropWhile (· = '/')) = _
    rw [List.rdropWhile_eq_self_iff.mpr (by decide), String.ofList_toList]
    rfl
  exact ⟨"http", "chat", base, by decide, by simp⟩

theorem site_ran {events : List DeploymentEvent} {d : Deployment}
    (happened : run (step site) (start world fun _ => none) events = some d) :
    Ran .plain site world (fun _ => none) events d where
  started := ⟨[Host.starts], _, rfl, rfl, rfl⟩
  origin := site_origin
  happened := happened

/-- A call whose request becomes the flight `n`, and is served by the thread `n`. -/
def call (c k n : ℕ) (request : ClientCall) (asking serving : ℕ) : List DeploymentEvent :=
  .call c request :: List.replicate asking (.step c k .timeout) ++ .arrive n ::
    List.replicate serving (.serve n {}) ++ [.answer c k n]

/-- Alice registers, logs in and posts, at one client. -/
def alicePosts : List DeploymentEvent :=
  call 0 0 0 (.register "alice" "pw") 1 3 ++ call 0 1 1 (.login "alice" "pw") 1 2 ++
    [.step 0 1 .timeout] ++ call 0 2 2 (.send ⟨1⟩ "hi") 2 3

/-- Alice logs in and reads, at another client. -/
def aliceReads : List DeploymentEvent :=
  call 1 0 3 (.login "alice" "pw") 1 2 ++ [.step 1 0 .timeout] ++
    call 1 1 4 (.messages ⟨1⟩ 50 .newest) 2 3

/-- The two calls that matter, when first the one and then the other has happened. -/
def postedAndRead : Option (Deployment × Deployment) := do
  let mid ← run (step site) (start world fun _ => none) alicePosts
  return (mid, ← run (step site) mid aliceReads)

set_option maxRecDepth 20000 in
/-- Alice posts, and reads what she has posted. -/
theorem alice_reads : ∃ mid d : Deployment,
    run (step site) (start world fun _ => none) alicePosts = some mid ∧
      run (step site) mid aliceReads = some d ∧
        (mid.clients 0).Returned 2 (.send ⟨1⟩ "hi") (.ok (.posted ⟨⟨1⟩, ⟨0⟩⟩)) ∧
          (mid.clients 1).threads.length = 0 ∧
            (d.clients 1).Returned 1 (.messages ⟨1⟩ 50 .newest)
              (.ok (.messages [⟨⟨1⟩, "alice", "hi", ⟨0⟩⟩])) := by
  have leads : postedAndRead.map (fun pair => ((pair.1.clients 0).threads[2]?,
      (pair.1.clients 1).threads.length, (pair.2.clients 1).threads[1]?))
        = some (some ⟨.send ⟨1⟩ "hi", 3, .ret (.ok (.posted ⟨⟨1⟩, ⟨0⟩⟩))⟩, 0,
            some ⟨.messages ⟨1⟩ 50 .newest, 3,
              .ret (.ok (.messages [⟨⟨1⟩, "alice", "hi", ⟨0⟩⟩]))⟩) := by
    rfl
  obtain ⟨⟨mid, d⟩, led, same⟩ := Option.map_eq_some_iff.mp leads
  simp only [postedAndRead, Option.bind_eq_bind, Option.bind_eq_some_iff] at led
  obtain ⟨_, first, _, second, rest⟩ := led
  cases rest
  obtain ⟨posted, same⟩ := Prod.mk.inj same
  obtain ⟨none_yet, read⟩ := Prod.mk.inj same
  exact ⟨_, _, first, second, ⟨3, posted⟩, none_yet, ⟨3, read⟩⟩

end Sample

namespace Deployment

/-- Alice's post and her reading are in the history, in that order. -/
theorem deployment_linearizable_alice : ∃ d history,
    Accounted Sample.site Sample.world (fun _ => none) (Sample.alicePosts ++ Sample.aliceReads) d
      history ∧
    ∃ e ∈ history, ∃ sent, d.Serves e.thread 1 1 ∧ Happened Sample.state sent e.before e.after
      (.messages ⟨1⟩ 50 .newest) (.messages [⟨⟨1⟩, "alice", "hi", ⟨0⟩⟩]) := by
  obtain ⟨mid, d, first, second, -, -, read⟩ := Sample.alice_reads
  have happened := run_join first second
  obtain ⟨history, accounted⟩ := deployment_linearizable (Sample.site_ran happened)
  exact ⟨d, history, accounted, accounted.returned 1 1 _ _ (fun asks => by cases asks) read⟩

/-! ### From one call to a later one -/

/-- **Two calls, one after the other**: what lies behind the second one happened in a world that
continues what the first one left. -/
theorem calls_in_order (ran : Ran crypto site w sessions (early ++ late) d)
    (first : run (step site) (start w sessions) early = some mid) {c c' k k' : ℕ}
    {request request' : ClientCall} {ask ask' : Ask} (asks : request.ask = some ask)
    (asks' : request'.ask = some ask') {value value' : ClientReply}
    (ret : (mid.clients c).Returned k request (.ok value))
    (unstarted : (mid.clients c').threads.length ≤ k')
    (ret' : (d.clients c').Returned k' request' (.ok value')) :
    ∃ sent sent', ∃ s t s' t' : World, s.db.Valid ∧ Happened site.app sent s t request value ∧
      t.Extends s' ∧ s'.db.Valid ∧ Happened site.app sent' s' t' request' value' ∧
        t'.Extends d.server.state := by
  obtain ⟨history, lin⟩ := ran.history
  obtain ⟨mid', ran', rest⟩ := ran.split
  obtain rfl : mid' = mid := Option.some.inj (ran'.happened.symm.trans first)
  obtain ⟨j, sent, response, serves, -, answered, success, read⟩ :=
    ran'.sound.answered (ran.origin c) asks ret
  obtain ⟨j', sent', response', serves', -, answered', success', read'⟩ :=
    ran.sound.answered (ran.origin c') asks' ret'
  have later := served_after rest (ran'.sound.unstarted unstarted) serves'
  obtain ⟨s, t, s', t', valid, at_once, between, valid', at_once', onward⟩ :=
    lin.in_order (P := fun s : World => s.db.Valid) (R := World.Extends) World.Extends.refl
      World.Extends.trans (served_steps site.app) ran.valid.1 (images_append late first)
      ran'.serves (run_serves rest) answered later answered'
  have happened := happened_of_served asks valid at_once (ran'.fits answered) success read
  have happened' := happened_of_served asks' valid' at_once' (ran.fits answered') success' read'
  exact ⟨sent, sent', s, t, s', t', valid, happened, between, valid', happened', onward⟩

/-- **What a call that starts later can rely on**, at whichever clients the two are made.  The
calls that have returned in `mid` are the earlier ones; those that it has not started yet, and that
have returned in `d`, the later. -/
structure SeesEarlier (site : Site) (mid d : Deployment) : Prop where
  /-- A page after a post is cut from a log that has the post. -/
  sent_read : ∀ c k c' k' room body landed limit cursor page,
    (mid.clients c).Returned k (.send room body) (.ok (.posted landed)) →
      (mid.clients c').threads.length ≤ k' →
        (d.clients c').Returned k' (.messages room limit cursor) (.ok (.messages page)) →
          ∃ log username, ⟨landed.seq, username, body, landed.postedAt⟩ ∈ log ∧
            log <+: d.server.state.db.log room ∧ page = (cursor.query limit).page log
  /-- A page after a page is cut from a log that continues the first one's. -/
  read_read : ∀ c k c' k' room limit limit' cursor cursor' page page',
    (mid.clients c).Returned k (.messages room limit cursor) (.ok (.messages page)) →
      (mid.clients c').threads.length ≤ k' →
        (d.clients c').Returned k' (.messages room limit' cursor') (.ok (.messages page')) →
          ∃ log log', page = (cursor.query limit).page log ∧ log <+: log' ∧
            page' = (cursor'.query limit').page log' ∧ log' <+: d.server.state.db.log room
  /-- A post after a post lands behind it, in whichever rooms the two are. -/
  sent_sent : ∀ c k c' k' room room' body body' landed landed',
    (mid.clients c).Returned k (.send room body) (.ok (.posted landed)) →
      (mid.clients c').threads.length ≤ k' →
        (d.clients c').Returned k' (.send room' body') (.ok (.posted landed')) →
          landed.seq < landed'.seq
  /-- A list of rooms after a post shows its room at least as far as the post. -/
  sent_listed : ∀ c k c' k' room body landed rooms,
    (mid.clients c).Returned k (.send room body) (.ok (.posted landed)) →
      (mid.clients c').threads.length ≤ k' →
        (d.clients c').Returned k' .rooms (.ok (.rooms rooms)) →
          ∃ r ∈ rooms, r.id = room ∧ landed.seq ≤ r.latestSeq
  /-- A list of rooms after a creation has the room. -/
  created_listed : ∀ c k c' k' name room rooms,
    (mid.clients c).Returned k (.createRoom name) (.ok (.room room)) →
      (mid.clients c').threads.length ≤ k' →
        (d.clients c').Returned k' .rooms (.ok (.rooms rooms)) →
          ∃ r ∈ rooms, r.id = room.id ∧ r.name = room.name ∧ NoCase r.name name
  /-- A list of rooms after a list continues it. -/
  listed_listed : ∀ c k c' k' rooms rooms',
    (mid.clients c).Returned k .rooms (.ok (.rooms rooms)) →
      (mid.clients c').threads.length ≤ k' →
        (d.clients c').Returned k' .rooms (.ok (.rooms rooms')) → Db.Continues rooms rooms'
  /-- Who logs in after a registration, however the name is spelled, has typed a password that
  opens what was made of the registered one. -/
  registered_loggedIn : ∀ c k c' k' username username' password password' info,
    (mid.clients c).Returned k (.register username password) (.ok .done) →
      (mid.clients c').threads.length ≤ k' → NoCase username username' →
        (d.clients c').Returned k' (.login username' password') (.ok (.login info)) →
          ∃ salt hash, site.app.crypto.hash password salt = some hash ∧
            verifyPassword site.app.crypto password' (some hash) = true

/-- **Calls see what had returned before they started**, over any network and at any clients. -/
theorem later_calls_see_earlier_calls (ran : Ran crypto site w sessions (early ++ late) d)
    (first : run (step site) (start w sessions) early = some mid) : SeesEarlier site mid d where
  sent_read := by
    intro c k c' k' room body landed limit cursor page ret unstarted ret'
    obtain ⟨sent, sent', s, t, s', t', valid, happened, between, valid', happened', onward⟩ :=
      calls_in_order ran first rfl rfl ret unstarted ret'
    cases happened with
    | posted _ _ username now landed accepted post =>
      cases happened' with
      | paged _ _ _ messages read =>
          obtain ⟨-, -, -, there⟩ := post.posted valid
          have onward_log := (read.grows valid').2.trans onward.db
          exact ⟨s'.db.log room, username, (Db.log_grows between.db room).subset there,
            Db.log_grows onward_log room, read.page valid'⟩
  read_read := by
    intro c k c' k' room limit limit' cursor cursor' page page' ret unstarted ret'
    obtain ⟨sent, sent', s, t, s', t', valid, happened, between, valid', happened', onward⟩ :=
      calls_in_order ran first rfl rfl ret unstarted ret'
    cases happened with
    | paged _ _ _ messages read =>
      cases happened' with
      | paged _ _ _ messages' read' =>
          have grown := (read.grows valid).2.trans between.db
          have onward_log := (read'.grows valid').2.trans onward.db
          exact ⟨s.db.log room, s'.db.log room, read.page valid, Db.log_grows grown room,
            read'.page valid', Db.log_grows onward_log room⟩
  sent_sent := by
    intro c k c' k' room room' body body' landed landed' ret unstarted ret'
    obtain ⟨sent, sent', s, t, s', t', valid, happened, between, valid', happened', onward⟩ :=
      calls_in_order ran first rfl rfl ret unstarted ret'
    cases happened with
    | posted _ _ username now landed accepted post =>
      cases happened' with
      | posted _ _ username' now' landed' accepted' post' =>
          exact CarriedOut.posted_posted valid between.db valid' post post'
  sent_listed := by
    intro c k c' k' room body landed rooms ret unstarted ret'
    obtain ⟨sent, sent', s, t, s', t', valid, happened, between, valid', happened', onward⟩ :=
      calls_in_order ran first rfl rfl ret unstarted ret'
    cases happened with
    | posted _ _ username now landed accepted post =>
      cases happened' with
      | listed rooms list =>
          exact CarriedOut.posted_listed valid between.db valid' post list
  created_listed := by
    intro c k c' k' name room rooms ret unstarted ret'
    obtain ⟨sent, sent', s, t, s', t', valid, happened, between, valid', happened', onward⟩ :=
      calls_in_order ran first rfl rfl ret unstarted ret'
    cases happened with
    | created _ outcome create =>
      cases happened' with
      | listed rooms list =>
          exact CarriedOut.created_listed valid between.db valid' create list
  listed_listed := by
    intro c k c' k' rooms rooms' ret unstarted ret'
    obtain ⟨sent, sent', s, t, s', t', valid, happened, between, valid', happened', onward⟩ :=
      calls_in_order ran first rfl rfl ret unstarted ret'
    cases happened with
    | listed rooms list =>
      cases happened' with
      | listed rooms' list' =>
          exact CarriedOut.listed_listed valid between.db valid' list list'
  registered_loggedIn := by
    intro c k c' k' username username' password password' info ret unstarted same ret'
    obtain ⟨sent, sent', s, t, s', t', valid, happened, between, valid', happened', onward⟩ :=
      calls_in_order ran first rfl rfl ret unstarted ret'
    cases happened with
    | registered _ _ hash salt named hashed register =>
      cases happened' with
      | loggedIn _ _ phc token now found verified issued =>
          obtain rfl := Option.some.inj
            (CarriedOut.registered_found valid between.db valid' same register found)
          exact ⟨salt, phc, hashed, verified⟩

/-- Alice's page is cut from a log that has what she has posted. -/
theorem later_calls_see_earlier_calls_alice : ∃ mid d,
    run (step Sample.site) (start Sample.world fun _ => none) Sample.alicePosts = some mid ∧
      run (step Sample.site) mid Sample.aliceReads = some d ∧
        SeesEarlier Sample.site mid d ∧
          ∃ log username, (⟨⟨1⟩, username, "hi", ⟨0⟩⟩ : Message) ∈ log ∧
            [⟨⟨1⟩, "alice", "hi", ⟨0⟩⟩] = (ChatClient.Cursor.newest.query 50).page log := by
  obtain ⟨mid, d, first, second, posted, none_yet, read⟩ := Sample.alice_reads
  have happened := run_join first second
  have sees := later_calls_see_earlier_calls (Sample.site_ran happened) first
  obtain ⟨log, username, there, -, page⟩ :=
    sees.sent_read 0 2 1 1 ⟨1⟩ "hi" _ 50 .newest _ posted (none_yet.symm ▸ Nat.zero_le 1) read
  exact ⟨mid, d, first, second, sees, log, username, there, page⟩

end Deployment

end ScionChat
