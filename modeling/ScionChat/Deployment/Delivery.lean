import ScionChat.Deployment.History

/-!
# What becomes of the messages that clients send

The network may lose a request or its answer, and a call may give up at any time.  Still, every
message the server has gained is that of one request, and every call has made one request at most.
`every_send_lands_once` puts the messages of a run into a journal, each with the thread of the
server that has posted it, and says which calls have their message there: one that was acknowledged
has, one that has failed has not, unless it was the transport that failed it, and then it may.

### design decisions

* **A journal, not a set.**  `Delivered` lists the rows in the order of the table, each with its
  thread.  That no thread is in it twice is "at most once"; that every row is in it, and that every
  entry is a row which its thread's request posts, is what keeps the journal from being made up.
* **Requests of others have entries too.**  They are posts like any other.  Which entries are a
  call's is read off its flight, so the journal is about the table and not about our clients.
* **A transport error says nothing.**  This is the one error after which the message may be there,
  and the theorem says "may" by leaving it open.

### What is load-bearing

`posted_of_mem`, by way of the history of the server: a row of the table goes back to the moment
of one request, and `Sound.serves_unique` says that a call has one request at most.
-/

namespace ScionChat

open Interleaving TransitionSystem

namespace Deployment

variable {crypto : Crypto} {site : Site} {w : World} {sessions : ℕ → Option Session}
  {events : List DeploymentEvent} {d d' : Deployment}

/-! ### What one request adds -/

/-- What an entry adds to the messages. -/
abbrev posts (e : Entry Request World) : List (ℕ × MessageRow) :=
  e.gains fun w => w.db.messages

/-- A request that is served at once adds the message that it posts, and is answered so, or it adds
none. -/
theorem posts_served {app : AppState} {e : Entry Request World} {response : Response}
    (valid : e.before.db.Valid) (served : ServedAtOnce app e.op e.before response e.after) :
    (posts e = [] ∧ (Posting e.op → ¬ response.isSuccess)) ∨
      ∃ row, Posts.Row app e.op e.before row ∧ response = Posts.answer row ∧
        posts e = [(e.thread, row)] := by
  rcases served_messages valid served with ⟨same, fails⟩ | ⟨row, posted, answered, appended⟩
  · refine Or.inl ⟨?_, fails⟩
    rw [posts, Entry.gains, same, List.drop_length]
    rfl
  · refine Or.inr ⟨row, posted, answered, ?_⟩
    rw [posts, Entry.gains, appended, List.drop_left]
    rfl

theorem posts_thread {e : Entry Request World} {j : ℕ} {row : MessageRow}
    (mem : (j, row) ∈ posts e) : j = e.thread := by
  obtain ⟨row', -, same⟩ := List.mem_map.mp mem
  exact (Prod.mk.inj same).1.symm

/-- What the client reads in the answer to a post is where the message is. -/
theorem posts_reads {row : MessageRow} {room : RoomId} {body : String}
    {serde : Serde} (fits : (Posts.answer row).body.Fits) :
    (ClientCall.send room body).read ((Posts.answer row).reply serde).body
      = .ok (.posted ⟨⟨row.seq.toNat⟩, ⟨row.postedAt.toNat⟩⟩) := by
  have at_reply : (ReplyBody.read serde (Posts.answer row).body).posted
      = .ok ⟨⟨row.seq.toNat⟩, ⟨row.postedAt.toNat⟩⟩ :=
    Body.readAs_read serde (Posts.answer row).body fits
  rw [Response.reply, ClientCall.read, at_reply]
  rfl

/-- What a call of a client asks for is a post only if it sends a message. -/
theorem send_of_posting {request : ClientCall} {ask : Ask} (asks : request.ask = some ask)
    {sent : Option String} {serde : Serde} {app : AppState} {s : World}
    {row : MessageRow} (posted : Posts.Row app (ask.request serde sent) s row) :
    ∃ room, request = .send room row.body ∧ row.roomId = room.get := by
  obtain ⟨id, room, path, at_path, home⟩ := posted.room
  obtain ⟨body, read, text⟩ := posted.text
  have short : ∀ segment, [segment] ≠ ["rooms", id, "messages"] := fun _ same => by cases same
  cases request with
  | session => cases asks
  | logout => cases asks
  | send room' body' =>
      cases asks
      have sent_body : (JsonBody.read serde _).postMessage = .ok ⟨body'⟩ :=
        RequestBody.readAs_text serde (.postMessage ⟨body'⟩)
      obtain rfl := Except.ok.inj (read.symm.trans sent_body)
      have segment : toString room'.get = id := (List.cons.inj (List.cons.inj path).2).1
      rw [← segment] at at_path
      obtain rfl := eq_of_pathId at_path
      exact ⟨room', congrArg _ text.symm, home⟩
  | messages room' limit cursor =>
      cases asks
      cases posted.posting.1
  | _ =>
      cases asks
      exact absurd path (short _)

/-! ### Who has asked for it -/

/-- Without other requests, every thread of the server serves a call. -/
theorem serves_of_own (h : run (step site) (start w sessions) events = some d)
    (own : ∀ request, .other request ∉ events) :
    ∀ j < d.server.threads.length, ∃ c k, d.Serves j c k := by
  refine run_invariant_of (L := fun event => ∀ request, event ≠ .other request)
    (P := fun d : Deployment => ∀ j < d.server.threads.length, ∃ c k, d.Serves j c k) ?_
    (fun event mem request same => own request (by rwa [same] at mem)) h
    (fun j started => absurd started (Nat.not_lt_zero j))
  intro d event d' clients stepped serving j started
  have happens := happens_of_step stepped
  have onward : ∀ j < d.server.threads.length, ∃ c k, d'.Serves j c k := fun j started => by
    obtain ⟨c, k, serves⟩ := serving j started
    exact ⟨c, k, happens.serves_onward serves⟩
  rcases Nat.lt_or_ge j d.server.threads.length with before | new
  · exact onward j before
  · -- the server has one thread more, so something has arrived
    cases event with
    | call c request =>
        simp only [step, Option.bind_eq_bind, Option.bind_eq_some_iff] at stepped
        obtain ⟨client, -, rest⟩ := stepped
        obtain rfl := Option.some.inj rest
        exact absurd started (Nat.not_lt.mpr new)
    | step c k reason =>
        obtain ⟨client, -, rest⟩ := Option.bind_eq_some_iff.mp stepped
        obtain rfl := Option.some.inj rest
        exact absurd started (Nat.not_lt.mpr new)
    | answer c k n =>
        simp only [step, Option.bind_eq_bind, Option.bind_eq_some_iff] at stepped
        obtain ⟨response, -, advanced⟩ := stepped
        obtain ⟨client, -, rest⟩ := Option.bind_eq_some_iff.mp advanced
        obtain rfl := Option.some.inj rest
        exact absurd started (Nat.not_lt.mpr new)
    | other request => exact absurd rfl (clients request)
    | serve j' m =>
        simp only [step, Option.bind_eq_bind, Option.bind_eq_some_iff] at stepped
        obtain ⟨server, advanced, rest⟩ := stepped
        obtain rfl := Option.some.inj rest
        obtain ⟨op, n, update, next, found, rfl⟩ := Pool.step_advance advanced
        rw [List.length_set] at started
        exact absurd started (Nat.not_lt.mpr new)
    | arrive n =>
        simp only [step] at stepped
        split at stepped
        next c k wired waiting =>
          obtain ⟨server, spawned, rest⟩ := Option.bind_eq_some_iff.mp stepped
          cases spawned
          cases rest
          have last : j = d.server.threads.length := by
            rw [List.length_append, List.length_singleton] at started
            omega
          subst last
          have bound : n < d.flights.length := (List.getElem?_eq_some_iff.mp waiting).1
          refine ⟨c, k, ⟨c, k, wired, some d.server.threads.length⟩, List.mem_filter.mpr ⟨?_, ?_⟩,
            rfl⟩
          · exact List.mem_set bound _
          · exact decide_eq_true ⟨rfl, rfl⟩
        next => cases stepped

/-! ### The journal -/

/-- **The journal of a run**: the messages the server has gained, each with the thread that has
posted it. -/
structure Delivered (site : Site) (w : World) (events : List DeploymentEvent) (d : Deployment)
    (journal : List (ℕ × MessageRow)) : Prop where
  messages : d.server.state.db.messages = w.db.messages ++ journal.map Prod.snd
  /-- What is there has been posted by the request of its thread. -/
  posted : ∀ j row, (j, row) ∈ journal → ∃ th s, d.server.threads[j]? = some th ∧
    Posts.Row site.app th.op s row ∧ s.Extends d.server.state
  /-- No request posts twice. -/
  distinct : (journal.map Prod.fst).Nodup
  /-- No call has two messages there, and no message is that of two calls. -/
  once : ∀ entry ∈ journal, ∀ entry' ∈ journal, ∀ c k, d.Serves entry.1 c k →
    (d.Serves entry'.1 c k → entry = entry') ∧
      ∀ c' k', d.Serves entry.1 c' k' → c = c' ∧ k = k'
  /-- What the request of a call has posted is the message that the call sends. -/
  sent : ∀ j row, (j, row) ∈ journal → ∀ c k, d.Serves j c k → ∃ room n prog,
    (d.clients c).threads[k]? = some ⟨.send room row.body, n, prog⟩ ∧ row.roomId = room.get
  /-- A call that was acknowledged has its message there, where it was told. -/
  acknowledged : ∀ c k room body landed,
    (d.clients c).Returned k (.send room body) (.ok (.posted landed)) → ∃ j username,
      d.Serves j c k ∧
        (j, ⟨landed.seq.get, room.get, username, body, landed.postedAt.get⟩) ∈ journal
  /-- A call that has failed, but for the transport, has no message there. -/
  failed : ∀ c k room body e, (d.clients c).Returned k (.send room body) (.error e) →
    (∀ source, e ≠ .transport source) → ∀ j row, (j, row) ∈ journal → ¬ d.Serves j c k
  /-- Without other requests, every message there is that of a call. -/
  own : (∀ request, .other request ∉ events) → ∀ j row, (j, row) ∈ journal →
    ∃ c k, d.Serves j c k

section Journal

variable {ls : List (Label Request Moment)} {history : List (Entry Request World)}

/-- What is in the journal of a history has been posted by a thread of the server. -/
theorem posted_of_mem (valid : w.db.Valid) (lin : ServerHistory site.app w ls d.server history)
    {j : ℕ} {row : MessageRow} (mem : (j, row) ∈ history.flatMap posts) :
    ∃ th s, d.server.threads[j]? = some th ∧ Posts.Row site.app th.op s row ∧
      s.Extends d.server.state := by
  have steps := lin.steps (P := fun s : World => s.db.Valid) (R := World.Extends)
    (served_steps site.app) valid
  obtain ⟨e, there, gained⟩ := List.mem_flatMap.mp mem
  obtain ⟨⟨th, at_j, op⟩, response, served⟩ := lin.started e there
  have onward := (lin.chained.within World.Extends.refl World.Extends.trans
    (fun e' mem' => (steps e' mem').2.2) there).2
  rcases posts_served (steps e there).1 served with ⟨nothing, -⟩ | ⟨row', posted, -, one⟩
  · rw [nothing] at gained
    cases gained
  · rw [one] at gained
    obtain ⟨rfl, rfl⟩ := Prod.mk.inj (List.mem_singleton.mp gained)
    exact ⟨th, e.before, at_j, op ▸ posted, (steps e there).2.2.trans _ _ _ onward⟩

/-- **The messages that the requests of a history have posted** are the journal of the run.  Each
entry is the one thing that its request has posted, and their order is that of the history. -/
theorem delivered (ran : Ran crypto site w sessions events d)
    (lin : ServerHistory site.app w ls d.server history) :
    Delivered site w events d (history.flatMap posts) := by
  have steps := lin.steps (P := fun s : World => s.db.Valid) (R := World.Extends)
    (served_steps site.app) ran.valid.1
  have nodup : ((history.flatMap posts).map Prod.fst).Nodup := by
    refine nodup_gains lin.distinct fun e mem => ?_
    obtain ⟨response, served⟩ := (lin.started e mem).2
    rcases posts_served (steps e mem).1 served with ⟨nothing, -⟩ | ⟨row, -, -, one⟩
    · exact (congrArg List.length nothing).le.trans (Nat.zero_le 1)
    · exact (congrArg List.length one).le
  refine ⟨?_, fun j row mem => posted_of_mem ran.valid.1 lin mem, nodup, ?_, ?_, ?_, ?_, ?_⟩
  · have grows : ∀ e ∈ history, e.before.db.messages <+: e.after.db.messages :=
      fun e mem => (steps e mem).2.2.db.messages
    exact lin.chained.gains (fun w => w.db.messages) grows
  · intro entry mem entry' mem' c k serves
    refine ⟨fun serves' => ?_, fun c' k' => ran.sound.serves_injective serves⟩
    exact List.inj_on_of_nodup_map nodup mem mem' (ran.sound.serves_unique serves serves')
  · intro j row mem c k serves
    obtain ⟨th, s, at_j, posted, -⟩ := posted_of_mem ran.valid.1 lin mem
    obtain ⟨request, n, prog, ask, sent, th', found, asks, at_j', op, -⟩ :=
      ran.sound.serves_ask (ran.origin c) serves
    obtain rfl := Option.some.inj (at_j.symm.trans at_j')
    rw [op] at posted
    obtain ⟨room, rfl, home⟩ := send_of_posting asks posted
    exact ⟨room, n, prog, found, home⟩
  · intro c k room body landed ret
    obtain ⟨j, sent, response, serves, -, answered, success, read⟩ :=
      ran.sound.answered (ran.origin c) rfl ret
    obtain ⟨e, mem, rfl, op, served⟩ := lin.returned j _ response answered
    rw [← op] at served
    have posting : Posting e.op := by
      rw [op]
      exact ⟨rfl, toString room.get, route_messages _⟩
    rcases posts_served (steps e mem).1 served with ⟨-, fails⟩ | ⟨row, posted, rfl, one⟩
    · exact absurd (success_of_reply success) (fails posting)
    · rw [op] at posted
      have asks : (ClientCall.send room body).ask = some _ := rfl
      obtain ⟨room', same, home⟩ := send_of_posting asks posted
      obtain ⟨rfl, rfl⟩ := ClientCall.send.inj same
      rw [posts_reads (ran.fits answered)] at read
      cases read
      have seq : (row.seq.toNat : ℤ) = row.seq := by
        rw [posted.seq]
        exact Int.toNat_of_nonneg (by omega)
      refine ⟨e.thread, row.username, serves, List.mem_flatMap.mpr ⟨e, mem, ?_⟩⟩
      rw [one, seq, Int.toNat_of_nonneg posted.postedAt, ← home]
      exact List.mem_singleton_self _
  · intro c k room body e ret alone j row mem serves
    rcases ran.sound.failed (ran.origin c) rfl ret with ⟨source, same⟩ | unsent |
      ⟨j', sent, response, serves', -, answered, unread⟩
    · exact alone source same
    · exact unsent j serves
    · obtain rfl := ran.sound.serves_unique serves serves'
      obtain ⟨e', there, thread, op, served⟩ := lin.returned j _ response answered
      obtain ⟨e₀, there₀, gained⟩ := List.mem_flatMap.mp mem
      obtain rfl : e₀ = e' :=
        entry_unique lin.distinct there₀ there ((posts_thread gained).symm.trans thread.symm)
      rw [← op] at served
      rcases posts_served (steps e₀ there).1 served with ⟨nothing, -⟩ | ⟨row', posted, rfl, -⟩
      · rw [nothing] at gained
        cases gained
      · obtain ⟨text, fails⟩ := unread rfl
        rw [posts_reads (ran.fits answered)] at fails
        cases fails
  · intro clients j row mem
    obtain ⟨th, s, at_j, -⟩ := posted_of_mem ran.valid.1 lin mem
    exact serves_of_own ran.happened clients j (List.getElem?_eq_some_iff.mp at_j).1

end Journal

/-- **Every message that is sent lands at most once**, exactly once if the call is acknowledged,
and not at all if it fails for another reason than the transport: in every run of a deployment,
whatever the network delays, reorders and drops. -/
theorem every_send_lands_once (ran : Ran crypto site w sessions events d) :
    ∃ journal, Delivered site w events d journal := by
  obtain ⟨history, lin⟩ := ran.history
  exact ⟨_, delivered ran lin⟩

/-- Alice's message is in the journal. -/
theorem every_send_lands_once_alice : ∃ d journal,
    run (step Sample.site) (start Sample.world fun _ => none) Sample.alicePosts = some d ∧
      Delivered Sample.site Sample.world Sample.alicePosts d journal ∧
        ∃ j username, d.Serves j 0 2 ∧ (j, ⟨1, 1, username, "hi", 0⟩) ∈ journal := by
  obtain ⟨d, -, happened, -, posted, -⟩ := Sample.alice_reads
  obtain ⟨journal, delivered⟩ := every_send_lands_once (Sample.site_ran happened)
  exact ⟨d, journal, happened, delivered, delivered.acknowledged 0 2 ⟨1⟩ "hi" _ posted⟩

end Deployment

end ScionChat
