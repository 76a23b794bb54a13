import ScionChat.Deployment.Delivery
import ScionChat.Dev.Profiles
import ScionChat.Server.Expiry

/-!
# Who a client is logged in as, and for how long

A client keeps the token of its last login, and its calls carry that token to the server, which
reads the name and the expiry off it.  What the client shows of a session, a name and an expiry, it
has from elsewhere: the name from what was typed, the expiry from the answer to the login.

* `sends_are_attributed` — the names agree: a message that a call has sent stands in the name that
  the client was logged in under when the call took its first step, whether or not the call was
  ever acknowledged.
* `sessions_end` — the expiries do: a client is told that its session has ended, and forgets it on
  its own, only after the second that was announced.

### design decisions

* **Tokens are a parameter, and what is relied on is named.**  `Readable` tokens spell out their
  claims, `Compact` ones are visible ASCII without blanks, so that a header brings them through,
  and a ledger is `Signed` if the tokens in it are those of their claims.  A sample has all three.
* **When a call was made is its first step.**  The session is read there, once.  What the client
  does with its session afterwards is the affair of other calls.
* **To the millisecond, and to the second.**  The announced expiry is in milliseconds and the
  token's in seconds.  `Expired` says what remains of the one in terms of the other: the second
  that the announced instant falls in is over.

### What is load-bearing

`held_of_run` — every session is that of a login the server has answered — and `Genuine`, which
takes it to the token that was issued there.  `Turns` lists how a session changes in one event, and
is what the induction over the run is about.
-/

namespace ScionChat

open Interleaving TransitionSystem

/-! ### A token in a header -/

/-- **A token is compact**: it is made of visible ASCII, and has no blanks. -/
def Crypto.Compact (crypto : Crypto) : Prop :=
  ∀ {secret claims token}, crypto.encode secret claims = some token →
    ∀ c ∈ token.toList, 33 ≤ c.toNat ∧ c.toNat < 127

theorem bytes_ascii {text : List Char} (ascii : ∀ c ∈ text, c.toNat < 128) :
    Json.bytes text = Dev.asciiBytes text := by
  induction text with
  | nil => rfl
  | cons c text ih =>
      have small : c.utf8Size = 1 := by
        refine Char.utf8Size_eq_one_iff.mpr (UInt32.le_iff_toNat_le.mpr ?_)
        exact Nat.le_of_lt_succ (ascii c List.mem_cons_self)
      have rest := ih fun d mem => ascii d (List.mem_cons_of_mem c mem)
      unfold Json.bytes Dev.asciiBytes at *
      rw [List.flatMap_cons, List.map_cons, rest, String.utf8EncodeChar_eq_singleton small]
      rfl

/-- A compact token comes out of its header as it went in. -/
theorem bearerToken_header {token : String}
    (visible : ∀ c ∈ token.toList, 33 ≤ c.toNat ∧ c.toNat < 127) :
    bearerToken (some (bearerHeader token)) = some token := by
  have text : ("Bearer " ++ token).toList = ['B', 'e', 'a', 'r', 'e', 'r', ' '] ++ token.toList :=
    String.toList_append
  have printable : ∀ c ∈ ("Bearer " ++ token).toList, 32 ≤ c.toNat ∧ c.toNat < 127 := by
    have scheme : ['B', 'e', 'a', 'r', 'e', 'r', ' '].all
        (fun c => 32 ≤ c.toNat ∧ c.toNat < 127) = true := rfl
    intro c mem
    rw [text] at mem
    rcases List.mem_append.mp mem with first | rest
    · exact of_decide_eq_true (List.all_eq_true.mp scheme c first)
    · obtain ⟨low, high⟩ := visible c rest
      exact ⟨by omega, high⟩
  have shown : headerText (bearerHeader token) = some ("Bearer " ++ token).toList := by
    rw [bearerHeader, bytes_ascii fun c mem => Nat.lt_succ_of_lt (printable c mem).2]
    exact Dev.headerText_asciiBytes printable
  have parts : splitOnce ("Bearer " ++ token).toList
      = some (['B', 'e', 'a', 'r', 'e', 'r'], token.toList) := by
    rw [text]
    rfl
  have solid : ∀ c ∈ token.toList, ¬ Char.isWhitespace c = true := by
    intro c mem blank
    obtain ⟨low, -⟩ := visible c mem
    simp only [Char.isWhitespace, Bool.or_eq_true, decide_eq_true_eq] at blank
    rcases blank with ((rfl | rfl) | rfl) | rfl <;> exact absurd low (by decide)
  have trimmed : trim token.toList = token.toList := by
    unfold trim
    rw [List.dropWhile_eq_self_iff.mpr, List.rdropWhile_eq_self_iff.mpr]
    · exact fun some_ => solid _ (List.getLast_mem some_)
    · exact fun some_ => solid _ (List.getElem_mem some_)
  have scheme : isBearer ['B', 'e', 'a', 'r', 'e', 'r'] = true := rfl
  unfold bearerToken
  simp only [shown, parts, Option.bind_eq_bind, Option.bind_some]
  rw [if_pos scheme, trimmed, String.ofList_toList]

namespace Deployment

variable {crypto : Crypto} {site : Site} {w : World} {sessions : ℕ → Option Session}
  {events early late : List DeploymentEvent} {mid d d' : Deployment}

/-! ### Where a session comes from -/

/-- **A login of the client stands behind a session**: the server has answered it with the token,
and the session has its name and the expiry of the answer. -/
def Held (site : Site) (d : Deployment) (c : ℕ) (session : Session) : Prop :=
  ∃ k password reply, (∃ th, (d.clients c).threads[k]? = some th ∧
      th.op = .login session.info.username password) ∧
    Answered site d c k reply ∧ reply.isSuccess ∧
      reply.body.login = .ok ⟨session.token, session.info.expiresAt⟩

/-- A call stays in its place, with what it is asked. -/
theorem Happens.call_op (happens : Happens site d d') {c k : ℕ} {request : ClientCall}
    (there : ∃ th, (d.clients c).threads[k]? = some th ∧ th.op = request) :
    ∃ th, (d'.clients c).threads[k]? = some th ∧ th.op = request := by
  obtain ⟨th, at_k, op⟩ := there
  have started : k < (d.clients c).threads.length := (List.getElem?_eq_some_iff.mp at_k).1
  cases happens with
  | call c' request' =>
      refine ⟨th, ?_, op⟩
      dsimp only
      by_cases same : c = c'
      · subst same
        rw [Function.update_self]
        exact (List.getElem?_append_left started).trans at_k
      · rw [Function.update_of_ne same]
        exact at_k
  | advance c' k' arrival request' n update next found answered =>
      dsimp only
      by_cases same : c = c'
      · subst same
        rw [Function.update_self]
        by_cases own : k' = k
        · subst own
          rw [found] at at_k
          obtain rfl := Option.some.inj at_k
          exact ⟨_, List.getElem?_set_self started, op⟩
        · exact ⟨th, (List.getElem?_set_ne own).trans at_k, op⟩
      · rw [Function.update_of_ne same]
        exact ⟨th, at_k, op⟩
  | arrive n c' k' wired waiting => exact ⟨th, at_k, op⟩
  | serve l server served => exact ⟨th, at_k, op⟩

theorem Held.happens {c : ℕ} {session : Session} (held : Held site d c session)
    (happens : Happens site d d') : Held site d' c session := by
  obtain ⟨k, password, reply, there, answered, success, decoded⟩ := held
  exact ⟨k, password, reply, happens.call_op there, happens.answered answered, success, decoded⟩

theorem Held.run {c : ℕ} {session : Session} (held : Held site mid c session)
    (h : run (step site) mid late = some d) : Held site d c session :=
  run_invariant (P := fun d : Deployment => Held site d c session)
    (fun _ _ _ stepped held => held.happens (happens_of_step stepped)) h held

/-- A call of the client takes a step. -/
def Steps (d d' : Deployment) (c k : ℕ) (request : ClientCall) : Prop :=
  ∃ n prog prog', (d.clients c).threads[k]? = some ⟨request, n, prog⟩ ∧
    (d'.clients c).threads[k]? = some ⟨request, n + 1, prog'⟩

/-- **How the session of a client changes** in one event: by a logout, by a login that was answered,
or because the token of a call was refused. -/
inductive Turns (site : Site) (finds : ℕ → ℕ → ℕ → ClientState (Option Session) → Prop)
    (d d' : Deployment) (c : ℕ) : Option Session → Prop
  | stays : Turns site finds d d' c (d.clients c).state.session
  | logsOut (k : ℕ) (logout : Steps d d' c k .logout) : Turns site finds d d' c none
  | logsIn (session : Session) (held : Held site d c session) :
      Turns site finds d d' c (some session)
  | forgets (session : Session) (current : (d.clients c).state.session = some session)
      (k n : ℕ) (request : ClientCall) (prog) (met : ChatClient.MetBy)
      (call : CallSound site finds d c k request n prog met) (needs : request.needs)
      (carries : carried request.needs ChatClient.token met = some session.token)
      (reply : Reply ReplyBody) (answered : Answered site d c k reply)
      (status : reply.status = 401) : Turns site finds d d' c none

/-- The step of a call. -/
theorem CallSound.turns {finds : ℕ → ℕ → ℕ → ClientState (Option Session) → Prop} {c k n : ℕ}
    {arrival : Arrival} {request : ClientCall}
    {update : Arrival → ClientState (Option Session) → ClientState (Option Session)}
    {next : Arrival → ClientState (Option Session) →
      Prog Arrival (ClientState (Option Session)) (Except ChatError ClientReply)}
    {met : ChatClient.MetBy} (call : CallSound site finds d c k request n (.step update next) met)
    (found : (d.clients c).threads[k]? = some ⟨request, n, .step update next⟩)
    (steps : Steps d d' c k request) :
    Turns site finds d d' c (update arrival (d.clients c).state).session := by
  cases ChatClient.call_step call.resumed.symm with
  | looks same =>
      rw [same]
      exact .stays
  | sends wired bearer holds appends =>
      rw [appends]
      exact .stays
  | logsOut logout clears =>
      rw [clears]
      exact .logsOut k (logout ▸ steps)
  | records username password success reply login answers accepted decoded stores =>
      obtain ⟨pair, at_step, handed⟩ := Option.map_eq_some_iff.mp answers
      have answered := call.answers pair (List.mem_of_getElem? at_step) success handed
      rw [stores]
      exact .logsIn ⟨reply.token, username, reply.expiresAt⟩
        ⟨k, password, success, ⟨_, found, login⟩, answered, accepted, decoded⟩
  | forgets unauthorized refused needs token answers status clears =>
      obtain ⟨pair, at_step, handed⟩ := Option.map_eq_some_iff.mp answers
      have answered := call.answers pair (List.mem_of_getElem? at_step) unauthorized handed
      have unmoved : Turns site finds d d' c (d.clients c).state.session := .stays
      rw [clears]
      dsimp only
      cases current : (d.clients c).state.session with
      | none =>
          rw [current] at unmoved
          exact unmoved
      | some session =>
          rw [current] at unmoved
          split
          next own =>
            have carries : session.token = refused := of_decide_eq_true own
            exact .forgets session current k n request _ met call needs (carries ▸ token)
              unauthorized answered status
          next => exact unmoved

theorem Sound.turns {finds : ℕ → ℕ → ℕ → ClientState (Option Session) → Prop}
    (sound : Sound site finds d) (happens : Happens site d d') (c : ℕ) :
    Turns site finds d d' c (d'.clients c).state.session := by
  cases happens with
  | call c' request =>
      by_cases same : c = c'
      · subst same
        dsimp only
        rw [Function.update_self]
        exact .stays
      · dsimp only
        rw [Function.update_of_ne same]
        exact .stays
  | arrive n c' k wired waiting => exact .stays
  | serve l server served => exact .stays
  | advance c' k arrival request n update next found answered =>
      by_cases same : c = c'
      · subst same
        obtain ⟨met, call⟩ := sound.calls c k request n _ found
        dsimp only
        rw [Function.update_self]
        refine call.turns found ⟨n, _, next arrival (d.clients c).state, found, ?_⟩
        dsimp only
        rw [Function.update_self]
        exact List.getElem?_set_self (List.getElem?_eq_some_iff.mp found).1
      · dsimp only
        rw [Function.update_of_ne same]
        exact .stays

/-- **Every session is that of a login**, when the clients have started without one.  The login is
a call of the same client, which the server has answered with a token; nobody is handed the session
of somebody else. -/
theorem held_of_run (h : run (step site) (start w fun _ => none) events = some d) :
    ∀ c session, (d.clients c).state.session = some session → Held site d c session := by
  refine run_induction (motive := fun _ d => ∀ c session,
    (d.clients c).state.session = some session → Held site d c session)
    (fun _ _ current => by cases current) ?_ h
  intro events d event d' before ih stepped c session current
  have happens := happens_of_step stepped
  have turns := (run_sound before).turns happens c
  rw [current] at turns
  generalize turned : some session = after at turns
  cases turns with
  | stays => exact (ih c session turned.symm).happens happens
  | logsOut => cases turned
  | logsIn session' held =>
      cases turned
      exact held.happens happens
  | forgets => cases turned

/-! ### What the server knows of it -/

/-- **A session is genuine**: the server has issued its token, in its name, and its expiry is the
token's, to the millisecond and up to a `u64`. -/
def Genuine (app : AppState) (issued : List Issued) (session : Session) : Prop :=
  ∃ entry ∈ issued, entry.secret = app.tokens.secret ∧ entry.token = session.token ∧
    entry.claims.sub = session.info.username ∧ ∃ issuedAt,
      entry.claims.exp = app.tokens.expiresAt issuedAt / 1000 ∧
        session.info.expiresAt = ⟨app.tokens.expiresAt issuedAt % (u64Max + 1)⟩

namespace Ran

variable (ran : Ran crypto site w sessions events d)
include ran

/-- A session that a login stands behind is genuine. -/
theorem genuine {c : ℕ} {session : Session} (held : Held site d c session) :
    Genuine site.app d.server.state.issued session := by
  obtain ⟨k, password, reply, ⟨⟨request, n, prog⟩, found, rfl⟩, answered, success, decoded⟩ := held
  obtain ⟨met, call⟩ := ran.sound.calls c k _ n prog found
  obtain ⟨j, response, -, -, returned, rfl⟩ :=
    ran.sound.handed call (ran.origin c) rfl answered
  obtain ⟨history, lin⟩ := ran.history
  obtain ⟨s, t, valid, -, served, onward⟩ := lin.at_once World.Extends.refl World.Extends.trans
    (served_steps site.app) ran.valid.1 returned
  have body : (JsonBody.read site.serde _).login = .ok ⟨session.info.username, password⟩ :=
    RequestBody.readAs_text site.serde (.login ⟨session.info.username, password⟩)
  rcases served_issued valid served with ⟨-, fails⟩ | ⟨entry, reply, hands, rfl, appended⟩
  · exact absurd (success_of_reply success) (fails ⟨_, rfl, rfl, body⟩)
  · have reads : (ReplyBody.read site.serde (loggedIn reply).body).login = .ok reply :=
      Body.readAs_read site.serde (loggedIn reply).body (ran.fits returned)
    obtain rfl := Except.ok.inj (reads.symm.trans decoded)
    obtain ⟨typed, ⟨-, -, sent⟩, named⟩ := hands.asks
    obtain rfl := Except.ok.inj (sent.symm.trans body)
    obtain ⟨issuedAt, exp, expires⟩ := hands.expires
    refine ⟨entry, onward.issued.subset ?_, hands.secret, hands.token.symm, named, issuedAt, exp,
      expires⟩
    rw [appended]
    exact List.mem_append_right _ (List.mem_singleton_self entry)

/-- What the server issues is signed. -/
theorem signed (signed : Signed site.app.crypto w.issued) :
    Signed site.app.crypto d.server.state.issued := by
  obtain ⟨history, lin⟩ := ran.history
  have steps := lin.steps (P := fun s : World => s.db.Valid) (R := World.Extends)
    (served_steps site.app) ran.valid.1
  refine lin.chained.rel (R := fun s t : World => Signed site.app.crypto s.issued →
    Signed site.app.crypto t.issued) (fun _ h => h) (fun _ _ _ h h' => h' ∘ h) ?_ signed
  intro e mem before
  obtain ⟨response, served⟩ := (lin.started e mem).2
  rcases served_issued (steps e mem).1 served with ⟨same, -⟩ | ⟨entry, reply, hands, -, appended⟩
  · rw [same]
    exact before
  · rw [appended]
    intro entry' there
    rcases List.mem_append.mp there with old | new
    · exact before entry' old
    · obtain rfl := List.mem_singleton.mp new
      exact hands.signed

end Ran

/-! ### In whose name a message stands -/

/-- **Every message of a call stands in the name that its client was logged in under** when the
call took its first step. -/
def Attributed (site : Site) (w : World) (events : List DeploymentEvent) (d : Deployment)
    (journal : List (ℕ × MessageRow)) : Prop :=
  ∀ j row, (j, row) ∈ journal → ∀ c k, d.Serves j c k → ∃ s session,
    Found site w (fun _ => none) events c k 0 s ∧ s.session = some session ∧
      row.username = session.info.username

/-- What a client has found in its session, a login stands behind. -/
theorem held_of_found (h : run (step site) (start w fun _ => none) events = some d) {c k i : ℕ}
    {s : ClientState (Option Session)} (found : Found site w (fun _ => none) events c k i s)
    {session : Session} (current : s.session = some session) : Held site d c session := by
  obtain ⟨early, late, mid, rfl, first, rfl, -⟩ := found
  obtain ⟨mid', first', rest⟩ := run_split h
  obtain rfl := Option.some.inj (first.symm.trans first')
  exact (held_of_run first c session current).run rest

/-- **Messages are attributed to who has sent them**: over tokens that spell out their claims, each
message of a call stands in the name that the client was logged in under. -/
theorem sends_are_attributed (readable : site.app.crypto.Readable)
    (compact : site.app.crypto.Compact) (signed : Signed site.app.crypto w.issued)
    (ran : Ran crypto site w (fun _ => none) events d) :
    ∃ journal, Delivered site w events d journal ∧ Attributed site w events d journal := by
  obtain ⟨history, lin⟩ := ran.history
  refine ⟨_, delivered ran lin, fun j row mem c k serves => ?_⟩
  obtain ⟨th, s, at_j, posted, onward⟩ := posted_of_mem ran.valid.1 lin mem
  obtain ⟨request, n, prog, ask, sent, th', found, asks, at_j', op, bears⟩ :=
    ran.sound.serves_ask (ran.origin c) serves
  obtain rfl := Option.some.inj (at_j.symm.trans at_j')
  rw [op] at posted
  obtain ⟨room, rfl, -⟩ := send_of_posting asks posted
  obtain ⟨state, session, seen, current, rfl⟩ := bears rfl
  refine ⟨state, session, seen, current, ?_⟩
  -- the token in the header is one that the server has issued, and so is the session's
  have ledger := ran.signed signed
  obtain ⟨entry, there, own, token, named, -⟩ :=
    ran.genuine (held_of_found ran.happened seen current)
  obtain ⟨now, accepted⟩ := posted.username
  obtain ⟨token', shown, verified⟩ := authenticate_eq_ok site.app accepted
  have spelled := ledger entry there
  rw [own, token] at spelled
  have shown' : bearerToken (some (bearerHeader session.token)) = some token' := by
    cases asks
    exact shown
  rw [bearerToken_header (compact spelled)] at shown'
  obtain rfl := Option.some.inj shown'
  obtain ⟨entry', there', own', rfl', named', -⟩ := Tokens.verify_eq_ok verified
  have spelled' := ledger entry' (onward.issued.subset there')
  rw [own', rfl'] at spelled'
  rw [← named', ← named, readable spelled' spelled]

/-! ### For how long a client is logged in -/

/-- **A session has run out**: the second that its announced expiry falls in is over. -/
def Expired (tokens : Tokens) (session : Session) (now : ℕ) : Prop :=
  ∃ issuedAt, session.info.expiresAt = ⟨tokens.expiresAt issuedAt % (u64Max + 1)⟩ ∧
    tokens.expiresAt issuedAt / 1000 < now / 1000

/-- What a call that carries a token asks for is refused with a 401 by its first step only, and for
the token. -/
theorem refused_of_ask {app : AppState} {serde : Serde} {sent : Option String}
    {request : ClientCall} {ask : Ask} (asks : request.ask = some ask) (needs : request.needs)
    {met : List (Moment × World)} {response : Response}
    (h : (handle app (ask.request serde sent)).resume met = .ret response)
    (status : response.status = 401) : ∃ m v later e, met = (m, v) :: later ∧
      authenticate app (sent.map bearerHeader) m.now v.issued = .error e := by
  cases request with
  | rooms =>
      cases asks
      exact refused_of_401 (fun _ => letsIn_listRooms) h status
  | createRoom name =>
      cases asks
      exact refused_of_401 (fun _ => letsIn_createRoom) h status
  | send room body =>
      cases asks
      rw [handle_post rfl rfl] at h
      exact refused_of_401 (fun username => letsIn_bind (lets_extract _) fun room =>
        letsIn_post username room _) h status
  | messages room limit cursor =>
      cases asks
      rw [handle_list rfl rfl] at h
      exact refused_of_401 (fun _ => letsIn_bind (lets_extract _) fun room =>
        letsIn_bind (lets_extract _) fun page => letsIn_list room page) h status
  | _ => cases needs

theorem serve_of_images {events : List DeploymentEvent} {j : ℕ} {m : Moment} :
    ∀ {d : Deployment}, .advance j m ∈ images (step site) (served site) d events →
      .serve j m ∈ events := by
  induction events with
  | nil => exact fun mem => absurd mem List.not_mem_nil
  | cons event events ih =>
      intro d mem
      rcases List.mem_append.mp mem with first | rest
      · refine List.mem_cons.mpr (Or.inl ?_)
        cases event with
        | call c request => cases first
        | step c k reason => cases first
        | answer c k n => cases first
        | arrive n =>
            simp only [served] at first
            cases at_n : d.flights[n]? with
            | none =>
                rw [at_n] at first
                cases first
            | some flight =>
                rw [at_n] at first
                cases List.mem_singleton.mp first
        | other request => cases List.mem_singleton.mp first
        | serve j' m' =>
            cases List.mem_singleton.mp first
            rfl
      · cases stepped : step site d event with
        | none =>
            rw [stepped] at rest
            cases rest
        | some d' =>
            rw [stepped] at rest
            exact List.mem_cons_of_mem event (ih rest)

/-- One step of a sound server only adds to its world. -/
theorem serve_extends {app : AppState} {p q : ServerPool} {l : Label Request Moment}
    (sound : ServerSound app p) (h : serve app p l = some q) : p.state.Extends q.state :=
  sound.rel (by cases l <;> exact trivial) h

/-- **A call that is refused with a 401 carries a token that has run out.** The server has looked
at the token in the step `j`, at the moment `m`, and by then its time was over: a token that it has
issued is refused for nothing else. -/
theorem Ran.refused (readable : site.app.crypto.Readable) (compact : site.app.crypto.Compact)
    (signed : Signed site.app.crypto w.issued)
    (ran : Ran crypto site w (fun _ => none) events d) {c k n : ℕ} {request : ClientCall}
    {prog : Prog Arrival (ClientState (Option Session)) (Except ChatError ClientReply)}
    {met : ChatClient.MetBy}
    (call : CallSound site (Found site w (fun _ => none) events) d c k request n prog met)
    (needs : request.needs) {reply : Reply ReplyBody} (answered : Answered site d c k reply)
    (status : reply.status = 401) {session : Session} (held : Held site d c session)
    (carries : carried request.needs ChatClient.token met = some session.token) :
    ∃ j m, .serve j m ∈ events ∧ Expired site.app.tokens session m.now := by
  have asks : ∃ ask, request.ask = some ask := by
    cases request <;> first | exact ⟨_, rfl⟩ | cases needs
  obtain ⟨ask, asks⟩ := asks
  obtain ⟨j, response, serves, bears, returned, rfl⟩ :=
    ran.sound.handed call (ran.origin c) asks answered
  obtain ⟨s, session', found, current, carries'⟩ := bears needs
  have ledger := ran.signed signed
  obtain ⟨entry, there, own, token, -, issuedAt, exp, announced⟩ := ran.genuine held
  -- before its first step, the token that the call is about to find has been issued
  obtain ⟨early, late, mid, rfl, first, rfl, takes⟩ := found
  obtain ⟨mid', ran', rest⟩ := ran.split
  obtain rfl := Option.some.inj (first.symm.trans ran'.happened)
  obtain ⟨entry', there', own', token', -⟩ := ran'.genuine (held_of_run first c session' current)
  have unsent := ran'.sound.untaken (s := (mid.clients c).state) ⟨rfl, takes⟩
  have later := served_after rest unsent serves
  -- so the first step of the request finds it issued
  obtain ⟨taken, at_j⟩ := returned
  have resumed := Pool.resume_met ran.serves at_j
  obtain ⟨m, v, more, e, at_first, refused⟩ := refused_of_ask asks needs resumed status
  have mem : (m, v) ∈ Pool.met (handle site.app) j (Pool.idle w)
      (images (step site) (served site) (start w fun _ => none) (early ++ late)) := by
    rw [at_first]
    exact List.mem_cons_self
  refine ⟨j, m, serve_of_images (Pool.advance_of_met mem), issuedAt, announced, ?_⟩
  have server_sound : ∀ ms p, run (serve site.app) (Pool.idle w) ms = some p →
      ServerSound site.app p := fun ms p served =>
    run_invariant (P := ServerSound site.app) (fun _ _ _ stepped sound => sound.step stepped) served
      (Pool.sound_idle ran.valid.1)
  have grown : mid.server.state.Extends v := by
    have after := Pool.met_after World.Extends.refl World.Extends.trans ran'.serves
      (run_serves rest) (fun ms l p q before stepped =>
        serve_extends (server_sound _ p (run_join ran'.serves before)) stepped) later
    rw [← images_append late first] at after
    exact after (m, v) mem
  have kept : v.Extends d.server.state := Pool.met_rel World.Extends.trans ran.serves
    (fun ms l p q before stepped => serve_extends (server_sound ms p before) stepped) j (m, v) mem
  -- and what it makes of the token is read off the claims
  have held_there : entry' ∈ v.issued := grown.issued.subset there'
  have signed_there : Signed site.app.crypto v.issued :=
    fun entry mem => ledger entry (kept.issued.subset mem)
  have spelled := ledger entry there
  have spelled' := signed_there entry' held_there
  have same_token : session'.token = session.token :=
    Option.some.inj (carries'.symm.trans carries)
  rw [own, token] at spelled
  rw [own', token', same_token] at spelled'
  have same_claims : entry'.claims = entry.claims := readable spelled' spelled
  rw [carries, Option.map_some, authenticate, bearerToken_header (compact spelled)] at refused
  have verifies := Tokens.verify_of_mem readable signed_there held_there own' m.now
  rw [token', same_token, same_claims] at verifies
  dsimp only at refused
  rw [verifies] at refused
  by_contra live
  rw [exp, if_neg live] at refused
  cases refused

/-- **How sessions end**, in a run whose clients have started without one.  A session ends by a
logout, or by a refusal after it has run out, and not because a server was busy, a reply was lost,
or another client logged in. -/
structure SessionsEnd (site : Site) (w : World) (events : List DeploymentEvent) (d : Deployment) :
    Prop where
  /-- Whoever is told that the session has ended has made the call with one that has run out. -/
  told : ∀ c k request, (d.clients c).Returned k request (.error .sessionExpired) →
    ∃ s session, Found site w (fun _ => none) events c k 0 s ∧ s.session = some session ∧
      ∃ j m, .serve j m ∈ events ∧ Expired site.app.tokens session m.now
  /-- A client forgets its session when somebody logs out, or when it has run out. -/
  forgotten : ∀ c session event d', (d.clients c).state.session = some session →
    d.step site event = some d' → (d'.clients c).state.session = none →
      (∃ k, Steps d d' c k .logout) ∨
        ∃ j m, .serve j m ∈ events ∧ Expired site.app.tokens session m.now

/-- **A session ends when somebody logs out, or when it has run out**: over tokens that spell out
their claims, no client is told that its session has ended, nor forgets it on its own, before the
second is over that the server has announced. -/
theorem sessions_end (readable : site.app.crypto.Readable) (compact : site.app.crypto.Compact)
    (signed : Signed site.app.crypto w.issued)
    (ran : Ran crypto site w (fun _ => none) events d) : SessionsEnd site w events d where
  told := by
    intro c k request ret
    obtain ⟨n, at_k⟩ := ret
    obtain ⟨met, call⟩ := ran.sound.calls c k request n _ at_k
    have resumed := call.resumed.symm
    cases asks : request.ask with
    | none => exact absurd resumed (ChatClient.call_unasked asks)
    | some ask =>
        obtain ⟨reply, answers, needs, status⟩ := ChatClient.call_expired asks resumed
        obtain ⟨pair, at_step, handed⟩ := Option.map_eq_some_iff.mp answers
        have answered := call.answers pair (List.mem_of_getElem? at_step) reply handed
        obtain ⟨j, response, -, bears, -⟩ := ran.sound.handed call (ran.origin c) asks answered
        obtain ⟨s, session, found, current, carries⟩ := bears needs
        exact ⟨s, session, found, current, Ran.refused readable compact signed ran call needs
          answered status (held_of_found ran.happened found current) carries⟩
  forgotten := by
    intro c session event d' current stepped gone
    have turns := ran.sound.turns (happens_of_step stepped) c
    rw [gone] at turns
    generalize turned : (none : Option Session) = after at turns
    cases turns with
    | stays => rw [current] at turned; cases turned
    | logsOut k logout => exact Or.inl ⟨k, logout⟩
    | logsIn session' held => cases turned
    | forgets session' current' k n request prog met call needs carries reply answered status =>
        obtain rfl := Option.some.inj (current.symm.trans current')
        exact Or.inr (Ran.refused readable compact signed ran call needs answered status
          (held_of_run ran.happened c session current) carries)

end Deployment

/-! ### Tokens that run out at once -/

/-- Visible ASCII, and no blanks. -/
def isVisible (c : Char) : Bool :=
  33 ≤ c.toNat ∧ c.toNat < 127

/-- A stand-in for the two libraries whose tokens spell out their claims, for names that can be
spelled out. -/
def Crypto.compact : Crypto :=
  { Crypto.spelled with
    encode := fun secret claims =>
      if claims.sub.toList.all isVisible then Crypto.spelled.encode secret claims else none }

theorem Crypto.compact_encode {secret : Secret} {claims : Claims} {token : String}
    (encoded : Crypto.compact.encode secret claims = some token) :
    claims.sub.toList.all isVisible ∧ Crypto.spelled.encode secret claims = some token := by
  simp only [compact] at encoded
  split at encoded
  next visible => exact ⟨visible, encoded⟩
  next => cases encoded

theorem Crypto.compact_readable : Crypto.compact.Readable :=
  fun encoded encoded' =>
    Crypto.spelled_readable (compact_encode encoded).2 (compact_encode encoded').2

theorem Crypto.compact_compact : Crypto.compact.Compact := by
  intro secret claims token encoded c mem
  obtain ⟨visible, spelled⟩ := compact_encode encoded
  obtain rfl := Option.some.inj spelled
  rw [String.toList_ofList] at mem
  rcases List.mem_append.mp mem with digit | rest
  · obtain rfl := List.eq_of_mem_replicate digit
    decide
  · rcases List.mem_cons.mp rest with rfl | named
    · decide
    · exact of_decide_eq_true (List.all_eq_true.mp visible c named)

namespace Sample

open Deployment

/-- A site whose tokens are valid for no day at all: they run out with the second. -/
def briefSite : Site :=
  { site with app :=
    { state with
      crypto := .compact
      tokens := ⟨List.replicate 32 0, 0⟩
      config := { state.config with tokenExpiryDays := 0 } } }

theorem briefSite_ran {events : List DeploymentEvent} {d : Deployment}
    (happened : run (step briefSite) (start world fun _ => none) events = some d) :
    Ran .compact briefSite world (fun _ => none) events d where
  started := ⟨[.start briefSite.app.config fun _ => {}], _, rfl, rfl, rfl⟩
  origin := site_origin
  happened := happened

/-- A second later, Alice asks for the rooms. -/
def aliceReturns : List DeploymentEvent :=
  [.call 0 .rooms, .step 0 3 .timeout, .step 0 3 .timeout, .arrive 3, .serve 3 { now := 1000 },
    .answer 0 3 3, .step 0 3 .timeout]

set_option maxRecDepth 20000 in
/-- Alice posts in time, and is then logged out. -/
theorem alice_expires : ∃ mid d : Deployment,
    run (step briefSite) (start world fun _ => none) alicePosts = some mid ∧
      run (step briefSite) mid aliceReturns = some d ∧
        (mid.clients 0).Returned 2 (.send ⟨1⟩ "hi") (.ok (.posted ⟨⟨1⟩, ⟨0⟩⟩)) ∧
          (d.clients 0).Returned 3 .rooms (.error .sessionExpired) := by
  have leads : (run (step briefSite) (start world fun _ => none) alicePosts).map (fun mid =>
      ((mid.clients 0).threads[2]?, (run (step briefSite) mid aliceReturns).map fun d =>
        (d.clients 0).threads[3]?))
        = some (some ⟨.send ⟨1⟩ "hi", 3, .ret (.ok (.posted ⟨⟨1⟩, ⟨0⟩⟩))⟩,
            some (some ⟨.rooms, 4, .ret (.error .sessionExpired)⟩)) := by
    rfl
  obtain ⟨mid, first, same⟩ := Option.map_eq_some_iff.mp leads
  obtain ⟨posted, rest⟩ := Prod.mk.inj same
  obtain ⟨d, second, expired⟩ := Option.map_eq_some_iff.mp rest
  exact ⟨mid, d, first, second, ⟨3, posted⟩, ⟨4, expired⟩⟩

end Sample

namespace Deployment

/-- Alice's message is in the journal, in the name she had typed. -/
theorem sends_are_attributed_alice : ∃ d journal,
    run (step Sample.briefSite) (start Sample.world fun _ => none) Sample.alicePosts = some d ∧
      Delivered Sample.briefSite Sample.world Sample.alicePosts d journal ∧
        Attributed Sample.briefSite Sample.world Sample.alicePosts d journal ∧
          ∃ j username, d.Serves j 0 2 ∧ (j, ⟨1, 1, username, "hi", 0⟩) ∈ journal := by
  obtain ⟨d, -, happened, -, posted, -⟩ := Sample.alice_expires
  obtain ⟨journal, delivered, attributed⟩ := sends_are_attributed Crypto.compact_readable
    Crypto.compact_compact (signed_nil _) (Sample.briefSite_ran happened)
  exact ⟨d, journal, happened, delivered, attributed,
    delivered.acknowledged 0 2 ⟨1⟩ "hi" _ posted⟩

/-- Alice's session has run out when she is told so. -/
theorem sessions_end_alice : ∃ d,
    run (step Sample.briefSite) (start Sample.world fun _ => none)
      (Sample.alicePosts ++ Sample.aliceReturns) = some d ∧
      SessionsEnd Sample.briefSite Sample.world (Sample.alicePosts ++ Sample.aliceReturns) d ∧
        (d.clients 0).Returned 3 .rooms (.error .sessionExpired) := by
  obtain ⟨mid, d, first, second, -, expired⟩ := Sample.alice_expires
  have happened := run_join first second
  exact ⟨d, happened, sessions_end Crypto.compact_readable Crypto.compact_compact (signed_nil _)
    (Sample.briefSite_ran happened), expired⟩

end Deployment

end ScionChat
