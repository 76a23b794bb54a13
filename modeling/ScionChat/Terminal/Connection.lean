import ScionChat.Client.Error
import ScionChat.Terminal.Input

/-!
# The connect screen, and the transport it asks for

`screens/connection.rs`: the form that the command line fills in, and that the user edits.  It goes
through the screen's own choice of a trust and of a credential, and comes out as a form again.

The functions of `app.rs` that read a transport off a form refuse one that names two trusts or two
credentials.  `never_resolves_iff` says for which forms that is what comes of pressing Enter on the
untouched screen.

### design decisions

* **The same functions on both ways.**  A form from the command line may go straight to
  `transport`, or through the screen and then to it.  Both are composed of the source's own
  functions, so the question is whether the composition refuses what `transport` would.
* **URLs are the library's.**  What a text is as a URL, why it is none, and what its scheme is come
  from `Urls`.  A form is untouched, so its texts go through the screen as they are.
* **`Agrees` is about the form's fields.** Where two trusts are named, only another field can still
  have the form refused; where an API key is named, no token may be given with it, and trimming its
  URL may make no difference.

### What is load-bearing

`TrustChoice` and `CredentialChoice` have one value at a time.  Building one from a form that names
two drops one of them, silently, and for the trust it is the certificate that is dropped.
-/

namespace ScionChat

/-! ### The configuration of a transport -/

/-- How a client proves to the SNAP that it may use the network.  It may be given as a token, or as
an API key that is exchanged for one. -/
inductive Credential (Url : Type)
  | none
  | token (token : String)
  | apiKey (key : String) (aaUrl : Url) (deviceId : String)
  deriving DecidableEq, Repr

/-- Which certificates a client accepts from the server.  A certificate may be pinned, or any one
accepted. -/
inductive Trust
  | systemRoots
  | pinned (path : String)
  | insecure
  deriving DecidableEq, Repr

/-- SCION transport configuration. -/
structure ScionConfig (Url : Type) where
  endhostApi : Url
  credential : Credential Url
  target : Option String
  trust : Trust
  deriving DecidableEq, Repr

/-- Which transport to build. -/
inductive TransportKind (Url : Type)
  | scion (config : ScionConfig Url)
  | tcp
  deriving DecidableEq, Repr

/-- The `url` library: what a text is as a URL, or why it is none, and a URL's scheme. -/
structure Urls (Url : Type) where
  parse (text : String) : Except String Url
  scheme (url : Url) : String

/-! ### The form -/

/-- The address the server listens on in development mode. -/
def DEV_SERVER_URL : String := "http://localhost:8080"

/-- The Anapaya AA, which exchanges API keys for tokens. -/
def ANAPAYA_AA : String := "https://auth.scion.anapaya.net"

/-- The device id this client sends to the AA. -/
def DEVICE_ID : String := "chat-ui-ratatui"

/-- A transport the client can reach the server over. -/
inductive Transport
  | scion
  | tcp
  deriving DecidableEq, Repr

namespace Transport

/-- The other one. -/
def other : Transport → Transport
  | scion => tcp
  | tcp => scion

/-- The URL scheme this transport is served under. -/
def scheme : Transport → String
  | scion => "https"
  | tcp => "http"

/-- The name the flag takes. -/
def asStr : Transport → String
  | scion => "scion"
  | tcp => "tcp"

end Transport

/-- The connect screen's fields, filled in by flags or variables.  Every field is a text or a flag
as it was given, and nothing has been looked at. -/
structure ConnectionForm where
  transport : Transport := .scion
  serverUrl : String := DEV_SERVER_URL
  endhostApi : String := ""
  target : String := ""
  certPath : String := ""
  insecure : Bool := false
  authApiKey : String := ""
  snapToken : String := ""
  aaUrl : String := ANAPAYA_AA
  deriving DecidableEq, Repr

/-- Which credential the client proves itself with, as the form offers the choice.  The form can
have two of these at once, and the screen only one. -/
inductive CredentialChoice
  | apiKey
  | token
  deriving DecidableEq, Repr

namespace CredentialChoice

/-- What the form was launched with.  A token given by name is what asks for one. -/
def of (form : ConnectionForm) : CredentialChoice :=
  if form.snapToken = "" then apiKey else token

/-- The other one. -/
def other : CredentialChoice → CredentialChoice
  | apiKey => token
  | token => apiKey

end CredentialChoice

/-- Which certificates the client accepts, as the form offers the choice.  The form can have two of
these at once, and the screen only one. -/
inductive TrustChoice
  | system
  | pinned
  | insecure
  deriving DecidableEq, Repr

namespace TrustChoice

/-- What the form was launched with.  A named certificate is what asks for pinning. -/
def of (form : ConnectionForm) : TrustChoice :=
  if form.insecure then insecure
  else if form.certPath = "" then system
  else pinned

/-- The next choice, wrapping, in the order the options are drawn. -/
def next : TrustChoice → TrustChoice
  | system => pinned
  | pinned => insecure
  | insecure => system

/-- The previous choice, wrapping. -/
def previous (choice : TrustChoice) : TrustChoice :=
  choice.next.next

end TrustChoice

/-! ### The screen -/

namespace Connection

/-- Which field the keys are going to. -/
inductive Focus
  | transport
  | serverUrl
  | endhostApi
  | target
  | trust
  | certPath
  | credential
  | secret
  deriving DecidableEq, Repr

namespace Focus

/-- The fields Tab moves through, in order.  The certificate is only asked for when it is
used. -/
def shown (scion pinned : Bool) : List Focus :=
  match scion, pinned with
  | false, _ => [transport, serverUrl]
  | true, false => [transport, serverUrl, endhostApi, target, trust, credential, secret]
  | true, true => [transport, serverUrl, endhostApi, target, trust, certPath, credential, secret]

def step (focus : Focus) (scion pinned : Bool) (by_ : ℤ) : Focus :=
  let shown := shown scion pinned
  let at_ := (shown.findIdx? fun field => field = focus).getD 0
  shown.getD ((at_ + by_) % shown.length).toNat focus

/-- The field after this one.  Wraps. -/
def next (focus : Focus) (scion pinned : Bool) : Focus :=
  focus.step scion pinned 1

/-- The field before this one.  Wraps. -/
def previous (focus : Focus) (scion pinned : Bool) : Focus :=
  focus.step scion pinned (-1)

end Focus

end Connection

/-- The form being typed into, and why the last attempt failed. -/
structure Connection (Input : Type) where
  transport : Transport
  serverUrl : Input
  endhostApi : Input
  target : Input
  trust : TrustChoice
  certPath : Input
  credential : CredentialChoice
  /-- One field for each, so switching between them carries nothing across. -/
  authApiKey : Input
  snapToken : Input
  /-- Carried from the command line untouched. -/
  aaUrl : String
  focus : Connection.Focus
  error : Option String

namespace Connection

variable {Input : Type} (kit : Toolkit Input) (screen : Connection Input)

/-- The screen with its fields already answered, as the command line answers them. -/
def new (form : ConnectionForm) : Connection Input where
  transport := form.transport
  trust := .of form
  credential := .of form
  aaUrl := form.aaUrl
  serverUrl := kit.new form.serverUrl
  endhostApi := kit.new form.endhostApi
  target := kit.new form.target
  certPath := kit.new form.certPath
  authApiKey := kit.new form.authApiKey
  snapToken := kit.new form.snapToken
  focus := .transport
  error := none

/-- Every field as typed, trimmed.  The certificate goes out only when it is the choice. -/
def form : ConnectionForm where
  transport := screen.transport
  serverUrl := trimmed (kit.value screen.serverUrl)
  endhostApi := trimmed (kit.value screen.endhostApi)
  target := trimmed (kit.value screen.target)
  insecure := screen.trust = .insecure
  aaUrl := screen.aaUrl
  authApiKey :=
    match screen.credential with
    | .apiKey => trimmed (kit.value screen.authApiKey)
    | .token => ""
  snapToken :=
    match screen.credential with
    | .apiKey => ""
    | .token => trimmed (kit.value screen.snapToken)
  certPath := if screen.trust = .pinned then trimmed (kit.value screen.certPath) else ""

/-- A key goes to the field in focus, unless it is one with nothing to type into. -/
def edit (key : KeyEvent) : Connection Input :=
  match screen.focus with
  | .transport | .trust | .credential => screen
  | .serverUrl => { screen with serverUrl := kit.handleEvent screen.serverUrl key }
  | .endhostApi => { screen with endhostApi := kit.handleEvent screen.endhostApi key }
  | .target => { screen with target := kit.handleEvent screen.target key }
  | .certPath => { screen with certPath := kit.handleEvent screen.certPath key }
  | .secret =>
      match screen.credential with
      | .apiKey => { screen with authApiKey := kit.handleEvent screen.authApiKey key }
      | .token => { screen with snapToken := kit.handleEvent screen.snapToken key }

def scion : Bool :=
  screen.transport = .scion

def pinned : Bool :=
  screen.trust = .pinned

/-- A key that chooses, in the field in focus: the next option, or the previous one. -/
def choose (key : KeyEvent) (forward : Bool) : Connection Input :=
  match screen.focus with
  | .transport => { screen with transport := screen.transport.other }
  | .credential => { screen with credential := screen.credential.other }
  | .trust =>
      { screen with trust := if forward then screen.trust.next else screen.trust.previous }
  | _ => screen.edit kit key

/-- Returns the form to connect with once Enter is pressed, and edits a field otherwise.
`pending` refuses Enter while a call is out. -/
def handleKey (key : KeyEvent) (pending : Bool) : Connection Input × Option ConnectionForm :=
  match key.code with
  | .enter =>
      if pending then (screen, none)
      else ({ screen with error := none }, some (screen.form kit))
  | .tab | .down => ({ screen with focus := screen.focus.next screen.scion screen.pinned }, none)
  | .backTab | .up =>
      ({ screen with focus := screen.focus.previous screen.scion screen.pinned }, none)
  | .left => (screen.choose kit key false, none)
  | .right | .char ' ' => (screen.choose kit key true, none)
  | _ => (screen.edit kit key, none)

variable {kit screen} {key : KeyEvent}

/-- **While a call is pending the screen gives no form.** -/
theorem handleKey_pending : (screen.handleKey kit key true).2 = none := by
  unfold handleKey
  split <;> rfl

/-- The form that is returned is the one that shows. -/
theorem handleKey_form {pending : Bool} {form : ConnectionForm}
    (asks : (screen.handleKey kit key pending).2 = some form) : form = screen.form kit := by
  unfold handleKey at asks
  split at asks
  · split at asks
    · cases asks
    · exact (Option.some.inj asks).symm
  all_goals cases asks

end Connection

/-! ### The transport that was chosen -/

section

variable {Url : Type} (urls : Urls Url)

/-- A field left blank, as the absence the client's configuration expects.  A field of blanks is
one that is left blank, once it has been trimmed. -/
def blankAsNone (value : String) : Option String :=
  if value = "" then none else some value

/-- What the client proves itself with, from the two flags that can say so. -/
def credential (form : ConnectionForm) : Except ChatError (Credential Url) :=
  match blankAsNone form.authApiKey, blankAsNone form.snapToken with
  | some _, some _ => .error (.config
      "--auth-api-key is exchanged for tokens, and --snap-token is one already. Give one of them.")
  | some key, none =>
      match urls.parse form.aaUrl with
      | .error e => .error (.config s!"--aa-url \"{form.aaUrl}\" is not a URL: {e}")
      | .ok aaUrl => .ok (.apiKey key aaUrl DEVICE_ID)
  | none, some token => .ok (.token token)
  | none, none => .ok .none

/-- Which certificates to accept, from the two flags that can say so. -/
def trust (form : ConnectionForm) : Except ChatError Trust :=
  match form.insecure, blankAsNone form.certPath with
  | true, some path => .error (.config
      s!"--insecure accepts any certificate, and --cert-path {path} accepts one. Give one of them.")
  | true, none => .ok .insecure
  | false, some path => .ok (.pinned path)
  | false, none => .ok .systemRoots

/-- The transport that was chosen, once the URL is checked against it. -/
def transportKind (serverUrl : Url) (form : ConnectionForm) :
    Except ChatError (TransportKind Url) :=
  let wanted := form.transport.scheme
  if urls.scheme serverUrl ≠ wanted then
    .error (.config
      (s!"--transport {form.transport.asStr} is served over {wanted}, and this URL is " ++
        s!"{urls.scheme serverUrl}. Change one of them."))
  else
    match form.transport with
    | .tcp =>
        if form.insecure then
          .error (.config
            "--insecure has nothing to turn off under --transport tcp: it carries no TLS.")
        else .ok .tcp
    | .scion =>
        match blankAsNone form.endhostApi with
        | none => .error (.config
            ("SCION needs an endhost API: it is how the client finds the network. A local " ++
              "chat-dev prints one at startup."))
        | some text =>
            match urls.parse text with
            | .error e => .error (.config s!"the endhost API \"{text}\" is not a URL: {e}")
            | .ok endhostApi => do
                let credential ← credential urls form
                let trust ← trust form
                return .scion ⟨endhostApi, credential, blankAsNone form.target, trust⟩

/-- What `connect` configures before it builds the client. -/
def configured (form : ConnectionForm) : Except ChatError (TransportKind Url) :=
  match urls.parse form.serverUrl with
  | .error e => .error (.config e)
  | .ok serverUrl => transportKind urls serverUrl form

end

/-! ### What comes of a form from the command line -/

namespace ConnectionForm

/-- The form with its fields trimmed. -/
def trim (form : ConnectionForm) : ConnectionForm where
  transport := form.transport
  serverUrl := trimmed form.serverUrl
  endhostApi := trimmed form.endhostApi
  target := trimmed form.target
  certPath := trimmed form.certPath
  insecure := form.insecure
  authApiKey := trimmed form.authApiKey
  snapToken := trimmed form.snapToken
  aaUrl := trimmed form.aaUrl

/-- The form names two trusts. -/
def TwoTrusts (form : ConnectionForm) : Prop :=
  form.insecure ∧ trimmed form.certPath ≠ ""

/-- The form names two credentials. -/
def TwoCredentials (form : ConnectionForm) : Prop :=
  trimmed form.authApiKey ≠ "" ∧ trimmed form.snapToken ≠ ""

variable {Input Url : Type} (kit : Toolkit Input) (urls : Urls Url)

/-- What comes of pressing Enter on the untouched screen of a form.  It is what the user gets who
starts the client with flags and presses Enter. -/
def entered (form : ConnectionForm) : Option (Except ChatError (TransportKind Url)) :=
  ((Connection.new kit form).handleKey kit { code := .enter } false).2.map (configured urls)

/-- **A form that names two trusts or two credentials is refused, and any other one yields the
transport it names.** It is the form itself that names them, before the screen has made a choice of
its own of it. -/
structure NeverResolves (form : ConnectionForm) (serverUrl : Url)
    (result : Option (Except ChatError (TransportKind Url))) : Prop where
  refused : form.TwoTrusts ∨ form.TwoCredentials →
    ∃ detail, result = some (.error (.config detail))
  same : ¬ (form.TwoTrusts ∨ form.TwoCredentials) →
    result.map Except.toOption = some (transportKind urls serverUrl form.trim).toOption

/-- The form that the untouched screen comes out with. -/
theorem form_new (form : ConnectionForm) : (Connection.new kit form).form kit =
    { form.trim with
      aaUrl := form.aaUrl
      certPath := if form.insecure then "" else trimmed form.certPath
      authApiKey := if form.snapToken = "" then trimmed form.authApiKey else ""
      snapToken := trimmed form.snapToken } := by
  have blank : trimmed "" = "" := by decide
  unfold Connection.form Connection.new trim TrustChoice.of CredentialChoice.of
  simp only [kit.value_new]
  cases form.insecure with
  | true =>
      by_cases token : form.snapToken = "" <;> simp [token, blank]
  | false =>
      by_cases token : form.snapToken = "" <;> by_cases cert : form.certPath = "" <;>
        simp [token, cert, blank]

/-- What the screen keeps of a credential, over what the form names. -/
theorem credential_entered (form : ConnectionForm) :
    credential urls ((Connection.new kit form).form kit)
      = if form.snapToken = "" then
          if trimmed form.authApiKey = "" then .ok .none
          else match urls.parse form.aaUrl with
            | .error e => .error (.config s!"--aa-url \"{form.aaUrl}\" is not a URL: {e}")
            | .ok aaUrl => .ok (.apiKey (trimmed form.authApiKey) aaUrl DEVICE_ID)
        else if trimmed form.snapToken = "" then .ok .none
        else .ok (.token (trimmed form.snapToken)) := by
  have blank : trimmed "" = "" := by decide
  rw [form_new]
  unfold credential blankAsNone trim
  dsimp only
  by_cases token : form.snapToken = ""
  · rw [if_pos token, if_pos token, token, blank]
    by_cases key : trimmed form.authApiKey = ""
    · simp [key]
    · simp only [if_neg key, if_true]
  · rw [if_neg token, if_neg token]
    by_cases kept : trimmed form.snapToken = "" <;> simp [kept]

/-- The screen always comes out with one trust: the one the form names, if it names one. -/
theorem trust_entered (form : ConnectionForm) :
    ∃ kept, trust ((Connection.new kit form).form kit) = .ok kept ∧
      (¬ form.TwoTrusts → trust form.trim = .ok kept) := by
  rw [form_new]
  unfold trust blankAsNone TwoTrusts trim
  dsimp only
  cases form.insecure with
  | true =>
      refine ⟨.insecure, rfl, fun one => ?_⟩
      have blank : trimmed form.certPath = "" := not_not.mp fun cert => one ⟨rfl, cert⟩
      simp [blank]
  | false =>
      by_cases cert : trimmed form.certPath = ""
      · exact ⟨.systemRoots, by simp [cert], fun _ => by simp [cert]⟩
      · exact ⟨.pinned (trimmed form.certPath), by simp [cert], fun _ => by simp [cert]⟩

/-- What the two sides make of a form alike. -/
structure Agrees (form : ConnectionForm) : Prop where
  /-- Where two trusts are named, an API key is given alone, and its AA URL is refused. -/
  trusts : form.TwoTrusts → form.snapToken = "" ∧ trimmed form.authApiKey ≠ "" ∧
    (urls.parse form.aaUrl).toOption = none
  credentials : ¬ form.TwoTrusts → ¬ form.TwoCredentials
  /-- Where an API key is named, no token is given, not even a blank one, and trimming the AA URL
  makes no difference. -/
  key : ¬ form.TwoTrusts → trimmed form.authApiKey ≠ "" → form.snapToken = "" ∧
    (urls.parse form.aaUrl).toOption = (urls.parse (trimmed form.aaUrl)).toOption

variable {kit urls} {form : ConnectionForm} {serverUrl endhostApi : Url}

theorem toOption_bind_ok {ε α β : Type} (f : α → β) (x : Except ε α) :
    (x.bind fun a => .ok (f a)).toOption = x.toOption.map f := by
  cases x <;> rfl

variable (urls serverUrl) in
/-- The transport of a form over SCION whose addresses are well formed. -/
theorem transportKind_scion (form : ConnectionForm) (scion : form.transport = .scion)
    (scheme : urls.scheme serverUrl = "https") (endhost : form.endhostApi ≠ "")
    (parsed : urls.parse form.endhostApi = .ok endhostApi) :
    transportKind urls serverUrl form = (credential urls form).bind fun credential =>
      (trust form).bind fun trust =>
        .ok (.scion ⟨endhostApi, credential, blankAsNone form.target, trust⟩) := by
  unfold transportKind
  simp only [scion, Transport.scheme, scheme, ne_eq, not_true_eq_false, if_false, blankAsNone,
    if_neg endhost, parsed]
  rfl

variable (kit urls) in
/-- The screen's credential is refused only where an API key is given alone and its AA URL is not
a URL. -/
theorem credential_entered_fails (form : ConnectionForm) :
    (∃ detail, credential urls ((Connection.new kit form).form kit) = .error (.config detail)) ↔
      form.snapToken = "" ∧ trimmed form.authApiKey ≠ "" ∧
        (urls.parse form.aaUrl).toOption = none := by
  rw [credential_entered]
  split_ifs with token key blank
  · simp [key]
  · cases urls.parse form.aaUrl with
    | error e => simp [token, key, Except.toOption]
    | ok aaUrl => simp [Except.toOption]
  · simp [token]
  · simp [token]

variable (kit urls) in
/-- The screen's credential is the one the form names, given that it names at most one, where the
API key stands alone. -/
theorem credential_entered_same (form : ConnectionForm) (one : ¬ form.TwoCredentials) :
    (credential urls ((Connection.new kit form).form kit)).toOption
        = (credential urls form.trim).toOption ↔
      (trimmed form.authApiKey ≠ "" → form.snapToken = "" ∧
        (urls.parse form.aaUrl).toOption = (urls.parse (trimmed form.aaUrl)).toOption) := by
  have blank : trimmed "" = "" := by decide
  rw [credential_entered]
  unfold credential blankAsNone trim
  dsimp only
  by_cases key : trimmed form.authApiKey = ""
  · by_cases kept : trimmed form.snapToken = ""
    · by_cases token : form.snapToken = "" <;> simp [key, kept, token, blank]
    · have token : form.snapToken ≠ "" := fun none => kept (by rw [none, blank])
      simp [key, kept, token]
  · have kept : trimmed form.snapToken = "" := not_not.mp fun kept => one ⟨key, kept⟩
    by_cases token : form.snapToken = ""
    · cases urls.parse form.aaUrl <;> cases urls.parse (trimmed form.aaUrl) <;>
        simp [key, token, blank, Except.toOption]
    · cases urls.parse (trimmed form.aaUrl) <;> simp [key, kept, token, Except.toOption]

variable (kit urls) in
/-- What the untouched screen comes to: its credential decides. -/
theorem entered_eq (scion : form.transport = .scion)
    (server : urls.parse (trimmed form.serverUrl) = .ok serverUrl)
    (scheme : urls.scheme serverUrl = "https") (endhost : trimmed form.endhostApi ≠ "")
    (parsed : urls.parse (trimmed form.endhostApi) = .ok endhostApi) {kept : Trust}
    (trusted : trust ((Connection.new kit form).form kit) = .ok kept) :
    entered kit urls form
      = some ((credential urls ((Connection.new kit form).form kit)).bind fun credential =>
          .ok (.scion ⟨endhostApi, credential, blankAsNone (trimmed form.target), kept⟩)) := by
  have shown := form_new kit form
  have reads : configured urls ((Connection.new kit form).form kit)
      = transportKind urls serverUrl ((Connection.new kit form).form kit) := by
    have url : ((Connection.new kit form).form kit).serverUrl = trimmed form.serverUrl := by
      rw [shown]
      rfl
    unfold configured
    rw [url, server]
  have kind := transportKind_scion urls serverUrl
    ((Connection.new kit form).form kit)
    (by rw [shown]; exact scion) scheme (by rw [shown]; exact endhost)
    (by rw [shown]; exact parsed)
  have target : ((Connection.new kit form).form kit).target = trimmed form.target := by
    rw [shown]
    rfl
  rw [trusted, target] at kind
  exact congrArg some (reads.trans kind)

variable (urls) in
/-- What the form itself comes to, trimmed: its credential decides. -/
theorem transportKind_trim (scion : form.transport = .scion)
    (scheme : urls.scheme serverUrl = "https") (endhost : trimmed form.endhostApi ≠ "")
    (parsed : urls.parse (trimmed form.endhostApi) = .ok endhostApi) {kept : Trust}
    (trusted : trust form.trim = .ok kept) :
    transportKind urls serverUrl form.trim
      = (credential urls form.trim).bind fun credential =>
          .ok (.scion ⟨endhostApi, credential, blankAsNone (trimmed form.target), kept⟩) := by
  have kind := transportKind_scion urls serverUrl form.trim scion scheme endhost parsed
  rw [trusted] at kind
  exact kind

/-- **Which forms are never resolved silently.** The transport is SCION, and the server's URL and
the endhost API are such as can be read, so that nothing else refuses the form; every other field
is free. -/
theorem never_resolves_iff (form : ConnectionForm) (scion : form.transport = .scion)
    (server : urls.parse (trimmed form.serverUrl) = .ok serverUrl)
    (scheme : urls.scheme serverUrl = "https") (endhost : trimmed form.endhostApi ≠ "")
    (parsed : urls.parse (trimmed form.endhostApi) = .ok endhostApi) :
    NeverResolves urls form serverUrl (entered kit urls form) ↔ Agrees urls form := by
  obtain ⟨kept, trusted, named⟩ := trust_entered kit form
  have outcome := entered_eq kit urls scion server scheme endhost parsed trusted
  have direct (one : ¬ form.TwoTrusts) :=
    transportKind_trim urls scion scheme endhost parsed (named one)
  have fails := credential_entered_fails kit urls form
  have same := credential_entered_same kit urls form
  have injective : Function.Injective fun credential =>
      (.scion ⟨endhostApi, credential, blankAsNone (trimmed form.target), kept⟩ :
        TransportKind Url) := by
    intro a b eq
    cases eq
    rfl
  -- the transport is refused where the credential is, and otherwise as good as it
  have refused (detail : String) : entered kit urls form = some (.error (.config detail)) ↔
      credential urls ((Connection.new kit form).form kit) = .error (.config detail) := by
    rw [outcome]
    cases credential urls ((Connection.new kit form).form kit) <;> simp [Except.bind]
  have yields (one : ¬ form.TwoTrusts) : (entered kit urls form).map Except.toOption
      = some (transportKind urls serverUrl form.trim).toOption ↔
        (credential urls ((Connection.new kit form).form kit)).toOption
          = (credential urls form.trim).toOption := by
    rw [outcome, direct one, Option.map_some, Option.some_inj, toOption_bind_ok, toOption_bind_ok]
    exact (Option.map_injective injective).eq_iff
  constructor
  · intro never
    refine ⟨fun two => ?_, fun one both => ?_, fun one key => ?_⟩
    · obtain ⟨detail, error⟩ := never.refused (Or.inl two)
      exact fails.mp ⟨detail, (refused detail).mp error⟩
    · obtain ⟨detail, error⟩ := never.refused (Or.inr both)
      have alone := (fails.mp ⟨detail, (refused detail).mp error⟩).1
      exact both.2 (by rw [alone]; decide)
    · by_cases both : form.TwoCredentials
      · obtain ⟨detail, error⟩ := never.refused (Or.inr both)
        have alone := (fails.mp ⟨detail, (refused detail).mp error⟩).1
        exact absurd (by rw [alone]; decide) both.2
      · have yielded := never.same fun named => named.elim one both
        exact (same both).mp ((yields one).mp yielded) key
  · intro agrees
    refine ⟨fun named => ?_, fun neither => ?_⟩
    · by_cases two : form.TwoTrusts
      · obtain ⟨detail, error⟩ := fails.mpr (agrees.trusts two)
        exact ⟨detail, (refused detail).mpr error⟩
      · exact absurd (named.resolve_left two) (agrees.credentials two)
    · have one : ¬ form.TwoTrusts := fun two => neither (Or.inl two)
      have single : ¬ form.TwoCredentials := fun both => neither (Or.inr both)
      exact (yields one).mpr ((same single).mpr (agrees.key one))

namespace Sample

/-- A reading of URLs that takes every text for one: its scheme is what stands before the
colon. -/
def plainUrls : Urls String where
  parse text := .ok text
  scheme url := String.ofList (url.toList.takeWhile fun c => c ≠ ':')

/-- A server and an endhost API that are well formed. -/
def answered : ConnectionForm :=
  { serverUrl := "https://localhost:8443", endhostApi := "http://127.0.0.1:41234/" }

/-- The certificate is pinned, and there is a token. -/
def pinned : ConnectionForm :=
  { answered with certPath := "/tmp/cert.pem ", snapToken := "token" }

/-- Both flags are given that name a trust. -/
def twoTrusts : ConnectionForm :=
  { answered with certPath := "/tmp/cert.pem", insecure := true }

end Sample

/-- One trust and one credential are given, so the form yields these and refuses nothing. -/
theorem never_resolves_pinned :
    NeverResolves Sample.plainUrls Sample.pinned "https://localhost:8443"
      (entered Toolkit.plain Sample.plainUrls Sample.pinned) := by
  have parsed : Sample.plainUrls.parse (trimmed Sample.pinned.endhostApi)
      = .ok "http://127.0.0.1:41234/" := by decide +kernel
  refine (never_resolves_iff Sample.pinned rfl (by decide +kernel) (by decide +kernel)
    (by decide +kernel) parsed).mpr ⟨?_, ?_, ?_⟩
  · exact fun two => absurd two.1 (by decide)
  · exact fun _ both => absurd both.1 (by decide +kernel)
  · exact fun _ key => absurd key (by decide +kernel)

/-- **`--insecure` and `--cert-path` together are resolved silently**: any certificate is
accepted. -/
theorem two_trusts_resolved :
    entered Toolkit.plain Sample.plainUrls Sample.twoTrusts
        = some (.ok (.scion ⟨"http://127.0.0.1:41234/", .none, none, .insecure⟩)) ∧
      ¬ NeverResolves Sample.plainUrls Sample.twoTrusts "https://localhost:8443"
        (entered Toolkit.plain Sample.plainUrls Sample.twoTrusts) := by
  have resolved : entered Toolkit.plain Sample.plainUrls Sample.twoTrusts
      = some (.ok (.scion ⟨"http://127.0.0.1:41234/", .none, none, .insecure⟩)) := by decide +kernel
  refine ⟨resolved, fun never => ?_⟩
  obtain ⟨detail, error⟩ := never.refused (Or.inl ⟨rfl, by decide +kernel⟩)
  rw [resolved] at error
  cases error

end ConnectionForm

end ScionChat
