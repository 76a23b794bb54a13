import Mathlib.Data.List.DropRight
import ScionChat.Lib.Url
import ScionChat.Server.Api.Handlers
import ScionChat.Server.Cert

/-!
# The two descriptions of a development network

`chat-dev` starts a network on one machine and serves a description of it at `GET /info`: one for
every client that reaches the address it is bound to, and one for a client on an Android emulator,
which reaches the same socket at another address.  Which one is served is read off the `Host` header
of the request (`Profiles.forHost`), so the URL in the emulator's description has to lead a client
back to that description (`LeadsBack`).

It does when the emulator's address is an IPv4 address, and only then
(`emulator_leads_back_iff`).  The URL has no brackets, without which an IPv6 address is no host, and
what is taken for the port of a header may be the last group of an address.

### design decisions

* **The client's half is general.**  How a URL is read and an address is written is in `Url` and
  `IpAddr`, which follow the standards and `std`, and name nothing of this program.  What is here is
  `chat-dev`'s own: the URL it formats and the header it takes apart.
* **A start that succeeds is the hypothesis.**  `Started` holds what a start has found on the way,
  and `DevSetup.start` what it makes of that, failures included.

### What is load-bearing

`askedHost_bracketed` and `host_of_askedHost` say what `Profiles.forHost` makes of any header
whatsoever: that a header is taken for an IPv4 address only if it names that address.  The rest is
that the port of the URL survives being written in decimal and read again.
-/

namespace ScionChat.Dev

/-! ### What is configured -/

/-- The flags. -/
structure Config where
  controlPort : UInt16 := 8099
  bindIp : IpAddr := .v4 ⟨127, 0, 0, 1⟩
  emulatorIp : IpAddr := .v4 ⟨10, 0, 2, 2⟩
  serverPort : UInt16 := 8443
  dataDir : Option String := none
  noServer : Bool := false

/-- An address and a port. -/
structure SocketAddr where
  ip : IpAddr
  port : UInt16
  deriving DecidableEq, Repr

/-- How a socket address is written: brackets around an IPv6 address. -/
def SocketAddr.display (addr : SocketAddr) : List Char :=
  Authority.display ⟨.ip addr.ip, some addr.port⟩

/-- `IpAddr::is_unspecified`. -/
def isUnspecified : IpAddr → Bool
  | .v4 addr => addr = ⟨0, 0, 0, 0⟩
  | .v6 addr => addr.segments.toList = List.replicate 8 0

/-- Whether the chat server runs in the process or alongside. -/
inductive Server
  | embedded
  | external
  deriving DecidableEq, Repr

/-- Where the chat server is, for a client that must reach it. -/
structure DevNetwork where
  controlUrl : String
  underlay : String
  server : Server
  endhostApiUrl : String
  serverEndhostApiUrl : String
  clientIsdAs : String
  authToken : String
  authTokenFile : String
  baseUrl : String
  target : String
  caPem : String
  caPath : String
  caFingerprint : String
  dataDir : String
  chatServerArgs : List String
  deriving DecidableEq, Repr

/-- The arguments a chat server needs to join the network. -/
def chatServerArgs (listen dataDir endhostApi authTokenFile : String) : List String :=
  ["--transport", "scion", "--listen", listen, "--data-dir", dataDir, "--endhost-api", endhostApi,
    "--auth-token-file", authTokenFile]

/-! ### Which description a request is for -/

/-- The headers of a request: their names, and what they hold. -/
abbrev HeaderMap := List (String × List UInt8)

/-- `header::HOST`. -/
def HOST : String := "host"

/-- `str::rsplit_once(':')`. -/
def rsplitOnce (text : List Char) : Option (List Char × List Char) :=
  if ':' ∈ text then some ((text.rdropWhile (· ≠ ':')).dropLast, text.rtakeWhile (· ≠ ':'))
  else none

/-- `str::trim_matches`. -/
def trimMatches (p : Char → Bool) (text : List Char) : List Char :=
  (text.dropWhile p).rdropWhile p

/-- One of the brackets around an IPv6 address. -/
def isBracket (c : Char) : Bool := c = '[' ∨ c = ']'

/-- What is taken for the address in a `Host` header. -/
def askedHost (host : List Char) : List Char :=
  trimMatches isBracket (match rsplitOnce host with | some (name, _) => name | none => host)

/-- The same network, described once for each kind of client. -/
structure Profiles where
  default : DevNetwork
  emulator : DevNetwork
  emulatorIp : IpAddr

namespace Profiles

/-- The address the client asked at. -/
def askedAt (headers : HeaderMap) : Option IpAddr := do
  let host ← headers.lookup HOST
  let host ← headerText host
  IpAddr.parse (askedHost host)

/-- The description that matches the address the client asked at. -/
def forHost (profiles : Profiles) (headers : HeaderMap) : DevNetwork :=
  match askedAt headers with
  | some ip => if ip = profiles.emulatorIp then profiles.emulator else profiles.default
  | none => profiles.default

end Profiles

/-! ### Starting the network -/

/-- The AS of every client at the bound address. -/
def DEFAULT : String := "1-ff00:0:132"

/-- The AS of the chat server. -/
def SERVER : String := "2-ff00:0:212"

/-- The AS of an emulator. -/
def EMULATOR : String := "2-ff00:0:222"

/-- What a start that fails at nothing finds: a port for a listener that asks for any, a temporary
directory, the endhost APIs of the network, the certificate, the token that is minted, and the
SCION host and port of the chat server. -/
structure Started where
  freePort : UInt16
  tempDir : String
  clientApi : String
  emulatorApi : String
  serverApi : String
  certPem : String
  certPath : String
  fingerprint : String
  authToken : String
  served : String × UInt16

/-- Why a network is not started. -/
inductive DevError
  | wildcardBind (ip : IpAddr)
  deriving DecidableEq, Repr

/-- Where the control API listens. -/
def controlAddr (config : Config) (started : Started) : SocketAddr :=
  ⟨config.bindIp, if config.controlPort = 0 then started.freePort else config.controlPort⟩

/-- `Path::join`, with the name of a file. -/
def join (dir file : String) : String :=
  if dir = "" ∨ dir.toList.getLast? = some '/' then dir ++ file else dir ++ "/" ++ file

namespace DevSetup

/-- The description for every client that reaches the bound address. -/
def network (config : Config) (started : Started) : DevNetwork :=
  let dataDir := config.dataDir.getD started.tempDir
  let authTokenFile := join dataDir "snap.token"
  let (target, port) :=
    if config.noServer then
      (SERVER ++ "," ++ String.ofList config.bindIp.display, config.serverPort)
    else started.served
  { controlUrl := "http://" ++ String.ofList (controlAddr config started).display
    underlay := "snap"
    server := if config.noServer then .external else .embedded
    endhostApiUrl := started.clientApi
    serverEndhostApiUrl := started.serverApi
    clientIsdAs := DEFAULT
    authToken := started.authToken
    authTokenFile := authTokenFile
    baseUrl := "https://" ++ SERVER_NAME ++ ":" ++ toString port
    target := target
    caPem := started.certPem
    caPath := started.certPath
    caFingerprint := started.fingerprint
    dataDir := dataDir
    chatServerArgs :=
      chatServerArgs (String.ofList (SocketAddr.display ⟨config.bindIp, port⟩)) dataDir
        started.serverApi authTokenFile }

/-- The description for a client on an emulator: only the way in differs. -/
def emulatorNetwork (config : Config) (started : Started) : DevNetwork :=
  { network config started with
    controlUrl := String.ofList ("http://".toList ++ (config.emulatorIp.display
      ++ ':' :: decimal (controlAddr config started).port.toNat))
    endhostApiUrl := started.emulatorApi
    clientIsdAs := EMULATOR }

/-- `DevSetup::start`, where nothing else fails: a wildcard names no host. -/
def start (config : Config) (started : Started) : Except DevError Profiles :=
  if isUnspecified config.bindIp then .error (.wildcardBind config.bindIp)
  else .ok ⟨network config started, emulatorNetwork config started, config.emulatorIp⟩

end DevSetup

/-! ### What a header names -/

/-- The bytes of a text of ASCII characters. -/
def asciiBytes (text : List Char) : List UInt8 :=
  text.map fun c => UInt8.ofNat c.toNat

/-- Visible characters come through a header as they are. -/
theorem headerText_asciiBytes {text : List Char}
    (visible : ∀ c ∈ text, 32 ≤ c.toNat ∧ c.toNat < 127) :
    headerText (asciiBytes text) = some text := by
  have byte : ∀ c ∈ text, (UInt8.ofNat c.toNat).toNat = c.toNat := by
    intro c mem
    obtain ⟨-, high⟩ := visible c mem
    rw [UInt8.toNat_ofNat']
    exact Nat.mod_eq_of_lt (by omega)
  unfold headerText asciiBytes
  rw [if_pos, List.map_map]
  · refine congrArg some ((List.map_congr_left fun c mem => ?_).trans (List.map_id text))
    show Char.ofNat (UInt8.ofNat c.toNat).toNat = c
    rw [byte c mem, Char.ofNat_toNat]
  · refine List.all_eq_true.mpr fun b mem => ?_
    obtain ⟨c, held, rfl⟩ := List.mem_map.mp mem
    obtain ⟨low, high⟩ := visible c held
    refine Bool.or_eq_true_iff.mpr (Or.inl (Bool.and_eq_true_iff.mpr ⟨?_, ?_⟩))
    · refine decide_eq_true (UInt8.le_iff_toNat_le.mpr ?_)
      rw [byte c held]
      exact low
    · refine decide_eq_true (UInt8.lt_iff_toNat_lt.mpr ?_)
      rw [byte c held]
      exact high

/-- The last colon is the one behind which there is none. -/
theorem rsplitOnce_append (before : List Char) {after : List Char} (last : ':' ∉ after) :
    rsplitOnce (before ++ ':' :: after) = some (before, after) := by
  have text : before ++ ':' :: after = (before ++ [':']) ++ after := by simp
  have others : ∀ c ∈ after.reverse, decide (c ≠ ':') = true := fun c mem =>
    decide_eq_true fun same => last (same ▸ List.mem_reverse.mp mem)
  have reversed : (before ++ ':' :: after).reverse = after.reverse ++ ':' :: before.reverse := by
    simp
  obtain ⟨taken, left⟩ :=
    takeWhile_append_cons others before.reverse (by decide : decide (':' ≠ ':') = false)
  unfold rsplitOnce List.rdropWhile List.rtakeWhile
  rw [if_pos (List.mem_append_right _ List.mem_cons_self), reversed, taken, left]
  simp

/-- A text with a colon is split at the last one. -/
theorem exists_last_colon {text : List Char} (colon : ':' ∈ text) :
    ∃ before after, text = before ++ ':' :: after ∧ ':' ∉ after := by
  obtain ⟨after, before, eq, last⟩ := List.eq_append_cons_of_mem (List.mem_reverse.mpr colon)
  refine ⟨before.reverse, after.reverse, ?_, fun mem => last (List.mem_reverse.mp mem)⟩
  rw [← List.reverse_reverse text, eq]
  simp

/-- Nothing is dropped of a text that begins with none of it. -/
theorem dropWhile_eq_self {α : Type*} {p : α → Bool} {text : List α}
    (none_ : ∀ c ∈ text, p c = false) : text.dropWhile p = text := by
  cases text with
  | nil => rfl
  | cons c text =>
      have other : ¬p c = true := by
        rw [none_ c List.mem_cons_self]
        exact Bool.false_ne_true
      exact List.dropWhile_cons_of_neg other

/-- What is trimmed is what surrounds a text that has none of it. -/
theorem trimMatches_append {p : Char → Bool} {front text back : List Char}
    (before : ∀ c ∈ front, p c = true) (inside : ∀ c ∈ text, p c = false)
    (after : ∀ c ∈ back, p c = true) : trimMatches p (front ++ (text ++ back)) = text := by
  unfold trimMatches
  rw [List.dropWhile_append_of_pos before]
  cases text with
  | nil =>
      rw [List.nil_append, List.dropWhile_eq_nil_iff.mpr after]
      rfl
  | cons c text =>
      have other : ¬p c = true := by
        rw [inside c List.mem_cons_self]
        exact Bool.false_ne_true
      have behind : ∀ c ∈ back.reverse, p c = true := fun c mem => after c (List.mem_reverse.mp mem)
      have within : ∀ c' ∈ (c :: text).reverse, p c' = false := fun c' mem =>
        inside c' (List.mem_reverse.mp mem)
      rw [List.cons_append, List.dropWhile_cons_of_neg other, ← List.cons_append]
      unfold List.rdropWhile
      rw [List.reverse_append, List.dropWhile_append_of_pos behind, dropWhile_eq_self within,
        List.reverse_reverse]

/-! ### Addresses and names have no brackets -/

/-- No bracket is part of an address. -/
theorem not_isBracket_of_addr {text : List Char} (chars : ∀ c ∈ text, IsAddrChar c) :
    ∀ c ∈ text, isBracket c = false := by
  intro c mem
  refine decide_eq_false ?_
  rintro (rfl | rfl)
  · exact absurd (chars '[' mem) (by decide)
  · exact absurd (chars ']' mem) (by decide)

theorem not_isBracket_of_digit {c : Char} (digit : isDigitOf 16 c = true) :
    isBracket c = false := by
  refine decide_eq_false ?_
  rintro (rfl | rfl)
  · exact absurd digit (by decide)
  · exact absurd digit (by decide)

/-- No bracket is part of a name. -/
theorem not_isBracket_of_isRegName (text : List Char) (name : isRegName text = true) :
    ∀ c ∈ text, isBracket c = false := by
  fun_induction isRegName text with
  | case1 => exact List.forall_mem_nil _
  | case2 high low text ih =>
      simp only [Bool.and_eq_true] at name
      obtain ⟨⟨first, second⟩, rest⟩ := name
      intro c mem
      simp only [List.mem_cons] at mem
      rcases mem with rfl | rfl | rfl | mem
      · rfl
      · exact not_isBracket_of_digit first
      · exact not_isBracket_of_digit second
      · exact ih rest c mem
  | case3 c text _ ih =>
      obtain ⟨first, rest⟩ := Bool.and_eq_true_iff.mp name
      intro c' mem
      rcases List.mem_cons.mp mem with rfl | mem
      · refine decide_eq_false ?_
        rintro (rfl | rfl)
        · exact absurd first (by decide)
        · exact absurd first (by decide)
      · exact ih rest c' mem

/-- A host without brackets is what is taken for it. -/
theorem trimMatches_bare {text : List Char} {host : UriHost}
    (read : readBareHost text = some host) : trimMatches isBracket text = text := by
  have inside : ∀ c ∈ text, isBracket c = false := by
    unfold readBareHost at read
    split at read
    · next addr parsed => exact not_isBracket_of_addr (IpAddr.parse_chars parsed)
    · split at read
      · next name => exact not_isBracket_of_isRegName text name.2
      · cases read
  have trimmed := trimMatches_append (List.forall_mem_nil _) inside (List.forall_mem_nil _)
  rw [List.nil_append, List.append_nil] at trimmed
  exact trimmed

/-! ### What a header is taken for -/

/-- A port behind a host has no colon in it. -/
theorem colon_not_mem_digits {digits : List Char} (number : ∀ c ∈ digits, c.isDigit = true) :
    ':' ∉ digits := fun mem => absurd (number ':' mem) (by decide)

/-- What is before the last colon is taken for the host. -/
theorem askedHost_colon (before : List Char) {after : List Char} (last : ':' ∉ after) :
    askedHost (before ++ ':' :: after) = trimMatches isBracket before := by
  unfold askedHost
  rw [rsplitOnce_append before last]

/-- Without a colon, all of it is. -/
theorem askedHost_single {text : List Char} (single : ':' ∉ text) :
    askedHost text = trimMatches isBracket text := by
  unfold askedHost rsplitOnce
  rw [if_neg single]

/-- A host before nothing or a port is what is taken for the host, where it has no colon. -/
theorem askedHost_append {host rest : List Char} {port : Option UInt16} (single : ':' ∉ host)
    (read : readPort rest = some port) :
    askedHost (host ++ rest) = trimMatches isBracket host := by
  rcases eq_of_readPort read with rfl | ⟨digits, rfl, number⟩
  · rw [List.append_nil]
    exact askedHost_single single
  · exact askedHost_colon host (colon_not_mem_digits number)

/-- What is trimmed of a bracketed address, which may be cut short. -/
theorem trimMatches_bracketed {text back : List Char} (chars : ∀ c ∈ text, IsAddrChar c)
    (brackets : ∀ c ∈ back, isBracket c = true) :
    trimMatches isBracket ('[' :: (text ++ back)) = text := by
  have opening : ∀ c ∈ ['['], isBracket c = true := List.forall_mem_singleton.mpr rfl
  exact trimMatches_append opening (not_isBracket_of_addr chars) brackets

/-- Of an IPv6 address in brackets without a port, what is taken for the host is no IPv4 address:
it is all of the address, or what comes before its last group. -/
theorem askedHost_portless {inner : List Char} {addr : Ipv6Addr}
    (parsed : IpAddr.parse inner = some (.v6 addr)) (v4 : Ipv4Addr) :
    IpAddr.parse (askedHost ('[' :: (inner ++ [']']))) ≠ some (.v4 v4) := by
  have chars := IpAddr.parse_chars parsed
  by_cases colon : ':' ∈ inner
  · obtain ⟨before, after, rfl, last⟩ := exists_last_colon colon
    have split : '[' :: (before ++ ':' :: after ++ [']'])
        = ('[' :: before) ++ ':' :: (after ++ [']']) := by simp
    have last' : ':' ∉ after ++ [']'] := by
      rw [List.mem_append]
      rintro (mem | mem)
      · exact last mem
      · exact absurd (List.mem_singleton.mp mem) (by decide)
    have trimmed : trimMatches isBracket ('[' :: (before ++ [])) = before :=
      trimMatches_bracketed (fun c mem => chars c (List.mem_append_left _ mem))
        (List.forall_mem_nil _)
    rw [List.append_nil] at trimmed
    rw [split, askedHost_colon _ last', trimmed]
    intro cut
    rw [IpAddr.parse_v4_append cut] at parsed
    cases parsed
  · have single : ':' ∉ '[' :: (inner ++ [']']) := by
      rw [List.mem_cons, List.mem_append]
      rintro (same | mem | mem)
      · exact absurd same (by decide)
      · exact colon mem
      · exact absurd (List.mem_singleton.mp mem) (by decide)
    rw [askedHost_single single,
      trimMatches_bracketed chars (List.forall_mem_singleton.mpr rfl), parsed]
    exact fun same => by cases Option.some.inj same

/-- **What is taken for an IPv6 address in brackets** is no IPv4 address, with a port and without.
What stands between the brackets has a colon in it, which no IPv4 address has. -/
theorem askedHost_bracketed {inner rest : List Char} {addr : Ipv6Addr} {port : Option UInt16}
    (parsed : IpAddr.parse inner = some (.v6 addr)) (read : readPort rest = some port)
    (v4 : Ipv4Addr) :
    IpAddr.parse (askedHost ('[' :: (inner ++ ']' :: rest))) ≠ some (.v4 v4) := by
  rcases eq_of_readPort read with rfl | ⟨digits, rfl, number⟩
  · exact askedHost_portless parsed v4
  · have split : '[' :: (inner ++ ']' :: ':' :: digits)
        = ('[' :: (inner ++ [']'])) ++ ':' :: digits := by simp
    rw [split, askedHost_colon _ (colon_not_mem_digits number),
      trimMatches_bracketed (IpAddr.parse_chars parsed) (List.forall_mem_singleton.mpr rfl), parsed]
    exact fun same => by cases Option.some.inj same

/-- **What is taken for an IPv4 address is one**: the host that the header names.  What the header
is cut to, and what a URL is read as, are then one host. -/
theorem host_of_askedHost {text : List Char} {authority : Authority}
    (read : readAuthority text = some authority) {addr : Ipv4Addr}
    (asked : IpAddr.parse (askedHost text) = some (.v4 addr)) :
    authority.host = .ip (.v4 addr) := by
  by_cases bracket : text.head? = some '['
  · obtain ⟨text, rfl⟩ : ∃ more, text = '[' :: more :=
      ⟨text.tail, List.eq_cons_of_mem_head? bracket⟩
    unfold readAuthority at read
    split at read
    · next same =>
        cases same
        split at read
        · next v6 rest parsed closed =>
            obtain ⟨port, number, -⟩ := Option.map_eq_some_iff.mp read
            have whole : text.takeWhile (· ≠ ']') ++ ']' :: rest = text := by
              rw [← closed]
              exact List.takeWhile_append_dropWhile
            rw [← whole] at asked
            exact absurd asked (askedHost_bracketed parsed number addr)
        · cases read
    · next other => exact absurd rfl (other text)
  · rw [readAuthority_bare bracket] at read
    simp only [Option.bind_eq_bind, Option.bind_eq_some_iff, Option.pure_def,
      Option.some.injEq] at read
    obtain ⟨host, bare, port, number, rfl⟩ := read
    have single : ':' ∉ text.takeWhile (· ≠ ':') := fun mem =>
      absurd (List.mem_takeWhile_imp mem) (by decide)
    have whole : text.takeWhile (· ≠ ':') ++ text.dropWhile (· ≠ ':') = text :=
      List.takeWhile_append_dropWhile
    rw [← whole, askedHost_append single number, trimMatches_bare bare] at asked
    unfold readBareHost at bare
    rw [asked] at bare
    exact (Option.some.inj bare).symm

/-! ### Whether the URL leads back -/

/-- **The emulator's description leads back to itself**: its URL has the emulator's address for a
host and the control port, a request for it is answered with it, and one that names anything else
is not. -/
structure LeadsBack (profiles : Profiles) (port : UInt16) : Prop where
  /-- The URL names the address and the port. -/
  names : ∃ url, readUrl profiles.emulator.controlUrl.toList = some url ∧
    url.host = .ip profiles.emulatorIp ∧ url.port = port
  /-- A request for `/info` below it selects the emulator's description. -/
  selects : ∃ url, readUrl (profiles.emulator.controlUrl ++ "/info").toList = some url ∧
    url.path = "/info".toList ∧ ∀ headers : HeaderMap,
      headers.lookup HOST = some (asciiBytes url.hostHeader) →
        profiles.forHost headers = profiles.emulator
  /-- One for another address or a name selects the default one. -/
  others : ∀ (headers : HeaderMap) (value : List UInt8) (text : List Char) (named : Authority),
    headers.lookup HOST = some value → headerText value = some text →
      readAuthority text = some named → named.host ≠ .ip profiles.emulatorIp →
        profiles.forHost headers = profiles.default

variable {config : Config} {started : Started} {profiles : Profiles}

/-- What is started. -/
theorem eq_of_start (h : DevSetup.start config started = .ok profiles) :
    profiles = ⟨DevSetup.network config started, DevSetup.emulatorNetwork config started,
      config.emulatorIp⟩ := by
  unfold DevSetup.start at h
  split at h
  · cases h
  · cases h
    rfl

/-- A header that comes through is asked at the address that is taken for its host. -/
theorem askedAt_eq {headers : HeaderMap} {value : List UInt8} {text : List Char}
    (found : headers.lookup HOST = some value) (shown : headerText value = some text) :
    Profiles.askedAt headers = IpAddr.parse (askedHost text) := by
  unfold Profiles.askedAt
  rw [found]
  show (headerText value).bind _ = _
  rw [shown]
  rfl

/-- Digits, colons and dots are visible. -/
theorem visible_of_v4 {c : Char} (h : c = ':' ∨ c = '.' ∨ c.isDigit = true) :
    32 ≤ c.toNat ∧ c.toNat < 127 := by
  rcases h with rfl | rfl | digit
  · decide
  · decide
  · simp only [Char.isDigit, Bool.and_eq_true, decide_eq_true_eq, UInt32.le_iff_toNat_le] at digit
    obtain ⟨low, high⟩ := digit
    have low' : 48 ≤ c.toNat := low
    have high' : c.toNat ≤ 57 := high
    omega

/-- The `Host` header of a URL: the address, and the port unless the scheme implies it. -/
theorem exists_hostHeader (addr : Ipv4Addr) (port : UInt16) (path : List Char) :
    ∃ rest found, Url.hostHeader ⟨.ip (.v4 addr), port, path⟩ = addr.display ++ rest ∧
      readPort rest = some found ∧ ∀ c ∈ rest, c = ':' ∨ c.isDigit = true := by
  unfold Url.hostHeader Authority.display
  by_cases implied : port = 80
  · refine ⟨[], none, ?_, rfl, List.forall_mem_nil _⟩
    rw [if_pos implied, List.append_nil]
    rfl
  · refine ⟨':' :: decimal port.toNat, some port, ?_, readPort_decimal port, fun c mem => ?_⟩
    · rw [if_neg implied]
      rfl
    · exact (List.mem_cons.mp mem).imp id (Nat.isDigit_of_mem_toDigits (by decide) (by decide))

/-- **The header of a URL with an IPv4 address** comes through as it is.  It is digits and dots,
and perhaps a colon and a port: all of it visible ASCII. -/
theorem headerText_hostHeader (addr : Ipv4Addr) (port : UInt16) (path : List Char) :
    headerText (asciiBytes (Url.hostHeader ⟨.ip (.v4 addr), port, path⟩))
      = some (Url.hostHeader ⟨.ip (.v4 addr), port, path⟩) := by
  obtain ⟨rest, found, written, -, digits⟩ := exists_hostHeader addr port path
  rw [written]
  refine headerText_asciiBytes fun c mem => visible_of_v4 ?_
  rcases List.mem_append.mp mem with mem | mem
  · exact Or.inr (IpAddr.parse_v4_chars (IpAddr.parse_display_v4 addr) c mem).symm
  · exact (digits c mem).imp id Or.inr

/-- **That address** is what is taken for its host. -/
theorem parse_hostHeader (addr : Ipv4Addr) (port : UInt16) (path : List Char) :
    IpAddr.parse (askedHost (Url.hostHeader ⟨.ip (.v4 addr), port, path⟩)) = some (.v4 addr) := by
  obtain ⟨rest, found, written, number, -⟩ := exists_hostHeader addr port path
  rw [written, askedHost_append (colon_not_mem_v4 addr) number,
    trimMatches_bare (readBareHost_v4 addr)]
  exact IpAddr.parse_display_v4 addr

/-- **An IPv4 address leads back.** It does so whatever the ports are. -/
theorem leadsBack_v4 (addr : Ipv4Addr) (v4 : config.emulatorIp = .v4 addr)
    (h : DevSetup.start config started = .ok profiles) :
    LeadsBack profiles (controlAddr config started).port := by
  obtain rfl := eq_of_start h
  have written : ∀ path : List Char,
      "http://".toList ++ (config.emulatorIp.display
          ++ ':' :: decimal (controlAddr config started).port.toNat) ++ path
        = "http://".toList ++ ((addr.display
          ++ ':' :: decimal (controlAddr config started).port.toNat) ++ path) := by
    intro path
    rw [v4, List.append_assoc]
    rfl
  constructor
  · refine ⟨⟨.ip (.v4 addr), (controlAddr config started).port, []⟩, ?_, ?_, rfl⟩
    · show readUrl (String.ofList _).toList = _
      have whole := written []
      rw [List.append_nil] at whole
      rw [String.toList_ofList, whole]
      exact readUrl_display_v4 addr _ endsAuthority_nil
    · show UriHost.ip _ = UriHost.ip config.emulatorIp
      rw [v4]
  · refine ⟨⟨.ip (.v4 addr), (controlAddr config started).port, "/info".toList⟩, ?_, rfl, ?_⟩
    · show readUrl (String.ofList _ ++ "/info").toList = _
      rw [String.toList_append, String.toList_ofList, written]
      refine readUrl_display_v4 addr _ fun c head => ?_
      cases head
      rfl
    · intro headers found
      have through := headerText_hostHeader addr (controlAddr config started).port "/info".toList
      unfold Profiles.forHost
      rw [askedAt_eq found through, parse_hostHeader]
      show (if IpAddr.v4 addr = config.emulatorIp then _ else _) = _
      rw [if_pos v4.symm]
  · intro headers value text named found shown read other
    unfold Profiles.forHost
    rw [askedAt_eq found shown]
    split
    · next ip asked =>
        refine if_neg fun same => other ?_
        have same : ip = config.emulatorIp := same
        rw [same, v4] at asked
        rw [host_of_askedHost read asked, v4]
    · rfl

/-- **An IPv6 address does not**: without its brackets the URL is none.  The description is served
all the same, and whoever follows it gets nowhere. -/
theorem no_url_v6 (addr : Ipv6Addr) (v6 : config.emulatorIp = .v6 addr)
    (h : DevSetup.start config started = .ok profiles) :
    readUrl profiles.emulator.controlUrl.toList = none := by
  obtain rfl := eq_of_start h
  show readUrl (String.ofList _).toList = none
  have bare := readUrl_bare_v6 addr (controlAddr config started).port endsAuthority_nil
  rw [List.append_nil] at bare
  rw [String.toList_ofList, v6]
  exact bare

/-- **The emulator's description leads back to itself exactly when** the emulator's address is an
IPv4 address, whatever the control port is.  An IPv6 address is written into it without brackets,
which leaves no URL (`no_url_v6`). -/
theorem emulator_leads_back_iff (h : DevSetup.start config started = .ok profiles) :
    LeadsBack profiles (controlAddr config started).port ↔
      ∃ addr, config.emulatorIp = .v4 addr := by
  constructor
  · intro leads
    cases ip : config.emulatorIp with
    | v4 addr => exact ⟨addr, rfl⟩
    | v6 addr =>
        obtain ⟨url, read, -⟩ := leads.names
        rw [no_url_v6 addr ip h] at read
        cases read
  · rintro ⟨addr, v4⟩
    exact leadsBack_v4 addr v4 h

/-- What a start on a quiet machine finds. -/
def Started.quiet : Started :=
  { freePort := 40001
    tempDir := "/tmp/chat"
    clientApi := "http://127.0.0.1:40002"
    emulatorApi := "http://10.0.2.2:40003"
    serverApi := "http://127.0.0.1:40004"
    certPem := "-----BEGIN CERTIFICATE-----"
    certPath := "/tmp/chat/cert.pem"
    fingerprint := "00"
    authToken := "token"
    served := ("2-ff00:0:212,127.0.0.1", 8443) }

/-- With the defaults it leads back. -/
theorem emulator_leads_back_default : ∃ profiles,
    DevSetup.start {} .quiet = .ok profiles ∧ LeadsBack profiles 8099 := by
  have started : DevSetup.start {} .quiet = .ok ⟨DevSetup.network {} .quiet,
    DevSetup.emulatorNetwork {} .quiet, .v4 ⟨10, 0, 2, 2⟩⟩ := rfl
  have leads := (emulator_leads_back_iff started).mpr ⟨⟨10, 0, 2, 2⟩, rfl⟩
  exact ⟨_, started, leads⟩

/-- **At `fe80::1` it does not**: the URL is none, a header that names the address without a port
selects the other description, and one that names `fe80::1:2` selects the emulator's. -/
theorem bare_v6_leads_astray : ∃ (config : Config) (started : Started) (profiles : Profiles),
    config.emulatorIp = .v6 ⟨#v[0xfe80, 0, 0, 0, 0, 0, 0, 1]⟩ ∧
      DevSetup.start config started = .ok profiles ∧
      ¬LeadsBack profiles (controlAddr config started).port ∧
      profiles.emulator.controlUrl = "http://fe80::1:8099" ∧
      readUrl profiles.emulator.controlUrl.toList = none ∧
      profiles.forHost [(HOST, asciiBytes "[fe80::1]".toList)] = profiles.default ∧
      profiles.default ≠ profiles.emulator ∧
      readAuthority "[fe80::1:2]".toList
        = some ⟨.ip (.v6 ⟨#v[0xfe80, 0, 0, 0, 0, 0, 1, 2]⟩), none⟩ ∧
      profiles.forHost [(HOST, asciiBytes "[fe80::1:2]".toList)] = profiles.emulator := by
  have started : DevSetup.start { emulatorIp := .v6 ⟨#v[0xfe80, 0, 0, 0, 0, 0, 0, 1]⟩ } .quiet
      = .ok ⟨DevSetup.network { emulatorIp := .v6 ⟨#v[0xfe80, 0, 0, 0, 0, 0, 0, 1]⟩ } .quiet,
        DevSetup.emulatorNetwork { emulatorIp := .v6 ⟨#v[0xfe80, 0, 0, 0, 0, 0, 0, 1]⟩ } .quiet,
        .v6 ⟨#v[0xfe80, 0, 0, 0, 0, 0, 0, 1]⟩⟩ := rfl
  have noUrl := no_url_v6 _ rfl started
  have portless : Profiles.askedAt [(HOST, asciiBytes "[fe80::1]".toList)] = none := by
    decide +kernel
  have cut : Profiles.askedAt [(HOST, asciiBytes "[fe80::1:2]".toList)]
      = some (.v6 ⟨#v[0xfe80, 0, 0, 0, 0, 0, 0, 1]⟩) := by
    decide +kernel
  refine ⟨_, _, _, rfl, started, ?_, by decide +kernel, noUrl, ?_, ?_, by decide +kernel, ?_⟩
  · rintro ⟨⟨url, read, -⟩, -, -⟩
    rw [noUrl] at read
    cases read
  · unfold Profiles.forHost
    rw [portless]
  · intro same
    exact absurd (congrArg DevNetwork.clientIsdAs same) (by decide)
  · unfold Profiles.forHost
    rw [cut]
    exact if_pos rfl

end ScionChat.Dev
