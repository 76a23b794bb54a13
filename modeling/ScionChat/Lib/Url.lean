import ScionChat.Lib.IpAddr

/-!
# URLs, and the hosts they name

As much of a URL as says where a request goes: a host, a port, and the path behind them.  A host is
an address or a name, and an IPv6 address stands in brackets, as its colons would read as the one
before a port.  The `Host` header of a request names the host and the port of the URL in the same
way, and leaves the port out when the scheme implies it.

* `readUrl_display_v4` — a URL that is put together of an IPv4 address and a port is read back;
* `readUrl_bare_v6` — one of an IPv6 address without its brackets is no URL.

### design decisions

* **Reading is on characters.**  A URL is taken apart where its first delimiter stands, as a parser
  does, and not by splitting at every one.  An address with colons in it is where the two differ.
* **As much as is needed.**  There is no user information, no query and no scheme but `http`.

### What is load-bearing

`readAuthority_v4` and `readAuthority_bare_v6`: an IPv4 address ends where the port's colon stands,
and a bare IPv6 address has a colon in front of that.
-/

/-- Where a URL leads: an address, or a name. -/
inductive UriHost
  | ip (addr : IpAddr)
  | name (text : List Char)
  deriving DecidableEq, Repr

/-- A host, and the port if there is one. -/
structure Authority where
  host : UriHost
  port : Option UInt16
  deriving DecidableEq, Repr

/-- A URL of the scheme `http`, without user information. -/
structure Url where
  host : UriHost
  port : UInt16
  path : List Char
  deriving DecidableEq, Repr

/-! ### Reading -/

/-- The characters of a name that stand for themselves: `unreserved` and `sub-delims`. -/
def isNameChar (c : Char) : Bool :=
  c.isAlphanum || c ∈ "-._~!$&'()*+,;=".toList

/-- A registered name: others are percent-encoded. -/
def isRegName : List Char → Bool
  | [] => true
  | '%' :: high :: low :: text => isDigitOf 16 high && isDigitOf 16 low && isRegName text
  | c :: text => isNameChar c && isRegName text

/-- The host that a text without brackets is: an IPv4 address before a name. -/
def readBareHost (text : List Char) : Option UriHost :=
  match IpAddr.parse text with
  | some (.v4 addr) => some (.ip (.v4 addr))
  | _ => if text ≠ [] ∧ isRegName text = true then some (.name text) else none

/-- What comes after a host: nothing, or a colon and a port, which may be left empty. -/
def readPort : List Char → Option (Option UInt16)
  | [] => some none
  | ':' :: digits =>
      if digits = [] then some none
      else if digits.all Char.isDigit = true ∧ Nat.ofDigitChars 10 digits 0 < 65536 then
        some (some (.ofNat (Nat.ofDigitChars 10 digits 0)))
      else none
  | _ => none

/-- A host and a port. -/
def readAuthority : List Char → Option Authority
  | '[' :: text =>
      match IpAddr.parse (text.takeWhile (· ≠ ']')), text.dropWhile (· ≠ ']') with
      | some (.v6 addr), ']' :: rest => (readPort rest).map (⟨.ip (.v6 addr), ·⟩)
      | _, _ => none
  | text => do
      let host ← readBareHost (text.takeWhile (· ≠ ':'))
      let port ← readPort (text.dropWhile (· ≠ ':'))
      return ⟨host, port⟩

/-- The authority of a URL ends where its path, its query or its fragment begins. -/
def endsAuthority (c : Char) : Bool := c ∈ ['/', '?', '#']

/-- A URL.  The port of the scheme is 80. -/
def readUrl (text : List Char) : Option Url :=
  if "http://".toList <+: text then
    let text := text.drop 7
    (readAuthority (text.takeWhile fun c => !endsAuthority c)).map fun authority =>
      ⟨authority.host, authority.port.getD 80, text.dropWhile fun c => !endsAuthority c⟩
  else none

/-! ### Writing -/

/-- A host as it is written in a URL: brackets around an IPv6 address. -/
def UriHost.display : UriHost → List Char
  | .ip (.v4 addr) => addr.display
  | .ip (.v6 addr) => '[' :: addr.display ++ [']']
  | .name text => text

/-- A host, and the port behind a colon. -/
def Authority.display (authority : Authority) : List Char :=
  match authority.port with
  | some port => authority.host.display ++ ':' :: decimal port.toNat
  | none => authority.host.display

/-- The `Host` header of a request for a URL: the port is left out when the scheme implies it. -/
def Url.hostHeader (url : Url) : List Char :=
  Authority.display ⟨url.host, if url.port = 80 then none else some url.port⟩

/-! ### Ports -/

theorem readPort_decimal (port : UInt16) :
    readPort (':' :: decimal port.toNat) = some (some port) := by
  have digits : (decimal port.toNat).all Char.isDigit = true :=
    List.all_eq_true.mpr fun c mem => Nat.isDigit_of_mem_toDigits (by decide) (by decide) mem
  have value : Nat.ofDigitChars 10 (decimal port.toNat) 0 = port.toNat :=
    Nat.ofDigitChars_ten_toDigits
  have some_ : decimal port.toNat ≠ [] := Nat.toDigits_ne_nil
  show (if decimal port.toNat = [] then some none else _) = _
  rw [if_neg some_, value, if_pos ⟨digits, port.toNat_lt⟩, UInt16.ofNat_toNat]

/-- A port has no colon in it. -/
theorem readPort_colon {text : List Char} (colon : ':' ∈ text) :
    readPort (':' :: text) = none := by
  show (if text = [] then some none else _) = none
  rw [if_neg (List.ne_nil_of_mem colon), if_neg]
  rintro ⟨digits, -⟩
  have digit := List.all_eq_true.mp digits ':' colon
  exact absurd digit (by decide)

/-- What a port is read of: nothing, or a colon and digits. -/
theorem eq_of_readPort {text : List Char} {port : Option UInt16}
    (h : readPort text = some port) :
    text = [] ∨ ∃ digits, text = ':' :: digits ∧ ∀ c ∈ digits, c.isDigit = true := by
  unfold readPort at h
  split at h
  · exact Or.inl rfl
  · next digits =>
      refine Or.inr ⟨digits, rfl, ?_⟩
      split at h
      · next empty =>
          subst empty
          exact List.forall_mem_nil _
      · split at h
        · next number => exact fun c mem => List.all_eq_true.mp number.1 c mem
        · cases h
  · cases h

/-! ### Hosts -/

/-- A text up to the first of some character, and from there on. -/
theorem takeWhile_append_cons {α : Type*} {p : α → Bool} {text : List α} {c : α}
    (before : ∀ c ∈ text, p c = true) (more : List α) (other : p c = false) :
    (text ++ c :: more).takeWhile p = text ∧ (text ++ c :: more).dropWhile p = c :: more := by
  refine span_append before fun c' head => ?_
  cases head
  exact other

/-- An authority that begins with no bracket. -/
theorem readAuthority_bare {text : List Char} (bare : text.head? ≠ some '[') :
    readAuthority text = (do
      let host ← readBareHost (text.takeWhile (· ≠ ':'))
      let port ← readPort (text.dropWhile (· ≠ ':'))
      return ⟨host, port⟩) := by
  unfold readAuthority
  split
  · exact absurd rfl bare
  · rfl

/-- No bracket and nothing that ends an authority is part of an address. -/
theorem ne_of_isAddrChar {c d : Char} (addr : IsAddrChar c) (other : ¬IsAddrChar d) : c ≠ d := by
  rintro rfl
  exact other addr

/-- A text that an address is written at the front of begins with no bracket. -/
theorem head_display_append (addr : IpAddr) (more : List Char) :
    (addr.display ++ ':' :: more).head? ≠ some '[' := by
  intro head
  cases written : addr.display with
  | nil =>
      rw [written] at head
      exact absurd (Option.some.inj head) (by decide)
  | cons c text =>
      rw [written] at head
      have mem : c ∈ addr.display := written ▸ List.mem_cons_self
      exact ne_of_isAddrChar (addr.display_chars c mem) (by decide) (Option.some.inj head)

/-- An IPv4 address is the host it is written as. -/
theorem readBareHost_v4 (addr : Ipv4Addr) :
    readBareHost addr.display = some (.ip (.v4 addr)) := by
  unfold readBareHost
  rw [IpAddr.parse_display_v4 addr]

/-- It has no colon in it. -/
theorem colon_not_mem_v4 (addr : Ipv4Addr) : ':' ∉ addr.display := fun mem =>
  absurd (IpAddr.parse_v4_chars (IpAddr.parse_display_v4 addr) ':' mem) (by decide)

/-- **An IPv4 address and a port** are read back. -/
theorem readAuthority_v4 (addr : Ipv4Addr) (port : UInt16) :
    readAuthority (addr.display ++ ':' :: decimal port.toNat)
      = some ⟨.ip (.v4 addr), some port⟩ := by
  have before : ∀ c ∈ addr.display, decide (c ≠ ':') = true := fun c mem =>
    decide_eq_true fun same => colon_not_mem_v4 addr (same ▸ mem)
  obtain ⟨name, rest⟩ := takeWhile_append_cons before (decimal port.toNat)
    (by decide : decide (':' ≠ ':') = false)
  have bare : (addr.display ++ ':' :: decimal port.toNat).head? ≠ some '[' :=
    head_display_append (.v4 addr) (decimal port.toNat)
  rw [readAuthority_bare bare, name, rest, readBareHost_v4, readPort_decimal]
  rfl

/-- **An IPv6 address without its brackets** reads as no host and port. -/
theorem readAuthority_bare_v6 (addr : Ipv6Addr) (more : List Char) :
    readAuthority (addr.display ++ ':' :: more) = none := by
  obtain ⟨before, after, written, first⟩ :=
    List.eq_append_cons_of_mem addr.colon_mem_display
  have chars : ∀ c ∈ before, decide (c ≠ ':') = true := by
    intro c mem
    exact decide_eq_true fun same => first (same ▸ mem)
  obtain ⟨-, rest⟩ := takeWhile_append_cons chars (after ++ ':' :: more)
    (by decide : decide (':' ≠ ':') = false)
  have bare : (addr.display ++ ':' :: more).head? ≠ some '[' :=
    head_display_append (.v6 addr) more
  rw [readAuthority_bare bare, written, List.append_assoc, List.cons_append, rest,
    readPort_colon (List.mem_append_right _ List.mem_cons_self)]
  cases readBareHost ((before ++ ':' :: (after ++ ':' :: more)).takeWhile (· ≠ ':')) with
  | none => rfl
  | some host => rfl

/-! ### URLs -/

/-- A URL is read as its authority is. -/
theorem readUrl_append {authority path : List Char}
    (inside : ∀ c ∈ authority, endsAuthority c = false)
    (ends : ∀ c ∈ path.head?, endsAuthority c = true) :
    readUrl ("http://".toList ++ (authority ++ path)) = (readAuthority authority).map
      fun found => ⟨found.host, found.port.getD 80, path⟩ := by
  have before : ∀ c ∈ authority, (!endsAuthority c) = true := fun c mem => by
    rw [inside c mem]
    rfl
  have behind : ∀ c ∈ path.head?, (!endsAuthority c) = false := fun c head => by
    rw [ends c head]
    rfl
  obtain ⟨taken, left⟩ := span_append before behind
  have rest : ("http://".toList ++ (authority ++ path)).drop 7 = authority ++ path := rfl
  unfold readUrl
  rw [if_pos (List.prefix_append ..)]
  dsimp only
  rw [rest, taken, left]

/-- A URL may end with its authority. -/
theorem endsAuthority_nil : ∀ c ∈ ([] : List Char).head?, endsAuthority c = true :=
  fun _ none_ => by cases none_

/-- An address and a port have nothing in them that ends an authority. -/
theorem inside_authority (addr : IpAddr) (port : UInt16) :
    ∀ c ∈ addr.display ++ ':' :: decimal port.toNat, endsAuthority c = false := by
  have outside : ∀ c, IsAddrChar c → endsAuthority c = false := by
    intro c char
    refine decide_eq_false fun mem => ?_
    simp only [List.mem_cons, List.not_mem_nil, or_false] at mem
    rcases mem with rfl | rfl | rfl
    · exact absurd char (by decide)
    · exact absurd char (by decide)
    · exact absurd char (by decide)
  intro c mem
  rcases List.mem_append.mp mem with mem | mem
  · exact outside c (addr.display_chars c mem)
  · rcases List.mem_cons.mp mem with rfl | mem
    · rfl
    · exact outside c (Or.inl (isDigitOf_sixteen
        (Nat.isDigit_of_mem_toDigits (by decide) (by decide) mem)))

/-- **A URL of an IPv4 address and a port** is read back. -/
theorem readUrl_display_v4 (addr : Ipv4Addr) (port : UInt16) {path : List Char}
    (ends : ∀ c ∈ path.head?, endsAuthority c = true) :
    readUrl ("http://".toList ++ ((addr.display ++ ':' :: decimal port.toNat) ++ path))
      = some ⟨.ip (.v4 addr), port, path⟩ := by
  have inside : ∀ c ∈ addr.display ++ ':' :: decimal port.toNat, endsAuthority c = false :=
    inside_authority (.v4 addr) port
  rw [readUrl_append inside ends, readAuthority_v4]
  rfl

/-- **One of an IPv6 address without its brackets** is no URL. -/
theorem readUrl_bare_v6 (addr : Ipv6Addr) (port : UInt16) {path : List Char}
    (ends : ∀ c ∈ path.head?, endsAuthority c = true) :
    readUrl ("http://".toList ++ ((addr.display ++ ':' :: decimal port.toNat) ++ path)) = none := by
  have inside : ∀ c ∈ addr.display ++ ':' :: decimal port.toNat, endsAuthority c = false :=
    inside_authority (.v6 addr) port
  rw [readUrl_append inside ends, readAuthority_bare_v6]
  rfl
