import ScionChat.Server.Store.Sqlite

/-!
# Password hashing and bearer tokens

`auth.rs`, over two libraries that are taken as parameters: Argon2 and the signing of a JWT.  Both
are used as ideal objects.  A password verifies against a hash if and only if it is the password
that was hashed (`Crypto.Ideal`).  A token opens if and only if it is one that was issued under the
same secret: the tokens there are form a ledger, `Issued`, which issuing appends to and verifying
looks up, and nothing a caller makes up is in it.

### design decisions

* **What a signature means, and no more.**  A MAC is not computed.  Its one use in this program is
  that nobody without the secret makes a token, and that is what the ledger says: `verify` finds
  the claims of a token in it, under the secret at hand, or answers that the token is no good.
* **Expiry is arithmetic.**  The two clocks of a token, the milliseconds that the caller is told
  and the seconds that are signed, are computed as the source computes them, casts included.
* **The secret is a file.**  `loadOrCreateSecret` is a program of its own over the file, one step
  for each call of the file system, because a start that is stopped between two of them leaves
  something behind.

### What is load-bearing

`verify_eq_ok`: a token that verifies was issued, under this secret, to that name.  Everything
about who a request acts as starts from it.
-/

namespace ScionChat

open Interleaving

/-- The HS256 secret. -/
abbrev Secret := List UInt8

/-- What a token carries: who it is, and when it stops being accepted, in seconds. -/
structure Claims where
  sub : String
  exp : ℕ
  deriving DecidableEq, Repr

/-- A token that has been issued, and the secret it was signed under.  The ledger is a list of
these, and is part of the model alone: the server keeps no token. -/
structure Issued where
  secret : Secret
  claims : Claims
  token : String
  deriving DecidableEq, Repr

/-- The two libraries: hashing a password with a salt, verifying one against a hash string
(`none` when the string does not parse), and encoding claims under a secret.  `absent` is
the hash of `ABSENT_ACCOUNT`. -/
structure Crypto where
  hash (password : String) (salt : ℕ) : Option String
  verify (password phc : String) : Option Bool
  encode (secret : Secret) (claims : Claims) : Option String
  absent : String

/-- **Ideal hashing**: a hash parses, and it verifies the password it was made from and no other.
It is what Argon2 is used for, and says nothing of the hash string itself. -/
structure Crypto.Ideal (crypto : Crypto) : Prop where
  verifies : ∀ {password salt phc}, crypto.hash password salt = some phc →
    ∀ other, crypto.verify other phc = some (decide (other = password))

/-- A stand-in for the two libraries under which a run can be computed: a hash is the password
itself, and a token spells out its claims. -/
def Crypto.plain : Crypto where
  hash password _ := some password
  verify password phc := some (decide (phc = password))
  encode _ claims := some s!"{claims.sub}.{claims.exp}"
  absent := ""

theorem Crypto.plain_ideal : Crypto.plain.Ideal :=
  ⟨fun made other => by
    cases made
    simp [plain, eq_comm]⟩

/-! ### Errors -/

/-- Anything the auth layer can fail with. -/
inductive AuthError
  | password
  | token (expiredSignature : Bool)
  | secret (path : String)
  deriving DecidableEq, Repr

/-- Whether a token this server signed has run out.  Such a token was signed by this server, since
its signature is checked first. -/
def AuthError.isExpiredToken : AuthError → Bool
  | token expiredSignature => expiredSignature
  | _ => false

/-! ### Passwords -/

section Passwords

variable (crypto : Crypto)

/-- Hashes a password with Argon2id and a fresh random salt.  The salt comes with the step, so two
hashes of one password differ. -/
def hashPassword (password : String) (salt : ℕ) : Except AuthError String :=
  match crypto.hash password salt with
  | some phc => .ok phc
  | none => .error .password

/-- Checks a password against a stored hash.  `stored` is `none` when the account does not
exist; the check still runs, against a fixed hash. -/
def verifyPassword (password : String) (stored : Option String) : Bool :=
  let (hash, present) := match stored with
    | some hash => (hash, true)
    | none => (crypto.absent, false)
  match crypto.verify password hash with
  | none => false
  | some verified => verified && present

variable {crypto}

/-- Only a stored hash verifies a password. -/
theorem verifyPassword_eq_true {password : String} {stored : Option String}
    (h : verifyPassword crypto password stored = true) :
    ∃ phc, stored = some phc ∧ crypto.verify password phc = some true := by
  cases stored with
  | none =>
      simp only [verifyPassword] at h
      split at h <;> simp at h
  | some phc =>
      refine ⟨phc, rfl, ?_⟩
      simp only [verifyPassword] at h
      split at h
      next => cases h
      next verified result => rw [result, ← h, Bool.and_true]

/-- With ideal hashing, a hash verifies the password it was made from, and no other. -/
theorem Crypto.Ideal.password_eq (ideal : crypto.Ideal) {password other phc : String} {salt : ℕ}
    (made : crypto.hash password salt = some phc)
    (verified : verifyPassword crypto other (some phc) = true) : other = password := by
  obtain ⟨phc', same, opens⟩ := verifyPassword_eq_true verified
  cases same
  rw [ideal.verifies made other] at opens
  exact of_decide_eq_true (Option.some.inj opens)

end Passwords

/-! ### The signing secret -/

/-- A program over the place where the secret's file is, if there is one. -/
abbrev SecretQuery (α : Type) := Fallible Moment AuthError (Option Secret) α

/-- `std::fs::read`: the file's bytes, or that there is no file. -/
def readSecret : SecretQuery (Option Secret) :=
  tryAtomically fun m file => (if m.fails then .error (.secret "jwt.secret") else .ok file, file)

/-- `OpenOptions::create_new`: an empty file, where there was none.  A file that is there already
is left as it is, and the call fails. -/
def createNew : SecretQuery Unit :=
  tryAtomically fun m file =>
    if m.fails ∨ file.isSome then (.error (.secret "jwt.secret"), file) else (.ok (), some [])

/-- `write_all`: the bytes, or only the first of them. -/
def writeAll (bytes : Secret) : SecretQuery Unit :=
  tryAtomically fun m file =>
    if m.fails then
      (.error (.secret "jwt.secret"), file.map fun content => content ++ bytes.take m.written)
    else (.ok (), file.map fun content => content ++ bytes)

/-- `write_private`.  Creating the file and filling it are two calls of the system, and anything
may happen between them. -/
def writePrivate (bytes : Secret) : SecretQuery Unit := do
  createNew
  writeAll bytes

/-- `load_or_create_secret`: the secret in the file, or a fresh one, written there first.  What the
file holds is taken as it is, however much it is. -/
def loadOrCreateSecret : SecretQuery Secret := do
  match ← readSecret with
  | some secret => return secret
  | none =>
      let secret ← tryAtomically fun m file => (.ok m.random.toList, file)
      writePrivate secret
      return secret

/-! ### Tokens -/

/-- Signs and validates the bearer tokens issued at login.  The secret is used for both, so a token
is good for as long as the secret is kept. -/
structure Tokens where
  secret : Secret
  /-- How long an issued token stays valid, in seconds. -/
  validity : ℕ
  deriving DecidableEq

namespace Tokens

variable (tokens : Tokens)

/-- When a token issued now expires, in milliseconds. -/
def expiresAt (now : ℕ) : ℕ :=
  now + tokens.validity * 1000

/-- The claims of a token issued now.  The second is the announced instant, cut down. -/
def claims (username : String) (now : ℕ) : Claims :=
  ⟨username, tokens.expiresAt now / 1000⟩

/-- `Tokens::issue`: a token for `username`, and when it expires.  The instant that the caller is
told is a number of milliseconds, cast to 64 bits. -/
def issue (crypto : Crypto) (username : String) (now : ℕ) (issued : List Issued) :
    Except AuthError (String × UnixMillis) × List Issued :=
  let claims := tokens.claims username now
  match crypto.encode tokens.secret claims with
  | none => (.error (.token false), issued)
  | some token =>
      (.ok (token, ⟨tokens.expiresAt now % (u64Max + 1)⟩),
        issued ++ [⟨tokens.secret, claims, token⟩])

/-- `jsonwebtoken::decode` without leeway: the claims of a token that was issued under this
secret, unless their expiry lies before the current second. -/
def decode (token : String) (now : ℕ) (issued : List Issued) : Except AuthError Claims :=
  match issued.find? fun entry => entry.secret = tokens.secret ∧ entry.token = token with
  | none => .error (.token false)
  | some entry => if entry.claims.exp < now / 1000 then .error (.token true) else .ok entry.claims

/-- `Tokens::verify`: the username a token was issued to.  No skew of the clock is allowed for,
since the server that has issued it is the one that looks. -/
def verify (token : String) (now : ℕ) (issued : List Issued) : Except AuthError String :=
  (tokens.decode token now issued).map Claims.sub

variable {tokens}

/-- **A token that verifies was issued** under this secret, to that name, and has not expired.  The
clock is compared in whole seconds, and the name is the one in its claims. -/
theorem verify_eq_ok {token username : String} {now : ℕ} {issued : List Issued}
    (h : tokens.verify token now issued = .ok username) :
    ∃ entry ∈ issued, entry.secret = tokens.secret ∧ entry.token = token ∧
      entry.claims.sub = username ∧ now / 1000 ≤ entry.claims.exp := by
  simp only [verify, decode] at h
  split at h
  next => cases h
  next entry found =>
    have matches_ := List.find?_some found
    simp only [decide_eq_true_eq] at matches_
    split at h
    next => cases h
    next live =>
      exact ⟨entry, List.mem_of_find?_eq_some found, matches_.1, matches_.2,
        Except.ok.inj h, not_lt.mp live⟩

end Tokens

end ScionChat
