import ScionChat.Server.Api

/-!
# The instant a token runs out

An issued token has its expiry twice.  The caller is told `expires_at` in milliseconds; the token
carries `exp`, the same instant cut down to a whole second, and `jsonwebtoken` compares that with a
clock it also reads in whole seconds, refusing only when `exp` is *less*.  So a token is still
accepted for what is left of the second its announced expiry falls in.

`expiry_iff` says that this is all there is to it: at every other instant the token is accepted
exactly when the announcement says so.  Up to the last step the arithmetic is exact for every
number of days; the cast of `expires_at` to a `u64` of milliseconds is so for every clock before
the year 584 million.

### design decisions

* **Days are what is configured.**  The lifetime is a `UInt32` of days, and the three
  multiplications behind it, the sum of two `Duration`s and the cast are each asked for by name in
  `ExactExpiry`.  That none of the first four overflows is proved; it is no hypothesis.
* **Both instants are free.**  The theorem quantifies over when the token is issued and over when
  it is shown, so that the second in which the two answers differ is found and not assumed.
* **The library is asked for one thing.**  `Crypto.Readable` says that two different claims are not
  encoded alike.  Without it a token could carry somebody else's expiry.

### What is load-bearing

`verify_of_mem`: what a token of the ledger verifies as is a matter of its own claims and the
clock, whatever else has been issued.
-/

namespace ScionChat

/-! ### The lifetime of a token -/

/-- `Config::token_validity` in the `u64` that the source computes it in, from the days. -/
def tokenValiditySecs (days : UInt32) : UInt64 :=
  days.toUInt64 * 24 * 60 * 60

/-- No number of days overflows, in any of the three multiplications. -/
theorem tokenValiditySecs_exact (days : UInt32) :
    (days.toUInt64 * 24).toNat = days.toNat * 24 ∧
      (days.toUInt64 * 24 * 60).toNat = days.toNat * 24 * 60 ∧
        (tokenValiditySecs days).toNat = days.toNat * 24 * 60 * 60 := by
  have bound : days.toNat < 2 ^ 32 := days.toNat_lt
  have hours : (days.toUInt64 * 24).toNat = days.toNat * 24 := by
    rw [UInt64.toNat_mul, UInt32.toNat_toUInt64]
    exact Nat.mod_eq_of_lt (show days.toNat * 24 < 2 ^ 64 by omega)
  have minutes : (days.toUInt64 * 24 * 60).toNat = days.toNat * 24 * 60 := by
    rw [UInt64.toNat_mul, hours]
    exact Nat.mod_eq_of_lt (show days.toNat * 24 * 60 < 2 ^ 64 by omega)
  refine ⟨hours, minutes, ?_⟩
  rw [tokenValiditySecs, UInt64.toNat_mul, minutes]
  exact Nat.mod_eq_of_lt (show days.toNat * 24 * 60 * 60 < 2 ^ 64 by omega)

/-- `Tokens::new`, with the lifetime of the configuration. -/
def Tokens.new (secret : Secret) (days : UInt32) : Tokens :=
  ⟨secret, (tokenValiditySecs days).toNat⟩

/-- These are the tokens that a server is started with. -/
theorem Tokens.new_config (secret : Secret) (config : Config) :
    Tokens.new secret config.tokenExpiryDays = ⟨secret, config.tokenValidity⟩ := by
  rw [Tokens.new, (tokenValiditySecs_exact config.tokenExpiryDays).2.2]
  rfl

/-- When a token issued at `now` under this number of days expires, without any bound. -/
def expiry (days : UInt32) (now : ℕ) : ℕ :=
  now + days.toNat * 86400000

theorem Tokens.expiresAt_new (secret : Secret) (days : UInt32) (now : ℕ) :
    (Tokens.new secret days).expiresAt now = expiry days now := by
  show now + (tokenValiditySecs days).toNat * 1000 = now + days.toNat * 86400000
  rw [(tokenValiditySecs_exact days).2.2]
  omega

/-! ### What there is to a token -/

/-- **A token spells out its claims**: under one secret, no two claims are encoded alike.
Different secrets may encode alike; a token of another server is not in question here. -/
def Crypto.Readable (crypto : Crypto) : Prop :=
  ∀ {secret claims claims' token}, crypto.encode secret claims = some token →
    crypto.encode secret claims' = some token → claims = claims'

/-- Every token of the ledger was signed. -/
def Signed (crypto : Crypto) (issued : List Issued) : Prop :=
  ∀ entry ∈ issued, crypto.encode entry.secret entry.claims = some entry.token

namespace Tokens

variable {crypto : Crypto} {tokens : Tokens} {username token : String} {now : ℕ}
  {announced : UnixMillis} {issued ledger : List Issued}

/-- What issuing a token leaves behind. -/
theorem issue_eq_ok
    (h : tokens.issue crypto username now issued = (.ok (token, announced), ledger)) :
    crypto.encode tokens.secret (tokens.claims username now) = some token ∧
      announced = ⟨tokens.expiresAt now % (u64Max + 1)⟩ ∧
        ledger = issued ++ [⟨tokens.secret, tokens.claims username now, token⟩] := by
  simp only [issue] at h
  split at h
  next => cases h
  next encoded made =>
    cases h
    exact ⟨made, rfl, rfl⟩

/-- **What a token of the ledger verifies as** depends on its own claims only.  Its secret has to
be the one in use, and the clock is read in whole seconds. -/
theorem verify_of_mem (readable : crypto.Readable) (signed : Signed crypto ledger)
    {entry : Issued} (mem : entry ∈ ledger) (own : entry.secret = tokens.secret) (at_ : ℕ) :
    tokens.verify entry.token at_ ledger =
      if entry.claims.exp < at_ / 1000 then .error (.token true) else .ok entry.claims.sub := by
  have same : ∀ found, (ledger.find? fun other =>
      other.secret = tokens.secret ∧ other.token = entry.token) = some found →
        found.claims = entry.claims := by
    intro found eq
    have fits := List.find?_some eq
    simp only [decide_eq_true_eq] at fits
    have spelled := signed found (List.mem_of_find?_eq_some eq)
    have spelled' := signed entry mem
    rw [fits.1, fits.2] at spelled
    rw [own] at spelled'
    exact readable spelled spelled'
  simp only [verify, decode]
  cases eq : ledger.find? fun other => other.secret = tokens.secret ∧ other.token = entry.token with
  | none =>
      have absent := List.find?_eq_none.mp eq entry mem
      exact absurd ⟨own, rfl⟩ (of_decide_eq_false (Bool.not_eq_true _ ▸ absent))
  | some found =>
      show (if found.claims.exp < at_ / 1000 then _ else _ : Except AuthError Claims).map _ = _
      rw [same found eq]
      split <;> rfl

end Tokens

theorem signed_nil (crypto : Crypto) : Signed crypto [] :=
  fun _ mem => absurd mem List.not_mem_nil

/-- Issuing a token keeps the ledger signed. -/
theorem Signed.issue {crypto : Crypto} {tokens : Tokens} {username token : String} {now : ℕ}
    {announced : UnixMillis} {issued ledger : List Issued} (signed : Signed crypto issued)
    (h : tokens.issue crypto username now issued = (.ok (token, announced), ledger)) :
    Signed crypto ledger := by
  obtain ⟨made, -, rfl⟩ := Tokens.issue_eq_ok h
  intro entry mem
  rcases List.mem_append.mp mem with old | new
  · exact signed entry old
  · cases List.mem_singleton.mp new
    exact made

/-! ### Accepted as announced -/

/-- Nothing overflows on the way to a token: the three multiplications behind the lifetime, the
sum of two `Duration`s, and the cast of the milliseconds to a `u64`. -/
structure ExactExpiry (days : UInt32) (now : ℕ) : Prop where
  hours : (days.toUInt64 * 24).toNat = days.toNat * 24
  minutes : (days.toUInt64 * 24 * 60).toNat = days.toNat * 24 * 60
  seconds : (tokenValiditySecs days).toNat = days.toNat * 24 * 60 * 60
  sum : now / 1000 + (tokenValiditySecs days).toNat ≤ u64Max
  cast : expiry days now % (u64Max + 1) = expiry days now

/-- **The token is accepted exactly before the instant that was announced**, and refused as
expired from then on. -/
structure AcceptedAsAnnounced (tokens : Tokens) (username token : String) (announced : UnixMillis)
    (ledger : List Issued) (now : ℕ) : Prop where
  accepted : tokens.verify token now ledger = .ok username ↔ now < announced.get
  expired : ∀ e, tokens.verify token now ledger = .error e → e.isExpiredToken = true

/-- The instant is in what is left, from the announced expiry on, of the second it falls in. -/
def InLastSecond (expiresAt now : ℕ) : Prop :=
  expiresAt ≤ now ∧ now / 1000 ≤ expiresAt / 1000

instance (expiresAt now : ℕ) : Decidable (InLastSecond expiresAt now) :=
  inferInstanceAs (Decidable (_ ∧ _))

/-- That is less than a second from the announced instant, and the instant itself at least. -/
theorem InLastSecond.lt {expiresAt now : ℕ} (h : InLastSecond expiresAt now) :
    now < expiresAt + 1000 := by
  obtain ⟨-, second⟩ := h
  omega

section Expiry

variable {crypto : Crypto} {secret : Secret} {username token : String} {issuedAt now : ℕ}
  {announced : UnixMillis} {issued ledger later : List Issued}

variable (now) in
/-- What verifying an issued token comes to, at any time and whatever has been issued since. -/
theorem verify_issued (readable : crypto.Readable) (days : UInt32)
    (signed : Signed crypto (ledger ++ later))
    (h : (Tokens.new secret days).issue crypto username issuedAt issued
      = (.ok (token, announced), ledger)) :
    (Tokens.new secret days).verify token now (ledger ++ later) =
      if expiry days issuedAt / 1000 < now / 1000 then .error (.token true) else .ok username := by
  obtain ⟨-, -, rfl⟩ := Tokens.issue_eq_ok h
  have mem : (⟨secret, (Tokens.new secret days).claims username issuedAt, token⟩ : Issued) ∈
      issued ++ [⟨secret, (Tokens.new secret days).claims username issuedAt, token⟩] ++ later :=
    List.mem_append_left _ (List.mem_append_right _ (List.mem_singleton_self _))
  rw [← Tokens.expiresAt_new secret]
  exact Tokens.verify_of_mem readable signed mem rfl now

/-- **When a token is accepted as announced, and no number on the way overflows**: whenever the
announced instant fits a `u64`, and it is not now that this instant's second runs out. -/
theorem expiry_iff (readable : crypto.Readable) (days : UInt32)
    (signed : Signed crypto (ledger ++ later))
    (h : (Tokens.new secret days).issue crypto username issuedAt issued
      = (.ok (token, announced), ledger)) :
    (ExactExpiry days issuedAt ∧ AcceptedAsAnnounced (Tokens.new secret days) username token
        announced (ledger ++ later) now) ↔
      issuedAt + days.toNat * 86400000 ≤ u64Max ∧
        ¬ InLastSecond (issuedAt + days.toNat * 86400000) now := by
  show _ ↔ expiry days issuedAt ≤ u64Max ∧ ¬ InLastSecond (expiry days issuedAt) now
  have verifies := verify_issued now readable days signed h
  obtain ⟨-, rfl, -⟩ := Tokens.issue_eq_ok h
  rw [Tokens.expiresAt_new]
  have fits_iff : expiry days issuedAt % (u64Max + 1) = expiry days issuedAt ↔
      expiry days issuedAt ≤ u64Max :=
    Nat.mod_eq_iff_lt (by decide) |>.trans Nat.lt_succ_iff
  constructor
  · rintro ⟨exact_, accepted, -⟩
    refine ⟨fits_iff.mp exact_.cast, fun last => ?_⟩
    have live : ¬ expiry days issuedAt / 1000 < now / 1000 := Nat.not_lt.mpr last.2
    rw [if_neg live] at verifies
    have before := accepted.mp verifies
    rw [exact_.cast] at before
    exact absurd before (Nat.not_lt.mpr last.1)
  · rintro ⟨fits, other⟩
    have cast := fits_iff.mpr fits
    obtain ⟨hours, minutes, seconds⟩ := tokenValiditySecs_exact days
    refine ⟨⟨hours, minutes, seconds, ?_, cast⟩, ?_, ?_⟩
    · rw [seconds]
      unfold expiry at fits
      omega
    · rw [verifies, cast]
      by_cases ranOut : expiry days issuedAt / 1000 < now / 1000
      · rw [if_pos ranOut]
        refine ⟨nofun, fun before => ?_⟩
        change now < expiry days issuedAt at before
        omega
      · rw [if_neg ranOut]
        refine ⟨fun _ => ?_, fun _ => rfl⟩
        by_contra passed
        exact other ⟨Nat.not_lt.mp passed, Nat.not_lt.mp ranOut⟩
    · intro e failed
      rw [verifies] at failed
      split at failed
      · cases failed
        rfl
      · cases failed

end Expiry

/-! ### Under a readable encoding -/

/-- A stand-in for the two libraries whose tokens spell out their claims: the expiry in unary,
and the name behind a dot. -/
def Crypto.spelled : Crypto :=
  { Crypto.plain with
    encode := fun _ claims =>
      some (String.ofList (List.replicate claims.exp '1' ++ '.' :: claims.sub.toList)) }

theorem unary_inj {m n : ℕ} {s t : List Char}
    (h : List.replicate m '1' ++ '.' :: s = List.replicate n '1' ++ '.' :: t) : m = n ∧ s = t := by
  induction m generalizing n with
  | zero =>
      cases n with
      | zero => exact ⟨rfl, (List.cons.inj h).2⟩
      | succ n => exact absurd (List.cons.inj h).1 (by decide)
  | succ m ih =>
      cases n with
      | zero => exact absurd (List.cons.inj h).1 (by decide)
      | succ n =>
          obtain ⟨exps, names⟩ := ih (List.cons.inj h).2
          exact ⟨congrArg Nat.succ exps, names⟩

theorem Crypto.spelled_readable : Crypto.spelled.Readable := by
  intro secret claims claims' token spelled spelled'
  have same := String.ofList_injective
    ((Option.some.inj spelled).trans (Option.some.inj spelled').symm)
  obtain ⟨exps, names⟩ := unary_inj same
  rcases claims with ⟨sub, exp⟩
  rcases claims' with ⟨sub', exp'⟩
  exact congrArg₂ Claims.mk (String.toList_injective names) exps

/-- A token for one day, and a request in its last second but one. -/
theorem expiry_iff_day : ∃ token announced ledger,
    (Tokens.new [] 1).issue .spelled "alice" 1500 [] = (.ok (token, announced), ledger) ∧
      ((ExactExpiry 1 1500 ∧ AcceptedAsAnnounced (Tokens.new [] 1) "alice" token announced
          (ledger ++ []) 86400999) ↔
        1500 + (1 : UInt32).toNat * 86400000 ≤ u64Max ∧
          ¬ InLastSecond (1500 + (1 : UInt32).toNat * 86400000) 86400999) := by
  refine ⟨_, _, _, rfl, expiry_iff Crypto.spelled_readable 1 ?_ rfl⟩
  rw [List.append_nil]
  exact (signed_nil Crypto.spelled).issue rfl

/-- A token for a week, announced to expire half a second past a whole second: at that very
instant it is accepted. -/
theorem accepted_once_expired : ∃ token announced ledger,
    (Tokens.new [] 7).issue .plain "alice" 1790000000500 [] = (.ok (token, announced), ledger) ∧
      announced = ⟨1790604800500⟩ ∧
        ¬ AcceptedAsAnnounced (Tokens.new [] 7) "alice" token announced ledger 1790604800500 := by
  refine ⟨_, _, _, rfl, rfl, fun announced => ?_⟩
  exact absurd (announced.accepted.mp rfl) (Nat.lt_irrefl _)

end ScionChat
