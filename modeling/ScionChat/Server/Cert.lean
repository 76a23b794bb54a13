import ScionChat.Lib.Interrupted

/-!
# The server's certificate, over many starts

`cert.rs`: the certificate and its key are two files of the data directory, written one after the
other.  A start that finds both of them serves with what they hold; one that finds a half missing
writes both anew.  A start may be stopped in between, or a write may fail with a part of the bytes
written; a start that is killed within a write leaves what one leaves whose write fails there.

* `ServerCert.load_within` is what one start can do to the directory, wherever it leaves off;
* `belongs_together` says which runs of starts leave a certificate and a key that belong together;
* `mismatch_served` is what comes of one that does not.

### design decisions

* **Apart is a fact no start can see.**  `CertRun` keeps beside the directory whether an
  interrupted start has left halves in it that are not one pair.  The source looks only at whether
  the two files are there, which is why it can take such halves for a pair (`TakesBoth`).
* **What is forbidden is taking them.**  `Harmless` does not forbid a start to be interrupted, nor
  a file to be removed.  A later start that finds only one half, or halves of which the certificate
  cannot be parsed, does no harm: it writes both anew, or serves nothing.
* **Libraries are parameters.**  Key generation, signing, PEM and SHA-256 are fields of
  `CertLibraries`, and nothing is asked of them.

### What is load-bearing

`Inv`: where both files are there, and are not apart, they are the two halves of one call of
`generate`.  Its step lemma is `ServerCert.load_within`, read once for each of the ways to leave
off.
-/

namespace ScionChat

open Interleaving TransitionSystem

/-! ### The directory -/

/-- The paths of `load_or_create`. -/
inductive CertPath
  | dataDir
  | cert
  | key
  deriving DecidableEq, Repr

/-- The two files of the data directory, each with what it holds, if it is there. -/
structure CertDir where
  cert : Option (List UInt8)
  key : Option (List UInt8)
  deriving DecidableEq, Repr

namespace CertDir

/-- The directory with another file at a path. -/
def set (dir : CertDir) (path : CertPath) (file : Option (List UInt8)) : CertDir :=
  match path with
  | .cert => { dir with cert := file }
  | .key => { dir with key := file }
  | .dataDir => dir

/-- What is in the file at a path. -/
def get (dir : CertDir) : CertPath → Option (List UInt8)
  | .cert => dir.cert
  | .key => dir.key
  | .dataDir => none

@[simp] theorem set_set (dir : CertDir) (path : CertPath) (a b : Option (List UInt8)) :
    (dir.set path a).set path b = dir.set path b := by
  cases path <;> rfl

end CertDir

/-- Anything that stops the certificate from being ready. -/
inductive CertError
  | io (action : String) (path : CertPath)
  | generate
  | parse (path : CertPath)
  deriving DecidableEq, Repr

/-- A certificate ready to serve with, and what to tell clients to pin.  The two paths are where it
serves from, so what it serves with is what they hold when it does. -/
structure ServerCert where
  certPath : CertPath
  keyPath : CertPath
  fingerprint : String
  deriving DecidableEq, Repr

/-- The libraries: signing a certificate for some names with a key, which takes some randomness
and may fail, the PEM of the two, what a PEM block holds, and SHA-256. -/
structure CertLibraries (Key Cert : Type) where
  selfSigned (names : List String) (key : Key) (entropy : ℕ) : Option Cert
  certPem : Cert → List UInt8
  keyPem : Key → List UInt8
  parse (text : List UInt8) : Option (List UInt8)
  sha256 (der : List UInt8) : List UInt8

/-- What the outside contributes to one step: whether the file system fails, how much a write
that fails has written, the key that is generated, if one is, and the randomness of a
signature. -/
structure CertMoment (Key : Type) where
  fails : Bool := false
  written : ℕ := 0
  key : Option Key := none
  entropy : ℕ := 0

/-- The name the certificate is issued for. -/
def SERVER_NAME : String := "localhost"

/-! ### Loading it -/

section

variable {Key Cert : Type} (libraries : CertLibraries Key Cert)

/-- A program over the directory. -/
abbrev CertQuery (Key α : Type) := Fallible (CertMoment Key) CertError CertDir α

/-- `!cert_path.is_file() || !key_path.is_file()`.  A file that cannot be looked at counts as
missing. -/
def halfMissing : CertQuery Key Bool :=
  tryAtomically fun m dir => (.ok (m.fails || dir.cert.isNone || dir.key.isNone), dir)

/-- `fs::create_dir_all`. -/
def createDirAll : CertQuery Key Unit :=
  tryAtomically fun m dir =>
    (if m.fails then .error (.io "create the data directory" .dataDir) else .ok (), dir)

/-- The key and the certificate of one call of `generate`. -/
def CertLibraries.generated (m : CertMoment Key) : Option (Key × Cert) :=
  m.key.bind fun key =>
    (libraries.selfSigned [SERVER_NAME] key m.entropy).map fun cert => (key, cert)

/-- `KeyPair::generate_for`, and `self_signed` with what comes of it. -/
def generatePair : CertQuery Key (Key × Cert) :=
  tryAtomically fun m dir =>
    (match libraries.generated m with
      | some pair => .ok pair
      | none => .error .generate, dir)

/-- `write`: the file is created, or emptied if there is one, and then filled.  A write that fails
has not written the last byte. -/
def CertDir.write (path : CertPath) (contents : List UInt8) : CertQuery Key Unit := do
  tryAtomically fun m dir =>
    if m.fails then (.error (.io "write" path), dir) else (.ok (), dir.set path (some []))
  tryAtomically fun m dir =>
    if m.fails then
      (.error (.io "write" path),
        dir.set path ((dir.get path).map fun file => file ++ contents.dropLast.take m.written))
    else (.ok (), dir.set path ((dir.get path).map fun file => file ++ contents))

/-- `generate`.  The certificate is written before the key, and each of them replaces what was
there. -/
def generate : CertQuery Key Unit := do
  createDirAll
  let (key, cert) ← generatePair libraries
  CertDir.write .cert (libraries.certPem cert)
  CertDir.write .key (libraries.keyPem key)

/-- A byte as two lower-case hex digits. -/
def hexByte (byte : UInt8) : String :=
  String.ofList [Nat.digitChar (byte.toNat / 16), Nat.digitChar (byte.toNat % 16)]

/-- The digest of a certificate's DER, as lower-case hex. -/
def CertLibraries.pin (der : List UInt8) : String :=
  String.join ((libraries.sha256 der).map hexByte)

/-- `fingerprint`: over the DER, not the PEM.  It reads the file again, whether it has just been
written or was there before. -/
def fingerprint : CertQuery Key String := do
  let text ← tryAtomically fun m dir =>
    (match dir.cert with
      | some text => if m.fails then .error (.io "read the certificate" .cert) else .ok text
      | none => .error (.io "read the certificate" .cert), dir)
  match libraries.parse text with
  | some der => return libraries.pin der
  | none => throw (.parse .cert)

/-- `ServerCert::load_or_create`: reads the certificate, generating one the first time.  Two halves
that are there are not compared with each other. -/
def ServerCert.loadOrCreate : CertQuery Key ServerCert := do
  if ← halfMissing then
    generate libraries
  let fingerprint ← ScionChat.fingerprint libraries
  return { certPath := .cert, keyPath := .key, fingerprint := fingerprint }

end

/-! ### What a start does -/

section

variable {Key Cert α : Type} {libraries : CertLibraries Key Cert}

/-- A file is opened for writing. -/
def Opens (n : ℕ) (ω : ℕ → CertMoment Key) : Prop :=
  1 ≤ n ∧ (ω 0).fails = false

/-- A file is opened for writing, and filled. -/
def Fills (n : ℕ) (ω : ℕ → CertMoment Key) : Prop :=
  2 ≤ n ∧ (ω 0).fails = false ∧ (ω 1).fails = false

/-- **What writing a file does**, and what follows it: it is not begun, or is cut short, or the
file holds the contents. -/
theorem CertDir.write_within (path : CertPath) (file : path ≠ .dataDir) (contents : List UInt8)
    (f : Unit → CertQuery Key α) (n : ℕ) (ω : ℕ → CertMoment Key) (dir : CertDir) :
    ∃ r t, (CertDir.write path contents >>= f).run.within n ω dir = (r, t) ∧
      (¬ Opens n ω ∧ (∀ a, r ≠ some (.ok a)) ∧ t = dir ∨
        Opens n ω ∧ ¬ Fills n ω ∧ (∀ a, r ≠ some (.ok a)) ∧
          (∃ part, part <+: contents ∧ t = dir.set path (some part)) ∨
        Fills n ω ∧ (r, t) = (f ()).run.within (n - 2) (fun k => ω (k + 2))
          (dir.set path (some contents))) := by
  have at_ (file' : Option (List UInt8)) : (dir.set path file').get path = file' := by
    cases path with
    | cert => rfl
    | key => rfl
    | dataDir => exact absurd rfl file
  unfold CertDir.write
  simp only [bind_assoc, run_tryAtomically_bind]
  cases n with
  | zero => exact ⟨none, dir, rfl, Or.inl ⟨fun opens => absurd opens.1 (by decide), nofun, rfl⟩⟩
  | succ n =>
      rw [Prog.within_succ]
      cases opens : (ω 0).fails with
      | true =>
          simp only [if_true, onOk_error, Prog.within_ret]
          refine ⟨_, dir, rfl, Or.inl ⟨fun both => ?_, nofun, rfl⟩⟩
          cases opens.symm.trans both.2
      | false =>
          simp only [Bool.false_eq_true, if_false, onOk_ok, run_tryAtomically_bind]
          -- opening has emptied the file, whatever follows
          have opened : Opens (n + 1) ω := ⟨Nat.le_add_left 1 n, opens⟩
          cases n with
          | zero =>
              refine ⟨none, _, rfl, Or.inr (Or.inl ⟨opened, fun fills => ?_, nofun, [],
                List.nil_prefix, rfl⟩)⟩
              exact absurd fills.1 (by decide)
          | succ n =>
              rw [Prog.within_succ]
              cases fills : (ω 1).fails with
              | true =>
                  simp only [Nat.zero_add, if_true, onOk_error, Prog.within_ret, at_,
                    Option.map_some, List.nil_append, CertDir.set_set]
                  refine ⟨_, _, rfl, Or.inr (Or.inl ⟨opened, fun both => ?_, nofun, _, ?_, rfl⟩)⟩
                  · cases fills.symm.trans both.2.2
                  · exact (List.take_prefix _ _).trans (List.dropLast_prefix _)
              | false =>
                  simp only [Nat.zero_add, Bool.false_eq_true, if_false, onOk_ok, at_,
                    Option.map_some, List.nil_append, CertDir.set_set]
                  exact ⟨_, _, rfl, Or.inr (Or.inr ⟨⟨Nat.le_add_left 2 n, opens, fills⟩, rfl⟩)⟩

/-- A start looks at the directory, and finds a half missing. -/
def Regenerates (dir : CertDir) (start : Attempt (CertMoment Key)) : Prop :=
  1 ≤ start.steps ∧
    ((start.moments 0).fails = true ∨ dir.cert = none ∨ dir.key = none)

variable (libraries) in
/-- A start has generated a pair, and opens the certificate's file for writing. -/
def Rewrites (dir : CertDir) (start : Attempt (CertMoment Key)) : Prop :=
  Regenerates dir start ∧ 4 ≤ start.steps ∧ (start.moments 1).fails = false ∧
    (libraries.generated (start.moments 2)).isSome ∧ (start.moments 3).fails = false

instance (dir : CertDir) (start : Attempt (CertMoment Key)) :
    Decidable (Rewrites libraries dir start) :=
  inferInstanceAs (Decidable ((_ ∧ (_ ∨ _ ∨ _)) ∧ _ ∧ _ ∧ _ ∧ _))

variable (libraries) in
/-- **A start takes the two files for a pair**: it finds both of them, and what it reads of the
certificate can be parsed. -/
def TakesBoth (dir : CertDir) (start : Attempt (CertMoment Key)) : Prop :=
  ¬ Regenerates dir start ∧ 2 ≤ start.steps ∧ (start.moments 1).fails = false ∧
    (dir.cert.bind libraries.parse).isSome

instance (dir : CertDir) (start : Attempt (CertMoment Key)) :
    Decidable (TakesBoth libraries dir start) :=
  inferInstanceAs (Decidable (¬ (_ ∧ (_ ∨ _ ∨ _)) ∧ _ ∧ _ ∧ _))

/-- It goes on to open the key's file. -/
def OpensKey (start : Attempt (CertMoment Key)) : Prop :=
  6 ≤ start.steps ∧ (start.moments 4).fails = false ∧ (start.moments 5).fails = false

/-- It goes on to fill both files. -/
def FillsBoth (start : Attempt (CertMoment Key)) : Prop :=
  7 ≤ start.steps ∧ (start.moments 4).fails = false ∧ (start.moments 5).fails = false ∧
    (start.moments 6).fails = false

variable (libraries) in
/-- **A start leaves two halves that do not belong together**: it has begun to rewrite the pair
and does not get to the end, and there is a key, an old one or a part of the new one. -/
def CertDir.LeftApart (dir : CertDir) (start : Attempt (CertMoment Key)) : Prop :=
  Rewrites libraries dir start ∧ ¬ FillsBoth start ∧ (dir.key.isSome ∨ OpensKey start)

instance (dir : CertDir) (start : Attempt (CertMoment Key)) :
    Decidable (dir.LeftApart libraries start) :=
  inferInstanceAs (Decidable (Rewrites libraries dir start ∧ ¬ (_ ∧ _ ∧ _ ∧ _) ∧
    (_ ∨ (_ ∧ _ ∧ _))))

/-- Both files are there, if a start takes them. -/
theorem TakesBoth.there {dir : CertDir} {start : Attempt (CertMoment Key)}
    (takes : TakesBoth libraries dir start) : dir.cert.isSome ∧ dir.key.isSome := by
  obtain ⟨finds, steps, -⟩ := takes
  obtain ⟨-, both⟩ := not_or.mp (not_and.mp finds (by omega))
  rw [Option.isSome_iff_ne_none, Option.isSome_iff_ne_none]
  exact not_or.mp both

variable (libraries) in
/-- **The fingerprint is that of the certificate in the directory.** Clients are told to pin it, so
a fingerprint of anything else would shut them out. -/
def Pins (cert : ServerCert) (dir : CertDir) : Prop :=
  ∃ text der, dir.cert = some text ∧ libraries.parse text = some der ∧
    cert.fingerprint = libraries.pin der

variable (libraries) in
/-- What comes last: the fingerprint, and the two paths with it. -/
def ServerCert.withFingerprint : CertQuery Key ServerCert := do
  let fingerprint ← ScionChat.fingerprint libraries
  return { certPath := .cert, keyPath := .key, fingerprint := fingerprint }

variable (libraries) in
theorem fingerprint_within (n : ℕ) (ω : ℕ → CertMoment Key) (dir : CertDir) :
    ∃ r, (ServerCert.withFingerprint libraries).run.within n ω dir = (r, dir) ∧
      ∀ cert, r = some (.ok cert) → 1 ≤ n ∧ (ω 0).fails = false ∧ Pins libraries cert dir := by
  unfold ServerCert.withFingerprint fingerprint
  simp only [bind_assoc, run_tryAtomically_bind]
  cases n with
  | zero => exact ⟨none, rfl, nofun⟩
  | succ n =>
      rw [Prog.within_succ]
      cases file : dir.cert with
      | none =>
          exact ⟨some (.error (.io "read the certificate" .cert)), Prog.within_ret _ _ _ _, nofun⟩
      | some text =>
          cases reads : (ω 0).fails with
          | true =>
              exact ⟨some (.error (.io "read the certificate" .cert)), Prog.within_ret _ _ _ _,
                nofun⟩
          | false =>
              simp only [Bool.false_eq_true, if_false, onOk_ok]
              cases parsed : libraries.parse text with
              | none => exact ⟨some (.error (.parse .cert)), Prog.within_ret _ _ _ _, nofun⟩
              | some der =>
                  refine ⟨some (.ok ⟨.cert, .key, libraries.pin der⟩), Prog.within_ret _ _ _ _, ?_⟩
                  rintro _ ⟨⟩
                  exact ⟨Nat.le_add_left 1 n, trivial, text, der, file, parsed, rfl⟩

theorem loadOrCreate_run : (ServerCert.loadOrCreate libraries).run
    = .step (fun _ dir => dir) fun m dir =>
        if m.fails || dir.cert.isNone || dir.key.isNone then
          (generate libraries >>= fun _ => ServerCert.withFingerprint libraries).run
        else (ServerCert.withFingerprint libraries).run := by
  unfold ServerCert.loadOrCreate halfMissing
  rw [run_tryAtomically_bind]
  refine congrArg (Prog.step _) (funext fun m => funext fun dir => ?_)
  dsimp only
  rw [onOk_ok]
  cases m.fails || dir.cert.isNone || dir.key.isNone with
  | true => rfl
  | false => rfl

/-- **What writing the two files does**, and what follows it: nothing, or it leaves off in
between, or both hold what they should. -/
theorem writes_within (cert key : List UInt8) (f : Unit → CertQuery Key α) (n : ℕ)
    (ω : ℕ → CertMoment Key) (dir : CertDir) :
    ∃ r t, (CertDir.write .cert cert >>= fun _ => CertDir.write .key key >>= f).run.within n ω dir
        = (r, t) ∧
      (¬ Opens n ω ∧ (∀ a, r ≠ some (.ok a)) ∧ t = dir ∨
        Opens n ω ∧ ¬ (Fills n ω ∧ Fills (n - 2) fun k => ω (k + 2)) ∧ (∀ a, r ≠ some (.ok a)) ∧
            (t.key = dir.key ∨ Fills n ω ∧ Opens (n - 2) fun k => ω (k + 2)) ∨
          (r, t) = (f ()).run.within (n - 4) (fun k => ω (k + 4)) ⟨some cert, some key⟩) := by
  obtain ⟨r, t, did, none | ⟨opens, short, failed, part, -, rfl⟩ | ⟨filled, onward⟩⟩ :=
    CertDir.write_within .cert (by decide) cert (fun _ => CertDir.write .key key >>= f) n ω dir
  · exact ⟨r, t, did, Or.inl none⟩
  · -- it leaves off within the certificate, and the key is as it was
    exact ⟨r, _, did, Or.inr (Or.inl ⟨opens, fun both => short both.1, failed, Or.inl rfl⟩)⟩
  · have opened : Opens n ω := ⟨Nat.le_of_succ_le filled.1, filled.2.1⟩
    obtain ⟨r', t', did', ⟨closed, failed, rfl⟩ | ⟨opens, short, failed, -⟩ | ⟨fills, onward'⟩⟩ :=
      CertDir.write_within .key (by decide) key f (n - 2) (fun k => ω (k + 2))
        (dir.set .cert (some cert))
    all_goals
      obtain ⟨rfl, rfl⟩ := Prod.mk.inj (onward.trans did')
    · refine ⟨r, _, did, Or.inr (Or.inl ⟨opened, fun both => ?_, failed, Or.inl rfl⟩)⟩
      exact closed ⟨Nat.le_of_succ_le both.2.1, both.2.2.1⟩
    · exact ⟨r, t, did, Or.inr (Or.inl ⟨opened, fun both => short both.2, failed,
        Or.inr ⟨filled, opens⟩⟩)⟩
    · exact ⟨r, t, did, Or.inr (Or.inr onward')⟩

variable (libraries) in
/-- **What `generate` does**, and what follows it: it gets nowhere, or leaves off in between, or
both files hold one pair. -/
theorem generate_within (f : Unit → CertQuery Key α) (n : ℕ) (ω : ℕ → CertMoment Key)
    (dir : CertDir) :
    ∃ r t, (generate libraries >>= f).run.within n ω dir = (r, t) ∧
      (¬ (3 ≤ n ∧ (ω 0).fails = false ∧ (libraries.generated (ω 1)).isSome ∧ (ω 2).fails = false) ∧
          (∀ a, r ≠ some (.ok a)) ∧ t = dir ∨
        (3 ≤ n ∧ (ω 0).fails = false ∧ (libraries.generated (ω 1)).isSome ∧ (ω 2).fails = false) ∧
          ¬ (6 ≤ n ∧ (ω 3).fails = false ∧ (ω 4).fails = false ∧ (ω 5).fails = false) ∧
            (∀ a, r ≠ some (.ok a)) ∧
              (t.key = dir.key ∨ 5 ≤ n ∧ (ω 3).fails = false ∧ (ω 4).fails = false) ∨
        ∃ key cert, libraries.generated (ω 1) = some (key, cert) ∧
          (r, t) = (f ()).run.within (n - 6) (fun k => ω (k + 6))
            ⟨some (libraries.certPem cert), some (libraries.keyPem key)⟩) := by
  unfold generate createDirAll generatePair
  simp only [bind_assoc, run_tryAtomically_bind]
  cases n with
  | zero => exact ⟨none, dir, rfl, Or.inl ⟨fun far => absurd far.1 (by decide), nofun, rfl⟩⟩
  | succ n =>
      rw [Prog.within_succ]
      by_cases creates : (ω 0).fails = true
      · rw [if_pos creates, onOk_error, Prog.within_ret]
        refine ⟨_, dir, rfl, Or.inl ⟨fun far => ?_, nofun, rfl⟩⟩
        cases creates.symm.trans far.2.1
      · rw [if_neg creates, onOk_ok]
        rw [Bool.not_eq_true] at creates
        cases n with
        | zero => exact ⟨none, dir, rfl, Or.inl ⟨fun far => absurd far.1 (by decide), nofun, rfl⟩⟩
        | succ n =>
            rw [run_tryAtomically_bind, Prog.within_succ]
            have pair : libraries.generated (ω (0 + 1)) = libraries.generated (ω 1) := rfl
            rw [pair]
            rcases generated : libraries.generated (ω 1) with _ | ⟨key, cert⟩
            · rw [onOk_error, Prog.within_ret]
              exact ⟨_, dir, rfl, Or.inl ⟨fun far => Bool.false_ne_true far.2.2.1, nofun, rfl⟩⟩
            · obtain ⟨r, t, did, ⟨closed, failed, same⟩ | ⟨opens, short, failed, left⟩ | onward⟩ :=
                writes_within (libraries.certPem cert) (libraries.keyPem key) f n
                  (fun k => ω (k + 1 + 1)) dir
              · refine ⟨r, t, did, Or.inl ⟨fun far => closed ⟨by omega, far.2.2.2⟩, failed, same⟩⟩
              · have three : 3 ≤ n + 1 + 1 := Nat.add_le_add_right opens.1 2
                refine ⟨r, t, did, Or.inr (Or.inl ⟨⟨three, creates, rfl, opens.2⟩,
                  fun far => short ?_, failed, ?_⟩)⟩
                · exact ⟨⟨by omega, opens.2, far.2.1⟩, by omega, far.2.2.1, far.2.2.2⟩
                · refine left.imp_right fun both => ⟨?_, both.1.2.2, both.2.2⟩
                  have := both.2.1
                  omega
              · refine ⟨r, t, did, Or.inr (Or.inr ⟨key, cert, rfl, ?_⟩)⟩
                rw [onward]
                congr 1

variable (libraries) in
/-- **What a start does**: it leaves the directory alone, and serves with what is there if it takes
it for a pair; or it leaves off within rewriting it; or both files hold one pair. -/
theorem ServerCert.load_within (start : Attempt (CertMoment Key)) (dir : CertDir) :
    ∃ r t, (ServerCert.loadOrCreate libraries).run.within start.steps start.moments dir = (r, t) ∧
      ((t = dir ∧ ¬ Rewrites libraries dir start ∧ ∀ cert, r = some (.ok cert) →
          TakesBoth libraries dir start ∧ Pins libraries cert dir) ∨
        (Rewrites libraries dir start ∧ ¬ FillsBoth start ∧ (∀ cert, r ≠ some (.ok cert)) ∧
            (t.key = dir.key ∨ OpensKey start)) ∨
          ∃ key cert, libraries.generated (start.moments 2) = some (key, cert) ∧
            t = ⟨some (libraries.certPem cert), some (libraries.keyPem key)⟩ ∧
              ∀ got, r = some (.ok got) → Pins libraries got t) := by
  rw [loadOrCreate_run]
  cases steps : start.steps with
  | zero =>
      refine ⟨none, dir, rfl, Or.inl ⟨rfl, fun rewrites => ?_, nofun⟩⟩
      exact absurd (steps ▸ rewrites.2.1) (by decide)
  | succ n =>
      rw [Prog.within_succ]
      by_cases missing : (start.moments 0).fails || dir.cert.isNone || dir.key.isNone
      · rw [if_pos missing]
        have regenerates : Regenerates dir start := by
          refine ⟨by omega, ?_⟩
          rw [Bool.or_eq_true, Bool.or_eq_true, Option.isNone_iff_eq_none,
            Option.isNone_iff_eq_none, or_assoc] at missing
          exact missing
        -- the first step looked at the directory, and `generate` has those after it
        obtain ⟨r, t, did, ⟨closed, failed, rfl⟩ | ⟨opens, short, failed, left⟩ |
            ⟨key, cert, pair, onward⟩⟩ :=
          generate_within libraries (fun _ => ServerCert.withFingerprint libraries) n
            (fun k => start.moments (k + 1)) dir
        · refine ⟨r, _, did, Or.inl ⟨rfl, fun rewrites => closed ?_,
            fun cert done => absurd done (failed cert)⟩⟩
          exact ⟨by have := rewrites.2.1; omega, rewrites.2.2⟩
        · refine ⟨r, t, did,
            Or.inr (Or.inl ⟨⟨regenerates, by omega, opens.2⟩, fun fills => short ?_,
            failed, left.imp_right fun far => ⟨by omega, far.2⟩⟩)⟩
          exact ⟨by have := fills.1; omega, fills.2⟩
        · obtain ⟨r', read, pins⟩ := fingerprint_within libraries (n - 6)
            (fun k => start.moments (k + 6 + 1))
            ⟨some (libraries.certPem cert), some (libraries.keyPem key)⟩
          obtain ⟨rfl, rfl⟩ := Prod.mk.inj (onward.trans read)
          exact ⟨r, _, did, Or.inr (Or.inr ⟨key, cert, pair, rfl,
            fun got done => (pins got done).2.2⟩)⟩
      · rw [if_neg missing]
        obtain ⟨r, read, pins⟩ := fingerprint_within libraries n
          (fun k => start.moments (k + 1)) dir
        have finds : ¬ Regenerates dir start := by
          rintro ⟨-, looks⟩
          rw [Bool.or_eq_true, Bool.or_eq_true, Option.isNone_iff_eq_none,
            Option.isNone_iff_eq_none, or_assoc] at missing
          exact missing looks
        refine ⟨r, dir, read, Or.inl ⟨rfl, fun rewrites => finds rewrites.1, fun cert done => ?_⟩⟩
        obtain ⟨read, works, pinned⟩ := pins cert done
        obtain ⟨text, der, file, parsed, -⟩ := id pinned
        refine ⟨⟨finds, by omega, works, ?_⟩, pinned⟩
        rw [file, Option.bind_some, parsed]
        rfl

end

/-! ### What a run of starts leaves -/

/-- What happens to the directory. -/
inductive CertEvent (Key : Type)
  | start (start : Attempt (CertMoment Key))
  | remove (path : CertPath)

/-- The directory, and the certificates that starts have returned, each with the directory as it
was then; and, which no start can see, whether there are halves in it that do not belong
together. -/
structure CertRun where
  starts : Surviving CertDir ServerCert
  apart : Bool

/-- The directory is empty, and nothing has been started over it. -/
def CertRun.fresh : CertRun := ⟨.fresh ⟨none, none⟩, false⟩

section

variable {Key Cert : Type} (libraries : CertLibraries Key Cert)

/-- One event.  Halves that are apart stay apart until a file of the two is removed, or a start
rewrites both. -/
def CertRun.step (s : CertRun) : CertEvent Key → Option CertRun
  | .start start => some
      { starts := s.starts.call (ServerCert.loadOrCreate libraries) start
        apart := decide (s.starts.state.LeftApart libraries start) ||
          s.apart && !decide (Rewrites libraries s.starts.state start) }
  | .remove path => some
      { starts := { s.starts with state := s.starts.state.set path none }
        apart := s.apart && decide (path = .dataDir) }

/-- One of the starts has generated this pair. -/
def Paired (events : List (CertEvent Key)) (dir : CertDir) (x509 : Cert) : Prop :=
  ∃ start key, .start start ∈ events ∧ libraries.generated (start.moments 2) = some (key, x509) ∧
    dir.cert = some (libraries.certPem x509) ∧ dir.key = some (libraries.keyPem key)

/-- **Certificate and key belong together**: whenever a start returns, the files are the complete
certificate and key of one call of `generate`, and the fingerprint is that certificate's. -/
def BelongTogether (events : List (CertEvent Key)) (s : CertRun) : Prop :=
  ∀ got ∈ s.starts.returned, ∃ x509, Paired libraries events got.2 x509 ∧
    ∃ der, libraries.parse (libraries.certPem x509) = some der ∧
      got.1.fingerprint = libraries.pin der

/-- No start takes for a pair what an earlier one has left apart. -/
def CertEvent.Harmless (s : CertRun) : CertEvent Key → Prop
  | .start attempt => s.apart = true → ¬ TakesBoth libraries s.starts.state attempt
  | .remove _ => True

instance (s : CertRun) : ∀ event : CertEvent Key, Decidable (event.Harmless libraries s)
  | .start attempt =>
      inferInstanceAs (Decidable (s.apart = true → ¬ TakesBoth libraries s.starts.state attempt))
  | .remove _ => isTrue trivial

namespace CertRun

/-- **The invariant of the directory**: where both files are there, and are not apart, they are one
pair.  What starts have returned is in it as well, since it was right at the time and the directory
may have changed since. -/
structure Inv (events : List (CertEvent Key)) (s : CertRun) : Prop where
  pair : s.apart = false → s.starts.state.cert.isSome → s.starts.state.key.isSome →
    ∃ x509, Paired libraries events s.starts.state x509
  returned : BelongTogether libraries events s

variable {libraries} {events : List (CertEvent Key)} {s t : CertRun}

/-- What a start returns belongs together, if the files do that it has left. -/
theorem belongs_of_pins {x509 : Cert} {cert : ServerCert} {dir : CertDir}
    (pair : Paired libraries events dir x509) (pins : Pins libraries cert dir) :
    ∃ der, libraries.parse (libraries.certPem x509) = some der ∧
      cert.fingerprint = libraries.pin der := by
  obtain ⟨text, der, file, parsed, pinned⟩ := pins
  obtain ⟨start, key, -, -, cert_file, -⟩ := pair
  obtain rfl := Option.some.inj (file.symm.trans cert_file)
  exact ⟨der, parsed, pinned⟩

theorem Inv.remove (inv : Inv libraries events s) (path : CertPath) :
    Inv libraries events
      { starts := { s.starts with state := s.starts.state.set path none }
        apart := s.apart && decide (path = .dataDir) } := by
  refine ⟨fun whole cert key => ?_, inv.returned⟩
  cases path with
  | cert => cases cert
  | key => cases key
  | dataDir => exact inv.pair ((Bool.and_true _).symm.trans whole) cert key

theorem Inv.start (inv : Inv libraries events s) {start : Attempt (CertMoment Key)}
    (mem : .start start ∈ events)
    (harmless : s.apart = true → ¬ TakesBoth libraries s.starts.state start) :
    Inv libraries events
      { starts := s.starts.call (ServerCert.loadOrCreate libraries) start
        apart := decide (s.starts.state.LeftApart libraries start) ||
          s.apart && !decide (Rewrites libraries s.starts.state start) } := by
  obtain ⟨r, left, did, what⟩ := ServerCert.load_within libraries start s.starts.state
  -- where both files are there afterwards, and not apart, they are one pair
  have pair : (decide (s.starts.state.LeftApart libraries start) ||
        s.apart && !decide (Rewrites libraries s.starts.state start)) = false →
      left.cert.isSome → left.key.isSome → ∃ x509, Paired libraries events left x509 := by
    intro whole certThere keyThere
    obtain ⟨together, before⟩ := Bool.or_eq_false_iff.mp whole
    rcases what with ⟨rfl, leaves, -⟩ | ⟨rewrites, short, -, key⟩ | ⟨key, cert, generated, rfl, -⟩
    · rw [decide_eq_false leaves, Bool.not_false, Bool.and_true] at before
      exact inv.pair before certThere keyThere
    · refine absurd ⟨rewrites, short, ?_⟩ (of_decide_eq_false together)
      rcases key with same | opens
      · exact Or.inl (same ▸ keyThere)
      · exact Or.inr opens
    · exact ⟨cert, start, key, mem, generated, rfl, rfl⟩
  -- what it returns is a pair: an old one that it has found, or the one that it has written
  have returns : ∀ cert, r = some (.ok cert) →
      ∃ x509, Paired libraries events left x509 ∧ Pins libraries cert left := by
    intro cert done
    rcases what with ⟨rfl, -, served⟩ | ⟨-, -, failed, -⟩ | ⟨key, x509, generated, rfl, pins⟩
    · obtain ⟨takes, pinned⟩ := served cert done
      have whole : s.apart = false := by
        by_contra apart
        exact harmless ((Bool.not_eq_false _).mp apart) takes
      obtain ⟨certThere, keyThere⟩ := takes.there
      obtain ⟨x509, paired⟩ := inv.pair whole certThere keyThere
      exact ⟨x509, paired, pinned⟩
    · exact absurd done (failed cert)
    · exact ⟨x509, ⟨start, key, mem, generated, rfl, rfl⟩, pins cert done⟩
  rcases s.starts.call_cases (ServerCert.loadOrCreate libraries) start with
    ⟨cert, after, ran, eq⟩ | ⟨_, after, ran, -, eq⟩
  · obtain ⟨rfl, rfl⟩ := Prod.mk.inj (did.symm.trans ran)
    rw [eq]
    refine ⟨pair, fun got mem => ?_⟩
    rcases List.mem_append.mp mem with before | last
    · exact inv.returned got before
    · obtain rfl := List.mem_singleton.mp last
      obtain ⟨x509, paired, pins⟩ := returns cert rfl
      exact ⟨x509, paired, belongs_of_pins paired pins⟩
  · obtain ⟨rfl, rfl⟩ := Prod.mk.inj (did.symm.trans ran)
    rw [eq]
    exact ⟨pair, inv.returned⟩

/-- **When certificate and key belong together**: in every run in which no start takes for a pair
what an interrupted one has left apart.  The files may be removed, one or both, and starts may be
interrupted after any step. -/
theorem belongs_together (along : Along (step libraries) (CertEvent.Harmless libraries)
      fresh events) (ran : run (step libraries) fresh events = some s) :
    BelongTogether libraries events s := by
  have inv : Inv libraries events s := by
    refine run_invariant_along (fun s event t ok stepped inv => ?_) (along.mem fun _ mem => mem) ran
      ⟨fun _ there => (by cases there), fun _ mem => absurd mem List.not_mem_nil⟩
    cases event with
    | start attempt =>
        obtain rfl := Option.some.inj stepped
        exact inv.start ok.2 ok.1
    | remove path =>
        obtain rfl := Option.some.inj stepped
        exact inv.remove path
  exact inv.returned

namespace Sample

/-- Libraries under which a run can be computed: a certificate is the key it was made with. -/
def plain : CertLibraries UInt8 UInt8 where
  selfSigned _ key _ := some key
  certPem key := [1, key]
  keyPem key := [2, key]
  parse text := some text
  sha256 der := der

/-- A start that generates this key, should it come to that, and is stopped after a number of
steps. -/
def started (key : UInt8) (steps : ℕ) : CertEvent UInt8 :=
  .start ⟨steps, fun _ => { key := some key }⟩

/-- The certificate is removed, and a start is stopped when it has written the new one; but then
the old key is removed, too, and the next start replaces the pair. -/
def replaced : List (CertEvent UInt8) :=
  [started 1 9, .remove .cert, started 2 5, .remove .key, started 3 9]

/-- The certificate is removed, and a start is stopped when it has written the new one. -/
def apart : List (CertEvent UInt8) :=
  [started 1 9, .remove .cert, started 2 5, started 3 9]

end Sample

/-- The last start makes a pair of its own, as the key is not there for it to take. -/
theorem belongs_together_replaced : ∃ s,
    run (step Sample.plain) fresh Sample.replaced = some s ∧
      s.starts.returned.length = 2 ∧ BelongTogether Sample.plain Sample.replaced s := by
  obtain ⟨s, ran, both⟩ : ∃ s,
      run (step Sample.plain) fresh Sample.replaced = some s ∧
        s.starts.returned.length = 2 := ⟨_, rfl, rfl⟩
  exact ⟨s, ran, both, belongs_together (by decide) ran⟩

/-- **A certificate of one key is served with another key**: the certificate was removed, and
the start that replaced it was stopped before it had written the key. -/
theorem mismatch_served : ∃ s,
    run (step Sample.plain) fresh Sample.apart = some s ∧
      ¬ BelongTogether Sample.plain Sample.apart s := by
  obtain ⟨s, ran, got, mem, cert, key⟩ : ∃ s,
      run (step Sample.plain) fresh Sample.apart = some s ∧
        ∃ got ∈ s.starts.returned, got.2.cert = some [1, 2] ∧ got.2.key = some [2, 1] :=
    ⟨_, rfl, _, List.mem_concat_self, rfl, rfl⟩
  refine ⟨s, ran, fun belong => ?_⟩
  obtain ⟨x509, ⟨start, key', -, generated, certFile, keyFile⟩, -⟩ := belong got mem
  obtain ⟨drawn, -, same⟩ := Option.bind_eq_some_iff.mp generated
  cases same
  cases cert.symm.trans certFile
  cases key.symm.trans keyFile

end CertRun

end

end ScionChat
