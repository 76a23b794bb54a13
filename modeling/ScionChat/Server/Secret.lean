import ScionChat.Lib.Interrupted
import ScionChat.Server.Host

/-!
# The signing secret, over many starts

`load_or_create_secret` creates the secret's file and then fills it, and a later start takes
whatever the file holds.  A start may be stopped in between, or its write may fail with a part of
the bytes written; a start that is killed within the write leaves what one leaves whose write fails
there.

* `secret_whole` says which starts leave the secret whole: those of which none is cut short.
* `cut_short_trusted` is what comes of one that is, whichever it is: the next start returns the
  piece that is there for the secret.
* `ChatServer.state_signs_under` ties the two to the server: it signs under what it has loaded.

### design decisions

* **Where a start is stopped is part of the run.**  An `Attempt` is a number of steps and what each
  of them meets, so that being killed between two calls of the file system and failing in one of
  them are both inputs, and no start is assumed to finish.
* **Cut short means created and not filled.**  A start that dies before it has created the file
  leaves none, and does no harm: the next one starts afresh.  One that finds a file writes nothing.

### What is load-bearing

That creating and filling are two steps.  `load_within_none` follows a start over no file through
both of them, and its middle case, a file with some of the bytes, is the defect.
-/

namespace ScionChat

open Interleaving TransitionSystem

/-- The bytes that a start draws, should it come to that. -/
def drawn (start : Attempt Moment) : Secret :=
  (start.moments 1).random.toList

/-- The secret's file, and what the starts so far have taken for the secret. -/
abbrev SecretRun := Surviving (Option Secret) Secret

/-- One start. -/
def SecretRun.step (s : SecretRun) (start : Attempt Moment) : Option SecretRun :=
  some (s.call loadOrCreateSecret start)

/-- A start over no file gets as far as creating it. -/
def CreatesSecret (file : Option Secret) (start : Attempt Moment) : Prop :=
  file = none ∧ (start.moments 0).fails = false ∧ (start.moments 2).fails = false ∧
    3 ≤ start.steps

instance (file : Option Secret) (start : Attempt Moment) : Decidable (CreatesSecret file start) :=
  inferInstanceAs (Decidable (_ ∧ _))

/-- **A start is cut short** that has created the file and does not fill it.  It is stopped between
the two calls, or its write fails with fewer bytes written than a secret has. -/
def CutShort (file : Option Secret) (start : Attempt Moment) : Prop :=
  CreatesSecret file start ∧
    (start.steps = 3 ∨ (start.moments 3).fails = true ∧ (start.moments 3).written < 32)

instance (file : Option Secret) (start : Attempt Moment) : Decidable (CutShort file start) :=
  inferInstanceAs (Decidable (_ ∧ _))

/-! ### What a start does -/

/-- A start over a file takes what is in it, if it gets that far. -/
theorem load_within_some (secret : Secret) (start : Attempt Moment) :
    ∃ r, loadOrCreateSecret.run.within start.steps start.moments (some secret) = (r, some secret) ∧
      (∀ got, r = some (.ok got) → got = secret) ∧
        ((start.moments 0).fails = false → 1 ≤ start.steps → r = some (.ok secret)) := by
  unfold loadOrCreateSecret readSecret
  rw [run_tryAtomically_bind]
  cases start.steps with
  | zero => exact ⟨none, rfl, nofun, fun _ far => absurd far (by decide)⟩
  | succ n =>
      rw [Prog.within_succ]
      cases reads : (start.moments 0).fails with
      | true => exact ⟨some (.error (.secret "jwt.secret")), Prog.within_ret _ _ _ _, nofun, nofun⟩
      | false =>
          refine ⟨some (.ok secret), Prog.within_ret _ _ _ _, ?_, fun _ _ => rfl⟩
          rintro _ ⟨⟩
          rfl

/-- What is left of a secret that is cut short. -/
def Truncated (bytes : Secret) (file : Option Secret) : Prop :=
  ∃ k, k < bytes.length ∧ file = some (bytes.take k)

/-- `write_private` over no file: it may be stopped, or fail, before it has created the file; it
may go through; and it may be cut short in between. -/
theorem writePrivate_within {bytes : Secret} (some_ : bytes ≠ []) (n : ℕ) (ω : ℕ → Moment) :
    ∃ r t, (writePrivate bytes >>= fun _ => (pure bytes : SecretQuery Secret)).run.within n ω none
        = (r, t) ∧ (∀ got, r = some (.ok got) → t = some bytes ∧ got = bytes) ∧
      (((ω 0).fails = false ∧ 1 ≤ n ∧
            (n = 1 ∨ (ω 1).fails = true ∧ (ω 1).written < bytes.length)) ∧ Truncated bytes t ∨
        ¬ ((ω 0).fails = false ∧ 1 ≤ n ∧
            (n = 1 ∨ (ω 1).fails = true ∧ (ω 1).written < bytes.length)) ∧
          (t = none ∨ t = some bytes)) := by
  unfold writePrivate createNew writeAll
  simp only [bind_assoc, run_tryAtomically_bind]
  cases n with
  | zero => exact ⟨none, none, rfl, nofun, Or.inr ⟨fun cut => by omega, Or.inl rfl⟩⟩
  | succ n =>
      rw [Prog.within_succ]
      cases creates : (ω 0).fails with
      | true =>
          simp only [true_or, if_true, onOk_error, Prog.within_ret]
          exact ⟨_, none, rfl, nofun, Or.inr ⟨nofun, Or.inl rfl⟩⟩
      | false =>
          simp only [Option.isSome_none, Bool.false_eq_true, or_self, if_false, onOk_ok]
          cases n with
          | zero =>
              -- the file has been created, and the start is killed before it writes
              exact ⟨none, some [], rfl, nofun, Or.inl ⟨⟨trivial, le_rfl, Or.inl rfl⟩, 0,
                List.length_pos_iff.mpr some_, rfl⟩⟩
          | succ n =>
              rw [run_tryAtomically_bind, Prog.within_succ]
              cases writes : (ω 1).fails with
              | true =>
                  simp only [Nat.zero_add, if_true, onOk_error, Prog.within_ret,
                    Option.map_some, List.nil_append]
                  refine ⟨_, _, rfl, nofun, ?_⟩
                  -- a write that fails may have written all of it all the same
                  by_cases all : bytes.length ≤ (ω 1).written
                  · rw [List.take_of_length_le all]
                    exact Or.inr ⟨fun cut => by omega, Or.inr rfl⟩
                  · exact Or.inl ⟨⟨trivial, Nat.le_add_left 1 _, Or.inr ⟨trivial, not_le.mp all⟩⟩,
                      (ω 1).written, not_le.mp all, rfl⟩
              | false =>
                  simp only [Nat.zero_add, Bool.false_eq_true, if_false, onOk_ok, run_pure,
                    Prog.within_ret, Option.map_some, List.nil_append]
                  refine ⟨_, _, rfl, ?_, Or.inr ⟨?_, Or.inr rfl⟩⟩
                  · rintro _ ⟨⟩
                    exact ⟨rfl, rfl⟩
                  · rintro ⟨-, -, stopped | ⟨fails, -⟩⟩
                    · omega
                    · exact fails

/-- **What a start over no file does**: it leaves none, or the bytes it has drawn, unless it is
cut short; and what it takes for the secret is what it leaves. -/
theorem load_within_none (start : Attempt Moment) :
    ∃ r t, loadOrCreateSecret.run.within start.steps start.moments none = (r, t) ∧
      (∀ got, r = some (.ok got) → t = some (drawn start) ∧ got = drawn start) ∧
        (CutShort none start ∧ Truncated (drawn start) t ∨
          ¬ CutShort none start ∧ (t = none ∨ t = some (drawn start))) := by
  unfold loadOrCreateSecret readSecret
  rw [run_tryAtomically_bind]
  cases steps : start.steps with
  | zero =>
      refine ⟨none, none, rfl, nofun, Or.inr ⟨fun cut => ?_, Or.inl rfl⟩⟩
      have := cut.1.2.2.2
      omega
  | succ n =>
      rw [Prog.within_succ]
      cases reads : (start.moments 0).fails with
      | true =>
          simp only [if_true, onOk_error, Prog.within_ret]
          refine ⟨_, none, rfl, nofun, Or.inr ⟨fun cut => ?_, Or.inl rfl⟩⟩
          cases reads.symm.trans cut.1.2.1
      | false =>
          simp only [Bool.false_eq_true, if_false, onOk_ok, run_tryAtomically_bind]
          cases n with
          | zero =>
              exact ⟨none, none, rfl, nofun,
                Or.inr ⟨fun cut => by have := cut.1.2.2.2; omega, Or.inl rfl⟩⟩
          | succ n =>
              rw [Prog.within_succ]
              have length : (drawn start).length = 32 := Vector.length_toList
              have some_ : drawn start ≠ [] := fun none => by rw [none] at length; cases length
              obtain ⟨r, t, wrote, took, left⟩ :=
                writePrivate_within some_ n fun k => start.moments (k + 1 + 1)
              -- `write_private` counts from its own first step, the third of the start
              have same : ((start.moments 2).fails = false ∧ 1 ≤ n ∧ (n = 1 ∨
                  (start.moments 3).fails = true ∧
                    (start.moments 3).written < (drawn start).length))
                    ↔ CutShort none start := by
                rw [length, CutShort, CreatesSecret, steps]
                constructor
                · rintro ⟨creates, far, cut⟩
                  exact ⟨⟨rfl, reads, creates, by omega⟩, cut.imp_left fun one => by omega⟩
                · rintro ⟨⟨-, -, creates, far⟩, cut⟩
                  exact ⟨creates, by omega, cut.imp_left fun three => by omega⟩
              exact ⟨r, t, wrote, took, left.imp (And.imp_left same.mp)
                (And.imp_left fun whole cut => whole (same.mpr cut))⟩

/-! ### What a run of starts leaves -/

/-- **The secret is whole**: every start that has returned one has returned the 32 bytes that one
of the starts drew, and they all have returned the same. -/
structure SecretWhole (starts : List (Attempt Moment)) (s : SecretRun) : Prop where
  complete : ∀ got ∈ s.returned, got.1.length = 32 ∧ ∃ start ∈ starts, got.1 = drawn start
  same : ∀ a ∈ s.returned, ∀ b ∈ s.returned, a.1 = b.1

namespace SecretRun

/-- **The invariant of the secret's file**: it holds what one start has drawn, and that is what
all have returned; as long as there is none, nothing has been returned. -/
structure Inv (starts : List (Attempt Moment)) (s : SecretRun) : Prop where
  absent : s.state = none → s.returned = []
  held : ∀ secret, s.state = some secret →
    (∃ start ∈ starts, secret = drawn start) ∧ ∀ got ∈ s.returned, got.1 = secret

variable {starts : List (Attempt Moment)} {s t : SecretRun} {start : Attempt Moment}

theorem Inv.step (inv : Inv starts s) (mem : start ∈ starts) (whole : ¬ CutShort s.state start)
    (stepped : s.step start = some t) : Inv starts t := by
  obtain rfl := Option.some.inj stepped
  cases file : s.state with
  | some secret =>
      -- there is a file: it is left as it is, and returned if at all
      obtain ⟨origin, all⟩ := inv.held secret file
      obtain ⟨r, did, took, -⟩ := load_within_some secret start
      rcases s.call_cases loadOrCreateSecret start with ⟨got, after, ran, eq⟩ |
        ⟨_, after, ran, -, eq⟩
      · rw [file, did] at ran
        obtain ⟨rfl, rfl⟩ := Prod.mk.inj ran
        rw [eq]
        refine ⟨nofun, ?_⟩
        rintro _ ⟨⟩
        refine ⟨origin, fun other mem => ?_⟩
        rcases List.mem_append.mp mem with before | last
        · exact all other before
        · rw [List.mem_singleton.mp last]
          exact took got rfl
      · rw [file, did] at ran
        obtain ⟨rfl, rfl⟩ := Prod.mk.inj ran
        rw [eq]
        refine ⟨nofun, ?_⟩
        rintro _ ⟨⟩
        exact ⟨origin, all⟩
  | none =>
      -- there is none: the start leaves none, or what it has drawn
      have nothing := inv.absent file
      obtain ⟨r, left, did, took, what⟩ := load_within_none start
      rw [file] at whole
      have left_whole := (what.resolve_left fun cut => whole cut.1).2
      rcases s.call_cases loadOrCreateSecret start with ⟨got, after, ran, eq⟩ |
        ⟨_, after, ran, -, eq⟩
      · rw [file, did] at ran
        obtain ⟨rfl, rfl⟩ := Prod.mk.inj ran
        obtain ⟨rfl, rfl⟩ := took got rfl
        rw [eq, nothing]
        refine ⟨nofun, ?_⟩
        rintro _ ⟨⟩
        refine ⟨⟨start, mem, rfl⟩, fun other mem => ?_⟩
        rw [List.mem_singleton.mp mem]
      · rw [file, did] at ran
        obtain ⟨rfl, rfl⟩ := Prod.mk.inj ran
        rw [eq, nothing]
        refine ⟨fun _ => rfl, fun secret at_file => ?_⟩
        rcases left_whole with rfl | rfl
        · cases at_file
        · cases at_file
          exact ⟨⟨start, mem, rfl⟩, fun _ none => absurd none List.not_mem_nil⟩

/-- **Which starts leave the secret whole**: those of which none is cut short.  They may be stopped
anywhere else, and fail anywhere else, in any order and any number of times. -/
theorem secret_whole (along : Along step (fun s start => ¬ CutShort s.state start)
      (Surviving.fresh none) starts) (ran : run step (Surviving.fresh none) starts = some s) :
    SecretWhole starts s := by
  have inv : Inv starts s := by
    refine run_invariant_along (fun s start t ok stepped inv => inv.step ok.2 ok.1 stepped)
      (along.mem fun _ mem => mem) ran ⟨fun _ => rfl, nofun⟩
  cases file : s.state with
  | none =>
      have nothing := inv.absent file
      constructor
      · intro got mem
        rw [nothing] at mem
        cases mem
      · intro a mem
        rw [nothing] at mem
        cases mem
  | some secret =>
      obtain ⟨⟨start, mem, rfl⟩, all⟩ := inv.held secret file
      refine ⟨fun got returned => ?_, fun a ha b hb => (all a ha).trans (all b hb).symm⟩
      rw [all got returned]
      exact ⟨Vector.length_toList, start, mem, rfl⟩

namespace Sample

/-- A start that works, and is stopped after a number of steps. -/
def stopped (steps : ℕ) : Attempt Moment := ⟨steps, fun _ => {}⟩

/-- A start that is not stopped, and draws other bytes. -/
def again : Attempt Moment := ⟨9, fun _ => { random := Vector.replicate 32 1 }⟩

end Sample

/-- Two of the three starts return, and both sign under the same secret. -/
theorem secret_whole_later : ∃ s, run step (Surviving.fresh none)
      [Sample.stopped 2, Sample.stopped 9, Sample.again] = some s ∧ s.returned.length = 2 ∧
    SecretWhole [Sample.stopped 2, Sample.stopped 9, Sample.again] s := by
  obtain ⟨s, ran, both⟩ : ∃ s, run step (Surviving.fresh none)
      [Sample.stopped 2, Sample.stopped 9, Sample.again] = some s ∧ s.returned.length = 2 :=
    ⟨_, rfl, rfl⟩
  exact ⟨s, ran, both, secret_whole (by decide) ran⟩

/-- **A start that is cut short is trusted by the next one**, whichever start that is.  The next
start does not look at how many bytes there are, and so signs under what it finds. -/
theorem cut_short_trusted {next : Attempt Moment} (cut : CutShort none start)
    (reads : (next.moments 0).fails = false) (far : 1 ≤ next.steps) :
    ∃ s, run step (Surviving.fresh none) [start, next] = some s ∧
      ∃ got ∈ s.returned, got.1.length < 32 := by
  obtain ⟨r, left, did, took, what⟩ := load_within_none start
  obtain ⟨k, short, rfl⟩ := (what.resolve_right fun whole => whole.1 cut).2
  obtain ⟨_, trusts, -, returns⟩ := load_within_some ((drawn start).take k) next
  rw [returns reads far] at trusts
  have length : (drawn start).length = 32 := Vector.length_toList
  refine ⟨_, rfl, ((drawn start).take k, some ((drawn start).take k)), ?_, ?_⟩
  · rcases (Surviving.fresh none).call_cases loadOrCreateSecret start with
      ⟨got, after, ran, eq⟩ | ⟨_, after, ran, -, eq⟩
    all_goals
      obtain ⟨rfl, rfl⟩ := Prod.mk.inj (did.symm.trans ran)
      rw [eq, Surviving.call]
      simp only [trusts]
      exact List.mem_concat_self
  · rw [List.length_take]
    omega

/-- **The secret of a start that is stopped before it has filled the file**: the next start takes
the empty file for the secret. -/
theorem empty_secret_returned : ∃ s, run step (Surviving.fresh none)
      [Sample.stopped 3, Sample.again] = some s ∧
    (∃ got ∈ s.returned, got.1 = []) ∧ ¬ SecretWhole [Sample.stopped 3, Sample.again] s := by
  refine ⟨_, rfl, ⟨([], some []), List.mem_singleton_self _, rfl⟩, fun whole => ?_⟩
  have complete := (whole.complete ([], some []) (List.mem_singleton_self _)).1
  cases complete

end SecretRun

/-! ### What is signed under it -/

/-- **A server that has started signs under the secret it has loaded.** So a secret that is not
whole is one that tokens are signed under. -/
theorem ChatServer.state_signs_under {crypto : Crypto} {config : Config} {ω : ℕ → Moment}
    {disk : Disk} {app : AppState}
    (started : ((ChatServer.state crypto config).run.exec ω disk).1 = .ok app) :
    ∃ n, loadOrCreateSecret.run.exec (fun k => ω (k + n)) disk.secret
      = (.ok app.tokens.secret, ((ChatServer.state crypto config).run.exec ω disk).2.secret) := by
  unfold ChatServer.state at started ⊢
  obtain ⟨n, opening⟩ :=
    exec_onDatabase_bind (fun _ => onSecret loadOrCreateSecret >>= fun secret =>
    pure ({ crypto := crypto
            tokens := { secret := secret, validity := config.tokenValidity }
            config := config } : AppState)) ω disk SqliteStore.new
  rw [opening] at started ⊢
  revert started
  rcases SqliteStore.new.run.exec ω disk.database with ⟨e | done, file⟩
  · exact nofun
  · simp only [Except.mapError, onOk_ok]
    obtain ⟨m, loading⟩ := exec_onSecret_bind (fun secret => pure
      ({ crypto := crypto
         tokens := { secret := secret, validity := config.tokenValidity }
         config := config } : AppState)) (fun k => ω (k + n)) (disk.withDatabase file)
      loadOrCreateSecret
    rw [loading]
    have same : (disk.withDatabase file).secret = disk.secret := rfl
    rw [same]
    intro started
    refine ⟨n, ?_⟩
    revert started
    rcases loadOrCreateSecret.run.exec (fun k => ω (k + n)) disk.secret with ⟨e | secret, left⟩
    · exact nofun
    · rintro ⟨⟩
      rfl

end ScionChat
