import ScionChat.Lib.Interleaving

/-!
# Programs that can fail

A fallible program is a program of atomic steps that ends in a value or in an error.  It is
written with `do` in the monad `ExceptT E (Prog I S)`, and reasoned about through its
`run`, the underlying program whose result is an `Except`.

The lemmas here push `run` through the monad's operations, so that the steps a `do` block
takes can be read off by rewriting: `run_bind` hands the result of the first program to
`onOk`, and `onOk` either carries on or returns the error.

### design decisions

* **`Except` inside, `Prog` outside.**  An error ends the program and undoes nothing, as an early
  return does.  What the steps before it have written is there.
* **Lemmas about `run`, not about `bind`.**  Every rule is stated of `(x >>= f).run` for one kind
  of `x`: a value that is there, a step, a part of the state.  A `do` block is taken apart by
  applying them in the order of its lines.

### What is load-bearing

`run_bind`, and `exec_inside_bind` for a program that works on a part of the state.  The
obligations of `Interleaving` and its rules for numbered steps are repeated here for fallible
programs, with the error branch closed once and for all.
-/

namespace Interleaving

/-- A program over a shared state that ends in a value or an error. -/
abbrev Fallible (I E S α : Type) := ExceptT E (Prog I S) α

section

variable {I E F S T α β : Type}

/-- What a program does with the result of the one before it. -/
def onOk (f : α → Fallible I E S β) : Except E α → Prog I S (Except E β)
  | .ok a => (f a).run
  | .error e => .ret (.error e)

@[simp] theorem onOk_ok (f : α → Fallible I E S β) (a : α) : onOk f (.ok a) = (f a).run := rfl

@[simp] theorem onOk_error (f : α → Fallible I E S β) (e : E) :
    onOk f (.error e) = .ret (.error e) := rfl

theorem run_bind (x : Fallible I E S α) (f : α → Fallible I E S β) :
    (x >>= f).run = x.run >>= onOk f := by
  refine congrArg (x.run >>= ·) (funext fun r => ?_)
  cases r <;> rfl

@[simp] theorem run_except_bind (r : Except E α) (f : α → Fallible I E S β) :
    ((liftM r : Fallible I E S α) >>= f).run = onOk f r := by
  cases r <;> rfl

@[simp] theorem run_pure (a : α) : (pure a : Fallible I E S α).run = .ret (.ok a) := rfl

@[simp] theorem run_throw (e : E) : (throw e : Fallible I E S α).run = .ret (.error e) := rfl

theorem run_map (f : α → β) (x : Fallible I E S α) :
    (f <$> x).run = Except.map f <$> x.run := by
  refine congrArg (x.run >>= ·) (funext fun r => ?_)
  cases r <;> rfl

theorem run_discard (x : Fallible I E S α) :
    (discard x).run = Except.map (fun _ => PUnit.unit) <$> x.run :=
  run_map _ x

theorem exec_map_run (f : α → β) (x : Fallible I E S α) (ω : ℕ → I) (s : S) :
    (f <$> x).run.exec ω s = ((x.run.exec ω s).1.map f, (x.run.exec ω s).2) := by
  rw [run_map, Prog.exec_map]

/-- One atomic step that may fail. -/
def tryAtomically (f : I → S → Except E α × S) : Fallible I E S α :=
  ExceptT.mk (Prog.atomically f)

@[simp] theorem run_tryAtomically_bind (f : I → S → Except E α × S)
    (g : α → Fallible I E S β) :
    (tryAtomically f >>= g).run
      = .step (fun i s => (f i s).2) fun i s => onOk g (f i s).1 := by
  rw [run_bind]
  rfl

@[simp] theorem run_tryAtomically (f : I → S → Except E α × S) :
    (tryAtomically f).run = .step (fun i s => (f i s).2) fun i s => .ret (f i s).1 := rfl

/-- A program over a part of a larger state, with its errors seen as errors of the whole. -/
def inside (get : T → S) (put : S → T → T) (raise : E → F) (x : Fallible I E S α) :
    Fallible I F T α :=
  ExceptT.mk (Except.mapError raise <$> x.run.focus get put)

@[simp] theorem run_inside (get : T → S) (put : S → T → T) (raise : E → F)
    (x : Fallible I E S α) :
    (inside get put raise x).run = Except.mapError raise <$> x.run.focus get put := rfl

@[simp] theorem run_throw_bind (e : E) (f : α → Fallible I E S β) :
    ((throw e : Fallible I E S α) >>= f).run = .ret (.error e) := rfl

/-- **A program over a part of the state, run alone on the whole**, and what follows it.  What the
whole has beside that part is as it was, also where the program has failed. -/
theorem exec_inside_bind {get : T → S} {put : S → T → T} (wrap : S → T)
    (get_wrap : ∀ s, get (wrap s) = s) (put_wrap : ∀ s t, put t (wrap s) = wrap t)
    (raise : E → F) (x : Fallible I E S α) (f : α → Fallible I F T β) (ω : ℕ → I) (s : S) :
    ∃ n, (inside get put raise x >>= f).run.exec ω (wrap s)
      = (onOk f ((x.run.exec ω s).1.mapError raise)).exec (fun k => ω (k + n))
          (wrap (x.run.exec ω s).2) := by
  rw [run_bind]
  obtain ⟨n, eq⟩ := Prog.exec_bind (inside get put raise x).run (onOk f) ω (wrap s)
  refine ⟨n, ?_⟩
  rw [eq, run_inside, Prog.exec_map, Prog.exec_focus get_wrap put_wrap]

/-! ### Obligations -/

variable {C : Contract I S} {guar : S → Option (Except E β) → S → Prop}
  {post : Except E β → S → Prop}

/-- **Sequencing.** What the first program does is seen together with how the second one carries on
from it.  The rule is the one of `Interleaving`, with the branch closed in which the first program
fails. -/
theorem meets_run_bind {x : Fallible I E S α} {f : α → Fallible I E S β} {s₀ : S}
    (h : x.run.Meets C (fun s o t => guar s (o.bind fun r => (onOk f r).outcome) t)
      (fun r s => (onOk f r).Meets C guar post s) s₀) :
    (x >>= f).run.Meets C guar post s₀ := by
  rw [run_bind]
  exact Prog.meets_bind h

/-- A value that is already there, or an error. -/
theorem meets_except_bind {r : Except E α} {f : α → Fallible I E S β} {s₀ : S}
    (value : ∀ a, r = .ok a → (f a).run.Meets C guar post s₀)
    (error : ∀ e, r = .error e → post (.error e) s₀) :
    ((liftM r : Fallible I E S α) >>= f).run.Meets C guar post s₀ := by
  rw [run_except_bind]
  cases r with
  | ok a => exact value a rfl
  | error e => exact error e rfl

/-- One atomic step, and what follows it. -/
theorem meets_step_bind {f : I → S → Except E α × S} {g : α → Fallible I E S β} {s₀ : S}
    (acts : ∀ i s, C.admits i → C.inv s → C.rel s₀ s →
      C.inv (f i s).2 ∧ C.rel s (f i s).2 ∧ guar s (onOk g (f i s).1).outcome (f i s).2 ∧
        (onOk g (f i s).1).Meets C guar post (f i s).2) :
    (tryAtomically f >>= g).run.Meets C guar post s₀ := by
  rw [run_tryAtomically_bind]
  exact acts

/-! ### Steps by their number -/

variable {D : ℕ → I → S → S → Prop} {n : ℕ}

theorem stepsDo_run_bind {x : Fallible I E S α} {f : α → Fallible I E S β}
    (first : x.run.StepsDo D n) (rest : ∀ a m, n ≤ m → (f a).run.StepsDo D m) :
    (x >>= f).run.StepsDo D n := by
  rw [run_bind]
  refine Prog.stepsDo_bind first fun r m later => ?_
  cases r with
  | ok a => exact rest a m later
  | error e => exact trivial

theorem stepsDo_except_bind {r : Except E α} {f : α → Fallible I E S β}
    (value : ∀ a, r = .ok a → (f a).run.StepsDo D n) :
    ((liftM r : Fallible I E S α) >>= f).run.StepsDo D n := by
  rw [run_except_bind]
  cases r with
  | ok a => exact value a rfl
  | error e => exact trivial

theorem stepsDo_step_bind {f : I → S → Except E α × S} {g : α → Fallible I E S β}
    (acts : ∀ i s, D n i s (f i s).2) (rest : ∀ a, (g a).run.StepsDo D (n + 1)) :
    (tryAtomically f >>= g).run.StepsDo D n := by
  rw [run_tryAtomically_bind]
  intro i s
  refine ⟨acts i s, ?_⟩
  dsimp only
  cases (f i s).1 with
  | ok a => exact rest a
  | error e => exact trivial

theorem stepsDo_inside {get : T → S} {put : S → T → T} {raise : E → F}
    {D' : ℕ → I → T → T → Prop} (lift : ∀ n i t s, D n i (get t) s → D' n i t (put s t))
    {x : Fallible I E S α} (does : x.run.StepsDo D n) :
    (inside get put raise x).run.StepsDo D' n := by
  rw [run_inside]
  exact Prog.stepsDo_map _ (Prog.stepsDo_focus lift does)

end

end Interleaving
