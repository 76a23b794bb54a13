import ScionChat.Lib.Fallible
import ScionChat.Lib.TransitionSystem

/-!
# Programs that are stopped

A state that lives on outside a program, a file or a directory, is worked on by one program
after another, and each of them may be stopped between two of its steps.  `Prog.within n` is
a program that is stopped after `n` steps, unless it has returned by then: what the steps it
took have done to the state is there for the next program to find.

`Attempt` is what the outside decides about one such program, and `Surviving` is the state with
what the programs have returned so far.

### design decisions

* **A number of steps is all there is to being stopped.**  What kills a program is outside, and can
  choose any `n`.  A program that is let run to its end is one that is stopped late enough.
* **Nothing runs at the same time.**  The next program starts when the last one is gone.  Programs
  that share a state while they run are `Interleaving`'s affair.

### What is load-bearing

`call_cases`: a call returns a value together with the state that it leaves, or leaves traces and
returns none.  An invariant of the surviving state has to hold in both cases, and the second is
where half-written files come from.
-/

namespace Interleaving

section

variable {I E S α β : Type}

/-- **The program run alone, and stopped after `n` steps**: what it has returned by then, and the
state it leaves.  A program that returns before it is stopped has its value; one that is stopped
has none, and its writes so far stay. -/
def Prog.within : ℕ → Prog I S α → (ℕ → I) → S → Option α × S
  | _, ret a, _, s => (some a, s)
  | 0, step _ _, _, s => (none, s)
  | n + 1, step update next, ω, s =>
      (next (ω 0) s).within n (fun k => ω (k + 1)) (update (ω 0) s)

namespace Prog

@[simp] theorem within_ret (n : ℕ) (a : α) (ω : ℕ → I) (s : S) :
    (ret a : Prog I S α).within n ω s = (some a, s) := by
  cases n <;> rfl

@[simp] theorem within_zero (update : I → S → S) (next : I → S → Prog I S α) (ω : ℕ → I)
    (s : S) : (step update next).within 0 ω s = (none, s) := rfl

@[simp] theorem within_succ (n : ℕ) (update : I → S → S) (next : I → S → Prog I S α)
    (ω : ℕ → I) (s : S) : (step update next).within (n + 1) ω s
      = (next (ω 0) s).within n (fun k => ω (k + 1)) (update (ω 0) s) := rfl

end Prog

/-- A program that is run: how many steps it is left to take, and what each of them is given. -/
structure Attempt (I : Type) where
  steps : ℕ
  moments : ℕ → I

/-- A state that outlives the programs that run over it, and what those have returned, each with
the state as it was then. -/
structure Surviving (S α : Type) where
  state : S
  returned : List (α × S)

namespace Surviving

/-- The state, and no program yet. -/
def fresh (s : S) : Surviving S α := ⟨s, []⟩

/-- **A program is run**, as far as it gets. -/
def call (p : Fallible I E S α) (s : Surviving S α) (c : Attempt I) : Surviving S α :=
  match p.run.within c.steps c.moments s.state with
  | (some (.ok a), t) => ⟨t, s.returned ++ [(a, t)]⟩
  | (_, t) => ⟨t, s.returned⟩

variable {p : Fallible I E S α} {s : Surviving S α} {c : Attempt I}

/-- **What a call can do**: it returns a value, or it only leaves its traces.  Either way what it
leaves is what the steps that were taken have written. -/
theorem call_cases (p : Fallible I E S α) (s : Surviving S α) (c : Attempt I) :
    (∃ a t, p.run.within c.steps c.moments s.state = (some (.ok a), t) ∧
        s.call p c = ⟨t, s.returned ++ [(a, t)]⟩) ∨
      ∃ r t, p.run.within c.steps c.moments s.state = (r, t) ∧ (∀ a, r ≠ some (.ok a)) ∧
        s.call p c = ⟨t, s.returned⟩ := by
  unfold call
  rcases p.run.within c.steps c.moments s.state with ⟨_ | (e | a), t⟩
  · exact Or.inr ⟨none, t, rfl, nofun, rfl⟩
  · exact Or.inr ⟨some (.error e), t, rfl, nofun, rfl⟩
  · exact Or.inl ⟨a, t, rfl, rfl⟩

end Surviving

end

end Interleaving
