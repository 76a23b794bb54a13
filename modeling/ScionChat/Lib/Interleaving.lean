import ScionChat.Lib.TransitionSystem

/-!
# Programs of atomic steps, and threads that interleave them

`Prog I S α` is a sequential program over a shared state `S`: it either has returned
an `α`, or it takes one atomic step, which reads the state together with one input
`i : I` from outside (a clock reading, a fault, a reply), updates the state, and goes
on.  The program text fixes nothing about what happens between two of its steps.

* `Prog.exec` runs a program alone, reading its inputs off a stream.
* `Pool` is any number of programs in progress over one state.  A label of
  `Pool.step` starts another program or lets one of them take its next step, so a
  run of the pool is an arbitrary interleaving.

## Rely and guarantee

A `Contract` says what holds between the steps of a pool: an invariant of the state
and a preorder that every step follows.  `Prog.Meets` is the obligation of one program
under it.  Each step starts in *some* state that satisfies the invariant and that the
preorder reaches from the state after the previous step — other threads may have run
in between — and it must keep the invariant, follow the preorder, and satisfy the
program's own guarantee `guar before outcome after`, where `outcome` is what the step
makes the program return, if it is the last one.

`Prog.meets_bind`, `Prog.meets_focus` and the `atomically` rules make the obligation
compositional, so an operation is specified once and its callers use the specification;
`Pool.run_sound` carries it to every reachable pool.

## Steps by their number

A guarantee speaks of every step alike, and does not see the input.  `Prog.StepsDo` is for what
depends on them: which step of a program does something, and on what input.  It asks nothing of
the states in between, so it needs no contract, and `Pool.EachDoes` carries it through a run.
-/

namespace Interleaving

open TransitionSystem

/-- A program over shared states `S` with inputs `I` and result `α`. -/
inductive Prog (I S α : Type) : Type
  | ret (value : α)
  | step (update : I → S → S) (next : I → S → Prog I S α)

namespace Prog

variable {I S T α β γ : Type}

/-- Run `p`, then the program its result selects. -/
def bind : Prog I S α → (α → Prog I S β) → Prog I S β
  | ret a, f => f a
  | step update next, f => step update fun i s => (next i s).bind f

instance : Monad (Prog I S) where
  pure := ret
  bind := bind

@[simp] theorem pure_eq (a : α) : (pure a : Prog I S α) = ret a := rfl

@[simp] theorem ret_bind (a : α) (f : α → Prog I S β) : (ret a >>= f) = f a := rfl

@[simp] theorem step_bind (update : I → S → S) (next : I → S → Prog I S α)
    (f : α → Prog I S β) :
    (step update next >>= f) = step update fun i s => next i s >>= f := rfl

theorem bind_ret (p : Prog I S α) : (p >>= ret) = p := by
  induction p with
  | ret a => rfl
  | step update next ih =>
      rw [step_bind]
      exact congrArg _ (funext fun i => funext fun s => ih i s)

theorem bind_assoc (p : Prog I S α) (f : α → Prog I S β) (g : β → Prog I S γ) :
    (p >>= f >>= g) = p >>= fun a => f a >>= g := by
  induction p with
  | ret a => rfl
  | step update next ih =>
      rw [step_bind, step_bind, step_bind]
      exact congrArg _ (funext fun i => funext fun s => ih i s)

instance : LawfulMonad (Prog I S) :=
  LawfulMonad.mk' (Prog I S) bind_ret (fun _ _ => rfl) bind_assoc

/-- One atomic step that answers `(f i s).1` and leaves `(f i s).2`. -/
def atomically (f : I → S → α × S) : Prog I S α :=
  step (fun i s => (f i s).2) fun i s => ret (f i s).1

/-- One atomic step that only looks. -/
def look (f : I → S → α) : Prog I S α :=
  atomically fun i s => (f i s, s)

/-- A program over a part of a larger state. -/
def focus (get : T → S) (put : S → T → T) : Prog I S α → Prog I T α
  | ret a => ret a
  | step update next =>
      step (fun i t => put (update i (get t)) t) fun i t => (next i (get t)).focus get put

/-- What the program has returned, once it has. -/
def outcome : Prog I S α → Option α
  | ret a => some a
  | step _ _ => none

@[simp] theorem outcome_ret (a : α) : (ret a : Prog I S α).outcome = some a := rfl

@[simp] theorem outcome_step (update : I → S → S) (next : I → S → Prog I S α) :
    (step update next).outcome = none := rfl

theorem outcome_bind (p : Prog I S α) (f : α → Prog I S β) :
    (p >>= f).outcome = p.outcome.bind fun a => (f a).outcome := by
  cases p <;> rfl

theorem outcome_focus (get : T → S) (put : S → T → T) (p : Prog I S α) :
    (p.focus get put).outcome = p.outcome := by
  cases p <;> rfl

/-- **The program run alone**, its `n`-th step with input `ω n`.  Nobody else takes a step in
between, so what one step leaves is what the next one finds. -/
def exec : Prog I S α → (ℕ → I) → S → α × S
  | ret a, _, s => (a, s)
  | step update next, ω, s => (next (ω 0) s).exec (fun n => ω (n + 1)) (update (ω 0) s)

@[simp] theorem exec_ret (a : α) (ω : ℕ → I) (s : S) :
    (ret a : Prog I S α).exec ω s = (a, s) := rfl

@[simp] theorem exec_step (update : I → S → S) (next : I → S → Prog I S α) (ω : ℕ → I)
    (s : S) :
    (step update next).exec ω s
      = (next (ω 0) s).exec (fun n => ω (n + 1)) (update (ω 0) s) := rfl

theorem exec_bind (p : Prog I S α) (f : α → Prog I S β) :
    ∀ (ω : ℕ → I) (s : S), ∃ n,
      (p >>= f).exec ω s = (f (p.exec ω s).1).exec (fun k => ω (k + n)) (p.exec ω s).2 := by
  induction p with
  | ret a => exact fun ω s => ⟨0, rfl⟩
  | step update next ih =>
      intro ω s
      obtain ⟨n, eq⟩ := ih (ω 0) s (fun k => ω (k + 1)) (update (ω 0) s)
      exact ⟨n + 1, eq⟩

/-- Changing the result of a program changes nothing else. -/
theorem exec_map (g : α → β) (p : Prog I S α) :
    ∀ (ω : ℕ → I) (s : S), (g <$> p).exec ω s = (g (p.exec ω s).1, (p.exec ω s).2) := by
  induction p with
  | ret a => exact fun ω s => rfl
  | step update next ih => exact fun ω s => ih (ω 0) s _ _

/-- **A program over a part of the state, run alone on the whole**, where the whole is
some wrapping of the part. -/
theorem exec_focus {get : T → S} {put : S → T → T} {wrap : S → T}
    (get_wrap : ∀ s, get (wrap s) = s) (put_wrap : ∀ s t, put t (wrap s) = wrap t)
    (p : Prog I S α) :
    ∀ (ω : ℕ → I) (s : S),
      (p.focus get put).exec ω (wrap s) = ((p.exec ω s).1, wrap (p.exec ω s).2) := by
  induction p with
  | ret a => exact fun ω s => rfl
  | step update next ih =>
      intro ω s
      rw [focus, exec_step, get_wrap, put_wrap, ih (ω 0) s]
      rfl

end Prog

/-! ## Obligations of one program -/

/-- **What holds between the steps of a pool**: an invariant of the shared state, and a
preorder every step follows.  `admits` bounds the inputs the outside may give. -/
structure Contract (I S : Type) where
  admits : I → Prop
  inv : S → Prop
  rel : S → S → Prop
  refl : ∀ s, rel s s
  trans : ∀ s t u, rel s t → rel t u → rel s u

/-- The contract under which every step also follows `R`. -/
def Contract.relying {I S : Type} (C : Contract I S) (R : S → S → Prop) (refl : ∀ s, R s s)
    (trans : ∀ s t u, R s t → R t u → R s u) : Contract I S :=
  { C with
    rel := fun s t => C.rel s t ∧ R s t
    refl := fun s => ⟨C.refl s, refl s⟩
    trans := fun s t u h h' => ⟨C.trans s t u h.1 h'.1, trans s t u h.2 h'.2⟩ }

namespace Prog

variable {I S T α β : Type}

/-- **The obligation of a program under a contract**, known from the state `s₀` on.  At each of its
steps it may rely on the invariant and on the preorder since `s₀`, and it owes its guarantee,
whatever others have done in between. -/
def Meets (C : Contract I S) (guar : S → Option α → S → Prop) (post : α → S → Prop) :
    Prog I S α → S → Prop
  | ret a, s₀ => post a s₀
  | step update next, s₀ =>
      ∀ i s, C.admits i → C.inv s → C.rel s₀ s →
        C.inv (update i s) ∧ C.rel s (update i s) ∧
          guar s (next i s).outcome (update i s) ∧
            (next i s).Meets C guar post (update i s)

variable {C : Contract I S} {guar guar' : S → Option α → S → Prop}
  {post post' : α → S → Prop}

@[simp] theorem meets_ret (a : α) (s : S) :
    (ret a : Prog I S α).Meets C guar post s ↔ post a s := Iff.rfl

/-- Guarantees and postconditions weaken. -/
theorem Meets.weaken (strong : ∀ s o t, guar s o t → guar' s o t)
    (stronger : ∀ a s, post a s → post' a s) {p : Prog I S α} :
    ∀ {s₀ : S}, p.Meets C guar post s₀ → p.Meets C guar' post' s₀ := by
  induction p with
  | ret a => exact fun h => stronger _ _ h
  | step update next ih =>
      intro s₀ h i s admitted inv rel
      obtain ⟨keeps, follows, own, rest⟩ := h i s admitted inv rel
      exact ⟨keeps, follows, strong _ _ _ own, ih i s rest⟩

/-- Two obligations of one program are one. -/
theorem Meets.and {p : Prog I S α} :
    ∀ {s₀ : S}, p.Meets C guar post s₀ → p.Meets C guar' post' s₀ →
      p.Meets C (fun s o t => guar s o t ∧ guar' s o t) (fun a s => post a s ∧ post' a s) s₀ := by
  induction p with
  | ret a => exact fun h h' => ⟨h, h'⟩
  | step update next ih =>
      intro s₀ h h' i s admitted inv rel
      obtain ⟨keeps, follows, own, rest⟩ := h i s admitted inv rel
      obtain ⟨-, -, own', rest'⟩ := h' i s admitted inv rel
      exact ⟨keeps, follows, ⟨own, own'⟩, ih i s rest rest'⟩

/-- A program that has yet to step may start from any later state. -/
theorem Meets.later (stable : ∀ a s t, C.rel s t → post a s → post a t)
    {p : Prog I S α} {s₀ s₁ : S} (rel : C.rel s₀ s₁) (h : p.Meets C guar post s₀) :
    p.Meets C guar post s₁ := by
  cases p with
  | ret a => exact stable _ _ _ rel h
  | step update next =>
      exact fun i s admitted inv rel' => h i s admitted inv (C.trans _ _ _ rel rel')

/-- **What the guarantees of all threads follow, each may rely on.** -/
theorem Meets.relying {R : S → S → Prop} (refl : ∀ s, R s s)
    (trans : ∀ s t u, R s t → R t u → R s u) (follows : ∀ s o t, guar s o t → R s t)
    {p : Prog I S α} :
    ∀ {s₀ : S}, p.Meets C guar post s₀ →
      p.Meets (C.relying R refl trans) guar post s₀ := by
  induction p with
  | ret a => exact fun h => h
  | step update next ih =>
      intro s₀ h i s admitted inv rel
      obtain ⟨keeps, onward, own, rest⟩ := h i s admitted inv rel.1
      exact ⟨keeps, ⟨onward, follows _ _ _ own⟩, own, ih i s rest⟩

/-- **Sequencing.**  The first program is to end where the second one may start. -/
theorem meets_bind {f : α → Prog I S β} {guar : S → Option β → S → Prop}
    {post : β → S → Prop} {p : Prog I S α} :
    ∀ {s₀ : S},
      p.Meets C (fun s o t => guar s (o.bind fun a => (f a).outcome) t)
          (fun a s => (f a).Meets C guar post s) s₀ →
        (p >>= f).Meets C guar post s₀ := by
  induction p with
  | ret a => exact fun h => h
  | step update next ih =>
      intro s₀ h
      rw [step_bind]
      intro i s admitted inv rel
      obtain ⟨keeps, follows, own, rest⟩ := h i s admitted inv rel
      rw [outcome_bind]
      exact ⟨keeps, follows, own, ih i s rest⟩

/-- Changing the result of a program changes what its guarantee and its postcondition are
about. -/
theorem meets_map (g : α → β) {guar : S → Option β → S → Prop} {post : β → S → Prop}
    {p : Prog I S α} :
    ∀ {s₀ : S}, p.Meets C (fun s o t => guar s (o.map g) t) (fun a s => post (g a) s) s₀ →
      (g <$> p).Meets C guar post s₀ := by
  induction p with
  | ret a => exact fun h => h
  | step update next ih =>
      intro s₀ h i s admitted inv rel
      obtain ⟨keeps, follows, own, rest⟩ := h i s admitted inv rel
      refine ⟨keeps, follows, ?_, ih i s rest⟩
      have same : (g <$> next i s).outcome = (next i s).outcome.map g := by
        cases next i s <;> rfl
      exact same ▸ own

/-- **A program over a part of the state** meets a contract on the whole one when, around
each of its steps, the contract on the part can be met: `lower` hands the program what
it relies on, `raise` turns what it does into a step of the whole, in any state that the
state `b` leads on to. -/
theorem meets_focus {D : Contract I T} {get : T → S} {put : S → T → T}
    {guarS : S → Option α → S → Prop} {guarT : T → Option α → T → Prop}
    {postT : α → T → Prop} {b : T}
    (lower : ∀ i t, D.admits i → D.inv t → C.admits i ∧ C.inv (get t))
    (lowerRel : ∀ t u, D.rel t u → C.rel (get t) (get u))
    (get_put : ∀ s t, get (put s t) = s)
    (raise : ∀ t o s, D.rel b t → D.inv t → C.inv s → C.rel (get t) s → guarS (get t) o s →
      D.inv (put s t) ∧ D.rel t (put s t) ∧ guarT t o (put s t))
    (ends : ∀ a t, D.rel b t → post a (get t) → postT a t) {p : Prog I S α} :
    ∀ {t₀ : T}, D.rel b t₀ → p.Meets C guarS post (get t₀) →
      (p.focus get put).Meets D guarT postT t₀ := by
  induction p with
  | ret a => exact fun rel h => ends _ _ rel h
  | step update next ih =>
      intro t₀ base h i t admitted inv rel
      obtain ⟨admittedS, invS⟩ := lower i t admitted inv
      obtain ⟨keeps, follows, own, rest⟩ := h i (get t) admittedS invS (lowerRel _ _ rel)
      have onward : D.rel b t := D.trans _ _ _ base rel
      obtain ⟨keepsT, followsT, ownT⟩ := raise t _ _ onward inv keeps follows own
      refine ⟨keepsT, followsT, ?_, ih i (get t) (D.trans _ _ _ onward followsT) ?_⟩
      · rw [outcome_focus]
        exact ownT
      · rw [get_put]
        exact rest

/-- **A program run alone** keeps the invariant, follows the preorder, and ends in its
postcondition.  It is the case in which nobody interferes, which is what an operation does by
itself. -/
theorem Meets.exec {p : Prog I S α} :
    ∀ {ω : ℕ → I} {s : S}, (∀ n, C.admits (ω n)) → C.inv s → p.Meets C guar post s →
      C.inv (p.exec ω s).2 ∧ C.rel s (p.exec ω s).2 ∧ post (p.exec ω s).1 (p.exec ω s).2 := by
  induction p with
  | ret a => exact fun _ inv h => ⟨inv, C.refl _, h⟩
  | step update next ih =>
      intro ω s admitted inv h
      obtain ⟨keeps, follows, -, rest⟩ := h (ω 0) s (admitted 0) inv (C.refl s)
      obtain ⟨inv', rel', ends⟩ := ih (ω 0) s (fun n => admitted (n + 1)) keeps rest
      exact ⟨inv', C.trans _ _ _ follows rel', ends⟩

/-- **A program run alone** follows every preorder that its guarantee follows. -/
theorem Meets.exec_follows {R : S → S → Prop} (refl : ∀ s, R s s)
    (trans : ∀ s t u, R s t → R t u → R s u) (follows : ∀ s o t, guar s o t → R s t)
    {p : Prog I S α} :
    ∀ {ω : ℕ → I} {s : S}, (∀ n, C.admits (ω n)) → C.inv s → p.Meets C guar post s →
      R s (p.exec ω s).2 := by
  induction p with
  | ret a => exact fun _ _ _ => refl _
  | step update next ih =>
      intro ω s admitted inv h
      obtain ⟨keeps, -, own, rest⟩ := h (ω 0) s (admitted 0) inv (C.refl s)
      exact trans _ _ _ (follows _ _ _ own)
        (ih (ω 0) s (fun n => admitted (n + 1)) keeps rest)

/-- **A program that writes only as it returns**, run alone, is one guaranteed step, or it
returns at once. -/
theorem Meets.exec_last (quiet : ∀ s t, guar s none t → t = s) {p : Prog I S α} :
    ∀ {ω : ℕ → I} {s : S}, (∀ n, C.admits (ω n)) → C.inv s → p.Meets C guar post s →
      p = .ret (p.exec ω s).1 ∧ (p.exec ω s).2 = s ∨
        guar s (some (p.exec ω s).1) (p.exec ω s).2 := by
  induction p with
  | ret a => exact fun _ _ _ => Or.inl ⟨rfl, rfl⟩
  | step update next ih =>
      intro ω s admitted inv h
      obtain ⟨keeps, -, own, rest⟩ := h (ω 0) s (admitted 0) inv (C.refl s)
      refine Or.inr ?_
      rw [exec_step]
      -- either this step is the one that returns, or it has written nothing
      rcases ih (ω 0) s (fun n => admitted (n + 1)) keeps rest with ⟨ends, stays⟩ | last
      · rw [ends] at own
        rw [stays]
        exact own
      · cases ends : next (ω 0) s with
        | ret a =>
            rw [ends] at own
            exact own
        | step update' next' =>
            rw [ends] at own last
            rw [← ends] at last
            rw [quiet _ _ own] at last ⊢
            rw [← ends]
            exact last

end Prog

/-! ## Pools of threads -/

/-- A program in progress: the operation it carries out, how many steps it has taken,
and what is left of it. -/
structure Thread (Op I S α : Type) where
  op : Op
  taken : ℕ
  prog : Prog I S α

/-- Any number of programs in progress over one state. -/
structure Pool (Op I S α : Type) where
  state : S
  threads : List (Thread Op I S α)

/-- What the scheduler does next. -/
inductive Label (Op I : Type)
  | spawn (op : Op)
  | advance (k : ℕ) (i : I)

namespace Pool

variable {Op I S α : Type} (prog : Op → Prog I S α)

/-- One step of the pool: another operation starts, or the `k`-th one that started takes
its next atomic step.  A thread that has returned takes no more. -/
def step (p : Pool Op I S α) : Label Op I → Option (Pool Op I S α)
  | .spawn op => some { p with threads := p.threads ++ [⟨op, 0, prog op⟩] }
  | .advance k i =>
      match p.threads[k]? with
      | some ⟨op, n, .step update next⟩ =>
          some { state := update i p.state
                 threads := p.threads.set k ⟨op, n + 1, next i p.state⟩ }
      | _ => none

/-- The pool over `s` with nothing in progress. -/
def idle (s : S) : Pool Op I S α := ⟨s, []⟩

/-- The `k`-th operation that started has returned `a`. -/
def Returned (p : Pool Op I S α) (k : ℕ) (op : Op) (a : α) : Prop :=
  ∃ n, p.threads[k]? = some ⟨op, n, .ret a⟩

variable {prog}

@[simp] theorem step_spawn (p : Pool Op I S α) (op : Op) :
    step prog p (.spawn op)
      = some { p with threads := p.threads ++ [⟨op, 0, prog op⟩] } := rfl

/-- **What one step of a thread can do.** It takes its next step in the state that is there, and is
done if that was the last one. -/
theorem step_advance {p q : Pool Op I S α} {k : ℕ} {i : I}
    (h : step prog p (.advance k i) = some q) :
    ∃ op n update next, p.threads[k]? = some ⟨op, n, .step update next⟩ ∧
      q = { state := update i p.state
            threads := p.threads.set k ⟨op, n + 1, next i p.state⟩ } := by
  simp only [step] at h
  split at h
  · rename_i op n update next found
    exact ⟨op, n, update, next, found, (Option.some.inj h).symm⟩
  · cases h

/-- A thread that has returned stays in the pool with its result. -/
theorem Returned.step {p q : Pool Op I S α} {l : Label Op I}
    (h : Pool.step prog p l = some q) {k : ℕ} {op : Op} {a : α}
    (ret : p.Returned k op a) : q.Returned k op a := by
  obtain ⟨n, found⟩ := ret
  obtain ⟨bound, at_k⟩ := List.getElem?_eq_some_iff.mp found
  cases l with
  | spawn op' =>
      cases h
      exact ⟨n, by rw [List.getElem?_append_left bound]; exact found⟩
  | advance j i =>
      obtain ⟨op', n', update, next, foundj, rfl⟩ := step_advance h
      have differ : j ≠ k := by
        rintro rfl
        rw [found] at foundj
        cases foundj
      exact ⟨n, by rw [List.getElem?_set_ne differ]; exact found⟩

theorem Returned.run {p q : Pool Op I S α} {ls : List (Label Op I)}
    (h : TransitionSystem.run (Pool.step prog) p ls = some q) {k : ℕ} {op : Op} {a : α}
    (ret : p.Returned k op a) : q.Returned k op a :=
  run_invariant (P := fun p => p.Returned k op a)
    (fun _ _ _ step ret => Returned.step step ret) h ret

/-- A thread has returned after a step if it had before, or if that was its last step. -/
theorem Returned.of_advance {p : Pool Op I S α} {k : ℕ} {op : Op} {n : ℕ} {s : S}
    {old next : Prog I S α} (found : p.threads[k]? = some ⟨op, n, old⟩) {j : ℕ} {op' : Op}
    {a : α} (ret : Returned ⟨s, p.threads.set k ⟨op, n + 1, next⟩⟩ j op' a) :
    p.Returned j op' a ∨ j = k ∧ op' = op ∧ next.outcome = some a := by
  obtain ⟨m, at_j⟩ := ret
  by_cases same : k = j
  · subst same
    obtain ⟨bound, -⟩ := List.getElem?_eq_some_iff.mp found
    rw [List.getElem?_set_self bound] at at_j
    cases at_j
    exact Or.inr ⟨rfl, rfl, rfl⟩
  · rw [List.getElem?_set_ne same] at at_j
    exact Or.inl ⟨m, at_j⟩

/-- A thread has returned after another one has started if it had before, or if it is that
one and has nothing to do. -/
theorem Returned.of_spawn {p : Pool Op I S α} {op : Op} {th : Prog I S α} {j : ℕ} {op' : Op}
    {a : α} (ret : Returned ⟨p.state, p.threads ++ [⟨op, 0, th⟩]⟩ j op' a) :
    p.Returned j op' a ∨ op' = op ∧ th = .ret a := by
  obtain ⟨m, at_j⟩ := ret
  rcases Nat.lt_or_ge j p.threads.length with old | new
  · rw [List.getElem?_append_left old] at at_j
    exact Or.inl ⟨m, at_j⟩
  · rw [List.getElem?_append_right new] at at_j
    have mem := List.mem_of_getElem? at_j
    cases List.mem_singleton.mp mem
    exact Or.inr ⟨rfl, rfl⟩

/-- A thread that has taken no step has its whole program before it. -/
theorem untaken {s : S} {p : Pool Op I S α} {ls : List (Label Op I)}
    (h : run (Pool.step prog) (idle s) ls = some p) :
    ∀ th ∈ p.threads, th.taken = 0 → th.prog = prog th.op := by
  refine run_invariant (P := fun p => ∀ th ∈ p.threads, th.taken = 0 → th.prog = prog th.op)
    (fun p l q step whole th mem zero => ?_) h fun _ mem => absurd mem List.not_mem_nil
  cases l with
  | spawn op =>
      cases step
      rcases List.mem_append.mp mem with old | new
      · exact whole th old zero
      · cases List.mem_singleton.mp new
        rfl
  | advance k i =>
      obtain ⟨op, n, update, next, found, rfl⟩ := step_advance step
      rcases List.mem_or_eq_of_mem_set mem with old | rfl
      · exact whole th old zero
      · cases zero

variable (prog) in
/-- A thread that is let alone runs to its end. -/
theorem run_to_end (op : Op) (threads : List (Thread Op I S α)) (th : Prog I S α) :
    ∀ (ω : ℕ → I) (s : S) (n : ℕ), ∃ (m : ℕ) (is : List I),
      run (Pool.step prog) ⟨s, threads ++ [⟨op, n, th⟩]⟩ (is.map (.advance threads.length))
        = some ⟨(th.exec ω s).2, threads ++ [⟨op, m, .ret (th.exec ω s).1⟩]⟩ := by
  induction th with
  | ret a => exact fun ω s n => ⟨n, [], rfl⟩
  | step update next ih =>
      intro ω s n
      obtain ⟨m, is, ran⟩ := ih (ω 0) s (fun k => ω (k + 1)) (update (ω 0) s) (n + 1)
      refine ⟨m, ω 0 :: is, ?_⟩
      have steps : Pool.step prog ⟨s, threads ++ [⟨op, n, .step update next⟩]⟩
          (.advance threads.length (ω 0))
            = some ⟨update (ω 0) s, threads ++ [⟨op, n + 1, next (ω 0) s⟩]⟩ := by
        simp [Pool.step]
      rw [List.map_cons, run_cons, steps]
      exact ran

variable (prog) in
/-- **An operation that starts and is let alone** does to the state what its program does.  No
other thread takes a step in between, and those that are there stay where they are. -/
theorem run_alone (p : Pool Op I S α) (op : Op) (ω : ℕ → I) : ∃ (m : ℕ) (is : List I),
    run (Pool.step prog) p (.spawn op :: is.map (.advance p.threads.length))
      = some ⟨((prog op).exec ω p.state).2,
          p.threads ++ [⟨op, m, .ret ((prog op).exec ω p.state).1⟩]⟩ := by
  obtain ⟨m, is, ran⟩ := run_to_end prog op p.threads (prog op) ω p.state 0
  refine ⟨m, is, ?_⟩
  rw [run_cons, step_spawn]
  exact ran

/-- The outcome of a thread that has just stepped. -/
theorem returned_of_outcome {p : Pool Op I S α} {k : ℕ} {op : Op} {n m : ℕ} {a : α}
    {old next : Prog I S α} {s : S} (found : p.threads[k]? = some ⟨op, n, old⟩)
    (ends : next.outcome = some a) :
    Returned ⟨s, p.threads.set k ⟨op, m, next⟩⟩ k op a := by
  obtain ⟨bound, -⟩ := List.getElem?_eq_some_iff.mp found
  cases next with
  | ret b =>
      cases ends
      exact ⟨m, by rw [List.getElem?_set_self bound]⟩
  | step update next => cases ends

/-! ### Every reachable pool is sound -/

section Sound

variable (C : Contract I S) (guar : Op → S → Option α → S → Prop)
  (post : Op → α → S → Prop)

/-- **The invariant of a pool under a contract**: the state satisfies the contract's
invariant, and every thread still meets its obligation from a state that the
contract's preorder leads on from. -/
structure Sound (p : Pool Op I S α) : Prop where
  inv : C.inv p.state
  threads : ∀ th ∈ p.threads, ∃ s₀, C.rel s₀ p.state ∧
    th.prog.Meets C (guar th.op) (post th.op) s₀

variable {C guar post}

/-- The inputs a label hands over are the ones the contract admits. -/
def Admitted (C : Contract I S) : Label Op I → Prop
  | .spawn _ => True
  | .advance _ i => C.admits i

theorem sound_idle {s : S} (inv : C.inv s) :
    Sound C guar post (idle s : Pool Op I S α) :=
  ⟨inv, fun _ mem => absurd mem List.not_mem_nil⟩

/-- **One step of a sound pool** follows the preorder, and the thread that took it has
kept its own guarantee. -/
theorem Sound.advance {p q : Pool Op I S α} (sound : Sound C guar post p) {k : ℕ} {i : I}
    (admitted : C.admits i) (h : step prog p (.advance k i) = some q) :
    ∃ op n old next, p.threads[k]? = some ⟨op, n, old⟩ ∧
      q = ⟨q.state, p.threads.set k ⟨op, n + 1, next⟩⟩ ∧ C.rel p.state q.state ∧
        guar op p.state next.outcome q.state ∧ Sound C guar post q := by
  obtain ⟨op, n, update, next, found, rfl⟩ := step_advance h
  obtain ⟨s₀, rel, meets⟩ := sound.threads _ (List.mem_of_getElem? found)
  obtain ⟨keeps, follows, own, rest⟩ := meets i p.state admitted sound.inv rel
  refine ⟨op, n, _, next i p.state, found, rfl, follows, own, keeps, ?_⟩
  intro th mem
  rcases List.mem_or_eq_of_mem_set mem with old | rfl
  · obtain ⟨s₁, rel₁, meets₁⟩ := sound.threads th old
    exact ⟨s₁, C.trans _ _ _ rel₁ follows, meets₁⟩
  · exact ⟨_, C.refl _, rest⟩

/-- What a thread that has returned left behind. -/
theorem Sound.returned {p : Pool Op I S α} (sound : Sound C guar post p) {k : ℕ} {op : Op}
    {a : α} (ret : p.Returned k op a) : ∃ s₀, C.rel s₀ p.state ∧ post op a s₀ := by
  obtain ⟨n, found⟩ := ret
  exact sound.threads _ (List.mem_of_getElem? found)

theorem Sound.step (meets : ∀ op s, C.inv s → (prog op).Meets C (guar op) (post op) s)
    {p q : Pool Op I S α} {l : Label Op I} (admitted : Admitted C l)
    (h : Pool.step prog p l = some q) (sound : Sound C guar post p) :
    Sound C guar post q := by
  cases l with
  | spawn op =>
      cases h
      refine ⟨sound.inv, fun th mem => ?_⟩
      rcases List.mem_append.mp mem with old | new
      · exact sound.threads th old
      · cases List.mem_singleton.mp new
        exact ⟨p.state, C.refl _, meets op _ sound.inv⟩
  | advance k i =>
      obtain ⟨-, -, -, -, -, -, -, -, sound'⟩ := sound.advance admitted h
      exact sound'

/-- **Every reachable pool is sound**, when each operation meets its obligation.  It is the one
induction over runs of a pool; a contract, and an obligation for each operation, is all that it
asks for. -/
theorem run_sound (meets : ∀ op s, C.inv s → (prog op).Meets C (guar op) (post op) s)
    {p q : Pool Op I S α} {ls : List (Label Op I)} (admitted : ∀ l ∈ ls, Admitted C l)
    (h : run (Pool.step prog) p ls = some q) (sound : Sound C guar post p) :
    Sound C guar post q :=
  run_invariant_of (L := Admitted C) (fun _ _ _ ok step => Sound.step meets ok step)
    admitted h sound

/-- A step follows the contract's preorder. -/
theorem Sound.rel {p q : Pool Op I S α} (sound : Sound C guar post p) {l : Label Op I}
    (admitted : Admitted C l) (h : Pool.step prog p l = some q) :
    C.rel p.state q.state := by
  cases l with
  | spawn op =>
      cases h
      exact C.refl _
  | advance k i =>
      obtain ⟨-, -, -, -, -, -, rel, -, -⟩ := sound.advance admitted h
      exact rel

/-- So does a whole run. -/
theorem run_sound_rel (meets : ∀ op s, C.inv s → (prog op).Meets C (guar op) (post op) s)
    {p : Pool Op I S α} (sound : Sound C guar post p) :
    ∀ {ls : List (Label Op I)} {q : Pool Op I S α}, (∀ l ∈ ls, Admitted C l) →
      run (Pool.step prog) p ls = some q → C.rel p.state q.state := by
  intro ls
  induction ls generalizing p with
  | nil =>
      intro q _ h
      cases h
      exact C.refl _
  | cons l ls ih =>
      intro q admitted h
      rw [run_cons] at h
      obtain ⟨r, first, rest⟩ := Option.bind_eq_some_iff.mp h
      have ok : Admitted C l := admitted l List.mem_cons_self
      exact C.trans _ _ _ (sound.rel ok first)
        (ih (sound.step meets ok first)
          (fun m mem => admitted m (List.mem_cons_of_mem l mem)) rest)

end Sound

end Pool

/-! ## Steps by their number -/

namespace Prog

variable {I S T α β : Type} {D : ℕ → I → S → S → Prop}

/-- **What each step of a program does**, its first one having the number `n`, in whatever state
it is taken. -/
def StepsDo (D : ℕ → I → S → S → Prop) : ℕ → Prog I S α → Prop
  | _, ret _ => True
  | n, step update next => ∀ i s, D n i s (update i s) ∧ (next i s).StepsDo D (n + 1)

/-- What every step does, whatever its number. -/
theorem stepsDo_of_all (all : ∀ n i s t, D n i s t) (p : Prog I S α) : ∀ n, p.StepsDo D n := by
  induction p with
  | ret a => exact fun _ => trivial
  | step update next ih => exact fun n i s => ⟨all _ _ _ _, ih i s (n + 1)⟩

/-- **Sequencing**, where the second program does so from any later number on.  How many steps the
first program takes need not be known for that, as long as the statement about the second one does
not depend on it. -/
theorem stepsDo_bind {f : α → Prog I S β} {p : Prog I S α} :
    ∀ {n : ℕ}, p.StepsDo D n → (∀ a m, n ≤ m → (f a).StepsDo D m) → (p >>= f).StepsDo D n := by
  induction p with
  | ret a => exact fun {n} _ rest => rest a n (Nat.le_refl n)
  | step update next ih =>
      intro n does rest i s
      exact ⟨(does i s).1, ih i s (does i s).2 fun a m later => rest a m (Nat.le_of_succ_le later)⟩

theorem stepsDo_map (g : α → β) {p : Prog I S α} {n : ℕ} (does : p.StepsDo D n) :
    (g <$> p).StepsDo D n :=
  stepsDo_bind does fun _ _ _ => trivial

/-- A program over a part of the state. -/
theorem stepsDo_focus {get : T → S} {put : S → T → T} {D' : ℕ → I → T → T → Prop}
    (raise : ∀ n i t s, D n i (get t) s → D' n i t (put s t)) {p : Prog I S α} :
    ∀ {n : ℕ}, p.StepsDo D n → (p.focus get put).StepsDo D' n := by
  induction p with
  | ret a => exact fun _ => trivial
  | step update next ih =>
      intro n does i t
      exact ⟨raise _ _ _ _ (does i (get t)).1, ih i (get t) (does i (get t)).2⟩

end Prog

namespace Pool

variable {Op I S α : Type} {prog : Op → Prog I S α} {D : Op → ℕ → I → S → S → Prop}

/-- What the threads of a pool have yet to do, each by the number of its next step. -/
def EachDoes (D : Op → ℕ → I → S → S → Prop) (p : Pool Op I S α) : Prop :=
  ∀ th ∈ p.threads, th.prog.StepsDo (D th.op) th.taken

/-- **One step** is one of those its thread does at that number.  The number is how many steps the
thread has taken by then, which the pool records with the states they have met. -/
theorem EachDoes.advance {p q : Pool Op I S α} (each : EachDoes D p) {k : ℕ} {i : I}
    (h : Pool.step prog p (.advance k i) = some q) :
    ∃ th ∈ p.threads[k]?, D th.op th.taken i p.state q.state := by
  obtain ⟨op, n, update, next, found, rfl⟩ := step_advance h
  exact ⟨_, found, (each _ (List.mem_of_getElem? found) i p.state).1⟩

theorem EachDoes.step (does : ∀ op, (prog op).StepsDo (D op) 0) {p q : Pool Op I S α}
    {l : Label Op I} (h : Pool.step prog p l = some q) (each : EachDoes D p) : EachDoes D q := by
  cases l with
  | spawn op =>
      cases h
      intro th mem
      rcases List.mem_append.mp mem with old | new
      · exact each th old
      · cases List.mem_singleton.mp new
        exact does op
  | advance k i =>
      obtain ⟨op, n, update, next, found, rfl⟩ := step_advance h
      intro th mem
      rcases List.mem_or_eq_of_mem_set mem with old | rfl
      · exact each th old
      · exact (each _ (List.mem_of_getElem? found) i p.state).2

end Pool

end Interleaving
