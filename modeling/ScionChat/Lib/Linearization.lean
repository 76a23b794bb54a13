import ScionChat.Lib.Interleaving

/-!
# Linearization points

An operation that takes several atomic steps is linearizable when each of its runs has
one step at which it takes effect: the operation, executed at once at that step, would
have made the same change to the state and returned the same result.

`Prog.Linearizes` is that property of a program text.  Until its point a program only
looks; at its point it makes its whole change; from there on it is `Prog.Settled`, so
it writes nothing more, and whatever the other threads do in between, what it returns
satisfies the specification at the point.  `Pool.linearization_point` finds the point
in every run of a pool, and `Pool.Took.ordered` says that the points of two threads come
one after the other.

### design decisions

* **A property of the text, with a rule for each step.**  `Linearizes` is defined by recursion on
  the program, and says of a step that it looks or that it is the point.  No schedule is mentioned
  until `linearization_point`, which is proved once.
* **The specification sees the number of the point.**  A caller that knows which step writes can
  say so; the store uses it to tell a refusal that was decided before the insert from one after it.

### What is load-bearing

`Settled`: once the point has passed, what the program will return is right, whatever the others do
to the state.  It has to be stable under the contract's preorder, and is what the second half of a
program is proved to keep.
-/

namespace Interleaving

open TransitionSystem

namespace Prog

variable {I S α : Type} (C : Contract I S)

/-- Nothing more is written, and whatever is returned satisfies `result`, whichever
steps the contract allows in between. -/
def Settled (result : α → Prop) : Prog I S α → S → Prop
  | ret a, _ => result a
  | step update next, s₀ =>
      ∀ i s, C.admits i → C.inv s → C.rel s₀ s →
        update i s = s ∧ (next i s).Settled result s

/-- **The program has a linearization point ahead of it**, `n` steps being behind it:
its next step either only looks, or is the point. -/
def Linearizes (spec : ℕ → S → α → S → Prop) : ℕ → Prog I S α → Prop
  | _, ret _ => False
  | n, step update next =>
      ∀ i s, C.admits i → C.inv s →
        (update i s = s ∧ (next i s).Linearizes spec (n + 1)) ∨
          (next i s).Settled C (fun a => spec n s a (update i s)) (update i s)

variable {C}

/-- A settled program stays settled while others run. -/
theorem Settled.later {result : α → Prop} {p : Prog I S α} {s₀ s₁ : S}
    (rel : C.rel s₀ s₁) (h : p.Settled C result s₀) : p.Settled C result s₁ := by
  cases p with
  | ret a => exact h
  | step update next =>
      exact fun i s admitted inv rel' => h i s admitted inv (C.trans _ _ _ rel rel')

end Prog

namespace Pool

variable {Op I S α : Type} (prog : Op → Prog I S α)

/-- The run from the idle pool over `s₀` along `ls` to `q` contains the step that the
`k`-th operation took after `n` others of its own, and that step went from `before` to
`after`. -/
def Took (s₀ : S) (ls : List (Label Op I)) (q : Pool Op I S α) (k : ℕ) (op : Op) (n : ℕ)
    (before after : S) : Prop :=
  ∃ pre i post mid mid' old, ls = pre ++ .advance k i :: post ∧
    run (step prog) (idle s₀) pre = some mid ∧
      step prog mid (.advance k i) = some mid' ∧ run (step prog) mid' post = some q ∧
        mid.threads[k]? = some ⟨op, n, old⟩ ∧ mid.state = before ∧ mid'.state = after

variable {prog}

/-- A step taken stays taken as the run goes on. -/
theorem Took.concat {s₀ : S} {ls : List (Label Op I)} {p q : Pool Op I S α} {k : ℕ} {op : Op}
    {n : ℕ} {before after : S} (h : Took prog s₀ ls p k op n before after) {l : Label Op I}
    (next : step prog p l = some q) : Took prog s₀ (ls ++ [l]) q k op n before after := by
  obtain ⟨pre, i, post, mid, mid', old, rfl, first, at_k, rest, found⟩ := h
  refine ⟨pre, i, post ++ [l], mid, mid', old, by simp, first, at_k, ?_, found⟩
  rw [run_concat, rest]
  exact next

/-- Threads are never removed. -/
theorem length_le {p q : Pool Op I S α} {ls : List (Label Op I)}
    (h : run (step prog) p ls = some q) : p.threads.length ≤ q.threads.length := by
  refine run_rel (R := fun p q : Pool Op I S α => p.threads.length ≤ q.threads.length)
    (fun _ => Nat.le_refl _) (fun _ _ _ => Nat.le_trans) (fun p l q stepped => ?_) h
  cases l with
  | spawn op =>
      cases stepped
      simp
  | advance k i =>
      obtain ⟨_, _, _, _, -, rfl⟩ := step_advance stepped
      simp

/-- A step taken in a run was taken before its last step, or is that step. -/
theorem Took.of_concat {s₀ : S} {ls : List (Label Op I)} {l : Label Op I} {p q : Pool Op I S α}
    (before : run (step prog) (idle s₀) ls = some p) (next : step prog p l = some q) {k : ℕ}
    {op : Op} {n : ℕ} {b c : S} (h : Took prog s₀ (ls ++ [l]) q k op n b c) :
    Took prog s₀ ls p k op n b c ∨
      ∃ i old, l = .advance k i ∧ p.threads[k]? = some ⟨op, n, old⟩ ∧ p.state = b ∧
        q.state = c := by
  obtain ⟨pre, i, post, mid, mid', old, split, first, at_k, rest, found, rfl, rfl⟩ := h
  rcases List.eq_nil_or_concat post with rfl | ⟨post', last, rfl⟩
  · obtain ⟨rfl, same⟩ := List.append_inj' split rfl
    cases same
    rw [before] at first
    cases first
    rw [next] at at_k
    cases at_k
    exact Or.inr ⟨i, old, rfl, found, rfl, rfl⟩
  · rw [List.concat_eq_append] at split rest
    have split' : ls ++ [l] = (pre ++ .advance k i :: post') ++ [last] := by
      rw [split, List.append_assoc, List.cons_append]
    obtain ⟨rfl, same⟩ := List.append_inj' split' rfl
    obtain ⟨p', early, late⟩ := run_concat_some rest
    rw [run_append, first, Option.bind_some, run_cons, at_k, Option.bind_some, early] at before
    cases before
    exact Or.inl ⟨pre, i, post', mid, mid', old, rfl, first, at_k, early, found, rfl, rfl⟩

/-- A thread that has taken a step is in the pool. -/
theorem Took.started {s₀ : S} {ls : List (Label Op I)} {q : Pool Op I S α} {k : ℕ} {op : Op}
    {n : ℕ} {b c : S} (h : Took prog s₀ ls q k op n b c) : k < q.threads.length := by
  obtain ⟨pre, i, post, mid, mid', old, -, -, at_k, rest, found, -⟩ := h
  have whole : run (step prog) mid (.advance k i :: post) = some q := by
    rw [run_cons, at_k]
    exact rest
  exact Nat.lt_of_lt_of_le (List.getElem?_eq_some_iff.mp found).1 (length_le whole)

section

variable {C : Contract I S} {guar : Op → S → Option α → S → Prop} {post : Op → α → S → Prop}

/-- The rest of a run, after one of its steps, follows the contract's preorder. -/
theorem rel_after
    (meets : ∀ op s, C.inv s → (prog op).Meets C (guar op) (post op) s)
    {s₀ : S} (inv : C.inv s₀) {ls rest : List (Label Op I)} {l : Label Op I}
    (admitted : ∀ m ∈ ls ++ l :: rest, Admitted C m) {p p' q : Pool Op I S α}
    (before : run (step prog) (idle s₀) ls = some p) (at_l : step prog p l = some p')
    (whole : run (step prog) (idle s₀) (ls ++ l :: rest) = some q) :
    C.rel p'.state q.state := by
  have okBefore : ∀ m ∈ ls, Admitted C m := fun m mem => admitted m (by simp [mem])
  have okRest : ∀ m ∈ rest, Admitted C m := fun m mem => admitted m (by simp [mem])
  have sound : Sound C guar post p := run_sound meets okBefore before (sound_idle inv)
  have sound' : Sound C guar post p' := sound.step meets (admitted l (by simp)) at_l
  rw [run_append, before, Option.bind_some, run_cons, at_l, Option.bind_some] at whole
  exact run_sound_rel meets sound' okRest whole

/-- **The steps of two threads come one after the other**, and what lies between them follows the
contract's preorder.  So what an operation has left is still there, as far as the preorder goes,
when a later one starts. -/
theorem Took.ordered
    (meets : ∀ op s, C.inv s → (prog op).Meets C (guar op) (post op) s)
    {s₀ : S} (inv : C.inv s₀) {ls : List (Label Op I)} (admitted : ∀ l ∈ ls, Admitted C l)
    {q : Pool Op I S α} {j k : ℕ} (differ : j ≠ k) {op op' : Op} {n m : ℕ}
    {before after before' after' : S}
    (hj : Took prog s₀ ls q j op n before after)
    (hk : Took prog s₀ ls q k op' m before' after') :
    C.rel after before' ∨ C.rel after' before := by
  obtain ⟨pre, i, rest, mid, mid', -, rfl, run₁, step₁, -, -, rfl, rfl⟩ := hj
  obtain ⟨pre', i', rest', mid₁, mid₁', -, same, run₂, step₂, -, -, rfl, rfl⟩ := hk
  -- the labels are cut in two places: either comes first
  rcases List.append_eq_append_iff.mp same with ⟨more, long, tail⟩ | ⟨more, long, tail⟩
  · cases more with
    | nil =>
        simp only [List.nil_append, List.cons.injEq, Label.advance.injEq] at tail
        exact absurd tail.1.1 differ
    | cons l more =>
        simp only [List.cons_append, List.cons.injEq] at tail
        obtain ⟨rfl, -⟩ := tail
        rw [long] at run₂
        refine Or.inl (rel_after meets inv (fun m mem => admitted m ?_) run₁ step₁ run₂)
        rw [same, long]
        exact List.mem_append_left _ mem
  · cases more with
    | nil =>
        simp only [List.nil_append, List.cons.injEq, Label.advance.injEq] at tail
        exact absurd tail.1.1.symm differ
    | cons l more =>
        simp only [List.cons_append, List.cons.injEq] at tail
        obtain ⟨rfl, -⟩ := tail
        rw [long] at run₁
        refine Or.inr (rel_after meets inv (fun m mem => admitted m ?_) run₂ step₂ run₁)
        rw [long]
        exact List.mem_append_left _ mem

/-- A step that was taken started in the invariant and followed the contract's preorder, and
what it left leads on to where the run has got. -/
theorem Took.sound
    (meets : ∀ op s, C.inv s → (prog op).Meets C (guar op) (post op) s)
    {s₀ : S} (inv : C.inv s₀) {ls : List (Label Op I)} (admitted : ∀ l ∈ ls, Admitted C l)
    {q : Pool Op I S α} (ran : run (step prog) (idle s₀) ls = some q) {k : ℕ} {op : Op} {n : ℕ}
    {before after : S} (h : Took prog s₀ ls q k op n before after) :
    C.inv before ∧ C.rel before after ∧ C.rel after q.state := by
  obtain ⟨pre, i, rest, mid, mid', -, rfl, first, at_k, -, -, rfl, rfl⟩ := h
  have okBefore : ∀ m ∈ pre, Admitted C m := fun m mem => admitted m (by simp [mem])
  have sound : Sound C guar post mid := run_sound meets okBefore first (sound_idle inv)
  exact ⟨sound.inv, sound.rel (admitted _ (by simp)) at_k,
    rel_after meets inv admitted first at_k ran⟩

/-- Where a thread with a linearization point is: still ahead of it, having written nothing,
or past it, having written nothing else. -/
def AtPoint (C : Contract I S) (prog : Op → Prog I S α) (spec : ℕ → S → α → S → Prop) (s₀ : S)
    (ls : List (Label Op I)) (q : Pool Op I S α) (k : ℕ) (op : Op) (n : ℕ)
    (old : Prog I S α) : Prop :=
  (old.Linearizes C spec n ∧ ∀ m b c, Took prog s₀ ls q k op m b c → c = b) ∨
    ∃ m before after, Took prog s₀ ls q k op m before after ∧
      old.Settled C (fun a => spec m before a after) q.state ∧
        ∀ m' b c, Took prog s₀ ls q k op m' b c → (b = before ∧ c = after) ∨ c = b

/-- A thread that another step leaves alone stays where it is. -/
theorem AtPoint.other {spec : ℕ → S → α → S → Prop} {s₀ : S} {ls : List (Label Op I)}
    {l : Label Op I} {p q : Pool Op I S α} (before : run (step prog) (idle s₀) ls = some p)
    (next : step prog p l = some q) (rel : C.rel p.state q.state) {k : ℕ} {op : Op} {n : ℕ}
    {old : Prog I S α} (other : ∀ i, l ≠ .advance k i)
    (h : AtPoint C prog spec s₀ ls p k op n old) :
    AtPoint C prog spec s₀ (ls ++ [l]) q k op n old := by
  have earlier : ∀ {m b c}, Took prog s₀ (ls ++ [l]) q k op m b c →
      Took prog s₀ ls p k op m b c := by
    intro m b c took
    rcases took.of_concat before next with took | ⟨i, -, same, -⟩
    · exact took
    · exact absurd same (other i)
  rcases h with ⟨ahead, silent⟩ | ⟨m, s, t, took, settled, silent⟩
  · exact Or.inl ⟨ahead, fun m b c took => silent m b c (earlier took)⟩
  · exact Or.inr ⟨m, s, t, took.concat next, settled.later rel,
      fun m' b c took' => silent m' b c (earlier took')⟩

/-- The thread that steps only looks, or passes its point. -/
theorem AtPoint.own {spec : ℕ → S → α → S → Prop} {s₀ : S} {ls : List (Label Op I)}
    {p : Pool Op I S α} (before : run (step prog) (idle s₀) ls = some p) (inv : C.inv p.state)
    {k : ℕ} {i : I} (admitted : C.admits i) {op : Op} {n : ℕ} {update : I → S → S}
    {next : I → S → Prog I S α} (found : p.threads[k]? = some ⟨op, n, .step update next⟩)
    (h : AtPoint C prog spec s₀ ls p k op n (.step update next)) :
    AtPoint C prog spec s₀ (ls ++ [.advance k i])
      ⟨update i p.state, p.threads.set k ⟨op, n + 1, next i p.state⟩⟩ k op (n + 1)
        (next i p.state) := by
  have stepped : step prog p (.advance k i)
      = some ⟨update i p.state, p.threads.set k ⟨op, n + 1, next i p.state⟩⟩ := by
    simp only [step, found]
  have here : Took prog s₀ (ls ++ [.advance k i])
      ⟨update i p.state, p.threads.set k ⟨op, n + 1, next i p.state⟩⟩ k op n p.state
        (update i p.state) :=
    ⟨ls, i, [], p, _, _, rfl, before, stepped, rfl, found, rfl, rfl⟩
  rcases h with ⟨ahead, silent⟩ | ⟨m, s, t, took, settled, silent⟩
  · -- still ahead of its point, which this step passes or leaves for later
    rcases ahead i p.state admitted inv with ⟨looks, ahead⟩ | settled
    · refine Or.inl ⟨ahead, fun m b c took => ?_⟩
      rcases took.of_concat before stepped with earlier | ⟨_, _, -, -, rfl, rfl⟩
      · exact silent m b c earlier
      · exact looks
    · refine Or.inr ⟨n, p.state, _, here, settled, fun m b c took => ?_⟩
      rcases took.of_concat before stepped with earlier | ⟨_, _, -, -, rfl, rfl⟩
      · exact Or.inr (silent m b c earlier)
      · exact Or.inl ⟨rfl, rfl⟩
  · -- past its point, so this step only looks
    obtain ⟨looks, settled'⟩ := settled i p.state admitted inv (C.refl _)
    refine Or.inr ⟨m, s, t, took.concat stepped, ?_, fun m' b c took' => ?_⟩
    · simp only [looks]
      exact settled'
    · rcases took'.of_concat before stepped with earlier | ⟨_, _, -, -, rfl, rfl⟩
      · exact silent m' b c earlier
      · exact Or.inr looks

/-- **Every operation that has returned took effect at one of its own steps**, and none of
its other steps wrote anything. -/
theorem linearization_point
    (meets : ∀ op s, C.inv s → (prog op).Meets C (guar op) (post op) s)
    {s₀ : S} (inv : C.inv s₀) {op : Op} {spec : ℕ → S → α → S → Prop}
    (linearizes : (prog op).Linearizes C spec 0) {ls : List (Label Op I)}
    (admitted : ∀ l ∈ ls, Admitted C l) {q : Pool Op I S α}
    (h : run (step prog) (idle s₀) ls = some q) {k : ℕ} {a : α} (ret : q.Returned k op a) :
    ∃ n before after, Took prog s₀ ls q k op n before after ∧ spec n before a after ∧
      ∀ m b c, Took prog s₀ ls q k op m b c → (b = before ∧ c = after) ∨ c = b := by
  -- every thread of this operation is somewhere along its way
  have key : (∀ l ∈ ls, Admitted C l) → ∀ k n old, q.threads[k]? = some ⟨op, n, old⟩ →
      AtPoint C prog spec s₀ ls q k op n old := by
    refine run_induction (motive := fun ls q => (∀ l ∈ ls, Admitted C l) →
      ∀ k n old, q.threads[k]? = some ⟨op, n, old⟩ → AtPoint C prog spec s₀ ls q k op n old)
      ?_ ?_ h
    · intro _ k n old found
      cases found
    · intro ls p l q before ih next ok k n old found
      have okBefore : ∀ m ∈ ls, Admitted C m := fun m mem => ok m (by simp [mem])
      have okLast : Admitted C l := ok l (by simp)
      have sound : Sound C guar post p := run_sound meets okBefore before (sound_idle inv)
      have rel : C.rel p.state q.state := sound.rel okLast next
      cases l with
      | spawn op' =>
          have stays : p.threads[k]? = some ⟨op, n, old⟩ →
              AtPoint C prog spec s₀ (ls ++ [.spawn op']) q k op n old := fun foundp =>
            (ih okBefore k n old foundp).other before next rel fun i same => by cases same
          cases next
          rcases Nat.lt_or_ge k p.threads.length with old_thread | new_thread
          · rw [List.getElem?_append_left old_thread] at found
            exact stays found
          · rw [List.getElem?_append_right new_thread, List.getElem?_singleton] at found
            split at found
            · cases found
              refine Or.inl ⟨linearizes, fun m b c took => ?_⟩
              -- a thread that has just started has taken no step
              rcases took.of_concat before rfl with earlier | ⟨i, _, same, -⟩
              · exact absurd earlier.started (Nat.not_lt.mpr new_thread)
              · cases same
            · cases found
      | advance j i =>
          obtain ⟨op', n', update, next', foundj, rfl⟩ := step_advance next
          by_cases same : j = k
          · subst same
            obtain ⟨bound, -⟩ := List.getElem?_eq_some_iff.mp foundj
            rw [List.getElem?_set_self bound] at found
            cases found
            exact (ih okBefore j n' _ foundj).own before sound.inv okLast foundj
          · rw [List.getElem?_set_ne same] at found
            refine (ih okBefore k n old found).other before next rel fun i' eq => ?_
            cases eq
            exact same rfl
  obtain ⟨n, found⟩ := ret
  rcases key admitted k n _ found with ⟨ahead, -⟩ | ⟨m, before, after, took, settled, silent⟩
  · exact absurd ahead id
  · exact ⟨m, before, after, took, settled, silent⟩

end

end Pool

end Interleaving
