import ScionChat.Lib.Fallible

/-!
# What the steps of a thread have met

What a program returns depends on nothing but what each of its steps has met: the input it
was handed, and the state it was taken in, whatever the other threads have made of it by
then.  `Prog.resume` carries a program past a list of such pairs, and `Pool.met` reads the
list off a run.  `resume_met` joins them: a thread is its program, resumed past what its
steps have met.  So a statement about every interleaving can be made about one program.

`Prog.Always` is the case where it does not matter what is met.

### design decisions

* **States are met, not kept.**  The list holds what the shared state was at each of the thread's
  own steps, and nothing of what happened in between.  This is all that its program can depend on.
* **The list is read off the labels.**  `Pool.met` is a function of the run.  Nothing is added to
  the pool, so a statement that uses it is about the same system as one that does not.

### What is load-bearing

`resume_met`.  A disjunction of everything that a program can come to, given a list of what its
steps have met, is proved by going through the program once; this lemma makes it a fact about a
thread of a pool.  `met_invariant` and `met_rel` say what is known of the states in the list.
-/

namespace Interleaving

open TransitionSystem

namespace Prog

variable {I S T α β : Type}

/-- What is left of a program after steps that have met these inputs and states. -/
def resume : Prog I S α → List (I × S) → Prog I S α
  | p, [] => p
  | ret a, _ :: _ => ret a
  | step _ next, (i, s) :: met => (next i s).resume met

@[simp] theorem resume_nil (p : Prog I S α) : p.resume [] = p := by
  cases p <;> rfl

@[simp] theorem resume_ret (a : α) (met : List (I × S)) : (ret a).resume met = ret a := by
  cases met <;> rfl

@[simp] theorem resume_step (update : I → S → S) (next : I → S → Prog I S α) (i : I) (s : S)
    (met : List (I × S)) : (step update next).resume ((i, s) :: met) = (next i s).resume met := rfl

theorem resume_map (g : α → β) (p : Prog I S α) (met : List (I × S)) :
    (g <$> p).resume met = g <$> p.resume met := by
  induction met generalizing p with
  | nil => rw [resume_nil, resume_nil]
  | cons pair met ih =>
      cases p with
      | ret a => exact resume_ret _ _
      | step update next => exact ih _

/-- A program whose result is changed has returned when it has. -/
theorem ret_of_resume_map {g : α → β} {p : Prog I S α} {met : List (I × S)} {b : β}
    (h : (g <$> p).resume met = ret b) : ∃ a, p.resume met = ret a ∧ b = g a := by
  rw [resume_map] at h
  cases rest : p.resume met with
  | ret a =>
      rw [rest] at h
      cases h
      exact ⟨a, rfl, rfl⟩
  | step update next =>
      rw [rest] at h
      cases h

theorem resume_append (p : Prog I S α) (met later : List (I × S)) :
    p.resume (met ++ later) = (p.resume met).resume later := by
  induction met generalizing p with
  | nil => rw [List.nil_append, resume_nil]
  | cons pair met ih =>
      cases p with
      | ret a => simp
      | step update next => exact ih _

/-- A program that has yet to step has not returned. -/
theorem met_of_resume_step {update : I → S → S} {next : I → S → Prog I S α}
    {met : List (I × S)} {a : α} (h : (step update next).resume met = ret a) :
    ∃ i s later, met = (i, s) :: later ∧ (next i s).resume later = ret a := by
  cases met with
  | nil => cases h
  | cons pair later => exact ⟨pair.1, pair.2, later, rfl, h⟩

/-! ### Results that do not depend on what is met -/

/-- Whatever the steps of the program meet, it returns something that satisfies `Q`. -/
def Always (Q : α → Prop) : Prog I S α → Prop
  | ret a => Q a
  | step _ next => ∀ i s, (next i s).Always Q

theorem always_resume {Q : α → Prop} {p : Prog I S α} {met : List (I × S)} {a : α}
    (always : p.Always Q) (h : p.resume met = ret a) : Q a := by
  induction met generalizing p with
  | nil =>
      rw [resume_nil] at h
      subst h
      exact always
  | cons pair met ih =>
      cases p with
      | ret b =>
          cases h
          exact always
      | step update next => exact ih (always pair.1 pair.2) h

/-- What a program always returns, it returns when it is run alone. -/
theorem always_exec {Q : α → Prop} {p : Prog I S α} (always : p.Always Q) (ω : ℕ → I) (s : S) :
    Q (p.exec ω s).1 := by
  induction p generalizing ω s with
  | ret a => exact always
  | step update next ih => exact ih (ω 0) s (always (ω 0) s) _ _

theorem always_true (p : Prog I S α) : p.Always fun _ => True := by
  induction p with
  | ret a => exact trivial
  | step update next ih => exact ih

theorem Always.weaken {Q R : α → Prop} (weaker : ∀ a, Q a → R a) {p : Prog I S α}
    (h : p.Always Q) : p.Always R := by
  induction p with
  | ret a => exact weaker a h
  | step update next ih => exact fun i s => ih i s (h i s)

theorem always_bind {Q : α → Prop} {R : β → Prop} {f : α → Prog I S β} {p : Prog I S α}
    (first : p.Always Q) (rest : ∀ a, Q a → (f a).Always R) : (p >>= f).Always R := by
  induction p with
  | ret a => exact rest a first
  | step update next ih => exact fun i s => ih i s (first i s)

theorem always_map {Q : β → Prop} (g : α → β) {p : Prog I S α} (h : p.Always fun a => Q (g a)) :
    (g <$> p).Always Q := by
  induction p with
  | ret a => exact h
  | step update next ih => exact fun i s => ih i s (h i s)

end Prog

/-- **Whatever the steps of the first program meet**, it fails, or the second one carries on. -/
theorem always_run_bind {I E S α β : Type} {Q : Except E β → Prop} {x : Fallible I E S α}
    {f : α → Fallible I E S β} (fails : x.run.Always fun r => ∀ e, r = .error e → Q (.error e))
    (rest : ∀ a, (f a).run.Always Q) : (x >>= f).run.Always Q := by
  rw [run_bind]
  refine Prog.always_bind fails fun r error => ?_
  cases r with
  | ok a => exact rest a
  | error e => exact error e rfl

/-! ### What is met in a run -/

namespace Pool

variable {Op I S α : Type} {prog : Op → Prog I S α}

/-- What the `k`-th thread meets in a step. -/
def metBy (k : ℕ) (p : Pool Op I S α) : Label Op I → List (I × S)
  | .spawn _ => []
  | .advance j i => if j = k then [(i, p.state)] else []

variable (prog) in
/-- The inputs and the states that the steps of the `k`-th thread meet in a run. -/
def met (k : ℕ) : Pool Op I S α → List (Label Op I) → List (I × S)
  | _, [] => []
  | p, l :: ls => metBy k p l ++ (step prog p l).elim [] fun q => met k q ls

theorem met_concat (k : ℕ) (l : Label Op I) {ls : List (Label Op I)} :
    ∀ {p q : Pool Op I S α}, run (step prog) p ls = some q →
      met prog k p (ls ++ [l]) = met prog k p ls ++ metBy k q l := by
  induction ls with
  | nil =>
      intro p q h
      cases h
      rw [List.nil_append, met, met, List.nil_append]
      cases step prog p l <;> exact List.append_nil _
  | cons l' ls ih =>
      intro p q h
      rw [run_cons] at h
      obtain ⟨r, first, rest⟩ := Option.bind_eq_some_iff.mp h
      rw [List.cons_append, met, met, first, Option.elim_some, Option.elim_some, ih rest,
        List.append_assoc]

/-- A thread that has not started has met nothing. -/
theorem met_of_length_le {s : S} {p : Pool Op I S α} {ls : List (Label Op I)}
    (h : run (step prog) (idle s) ls = some p) :
    ∀ k, p.threads.length ≤ k → met prog k (idle s) ls = [] := by
  refine run_induction (motive := fun ls p => ∀ k, p.threads.length ≤ k →
    met prog k (idle s) ls = []) (fun _ _ => rfl) ?_ h
  intro ls p l q ran ih stepped k bound
  rw [met_concat k l ran]
  cases l with
  | spawn op =>
      cases stepped
      rw [List.length_append] at bound
      rw [ih k (by omega)]
      rfl
  | advance j i =>
      obtain ⟨op, n, update, next, found, rfl⟩ := step_advance stepped
      have started : j < p.threads.length := (List.getElem?_eq_some_iff.mp found).1
      rw [List.length_set] at bound
      have other : j ≠ k := by omega
      rw [ih k bound, metBy, if_neg other]
      rfl

/-- **A thread is its program, resumed past what its steps have met.** Everything that a thread is
going to do is thereby a matter of what it has met, and a run can be read off the programs. -/
theorem resume_met {s : S} {p : Pool Op I S α} {ls : List (Label Op I)}
    (h : run (step prog) (idle s) ls = some p) :
    ∀ {k th}, p.threads[k]? = some th → (prog th.op).resume (met prog k (idle s) ls) = th.prog := by
  refine run_induction (motive := fun ls p => ∀ {k th}, p.threads[k]? = some th →
    (prog th.op).resume (met prog k (idle s) ls) = th.prog) (fun found => by cases found) ?_ h
  intro ls p l q ran ih stepped k th found
  rw [met_concat k l ran, Prog.resume_append]
  cases l with
  | spawn op =>
      cases stepped
      rw [metBy, Prog.resume_nil]
      rcases Nat.lt_or_ge k p.threads.length with old | new
      · rw [List.getElem?_append_left old] at found
        exact ih found
      · rw [List.getElem?_append_right new] at found
        cases List.mem_singleton.mp (List.mem_of_getElem? found)
        rw [met_of_length_le ran k new, Prog.resume_nil]
  | advance j i =>
      obtain ⟨op, n, update, next, at_j, rfl⟩ := step_advance stepped
      by_cases own : j = k
      · subst own
        rw [List.getElem?_set_self (List.getElem?_eq_some_iff.mp at_j).1] at found
        cases found
        have before := ih at_j
        dsimp only at before
        rw [metBy, if_pos rfl, before, Prog.resume_step, Prog.resume_nil]
      · rw [List.getElem?_set_ne own] at found
        rw [metBy, if_neg own, Prog.resume_nil]
        exact ih found

/-- What the steps of a thread meet in a run that keeps an invariant satisfies it. -/
theorem met_invariant {P : S → Prop} {s : S} {p : Pool Op I S α} {ls : List (Label Op I)}
    (h : run (step prog) (idle s) ls = some p)
    (inv : ∀ ms q, run (step prog) (idle s) ms = some q → P q.state) (k : ℕ) :
    ∀ pair ∈ met prog k (idle s) ls, P pair.2 := by
  refine run_induction (motive := fun ls _ => ∀ pair ∈ met prog k (idle s) ls, P pair.2)
    (fun _ mem => absurd mem List.not_mem_nil) ?_ h
  intro ls p l q ran ih _ pair mem
  rw [met_concat k l ran] at mem
  rcases List.mem_append.mp mem with before | last
  · exact ih pair before
  · cases l with
    | spawn op => cases last
    | advance j i =>
        by_cases own : j = k
        · rw [metBy, if_pos own] at last
          cases List.mem_singleton.mp last
          exact inv ls p ran
        · rw [metBy, if_neg own] at last
          cases last

/-- What the steps of a thread meet in a run in which every step follows a preorder leads on to
the state that the run ends in. -/
theorem met_rel {R : S → S → Prop} (trans : ∀ s t u, R s t → R t u → R s u) {s : S}
    {p : Pool Op I S α} {ls : List (Label Op I)}
    (h : run (step prog) (idle s) ls = some p)
    (follows : ∀ ms l p q, run (step prog) (idle s) ms = some p → step prog p l = some q →
      R p.state q.state) (k : ℕ) :
    ∀ pair ∈ met prog k (idle s) ls, R pair.2 p.state := by
  refine run_induction (motive := fun ls p => ∀ pair ∈ met prog k (idle s) ls, R pair.2 p.state)
    (fun _ mem => absurd mem List.not_mem_nil) ?_ h
  intro ls p l q ran ih stepped pair mem
  have onward := follows ls l p q ran stepped
  rw [met_concat k l ran] at mem
  rcases List.mem_append.mp mem with before | last
  · exact trans _ _ _ (ih pair before) onward
  · cases l with
    | spawn op => cases last
    | advance j i =>
        by_cases own : j = k
        · rw [metBy, if_pos own] at last
          cases List.mem_singleton.mp last
          exact onward
        · rw [metBy, if_neg own] at last
          cases last

/-- What a thread meets in a run that is cut in two. -/
theorem met_append (k : ℕ) {p q : Pool Op I S α} {ls : List (Label Op I)}
    (h : run (step prog) p ls = some q) (ms : List (Label Op I)) :
    met prog k p (ls ++ ms) = met prog k p ls ++ met prog k q ms := by
  induction ls generalizing p with
  | nil =>
      cases h
      rfl
  | cons l ls ih =>
      rw [run_cons] at h
      obtain ⟨r, first, rest⟩ := Option.bind_eq_some_iff.mp h
      rw [List.cons_append, met, met, first, Option.elim_some, Option.elim_some, ih rest,
        List.append_assoc]

/-- What a thread meets is handed to it by a label of the run. -/
theorem advance_of_met {k : ℕ} {i : I} {s : S} {ls : List (Label Op I)} :
    ∀ {p : Pool Op I S α}, (i, s) ∈ met prog k p ls → .advance k i ∈ ls := by
  induction ls with
  | nil => exact fun mem => absurd mem List.not_mem_nil
  | cons l ls ih =>
      intro p mem
      rcases List.mem_append.mp mem with first | rest
      · cases l with
        | spawn op => cases first
        | advance j i' =>
            by_cases own : j = k
            · rw [metBy, if_pos own] at first
              cases List.mem_singleton.mp first
              exact own ▸ List.mem_cons_self
            · rw [metBy, if_neg own] at first
              cases first
      · cases stepped : step prog p l with
        | none =>
            rw [stepped] at rest
            cases rest
        | some q =>
            rw [stepped] at rest
            exact List.mem_cons_of_mem l (ih rest)

/-- **What a thread meets that starts later**, in a run in which every step follows a preorder, is
led on to by the state that the run had before. -/
theorem met_after {R : S → S → Prop} (refl : ∀ s, R s s)
    (trans : ∀ s t u, R s t → R t u → R s u) {s : S} {mid p : Pool Op I S α}
    {early late : List (Label Op I)} (first : run (step prog) (idle s) early = some mid)
    (rest : run (step prog) mid late = some p)
    (follows : ∀ ms l p q, run (step prog) mid ms = some p → step prog p l = some q →
      R p.state q.state) {k : ℕ} (unstarted : mid.threads.length ≤ k) :
    ∀ pair ∈ met prog k (idle s) (early ++ late), R mid.state pair.2 := by
  rw [met_append k first, met_of_length_le first k unstarted, List.nil_append]
  have onward : (∀ pair ∈ met prog k mid late, R mid.state pair.2) ∧ R mid.state p.state := by
    refine run_induction (motive := fun late p => (∀ pair ∈ met prog k mid late,
      R mid.state pair.2) ∧ R mid.state p.state) ⟨fun _ mem => absurd mem List.not_mem_nil,
        refl _⟩ ?_ rest
    intro ms p l q ran ih stepped
    refine ⟨fun pair mem => ?_, trans _ _ _ ih.2 (follows ms l p q ran stepped)⟩
    rw [met_concat k l ran] at mem
    rcases List.mem_append.mp mem with before | last
    · exact ih.1 pair before
    · cases l with
      | spawn op => cases last
      | advance j i =>
          by_cases own : j = k
          · rw [metBy, if_pos own] at last
            cases List.mem_singleton.mp last
            exact ih.2
          · rw [metBy, if_neg own] at last
            cases last
  exact onward.1

end Pool

end Interleaving
