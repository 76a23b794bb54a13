import ScionChat.Lib.Linearization

/-!
# Linearizable histories

`Pool.linearization_point` finds one point in the life of one operation.  This module puts
the points of all operations of a run into one order: a list of entries, each an operation
carried out at once, that leads from the first state of the run to its last.

* `Prog.Atomic` is the property of a program text: there is one step, or none, at which it
  writes and settles its answer.  Unlike `Prog.Linearizes` it remembers the state the
  program has seen last, so what a look has found out may decide a later point; and a
  program may return without any point, when its answer is right where it stands.
* `Prog.OneMoment` is the case that the program is its own specification: what it answers and
  leaves is what it would have, had it run alone at its point.  `oneMoment_step` is the rule for
  a step that only looks, and would find the same again; `OneMoment.map` and `OneMoment.focus`
  are the rules for what programs are made of.
* `Linearization` says what a list of entries has to do with a run: it leads from the first
  state to the last, no operation is in it twice, every operation that has returned is in it
  with the answer it returned, and an operation that had returned before another one
  started comes first.
* `Chained.gains` reads off a history what its operations have added to a log, and which of them
  has added what.
* `Pool.linearizable` finds such a list for every run of a pool whose programs are atomic.
-/

namespace Interleaving

open TransitionSystem

namespace Prog

variable {I S T α β γ : Type} (C : Contract I S)

/-- **The program takes effect at one step, or at none**, known from the state `s₀` on: its
next step either only looks, or is where it takes effect.  A program that has returned takes
effect where it stands. -/
def Atomic (spec : S → α → S → Prop) : Prog I S α → S → Prop
  | ret a, s₀ => spec s₀ a s₀
  | step update next, s₀ =>
      ∀ i s, C.admits i → C.inv s → C.rel s₀ s →
        (update i s = s ∧ (next i s).Atomic spec s) ∨
          (next i s).Settled C (fun a => spec s a (update i s)) (update i s)

variable {C} {spec spec' : S → α → S → Prop}

/-- The program is about to take a step. -/
def Running (p : Prog I S α) : Prop :=
  p.outcome = none

theorem Running.exists_step {p : Prog I S α} (running : p.Running) :
    ∃ update next, p = .step update next := by
  cases p with
  | ret a => cases running
  | step update next => exact ⟨update, next, rfl⟩

/-- A running program that takes effect later still does while others run. -/
theorem Atomic.later {p : Prog I S α} (running : p.Running) {s₀ s₁ : S}
    (rel : C.rel s₀ s₁) (h : p.Atomic C spec s₀) : p.Atomic C spec s₁ := by
  obtain ⟨update, next, rfl⟩ := running.exists_step
  exact fun i s admitted inv rel' => h i s admitted inv (C.trans _ _ _ rel rel')

/-- A program that has returned is settled on its result. -/
theorem settled_of_ret {result : α → Prop} {p : Prog I S α} {a : α} (returns : p = .ret a)
    (holds : result a) (s : S) : p.Settled C result s := by
  subst returns
  exact holds

theorem Settled.weaken {result result' : α → Prop} (weaker : ∀ a, result a → result' a)
    {p : Prog I S α} : ∀ {s₀ : S}, p.Settled C result s₀ → p.Settled C result' s₀ := by
  induction p with
  | ret a => exact fun h => weaker a h
  | step update next ih =>
      intro s₀ h i s admitted inv rel
      obtain ⟨looks, rest⟩ := h i s admitted inv rel
      exact ⟨looks, ih i s rest⟩

/-- A settled program has an answer, whatever inputs it gets. -/
theorem Settled.answers {result : α → Prop} {i : I} (admitted : C.admits i) {p : Prog I S α} :
    ∀ {s₀ : S}, C.inv s₀ → p.Settled C result s₀ → ∃ a, result a := by
  induction p with
  | ret a => exact fun _ h => ⟨a, h⟩
  | step update next ih =>
      intro s₀ inv h
      obtain ⟨-, rest⟩ := h i s₀ admitted inv (C.refl s₀)
      exact ih i s₀ inv rest

theorem Settled.map (g : α → β) {result : β → Prop} {p : Prog I S α} :
    ∀ {s₀ : S}, p.Settled C (fun a => result (g a)) s₀ → (g <$> p).Settled C result s₀ := by
  induction p with
  | ret a => exact fun h => h
  | step update next ih =>
      intro s₀ h i s admitted inv rel
      obtain ⟨looks, rest⟩ := h i s admitted inv rel
      exact ⟨looks, ih i s rest⟩

/-- **Changing the result of an atomic program** changes what its specification is about.  The
points at which it takes effect are the same, since a result is changed without a step. -/
theorem Atomic.map (g : α → β) {spec : S → β → S → Prop} {p : Prog I S α} :
    ∀ {s₀ : S}, p.Atomic C (fun s a t => spec s (g a) t) s₀ → (g <$> p).Atomic C spec s₀ := by
  induction p with
  | ret a => exact fun h => h
  | step update next ih =>
      intro s₀ h i s admitted inv rel
      rcases h i s admitted inv rel with ⟨looks, ahead⟩ | settled
      · exact Or.inl ⟨looks, ih i s ahead⟩
      · refine Or.inr (Settled.map g ?_)
        exact settled

/-- **Specifications weaken**, where every state a point can lie at comes after `base`. -/
theorem Atomic.weaken {base : S}
    (weaker : ∀ s a t, C.rel base s → C.inv s → spec s a t → spec' s a t) {p : Prog I S α} :
    ∀ {s₀ : S}, C.rel base s₀ → C.inv s₀ → p.Atomic C spec s₀ → p.Atomic C spec' s₀ := by
  induction p with
  | ret a => exact fun later inv h => weaker _ _ _ later inv h
  | step update next ih =>
      intro s₀ later _ h i s admitted inv rel
      have later' : C.rel base s := C.trans _ _ _ later rel
      rcases h i s admitted inv rel with ⟨looks, ahead⟩ | settled
      · exact Or.inl ⟨looks, ih i s later' inv ahead⟩
      · exact Or.inr (settled.weaken fun a => weaker _ a _ later' inv)

/-- **A program over a part of the state** is atomic on the whole. -/
theorem Settled.focus {D : Contract I T} {get : T → S} {put : S → T → T}
    (lower : ∀ i t, D.admits i → D.inv t → C.admits i ∧ C.inv (get t))
    (lowerRel : ∀ t u, D.rel t u → C.rel (get t) (get u)) (put_get : ∀ t, put (get t) t = t)
    {result : α → Prop} {p : Prog I S α} :
    ∀ {t₀ : T}, p.Settled C result (get t₀) → (p.focus get put).Settled D result t₀ := by
  induction p with
  | ret a => exact fun h => h
  | step update next ih =>
      intro t₀ h i t admitted inv rel
      obtain ⟨admittedS, invS⟩ := lower i t admitted inv
      obtain ⟨looks, rest⟩ := h i (get t) admittedS invS (lowerRel _ _ rel)
      refine ⟨?_, ih i (get t) rest⟩
      show put (update i (get t)) t = t
      rw [looks, put_get]

theorem Atomic.focus {D : Contract I T} {get : T → S} {put : S → T → T}
    (lower : ∀ i t, D.admits i → D.inv t → C.admits i ∧ C.inv (get t))
    (lowerRel : ∀ t u, D.rel t u → C.rel (get t) (get u)) (put_get : ∀ t, put (get t) t = t)
    (get_put : ∀ s t, get (put s t) = s) {specT : T → α → T → Prop}
    (raise : ∀ t a s, spec (get t) a s → specT t a (put s t)) {p : Prog I S α} :
    ∀ {t₀ : T}, p.Atomic C spec (get t₀) → (p.focus get put).Atomic D specT t₀ := by
  induction p with
  | ret a =>
      intro t₀ h
      have raised := raise t₀ a _ h
      rw [put_get] at raised
      exact raised
  | step update next ih =>
      intro t₀ h i t admitted inv rel
      obtain ⟨admittedS, invS⟩ := lower i t admitted inv
      rcases h i (get t) admittedS invS (lowerRel _ _ rel) with ⟨looks, ahead⟩ | settled
      · refine Or.inl ⟨?_, ih i (get t) ahead⟩
        show put (update i (get t)) t = t
        rw [looks, put_get]
      · refine Or.inr (Settled.focus lower lowerRel put_get ?_)
        rw [get_put]
        exact settled.weaken fun a => raise t a _

/-! ### Programs that are their own specification -/

/-- **The program, run at once** from `s`, answers what `forget` cannot tell from `a`, and leaves
`t`.  Where nothing has to be forgotten, `forget` is the identity and the answers are equal. -/
def AtOnce (forget : α → γ) (p : Prog I S α) (s : S) (a : α) (t : S) : Prop :=
  ∃ (ω : ℕ → I) (a' : α), p.exec ω s = (a', t) ∧ forget a = forget a'

/-- **The program is one moment**: it takes effect where it could as well have been run at once.
The state in which it is run at once is the one that its step of effect has met. -/
def OneMoment (C : Contract I S) (forget : α → γ) (p : Prog I S α) (s₀ : S) : Prop :=
  p.Atomic C (p.AtOnce forget) s₀

/-- The inputs of the first steps, and then those of the others. -/
def inputs (i : I) (ω : ℕ → I) : ℕ → I
  | 0 => i
  | n + 1 => ω n

@[simp] theorem inputs_zero (i : I) (ω : ℕ → I) : inputs i ω 0 = i := rfl

@[simp] theorem inputs_succ (i : I) (ω : ℕ → I) (n : ℕ) : inputs i ω (n + 1) = ω n := rfl

variable {forget : α → γ}

theorem oneMoment_ret (i : I) (a : α) (s₀ : S) : (ret a : Prog I S α).OneMoment C forget s₀ :=
  ⟨fun _ => i, a, rfl, rfl⟩

/-- The rest of the program only looks, and what it answers is what it would answer at once. -/
def Lands (C : Contract I S) (forget : α → γ) (p : Prog I S α) (s : S) : Prop :=
  p.Settled C (fun a => p.AtOnce forget s a s) s

theorem lands_of_ret (i : I) {p : Prog I S α} {a : α} (returns : p = .ret a) (s : S) :
    p.Lands C forget s := by
  subst returns
  exact ⟨fun _ => i, a, rfl, rfl⟩

/-- **The next step is where the program takes effect, or it looks and can be repeated**:
whatever comes between it and the rest of the program, it would find the same again. -/
theorem oneMoment_step {update : I → S → S} {next : I → S → Prog I S α} {s₀ : S}
    (h : ∀ i s, C.admits i → C.inv s → C.rel s₀ s →
      (next i s).Lands C forget (update i s) ∨
        (∀ t, C.inv t → C.rel s t → update i t = t ∧ next i t = next i s) ∧
          (next i s).OneMoment C forget s) :
    (step update next).OneMoment C forget s₀ := by
  intro i s admitted inv rel
  rcases h i s admitted inv rel with lands | ⟨again, rest⟩
  · refine Or.inr (lands.weaken fun a => ?_)
    rintro ⟨ω, a', ran, same⟩
    exact ⟨inputs i ω, a', ran, same⟩
  · refine Or.inl ⟨(again s inv (C.refl s)).1, rest.weaken ?_ (C.refl s) inv⟩
    rintro t a u later inv' ⟨ω, a', ran, same⟩
    obtain ⟨looks, found⟩ := again t inv' later
    refine ⟨inputs i ω, a', ?_, same⟩
    rw [exec_step, inputs_zero, looks, found]
    exact ran

/-- **Changing the result** of a program that is one moment. -/
theorem OneMoment.map {δ : Type} {forget' : β → δ} (g : α → β)
    (blind : ∀ a a', forget a = forget a' → forget' (g a) = forget' (g a')) {p : Prog I S α}
    {s₀ : S} (inv : C.inv s₀) (h : p.OneMoment C forget s₀) :
    (g <$> p).OneMoment C forget' s₀ := by
  refine Atomic.map g (Atomic.weaken (fun s a t _ _ => ?_) (C.refl s₀) inv h)
  rintro ⟨ω, a', ran, same⟩
  refine ⟨ω, g a', ?_, blind a a' same⟩
  rw [exec_map, ran]

/-- **A part of the state**: what is one moment there is one moment on the whole.  What is one
moment of a store is so for a server that has the store in its state. -/
theorem OneMoment.focus {D : Contract I T} {get : T → S} {put : S → T → T}
    (lower : ∀ i t, D.admits i → D.inv t → C.admits i ∧ C.inv (get t))
    (lowerRel : ∀ t u, D.rel t u → C.rel (get t) (get u)) (put_get : ∀ t, put (get t) t = t)
    (get_put : ∀ s t, get (put s t) = s) (put_put : ∀ s s' t, put s (put s' t) = put s t)
    {p : Prog I S α} {t₀ : T} (h : p.OneMoment C forget (get t₀)) :
    (p.focus get put).OneMoment D forget t₀ := by
  refine Atomic.focus lower lowerRel put_get get_put (fun t a s => ?_) h
  rintro ⟨ω, a', ran, same⟩
  refine ⟨ω, a', ?_, same⟩
  have whole : (p.focus get put).exec ω (put (get t) t)
      = ((p.exec ω (get t)).1, put (p.exec ω (get t)).2 t) :=
    exec_focus (fun s => get_put s t) (fun s s' => put_put s' s t) p ω (get t)
  rw [put_get, ran] at whole
  exact whole

end Prog

/-! ## One order for all operations -/

/-- One operation carried out at once: the `thread`-th that started, and the states it took
effect between. -/
structure Entry (Op S : Type) where
  thread : ℕ
  op : Op
  before : S
  after : S

/-- The entries lead from `s` to `t`, each from where the one before it ended. -/
def Chained {Op S : Type} : S → List (Entry Op S) → S → Prop
  | s, [], t => s = t
  | s, e :: history, t => e.before = s ∧ Chained e.after history t

section Chains

variable {Op S : Type}

theorem Chained.append {s t u : S} {history more : List (Entry Op S)} :
    Chained s history t → Chained t more u → Chained s (history ++ more) u := by
  induction history generalizing s with
  | nil =>
      rintro rfl chained
      exact chained
  | cons e history ih =>
      rintro ⟨rfl, rest⟩ chained
      exact ⟨rfl, ih rest chained⟩

theorem Chained.concat {s t : S} {history : List (Entry Op S)} (chained : Chained s history t)
    (e : Entry Op S) (starts : e.before = t) : Chained s (history ++ [e]) e.after :=
  chained.append ⟨starts, rfl⟩

/-- The entries of a chain that is cut in two lead to a state in between. -/
theorem Chained.split {s u : S} {history more : List (Entry Op S)} :
    Chained s (history ++ more) u → ∃ t, Chained s history t ∧ Chained t more u := by
  induction history generalizing s with
  | nil => exact fun chained => ⟨s, rfl, chained⟩
  | cons e history ih =>
      rintro ⟨rfl, rest⟩
      obtain ⟨t, first, second⟩ := ih rest
      exact ⟨t, ⟨rfl, first⟩, second⟩

/-- A preorder that every entry follows relates the ends of a chain. -/
theorem Chained.rel {R : S → S → Prop} (refl : ∀ s, R s s) (trans : ∀ s t u, R s t → R t u → R s u)
    {s t : S} {history : List (Entry Op S)} (follows : ∀ e ∈ history, R e.before e.after) :
    Chained s history t → R s t := by
  induction history generalizing s with
  | nil =>
      rintro rfl
      exact refl s
  | cons e history ih =>
      rintro ⟨rfl, rest⟩
      have later := ih (fun e' mem => follows e' (List.mem_cons_of_mem e mem)) rest
      exact trans _ _ _ (follows e List.mem_cons_self) later

/-- Every entry of a chain lies in between its ends. -/
theorem Chained.within {R : S → S → Prop} (refl : ∀ s, R s s)
    (trans : ∀ s t u, R s t → R t u → R s u) {s t : S} {history : List (Entry Op S)}
    (chained : Chained s history t) (follows : ∀ e ∈ history, R e.before e.after)
    {e : Entry Op S} (mem : e ∈ history) : R s e.before ∧ R e.after t := by
  obtain ⟨early, late, rfl⟩ := List.append_of_mem mem
  obtain ⟨mid, first, starts, rest⟩ := chained.split
  refine ⟨?_, rest.rel refl trans fun e' mem' => ?_⟩
  · rw [starts]
    exact first.rel refl trans fun e' mem' => follows e' (List.mem_append_left _ mem')
  · exact follows e' (List.mem_append_right _ (List.mem_cons_of_mem _ mem'))

/-- What every entry keeps holds at all of them. -/
theorem Chained.keeps {P : S → Prop} {s t : S} {history : List (Entry Op S)}
    (keeps : ∀ e ∈ history, P e.before → P e.after) :
    Chained s history t → P s → ∀ e ∈ history, P e.before ∧ P e.after := by
  induction history generalizing s with
  | nil => exact fun _ _ => List.forall_mem_nil _
  | cons e history ih =>
      rintro ⟨rfl, rest⟩ start
      have first := keeps e List.mem_cons_self start
      have later := ih (fun e' mem => keeps e' (List.mem_cons_of_mem e mem)) rest first
      exact List.forall_mem_cons.mpr ⟨⟨start, first⟩, later⟩

/-- What an entry adds to a log, and which operation it is that adds it. -/
def Entry.gains {α : Type} (log : S → List α) (e : Entry Op S) : List (ℕ × α) :=
  ((log e.after).drop (log e.before).length).map fun a => (e.thread, a)

/-- **A log that every entry only adds to** is what there was, and behind it what the entries have
added, in their order. -/
theorem Chained.gains {α : Type} (log : S → List α) {s t : S} {history : List (Entry Op S)}
    (grows : ∀ e ∈ history, log e.before <+: log e.after) :
    Chained s history t →
      log t = log s ++ (history.flatMap fun e => e.gains log).map Prod.snd := by
  induction history generalizing s with
  | nil =>
      rintro rfl
      exact (List.append_nil _).symm
  | cons e history ih =>
      rintro ⟨rfl, rest⟩
      have later := ih (fun e' mem => grows e' (List.mem_cons_of_mem e mem)) rest
      have first : log e.after = log e.before ++ (e.gains log).map Prod.snd := by
        rw [Entry.gains, List.map_map]
        exact (List.prefix_iff_eq_append.mp (grows e List.mem_cons_self)).symm.trans
          (congrArg _ (List.map_id _).symm)
      rw [later, first, List.flatMap_cons, List.map_append, List.append_assoc]

/-- Operations that each take effect once, and add one thing at most, are told by what they
add. -/
theorem nodup_gains {α : Type} {log : S → List α} {history : List (Entry Op S)}
    (distinct : history.Pairwise fun e e' => e.thread ≠ e'.thread)
    (one : ∀ e ∈ history, (e.gains log).length ≤ 1) :
    ((history.flatMap fun e => e.gains log).map Prod.fst).Nodup := by
  induction history with
  | nil => exact List.nodup_nil
  | cons e history ih =>
      obtain ⟨apart, rest⟩ := List.pairwise_cons.mp distinct
      have own : ∀ e : Entry Op S, ∀ pair ∈ e.gains log, pair.1 = e.thread := by
        intro e pair mem
        obtain ⟨a, -, rfl⟩ := List.mem_map.mp mem
        rfl
      rw [List.flatMap_cons, List.map_append, List.nodup_append]
      refine ⟨?_, ih rest fun e' mem => one e' (List.mem_cons_of_mem e mem), ?_⟩
      · have short := one e List.mem_cons_self
        rcases gained : e.gains log with _ | ⟨pair, _ | ⟨pair', more⟩⟩
        · exact List.nodup_nil
        · exact List.pairwise_singleton _ _
        · rw [gained] at short
          exact absurd short (by simp)
      · intro j mem j' mem'
        obtain ⟨pair, gained, rfl⟩ := List.mem_map.mp mem
        obtain ⟨pair', later, rfl⟩ := List.mem_map.mp mem'
        obtain ⟨e', there, gained'⟩ := List.mem_flatMap.mp later
        rw [own e pair gained, own e' pair' gained']
        exact apart e' there

/-- One entry of each operation is all there is. -/
theorem entry_unique {history : List (Entry Op S)}
    (distinct : history.Pairwise fun e e' => e.thread ≠ e'.thread) {e e' : Entry Op S}
    (mem : e ∈ history) (mem' : e' ∈ history) (thread : e.thread = e'.thread) : e = e' := by
  have apart : history.Pairwise fun e e' => e.thread = e'.thread → e = e' :=
    distinct.imp fun differ same => absurd same differ
  have flipped : history.Pairwise (flip fun e e' => e.thread = e'.thread → e = e') :=
    distinct.imp fun differ same => absurd same.symm differ
  exact apart.forall_of_forall_of_flip (fun _ _ _ => rfl) flipped mem mem' thread

/-- The entry of the operation `k` comes before the one of `j`, wherever that one is. -/
def Precedes (history : List (Entry Op S)) (k j : ℕ) : Prop :=
  ∀ early e late, history = early ++ e :: late → e.thread = j → ∃ e' ∈ early, e'.thread = k

/-- What comes before an entry still does when the history grows, and an entry that is new
comes after all there are. -/
theorem Precedes.concat {history : List (Entry Op S)} {k j : ℕ}
    (precedes : Precedes history k j) {e : Entry Op S}
    (known : e.thread = j → ∃ e' ∈ history, e'.thread = k) :
    Precedes (history ++ [e]) k j := by
  intro early e₁ late split thread
  rcases List.eq_nil_or_concat late with rfl | ⟨late', last, rfl⟩
  · obtain ⟨rfl, same⟩ := List.append_inj' split rfl
    cases same
    exact known thread
  · rw [List.concat_eq_append] at split
    have split' : history ++ [e] = (early ++ e₁ :: late') ++ [last] := by
      rw [split, List.append_assoc, List.cons_append]
    obtain ⟨rfl, -⟩ := List.append_inj' split' rfl
    exact precedes early e₁ late' rfl thread

end Chains

section Linearizations

variable {Op I S α : Type} (prog : Op → Prog I S α) (spec : Op → S → α → S → Prop)

/-- **The history explains the run** from the idle pool over `s₀` along `ls` to `q`: carried
out one after the other, each at once, its operations lead from `s₀` to the state of `q` and
answer what they have returned, in an order that real time does not contradict. -/
structure Linearization (s₀ : S) (ls : List (Label Op I)) (q : Pool Op I S α)
    (history : List (Entry Op S)) : Prop where
  chained : Chained s₀ history q.state
  /-- No operation takes effect twice. -/
  distinct : history.Pairwise fun e e' => e.thread ≠ e'.thread
  /-- Every entry is an operation of the pool that has an answer there. -/
  started : ∀ e ∈ history, (∃ th ∈ q.threads[e.thread]?, th.op = e.op) ∧
    ∃ a, spec e.op e.before a e.after
  /-- Every operation that has returned is there with its answer. -/
  returned : ∀ k op a, q.Returned k op a →
    ∃ e ∈ history, e.thread = k ∧ e.op = op ∧ spec op e.before a e.after
  /-- An operation that had returned before another one started comes first. -/
  ordered : ∀ early late mid, ls = early ++ late → run (Pool.step prog) (Pool.idle s₀) early
      = some mid → ∀ k op a, mid.Returned k op a → ∀ j, mid.threads.length ≤ j →
        Precedes history k j

namespace Linearization

variable {prog spec} {s₀ : S} {ls : List (Label Op I)} {q : Pool Op I S α}
  {history : List (Entry Op S)} {P : S → Prop} {R : S → S → Prop}

/-- What every operation carried out at once keeps and follows, every entry does. -/
theorem steps (lin : Linearization prog spec s₀ ls q history)
    (keeps : ∀ op s a t, P s → spec op s a t → P t ∧ R s t) (start : P s₀) :
    ∀ e ∈ history, P e.before ∧ P e.after ∧ R e.before e.after := by
  have held := lin.chained.keeps (P := P) (fun e mem before => by
    obtain ⟨-, a, at_once⟩ := lin.started e mem
    exact (keeps e.op e.before a e.after before at_once).1) start
  intro e mem
  obtain ⟨before, after⟩ := held e mem
  obtain ⟨-, a, at_once⟩ := lin.started e mem
  exact ⟨before, after, (keeps e.op e.before a e.after before at_once).2⟩

/-- An operation that has returned did so in between the first state and the last. -/
theorem at_once (lin : Linearization prog spec s₀ ls q history) (refl : ∀ s, R s s)
    (trans : ∀ s t u, R s t → R t u → R s u)
    (keeps : ∀ op s a t, P s → spec op s a t → P t ∧ R s t) (start : P s₀) {k : ℕ} {op : Op}
    {a : α} (ret : q.Returned k op a) :
    ∃ s t, P s ∧ R s₀ s ∧ spec op s a t ∧ R t q.state := by
  obtain ⟨e, mem, -, rfl, answered⟩ := lin.returned k op a ret
  have follows := lin.steps keeps start
  obtain ⟨first, rest⟩ :=
    lin.chained.within refl trans (fun e' mem' => (follows e' mem').2.2) mem
  exact ⟨e.before, e.after, (follows e mem).1, first, answered, rest⟩

/-- **An operation that had returned before another one started** took effect before it, and
all that lies in between follows what every operation follows. -/
theorem in_order (lin : Linearization prog spec s₀ ls q history) (refl : ∀ s, R s s)
    (trans : ∀ s t u, R s t → R t u → R s u)
    (keeps : ∀ op s a t, P s → spec op s a t → P t ∧ R s t) (start : P s₀)
    {early late : List (Label Op I)} {mid : Pool Op I S α} (split : ls = early ++ late)
    (first : run (Pool.step prog) (Pool.idle s₀) early = some mid)
    (rest : run (Pool.step prog) mid late = some q) {j k : ℕ} {op op' : Op} {a a' : α}
    (ret : mid.Returned k op a) (unstarted : mid.threads.length ≤ j)
    (ret' : q.Returned j op' a') :
    ∃ s t s' t', P s ∧ spec op s a t ∧ R t s' ∧ P s' ∧ spec op' s' a' t' ∧ R t' q.state := by
  obtain ⟨e, mem, thread, rfl, answered⟩ := lin.returned k op a (ret.run rest)
  obtain ⟨e', mem', thread', rfl, answered'⟩ := lin.returned j op' a' ret'
  have follows := lin.steps keeps start
  have order := lin.ordered early late mid split first k e.op a ret j unstarted
  obtain ⟨before, after, rfl⟩ := List.append_of_mem mem'
  obtain ⟨e₀, mem₀, thread₀⟩ := order before e' after rfl thread'
  obtain rfl : e₀ = e :=
    entry_unique lin.distinct (List.mem_append_left _ mem₀) mem (thread₀.trans thread.symm)
  obtain ⟨one, two, rfl⟩ := List.append_of_mem mem₀
  -- the chain is cut behind the one entry and in front of the other
  obtain ⟨s', chained, starts, rest'⟩ := lin.chained.split
  obtain ⟨-, -, -, between⟩ := chained.split
  refine ⟨e₀.before, e₀.after, e'.before, e'.after, (follows e₀ mem).1, answered, ?_,
    (follows e' mem').1, answered', ?_⟩
  · rw [starts]
    refine between.rel refl trans fun e₁ mem₁ => ?_
    refine (follows e₁ (List.mem_append_left _ (List.mem_append_right _ ?_))).2.2
    exact List.mem_cons_of_mem _ mem₁
  · refine rest'.rel refl trans fun e₁ mem₁ => ?_
    exact (follows e₁ (List.mem_append_right _ (List.mem_cons_of_mem _ mem₁))).2.2

end Linearization

end Linearizations

namespace Pool

variable {Op I S α : Type} {prog : Op → Prog I S α} (C : Contract I S)
  (spec : Op → S → α → S → Prop)

/-- A thread stays in its place, with its operation. -/
theorem op_step {p q : Pool Op I S α} {l : Label Op I} (h : Pool.step prog p l = some q) {k : ℕ}
    {op : Op} (there : ∃ th, p.threads[k]? = some th ∧ th.op = op) :
    ∃ th, q.threads[k]? = some th ∧ th.op = op := by
  obtain ⟨th, found, same⟩ := there
  have bound : k < p.threads.length := (List.getElem?_eq_some_iff.mp found).1
  cases l with
  | spawn op' =>
      cases h
      exact ⟨th, (List.getElem?_append_left bound).trans found, same⟩
  | advance j i =>
      obtain ⟨op', n, update, next, found', rfl⟩ := step_advance h
      by_cases own : j = k
      · subst own
        rw [found'] at found
        cases found
        exact ⟨_, List.getElem?_set_self bound, same⟩
      · exact ⟨th, (List.getElem?_set_ne own).trans found, same⟩

/-- Where the `k`-th operation is: it has taken effect, and what it returns is settled, or it
is running and will. -/
def Placed (history : List (Entry Op S)) (q : Pool Op I S α) (k : ℕ) (op : Op)
    (old : Prog I S α) : Prop :=
  (∃ e ∈ history, e.thread = k ∧ e.op = op ∧
      old.Settled C (fun a => spec op e.before a e.after) q.state) ∨
    (∀ e ∈ history, e.thread ≠ k) ∧ old.Running ∧ old.Atomic C (spec op) q.state

/-- The invariant of a run: the history so far, and where each operation is. -/
structure Explained (s₀ : S) (q : Pool Op I S α) (history : List (Entry Op S)) : Prop where
  chained : Chained s₀ history q.state
  distinct : history.Pairwise fun e e' => e.thread ≠ e'.thread
  inPool : ∀ e ∈ history, e.thread < q.threads.length
  placed : ∀ k op n old, q.threads[k]? = some ⟨op, n, old⟩ → Placed C spec history q k op old

variable {C spec}

/-- An operation that others leave alone stays where it is. -/
theorem Placed.later {history more : List (Entry Op S)} {p q : Pool Op I S α} {k : ℕ} {op : Op}
    {old : Prog I S α} (rel : C.rel p.state q.state) (others : ∀ e ∈ more, e.thread ≠ k)
    (placed : Placed C spec history p k op old) :
    Placed C spec (history ++ more) q k op old := by
  rcases placed with ⟨e, mem, thread, same, settled⟩ | ⟨absent, running, ahead⟩
  · exact Or.inl ⟨e, List.mem_append_left _ mem, thread, same, settled.later rel⟩
  · refine Or.inr ⟨fun e mem => ?_, running, ahead.later running rel⟩
    rcases List.mem_append.mp mem with old_entry | new_entry
    · exact absent e old_entry
    · exact others e new_entry

/-- A program that looks takes effect on the way, and where it stands when it returns. -/
theorem Placed.of_atomic {history : List (Entry Op S)} {q : Pool Op I S α} {k : ℕ} {op : Op}
    {old : Prog I S α} (absent : ∀ e ∈ history, e.thread ≠ k)
    (ahead : old.Atomic C (spec op) q.state) :
    ∃ more, (∀ e ∈ more, e.thread = k ∧ e.before = q.state ∧ e.after = q.state) ∧
      more.length ≤ 1 ∧ Placed C spec (history ++ more) q k op old := by
  cases old with
  | ret a =>
      refine ⟨[⟨k, op, q.state, q.state⟩], List.forall_mem_singleton.mpr ⟨rfl, rfl, rfl⟩,
        Nat.le_refl _, Or.inl ⟨⟨k, op, q.state, q.state⟩, ?_, rfl, rfl, ahead⟩⟩
      exact List.mem_append_right _ (List.mem_singleton_self _)
  | step update next =>
      refine ⟨[], List.forall_mem_nil _, Nat.zero_le _, Or.inr ⟨?_, rfl, ahead⟩⟩
      rw [List.append_nil]
      exact absent

/-- The history gains an entry of one operation, or none, when that one takes a step. -/
theorem Explained.grow {s₀ : S} {p q : Pool Op I S α} {history more : List (Entry Op S)} {k : ℕ}
    (explained : Explained C spec s₀ p history) (absent : more ≠ [] → ∀ e ∈ history, e.thread ≠ k)
    (single : more.length ≤ 1) (own : ∀ e ∈ more, e.thread = k ∧ e.before = p.state ∧
      e.after = q.state) (still : more = [] → q.state = p.state) (bound : k < q.threads.length)
    (grows : p.threads.length ≤ q.threads.length)
    (placed : ∀ j op n old, q.threads[j]? = some ⟨op, n, old⟩ →
      Placed C spec (history ++ more) q j op old) :
    Explained C spec s₀ q (history ++ more) := by
  have inPool : ∀ e ∈ history, e.thread < q.threads.length := fun e mem =>
    Nat.lt_of_lt_of_le (explained.inPool e mem) grows
  match more with
  | [] =>
      rw [List.append_nil] at placed ⊢
      refine ⟨?_, explained.distinct, inPool, placed⟩
      rw [still rfl]
      exact explained.chained
  | [e] =>
      obtain ⟨thread, starts, ends⟩ := own e (List.mem_singleton_self e)
      refine ⟨?_, ?_, ?_, placed⟩
      · rw [← ends]
        exact explained.chained.concat e starts
      · refine List.pairwise_append.mpr ⟨explained.distinct, List.pairwise_singleton _ _, ?_⟩
        intro e' mem e'' mem'
        rw [List.mem_singleton.mp mem', thread]
        exact absent (List.cons_ne_nil _ _) e' mem
      · intro e' mem
        rcases List.mem_append.mp mem with old_entry | new_entry
        · exact inPool e' old_entry
        · rw [List.mem_singleton.mp new_entry, thread]
          exact bound
  | _ :: _ :: _ => exact absurd single (by simp)

/-- **One step of an explained pool** is explained by the history so far, and at most one more
entry, of the operation that took the step. -/
theorem Explained.step {s₀ : S} {p q : Pool Op I S α} {l : Label Op I}
    {history : List (Entry Op S)} (atomic : ∀ op s, C.inv s → (prog op).Atomic C (spec op) s)
    (inv : C.inv p.state) (admitted : Admitted C l) (rel : C.rel p.state q.state)
    (next : Pool.step prog p l = some q) (explained : Explained C spec s₀ p history) :
    ∃ more, more.length ≤ 1 ∧ Explained C spec s₀ q (history ++ more) := by
  cases l with
  | spawn op =>
      cases next
      -- a program that has nothing to do takes effect at once
      have absent : ∀ e ∈ history, e.thread ≠ p.threads.length := fun e mem =>
        Nat.ne_of_lt (explained.inPool e mem)
      obtain ⟨more, own, single, placed⟩ := Placed.of_atomic
        (q := ⟨p.state, p.threads ++ [⟨op, 0, prog op⟩]⟩) absent (atomic op p.state inv)
      refine ⟨more, single, explained.grow (fun _ => absent) single own (fun _ => rfl) (by simp)
        (by simp) fun j op' n old found => ?_⟩
      rcases Nat.lt_or_ge j p.threads.length with old_thread | new_thread
      · rw [List.getElem?_append_left old_thread] at found
        refine (explained.placed j op' n old found).later (C.refl _) fun e mem => ?_
        rw [(own e mem).1]
        exact Nat.ne_of_gt old_thread
      · rw [List.getElem?_append_right new_thread, List.getElem?_singleton] at found
        split at found
        next same =>
          cases found
          obtain rfl : j = p.threads.length := by omega
          exact placed
        next => cases found
  | advance k i =>
      obtain ⟨op, n, update, cont, found, rfl⟩ := step_advance next
      have bound : k < p.threads.length := (List.getElem?_eq_some_iff.mp found).1
      -- where the operation that took the step is now decides what the history gains
      suffices key : ∃ more, more.length ≤ 1 ∧
          (more ≠ [] → ∀ e ∈ history, e.thread ≠ k) ∧
          (∀ e ∈ more, e.thread = k ∧ e.before = p.state ∧ e.after = update i p.state) ∧
          (more = [] → update i p.state = p.state) ∧
          Placed C spec (history ++ more)
            ⟨update i p.state, p.threads.set k ⟨op, n + 1, cont i p.state⟩⟩ k op
              (cont i p.state) by
        obtain ⟨more, single, absent, own, still, placed⟩ := key
        refine ⟨more, single, explained.grow absent single own still (by simpa using bound)
          (by simp) fun j op' m old found' => ?_⟩
        by_cases same : k = j
        · subst same
          rw [List.getElem?_set_self bound] at found'
          cases found'
          exact placed
        · rw [List.getElem?_set_ne same] at found'
          refine (explained.placed j op' m old found').later rel fun e mem => ?_
          rw [(own e mem).1]
          exact same
      rcases explained.placed k op n _ found with ⟨e, mem, thread, same, settled⟩ |
        ⟨absent, -, ahead⟩
      · -- it has taken effect already, so this step only looks
        obtain ⟨looks, rest⟩ := settled i p.state admitted inv (C.refl _)
        refine ⟨[], Nat.zero_le _, fun h => absurd rfl h, List.forall_mem_nil _, fun _ => looks,
          Or.inl ⟨e, List.mem_append_left _ mem, thread, same, ?_⟩⟩
        simp only [looks]
        exact rest
      · rcases ahead i p.state admitted inv (C.refl _) with ⟨looks, ahead'⟩ | settled
        · obtain ⟨more, own, single, placed⟩ := Placed.of_atomic (q := ⟨update i p.state,
            p.threads.set k ⟨op, n + 1, cont i p.state⟩⟩) absent (by rw [looks]; exact ahead')
          simp only [looks] at own placed ⊢
          exact ⟨more, single, fun _ => absent, own, fun _ => trivial, placed⟩
        · refine ⟨[⟨k, op, p.state, update i p.state⟩], Nat.le_refl _, fun _ => absent,
            List.forall_mem_singleton.mpr ⟨rfl, rfl, rfl⟩, fun h => absurd h (List.cons_ne_nil _ _),
            Or.inl ⟨_, List.mem_append_right _ (List.mem_singleton_self _), rfl, rfl, settled⟩⟩

/-- An operation that has returned is in the history. -/
theorem Explained.returned {s₀ : S} {q : Pool Op I S α} {history : List (Entry Op S)}
    (explained : Explained C spec s₀ q history) {k : ℕ} {op : Op} {a : α}
    (ret : q.Returned k op a) :
    ∃ e ∈ history, e.thread = k ∧ e.op = op ∧ spec op e.before a e.after := by
  obtain ⟨n, found⟩ := ret
  rcases explained.placed k op n _ found with ⟨e, mem, thread, same, settled⟩ | ⟨-, running, -⟩
  · exact ⟨e, mem, thread, same, settled⟩
  · cases running

variable {guar : Op → S → Option α → S → Prop} {post : Op → α → S → Prop}

/-- **Every run of a pool of atomic programs is linearizable.** The history lists the operations in
the order of their steps of effect, which is an order that real time allows, and ends in the state
that the pool has reached. -/
theorem linearizable (meets : ∀ op s, C.inv s → (prog op).Meets C (guar op) (post op) s)
    (atomic : ∀ op s, C.inv s → (prog op).Atomic C (spec op) s) {i : I} (input : C.admits i)
    {s₀ : S} (inv : C.inv s₀) {ls : List (Label Op I)} (admitted : ∀ l ∈ ls, Admitted C l)
    {q : Pool Op I S α} (h : run (Pool.step prog) (idle s₀) ls = some q) :
    ∃ history, Linearization prog spec s₀ ls q history := by
  -- the history of a run is the history of its beginning, and what the last step adds
  have key : (∀ l ∈ ls, Admitted C l) → ∃ history, Explained C spec s₀ q history ∧
      ∀ early late mid, ls = early ++ late → run (Pool.step prog) (idle s₀) early = some mid →
        ∀ k op a, mid.Returned k op a → ∀ j, mid.threads.length ≤ j → Precedes history k j := by
    refine run_induction (motive := fun ls q => (∀ l ∈ ls, Admitted C l) →
      ∃ history, Explained C spec s₀ q history ∧ ∀ early late mid, ls = early ++ late →
        run (Pool.step prog) (idle s₀) early = some mid → ∀ k op a, mid.Returned k op a →
          ∀ j, mid.threads.length ≤ j → Precedes history k j) ?_ ?_ h
    · intro _
      refine ⟨[], ⟨rfl, List.Pairwise.nil, List.forall_mem_nil _, fun k op n old found => ?_⟩, ?_⟩
      · cases found
      · intro _ _ _ _ _ _ _ _ _ _ _ early e late split
        simp at split
    · intro ls p l q before ih next ok
      have okBefore : ∀ m ∈ ls, Admitted C m := fun m mem => ok m (List.mem_append_left _ mem)
      have okLast : Admitted C l := ok l (List.mem_append_right _ (List.mem_singleton_self _))
      have sound : Sound C guar post p := run_sound meets okBefore before (sound_idle inv)
      obtain ⟨history, explained, ordered⟩ := ih okBefore
      obtain ⟨more, single, explained'⟩ :=
        explained.step atomic sound.inv okLast (sound.rel okLast next) next
      refine ⟨history ++ more, explained', ?_⟩
      intro early late mid split ran k op a ret j unstarted
      rcases List.eq_nil_or_concat late with rfl | ⟨late', last, rfl⟩
      · -- nothing that has not started yet is in the history
        rw [List.append_nil] at split
        subst split
        rw [run_concat, before, Option.bind_some, next] at ran
        cases ran
        intro early' e late' split' thread
        have := explained'.inPool e (split' ▸ List.mem_append_right _ List.mem_cons_self)
        omega
      · have split' : ls = early ++ late' := by
          rw [List.concat_eq_append, ← List.append_assoc] at split
          exact (List.append_inj' split rfl).1
        have earlier := ordered early late' mid split' ran k op a ret j unstarted
        -- what had returned by then has its entry, so a new one comes after it
        have ran' : run (Pool.step prog) mid late' = some p := by
          rw [split', run_append, ran] at before
          exact before
        obtain ⟨e', mem, thread, -⟩ := explained.returned (ret.run ran')
        match more with
        | [] =>
            rw [List.append_nil]
            exact earlier
        | [e] => exact earlier.concat fun _ => ⟨e', mem, thread⟩
        | _ :: _ :: _ => exact absurd single (by simp)
  obtain ⟨history, explained, ordered⟩ := key admitted
  have sound : Sound C guar post q := run_sound meets admitted h (sound_idle inv)
  refine ⟨history, explained.chained, explained.distinct, fun e mem => ?_,
    fun k op a ret => explained.returned ret, ordered⟩
  -- an entry is the one its thread has, and that thread is settled
  have found := List.getElem?_eq_getElem (explained.inPool e mem)
  rcases explained.placed e.thread _ _ _ found with ⟨e', mem', thread, same, settled⟩ |
    ⟨absent, -⟩
  · obtain rfl : e' = e := entry_unique explained.distinct mem' mem thread
    refine ⟨⟨_, found, same.symm⟩, ?_⟩
    rw [same]
    exact settled.answers input sound.inv
  · exact absurd rfl (absent e mem)

end Pool

end Interleaving
