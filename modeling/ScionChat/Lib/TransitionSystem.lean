import Mathlib.Data.List.Induction

/-!
# Runs of a labelled transition function

A system is a function `step : σ → ℓ → Option σ`: the label carries every choice
the outside makes, and `none` says that the label does not apply in that state.
A run is the fold of `step` over a list of labels, so runs compute and a concrete
schedule can be replayed.

What a whole run preserves follows from what one step preserves.  The rules are
stated once, for every system:

* `run_projects` — where one system steps as another does, its runs are the other's;
* `run_induction` — induction on the labels, newest last, with the state reached
  so far in hand;
* `run_invariant` — a predicate kept by every step is kept by every run;
* `run_invariant_along` — a predicate kept by every step that meets a side condition, on
  the label and the state it is taken in, is kept by every run whose steps all meet it;
* `along_iff_reached` — where the side condition is exact, the predicate holds of every state
  reached if and only if the run meets it;
* `run_rel` — a preorder that every step follows relates the ends of every run;
* `EveryStep.imp` — what each step implies carries over to labels whose steps all do;
* `everyStep_iff_along` — where the side condition says exactly which steps satisfy `R`, all steps
  of a run do if and only if the run meets it;
* `run_split` — a run over `ls ++ ms` passes through the state `ls` leads to;
* `run_images` — where each step of a system is some steps of another one, or none, its runs are
  runs of the other, and `images_append` says along which labels.
-/

namespace TransitionSystem

universe u v

variable {σ : Type u} {ℓ : Type v} (step : σ → ℓ → Option σ)

/-- The state a list of labels leads to, when each of them applies in turn. -/
def run : σ → List ℓ → Option σ
  | s, [] => some s
  | s, l :: ls => (step s l).bind fun t => run t ls

variable {step}

@[simp] theorem run_nil (s : σ) : run step s [] = some s := rfl

theorem run_cons (s : σ) (l : ℓ) (ls : List ℓ) :
    run step s (l :: ls) = (step s l).bind fun t => run step t ls := rfl

theorem run_append (s : σ) (ls ms : List ℓ) :
    run step s (ls ++ ms) = (run step s ls).bind fun t => run step t ms := by
  induction ls generalizing s with
  | nil => rfl
  | cons l ls ih =>
      rw [List.cons_append, run_cons, run_cons, Option.bind_assoc]
      exact congrArg _ (funext ih)

theorem run_singleton (s : σ) (l : ℓ) : run step s [l] = step s l := by
  rw [run_cons]
  exact Option.bind_fun_some _

theorem run_concat (s : σ) (ls : List ℓ) (l : ℓ) :
    run step s (ls ++ [l]) = (run step s ls).bind fun t => step t l := by
  rw [run_append]
  exact congrArg _ (funext fun t => run_singleton t l)

/-- A run over `ls ++ ms` passes through the state that `ls` leads to. -/
theorem run_split {s u : σ} {ls ms : List ℓ} (h : run step s (ls ++ ms) = some u) :
    ∃ t, run step s ls = some t ∧ run step t ms = some u := by
  rw [run_append] at h
  exact Option.bind_eq_some_iff.mp h

theorem run_join {s t u : σ} {ls ms : List ℓ} (first : run step s ls = some t)
    (rest : run step t ms = some u) : run step s (ls ++ ms) = some u := by
  rw [run_append, first]
  exact rest

/-- A run whose last label is `l` takes its last step from a state the rest leads to. -/
theorem run_concat_some {s u : σ} {ls : List ℓ} {l : ℓ}
    (h : run step s (ls ++ [l]) = some u) :
    ∃ t, run step s ls = some t ∧ step t l = some u := by
  rw [run_concat] at h
  exact Option.bind_eq_some_iff.mp h

/-- Where a system steps as another one does, up to `f`, its runs are the other's. -/
theorem run_projects {σ' : Type u} {ℓ' : Type v} {step' : σ' → ℓ' → Option σ'} (f : σ → σ')
    (g : ℓ → ℓ') (steps : ∀ s l, (step s l).map f = step' (f s) (g l)) (s : σ) (ls : List ℓ) :
    (run step s ls).map f = run step' (f s) (ls.map g) := by
  induction ls generalizing s with
  | nil => rfl
  | cons l ls ih =>
      rw [List.map_cons, run_cons, run_cons, ← steps]
      cases step s l with
      | none => rfl
      | some t => exact ih t

/-- **Induction over a run, newest step last.** The last step is taken from the state that the
steps before it have reached. -/
theorem run_induction {s : σ} {motive : List ℓ → σ → Prop} (start : motive [] s)
    (next : ∀ ls t l u, run step s ls = some t → motive ls t → step t l = some u →
      motive (ls ++ [l]) u) :
    ∀ {ls : List ℓ} {t : σ}, run step s ls = some t → motive ls t := by
  intro ls
  induction ls using List.reverseRecOn with
  | nil =>
      intro t h
      cases h
      exact start
  | append_singleton ls l ih =>
      intro u h
      obtain ⟨t, before, last⟩ := run_concat_some h
      exact next ls t l u before (ih before) last

/-- **The invariant rule.** What the first state has, and every step keeps, every state has that is
reached. -/
theorem run_invariant {P : σ → Prop}
    (keeps : ∀ s l t, step s l = some t → P s → P t)
    {s t : σ} {ls : List ℓ} (h : run step s ls = some t) (start : P s) : P t :=
  run_induction (motive := fun _ t => P t) start
    (fun _ t l u _ inv last => keeps t l u last inv) h

/-- **The invariant rule, for labels of one kind**: only the steps whose label satisfies
`L` have to keep the predicate, and only a run made of such labels keeps it. -/
theorem run_invariant_of {L : ℓ → Prop} {P : σ → Prop}
    (keeps : ∀ s l t, L l → step s l = some t → P s → P t) :
    ∀ {ls : List ℓ} {s t : σ}, (∀ l ∈ ls, L l) → run step s ls = some t → P s → P t := by
  intro ls
  induction ls with
  | nil =>
      intro s t _ h inv
      cases h
      exact inv
  | cons l ls ih =>
      intro s u allowed h inv
      rw [run_cons] at h
      obtain ⟨t, first, rest⟩ := Option.bind_eq_some_iff.mp h
      exact ih (fun m mem => allowed m (List.mem_cons_of_mem l mem)) rest
        (keeps s l t (allowed l List.mem_cons_self) first inv)

variable (step) in
/-- Every label of the list meets `ok` in the state it is taken in. -/
def Along (ok : σ → ℓ → Prop) : σ → List ℓ → Prop
  | _, [] => True
  | s, l :: ls => ok s l ∧ ∀ t ∈ step s l, Along ok t ls

instance decidableAlong {ok : σ → ℓ → Prop} [∀ s l, Decidable (ok s l)] :
    ∀ s ls, Decidable (Along step ok s ls)
  | _, [] => isTrue trivial
  | s, l :: ls =>
      have : ∀ t, Decidable (Along step ok t ls) := fun t => decidableAlong t ls
      inferInstanceAs (Decidable (ok s l ∧ ∀ t ∈ step s l, Along step ok t ls))

/-- The labels of a run are among those of the run. -/
theorem Along.mem {ok : σ → ℓ → Prop} {ms : List ℓ} : ∀ {ls : List ℓ} {s : σ},
    Along step ok s ls → (∀ l ∈ ls, l ∈ ms) → Along step (fun s l => ok s l ∧ l ∈ ms) s ls := by
  intro ls
  induction ls with
  | nil => exact fun _ _ => trivial
  | cons l ls ih =>
      intro s along among
      exact ⟨⟨along.1, among l List.mem_cons_self⟩, fun t stepped =>
        ih (along.2 t stepped) fun m mem => among m (List.mem_cons_of_mem l mem)⟩

/-- **The invariant rule, under a condition on the steps.** A step that is not taken under the
condition may break it, and is not asked about. -/
theorem run_invariant_along {ok : σ → ℓ → Prop} {P : σ → Prop}
    (keeps : ∀ s l t, ok s l → step s l = some t → P s → P t) :
    ∀ {ls : List ℓ} {s t : σ}, Along step ok s ls → run step s ls = some t → P s → P t := by
  intro ls
  induction ls with
  | nil =>
      intro s t _ h inv
      cases h
      exact inv
  | cons l ls ih =>
      intro s u along h inv
      rw [run_cons] at h
      obtain ⟨t, first, rest⟩ := Option.bind_eq_some_iff.mp h
      exact ih (along.2 t first) rest (keeps s l t along.1 first inv)

/-- **The invariant rule, both ways**: where a step keeps the invariant if it meets the side
condition, and breaks `P` otherwise, `P` holds of every state reached if and only if the side
condition is met all along the run. -/
theorem along_iff_reached {ok : σ → ℓ → Prop} {Inv P : σ → Prop} {ls : List ℓ} {s u : σ}
    (ran : run step s ls = some u) (start : Inv s) (sound : ∀ s, Inv s → P s)
    (keeps : ∀ s l t, step s l = some t → Inv s → ok s l → Inv t)
    (needs : ∀ s l t, step s l = some t → Inv s → P t → ok s l) :
    (∀ ms t, ms <+: ls → run step s ms = some t → P t) ↔ Along step ok s ls := by
  induction ls generalizing s with
  | nil =>
      refine ⟨fun _ => trivial, fun _ ms t early there => ?_⟩
      rw [List.prefix_nil.mp early] at there
      cases there
      exact sound s start
  | cons l ls ih =>
      rw [run_cons] at ran
      obtain ⟨t, first, rest⟩ := Option.bind_eq_some_iff.mp ran
      constructor
      · intro reached
        -- after the first step alone `P` holds, so the step has met the side condition
        have met : ok s l := needs s l t first start
          (reached [l] t (List.cons_prefix_cons.mpr ⟨rfl, List.nil_prefix⟩)
            (by rw [run_singleton, first]))
        refine ⟨met, fun v stepped => ?_⟩
        cases first.symm.trans stepped
        refine (ih rest (keeps s l t first start met)).mp fun ms v early there => ?_
        exact reached (l :: ms) v (List.cons_prefix_cons.mpr ⟨rfl, early⟩)
          (by rw [run_cons, first]; exact there)
      · rintro ⟨met, later⟩ ms v early there
        cases ms with
        | nil =>
            cases there
            exact sound s start
        | cons m ms =>
            obtain ⟨rfl, earlier⟩ := List.cons_prefix_cons.mp early
            rw [run_cons, first] at there
            exact (ih rest (keeps s m t first start met)).mpr (later t first) ms v earlier there

/-- **The preorder rule**: what every step follows relates the two ends of a run.  A reflexive and
transitive relation is enough, so growth and extension are instances. -/
theorem run_rel {R : σ → σ → Prop} (refl : ∀ s, R s s)
    (trans : ∀ s t u, R s t → R t u → R s u)
    (follows : ∀ s l t, step s l = some t → R s t)
    {s t : σ} {ls : List ℓ} (h : run step s ls = some t) : R s t :=
  run_induction (motive := fun _ t => R s t) (refl s)
    (fun _ t l u _ rel last => trans s t u rel (follows t l u last)) h

variable (step) in
/-- `R` holds of every step that is taken along the labels, and of the labels before it. -/
def EveryStep (R : List ℓ → σ → ℓ → σ → Prop) (s : σ) (ls : List ℓ) : Prop :=
  ∀ ms l rest p q, ls = ms ++ l :: rest → run step s ms = some p → step p l = some q → R ms p l q

/-- What holds of each step that satisfies `R` holds along labels whose steps all do. -/
theorem EveryStep.imp {R R' : List ℓ → σ → ℓ → σ → Prop} {s : σ} {ls : List ℓ}
    (each : ∀ ms p l q, run step s ms = some p → step p l = some q → R ms p l q → R' ms p l q)
    (h : EveryStep step R s ls) : EveryStep step R' s ls := by
  intro ms l rest p q split ran stepped
  exact each ms p l q ran stepped (h ms l rest p q split ran stepped)

/-- What holds of exactly the steps that meet a side condition holds of every step of a run if and
only if the side condition is met all along it. -/
theorem everyStep_iff_along {R : σ → ℓ → σ → Prop} {ok : σ → ℓ → Prop}
    (each : ∀ s l t, step s l = some t → (R s l t ↔ ok s l)) {ls : List ℓ} {s u : σ}
    (ran : run step s ls = some u) :
    EveryStep step (fun _ => R) s ls ↔ Along step ok s ls := by
  induction ls generalizing s with
  | nil =>
      refine ⟨fun _ => trivial, fun _ ms l rest p q split => ?_⟩
      exact absurd split.symm (List.append_ne_nil_of_right_ne_nil ms (List.cons_ne_nil l rest))
  | cons l ls ih =>
      rw [run_cons] at ran
      obtain ⟨t, first, rest⟩ := Option.bind_eq_some_iff.mp ran
      constructor
      · intro every
        refine ⟨(each s l t first).mp (every [] l ls s t rfl rfl first), fun v stepped => ?_⟩
        cases first.symm.trans stepped
        refine (ih rest).mp fun ms m later p q split there last => ?_
        exact every (l :: ms) m later p q (congrArg (List.cons l) split)
          (by rw [run_cons, first]; exact there) last
      · rintro ⟨met, later⟩ ms m after p q split there last
        cases ms with
        | nil =>
            obtain ⟨rfl, -⟩ := List.cons.inj split
            cases there
            exact (each s l q last).mpr met
        | cons m' ms =>
            obtain ⟨rfl, split'⟩ := List.cons.inj split
            rw [run_cons, first] at there
            exact (ih rest).mpr (later t first) ms m after p q split' there last

/-! ### Runs of one system as runs of another -/

section Images

variable {σ' ℓ' : Type*} {step' : σ' → ℓ' → Option σ'} (image : σ → ℓ → List ℓ')

variable (step) in
/-- The labels of another system along a run, where `image` are those of one step. -/
def images : σ → List ℓ → List ℓ'
  | _, [] => []
  | s, l :: ls => image s l ++ (step s l).elim [] fun t => images t ls

variable {image}

theorem images_cons {s t : σ} {l : ℓ} (h : step s l = some t) (ls : List ℓ) :
    images step image s (l :: ls) = image s l ++ images step image t ls := by
  rw [images, h, Option.elim_some]

theorem images_append {ls : List ℓ} (ms : List ℓ) :
    ∀ {s t : σ}, run step s ls = some t →
      images step image s (ls ++ ms) = images step image s ls ++ images step image t ms := by
  induction ls with
  | nil =>
      intro s t h
      cases h
      rfl
  | cons l ls ih =>
      intro s u h
      rw [run_cons] at h
      obtain ⟨t, first, rest⟩ := Option.bind_eq_some_iff.mp h
      rw [List.cons_append, images_cons first, images_cons first, ih rest, List.append_assoc]

/-- **The simulation rule**: where each step is a run of the other system, a run is.  The two runs
need not be of one length, since a step may correspond to none or to many. -/
theorem run_images (f : σ → σ')
    (simulates : ∀ s l t, step s l = some t → run step' (f s) (image s l) = some (f t)) :
    ∀ {ls : List ℓ} {s t : σ}, run step s ls = some t →
      run step' (f s) (images step image s ls) = some (f t) := by
  intro ls
  induction ls with
  | nil =>
      intro s t h
      cases h
      rfl
  | cons l ls ih =>
      intro s u h
      rw [run_cons] at h
      obtain ⟨t, first, rest⟩ := Option.bind_eq_some_iff.mp h
      rw [images_cons first, run_append, simulates s l t first]
      exact ih rest

end Images

end TransitionSystem
