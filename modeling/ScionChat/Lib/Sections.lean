import Mathlib.Data.List.Pairwise
import Mathlib.Data.List.SplitBy
import Mathlib.Order.Nat

/-!
# Lists in sections

A list is shown in sections: before each element that belongs to another section than the one
before it stands a heading.  `openings` are the elements with a heading.

* `pairwise_openings` — what holds of each two of them is what holds of each two elements that
  `Opens` a section, which says of an element where it stands in the list;
* `opens_apart_iff` — no section opens twice if and only if the elements of each section stand
  together.

### design decisions

* **Headings are counted by their place.**  `openings` pairs an element with its index, because two
  headings of one section can be told apart by nothing else.
* **What is drawn is a parameter.**  A heading's text, or its key in a list view, is a function of
  the element and its place.  Whether two of them agree is then a matter of `pairwise_openings`.

### What is load-bearing

`exists_opens`: each element has an opening at or before it, of its own section, and nothing of
another section in between.  With it, `opens_apart_iff` comes down to where two openings of one
section can stand.
-/

namespace Sections

variable {α κ : Type*} [DecidableEq κ] (section_ : α → κ)

/-- The elements that open a section, and their places, after an element of the section `last`. -/
def openings (index : ℕ) (last : Option κ) : List α → List (α × ℕ)
  | [] => []
  | a :: rest =>
      (if some (section_ a) ≠ last then [(a, index)] else [])
        ++ openings (index + 1) (some (section_ a)) rest

/-- The element at a place opens a section. -/
def Opens (l : List α) (i : ℕ) (a : α) : Prop :=
  l[i]? = some a ∧ (i = 0 ∨ ∀ before, l[i - 1]? = some before → section_ before ≠ section_ a)

variable {section_}

omit [DecidableEq κ] in
/-- The element after a beginning of the list opens a section if the beginning ends in another. -/
theorem opens_append {before rest : List α} {a : α} :
    Opens section_ (before ++ a :: rest) before.length a
      ↔ some (section_ a) ≠ before.getLast?.map section_ := by
  unfold Opens
  rw [List.getElem?_append_right (le_refl _), Nat.sub_self, List.getElem?_cons_zero]
  rcases List.eq_nil_or_concat before with rfl | ⟨front, last, rfl⟩
  · simp
  · simp only [List.concat_eq_append, List.length_append, List.length_singleton,
      Nat.add_sub_cancel, List.append_assoc, List.singleton_append, List.getLast?_append,
      List.getLast?_singleton, Option.some_or, Option.map_some]
    rw [List.getElem?_append_right (le_refl _), Nat.sub_self, List.getElem?_cons_zero]
    constructor
    · rintro ⟨-, empty | apart⟩ same
      · omega
      · exact apart last rfl (Option.some.inj same).symm
    · intro apart
      refine ⟨trivial, Or.inr ?_⟩
      rintro _ ⟨⟩ same
      exact apart (congrArg some same.symm)

/-- The openings of the rest of a list are its elements that open a section in it. -/
theorem mem_openings {before rest : List α} {a : α} {i : ℕ} :
    (a, i) ∈ openings section_ before.length (before.getLast?.map section_) rest
      ↔ before.length ≤ i ∧ Opens section_ (before ++ rest) i a := by
  induction rest generalizing before with
  | nil =>
      simp only [openings, List.not_mem_nil, List.append_nil, false_iff, not_and]
      rintro late ⟨there, -⟩
      rw [List.getElem?_eq_none late] at there
      cases there
  | cons first rest ih =>
      have later := @ih (before ++ [first])
      simp only [List.length_append, List.length_singleton, List.getLast?_append,
        List.getLast?_singleton, Option.some_or, Option.map_some, List.append_assoc,
        List.singleton_append] at later
      unfold openings
      rw [List.mem_append, later]
      constructor
      · rintro (head | ⟨late, opens⟩)
        · split at head
          · next apart =>
              obtain ⟨rfl, rfl⟩ := Prod.mk.inj (List.mem_singleton.mp head)
              exact ⟨le_refl _, opens_append.mpr apart⟩
          · cases head
        · exact ⟨by omega, opens⟩
      · rintro ⟨late, opens⟩
        obtain rfl | late := Nat.eq_or_lt_of_le late
        · have there := opens.1
          rw [List.getElem?_append_right (le_refl _), Nat.sub_self,
            List.getElem?_cons_zero] at there
          obtain rfl := Option.some.inj there
          rw [if_pos (opens_append.mp opens)]
          exact Or.inl (List.mem_singleton_self _)
        · exact Or.inr ⟨late, opens⟩

variable (section_) in
/-- The openings stand in the order of their places. -/
theorem openings_sorted (index : ℕ) (last : Option κ) (l : List α) :
    (∀ opening ∈ openings section_ index last l, index ≤ opening.2)
      ∧ (openings section_ index last l).Pairwise fun a b => a.2 < b.2 := by
  induction l generalizing index last with
  | nil => exact ⟨nofun, List.Pairwise.nil⟩
  | cons first rest ih =>
      obtain ⟨late, sorted⟩ := ih (index + 1) (some (section_ first))
      have after : ∀ opening ∈ openings section_ (index + 1) (some (section_ first)) rest,
          index < opening.2 := fun opening mem => late opening mem
      unfold openings
      split
      · refine ⟨?_, List.Pairwise.cons after sorted⟩
        rintro opening (_ | ⟨_, mem⟩)
        · exact le_refl _
        · exact (after opening mem).le
      · exact ⟨fun opening mem => (after opening mem).le, sorted⟩

/-- **What holds of each two headings.** -/
theorem pairwise_openings {R : α × ℕ → α × ℕ → Prop} {l : List α} :
    (openings section_ 0 none l).Pairwise R
      ↔ ∀ i j a b, i < j → Opens section_ l i a → Opens section_ l j b → R (a, i) (b, j) := by
  have opens : ∀ a i, (a, i) ∈ openings section_ 0 none l ↔ Opens section_ l i a := fun a i => by
    simpa using @mem_openings _ _ _ section_ [] l a i
  have sorted := (openings_sorted section_ 0 none l).2
  constructor
  · intro pairs i j a b earlier here there
    obtain ⟨m, inside, at_m⟩ := List.mem_iff_getElem.mp ((opens a i).mpr here)
    obtain ⟨n, inside', at_n⟩ := List.mem_iff_getElem.mp ((opens b j).mpr there)
    have later : m < n := by
      rcases Nat.lt_trichotomy m n with lt | same | gt
      · exact lt
      · -- one opening has one place
        subst same
        cases at_m.symm.trans at_n
        omega
      · have order := List.pairwise_iff_getElem.mp sorted n m inside' inside gt
        rw [at_m, at_n] at order
        omega
    have pair := List.pairwise_iff_getElem.mp pairs m n inside inside' later
    rwa [at_m, at_n] at pair
  · intro each
    refine sorted.imp_of_mem ?_
    rintro ⟨a, i⟩ ⟨b, j⟩ here there earlier
    exact each i j a b earlier ((opens a i).mp here) ((opens b j).mp there)

/-! ### Sections that stand together -/

variable (section_) in
/-- The elements of each section stand together. -/
def Together (l : List α) : Prop :=
  ∀ (i j k : ℕ) (a b c : α), i < j → j < k → l[i]? = some a → l[j]? = some b → l[k]? = some c →
    section_ a = section_ c → section_ b = section_ a

variable (section_) in
/-- Each element has an opening of its section at its place or before it, with nothing of another
section between. -/
theorem exists_opens {l : List α} {i : ℕ} {a : α} (there : l[i]? = some a) :
    ∃ o first, o ≤ i ∧ Opens section_ l o first ∧ section_ first = section_ a ∧
      ∀ m between, o ≤ m → m ≤ i → l[m]? = some between → section_ between = section_ a := by
  induction i generalizing a with
  | zero =>
      refine ⟨0, a, le_refl _, ⟨there, Or.inl rfl⟩, rfl, ?_⟩
      intro m between _ le found
      obtain rfl : m = 0 := by omega
      rw [there] at found
      rw [Option.some.inj found]
  | succ i ih =>
      have inside : i < l.length := by
        have := (List.getElem?_eq_some_iff.mp there).1
        omega
      have before : l[i]? = some l[i] := List.getElem?_eq_getElem inside
      by_cases same : section_ l[i] = section_ a
      · obtain ⟨o, first, le, opens, eq, between_⟩ := ih before
        refine ⟨o, first, by omega, opens, eq.trans same, ?_⟩
        intro m between low high found
        obtain rfl | high := Nat.eq_or_lt_of_le high
        · rw [there] at found
          rw [Option.some.inj found]
        · exact (between_ m between low (by omega) found).trans same
      · refine ⟨i + 1, a, le_refl _, ⟨there, Or.inr ?_⟩, rfl, ?_⟩
        · intro prior found
          rw [Nat.add_sub_cancel, before] at found
          rwa [← Option.some.inj found]
        · intro m between low high found
          obtain rfl : m = i + 1 := by omega
          rw [there] at found
          rw [Option.some.inj found]

/-- **No section opens twice exactly when each stands together.** Two headings of one kind are two
sections, with another one in between. -/
theorem opens_apart_iff {l : List α} :
    (∀ i j a b, i < j → Opens section_ l i a → Opens section_ l j b → section_ a ≠ section_ b)
      ↔ Together section_ l := by
  constructor
  · intro apart i j k a b c ij jk there_a there_b there_c same
    by_contra other
    obtain ⟨o, first, le, opens, eq, -⟩ := exists_opens section_ there_a
    obtain ⟨o', first', le', opens', eq', between⟩ := exists_opens section_ there_c
    -- the section of `b` ends before that of `c` opens again
    have later : j < o' := by
      by_contra early
      exact other ((between j b (by omega) (by omega) there_b).trans same.symm)
    exact apart o o' first first' (by omega) opens opens' (eq.trans (same.trans eq'.symm))
  · rintro together i k a c ik ⟨there_a, -⟩ ⟨there_c, first | apart⟩ same
    · omega
    · have inside : k - 1 < l.length := by
        have := (List.getElem?_eq_some_iff.mp there_c).1
        omega
      have before : l[k - 1]? = some l[k - 1] := List.getElem?_eq_getElem inside
      have other := apart _ before
      obtain eq | lt : i = k - 1 ∨ i < k - 1 := by omega
      · subst eq
        rw [there_a] at before
        exact other (by rw [← Option.some.inj before, same])
      · exact other ((together i (k - 1) k a _ c lt (by omega) there_a before there_c same).trans
          same)

instance (l : List α) : Decidable (Together section_ l) :=
  decidable_of_iff
    ((openings section_ 0 none l).Pairwise fun a b => section_ a.1 ≠ section_ b.1)
    (pairwise_openings.trans opens_apart_iff)

/-! ### Runs -/

section Runs

variable {α β : Type*}

/-- What holds of each two neighbours in two ways holds in both. -/
theorem isChain_and {R S : α → α → Prop} {l : List α} (here : l.IsChain R) (there : l.IsChain S) :
    l.IsChain fun a b => R a b ∧ S a b := by
  refine List.isChain_iff_getElem.mpr fun i inside => ?_
  exact ⟨List.isChain_iff_getElem.mp here i inside, List.isChain_iff_getElem.mp there i inside⟩

/-- **Elements that are told apart as their images are** are cut into the runs of their images. -/
theorem map_splitBy {r : α → α → Bool} {s : β → β → Bool} (f : α → β) {l : List α}
    (agree : l.IsChain fun a b => r a b = s (f a) (f b)) :
    (l.splitBy r).map (List.map f) = (l.map f).splitBy s := by
  symm
  have whole : (l.splitBy r).flatten.IsChain fun a b => r a b = s (f a) (f b) := by
    rw [List.flatten_splitBy]
    exact agree
  obtain ⟨inside, between⟩ := (List.isChain_flatten (List.nil_notMem_splitBy r l)).mp whole
  refine List.splitBy_eq_iff.mpr ⟨?_, ?_, ?_, ?_⟩
  · rw [← List.map_flatten, List.flatten_splitBy]
  · intro empty
    obtain ⟨run, mem, eq⟩ := List.mem_map.mp empty
    exact List.ne_nil_of_mem_splitBy mem (List.map_eq_nil_iff.mp eq)
  · intro image mem
    obtain ⟨run, among, rfl⟩ := List.mem_map.mp mem
    refine (List.isChain_map f).mpr ?_
    refine (isChain_and (inside run among) (List.isChain_of_mem_splitBy among)).imp ?_
    rintro a b ⟨same, joined⟩
    rw [← same]
    exact joined
  · refine (List.isChain_map _).mpr ?_
    refine (isChain_and between (List.isChain_getLast_head_splitBy r l)).imp ?_
    rintro run next ⟨same, full, full', cut⟩
    refine ⟨by simpa using full, by simpa using full', ?_⟩
    rw [List.getLast_map, List.head_map,
      ← same _ (List.getLast_mem_getLast? full) _ (List.head_mem_head? full')]
    exact cut
end Runs

end Sections
