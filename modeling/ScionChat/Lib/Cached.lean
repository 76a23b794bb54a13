import Mathlib.Order.Nat

/-!
# A value that is kept until a revision number moves on

Something is built from part of a state, its *content*, and from a key that the caller gives.
What was built last is kept, together with its key and with the revision the state was at.  It
is taken out again when the key is the same and the revision has not moved.

That this gives what building it now would give rests on the state's own operations: each of
them has to count up the revision, or to leave the content alone (`Honest`).  `Faithful` is what
such operations keep of a kept value, and `Faithful.value_eq` what it is good for.

### design decisions

* **The key is not part of the state.**  What is kept may have been built for another key, and is
  then simply not taken.  So honesty is asked of the state's operations alone, and a caller may
  give any key at any time.
* **Counting up is enough.**  An operation may count up without having changed anything: the value
  is then built again, which costs time and is still right.  What it must not do is change the
  content and leave the number.

### What is load-bearing

That revisions are compared with `≤` in `Faithful`: an entry is from a revision that the state has
been at, and never from a later one.  It is what makes a revision that has moved on stay moved on.
-/

namespace Cached

/-- What is built from, and the number that stands for it. -/
structure Source (S C : Type*) where
  content : S → C
  revision : S → ℕ

/-- What has been built: for which key, at which revision. -/
structure Entry (K V : Type*) where
  key : K
  revision : ℕ
  value : V

variable {S C K V : Type*} (src : Source S C)

/-- **An honest change** counts up the revision, or leaves the content alone.  An operation that
does either may be applied at any time, without looking at what is kept. -/
def Honest (s t : S) : Prop :=
  src.revision s < src.revision t ∨
    src.revision t = src.revision s ∧ src.content t = src.content s

/-- **A kept entry is faithful**: it is not from a later revision, and if it is from this one it
holds what would be built now. -/
def Faithful (build : C → K → V) (s : S) (kept : Option (Entry K V)) : Prop :=
  ∀ entry ∈ kept, entry.revision ≤ src.revision s ∧
    (entry.revision = src.revision s → entry.value = build (src.content s) entry.key)

variable {src} {build : C → K → V} {s t u : S} {kept : Option (Entry K V)}

theorem Honest.refl (s : S) : Honest src s s :=
  Or.inr ⟨rfl, rfl⟩

theorem Honest.trans (h : Honest src s t) (h' : Honest src t u) : Honest src s u := by
  rcases h with counted | ⟨same, content⟩
  · rcases h' with counted' | ⟨same', -⟩
    · exact Or.inl (counted.trans counted')
    · exact Or.inl (same'.symm ▸ counted)
  · rcases h' with counted' | ⟨same', content'⟩
    · exact Or.inl (same ▸ counted')
    · exact Or.inr ⟨same'.trans same, content'.trans content⟩

/-- An honest change never moves the revision back. -/
theorem Honest.le (h : Honest src s t) : src.revision s ≤ src.revision t := by
  rcases h with counted | ⟨same, -⟩
  · exact counted.le
  · exact same.ge

theorem faithful_none (s : S) : Faithful src build s none :=
  fun _ mem => nomatch mem

variable (src) in
/-- What has just been built is faithful. -/
theorem faithful_build (s : S) (key : K) :
    Faithful src build s (some ⟨key, src.revision s, build (src.content s) key⟩) := by
  rintro entry ⟨⟩
  exact ⟨le_refl _, fun _ => rfl⟩

/-- **An honest change keeps what is kept faithful.** Where it counts up, the entry is from an
earlier revision, and nothing is asked of it any more. -/
theorem Faithful.honest (faithful : Faithful src build s kept) (change : Honest src s t) :
    Faithful src build t kept := by
  intro entry mem
  obtain ⟨past, value⟩ := faithful entry mem
  refine ⟨past.trans change.le, fun now => ?_⟩
  rcases change with counted | ⟨same, content⟩
  · -- an entry of the new revision would be from the future of the old state
    exact absurd past (Nat.not_le.mpr (now ▸ counted))
  · rw [content]
    exact value (now.trans same)

/-- **A faithful entry of this revision holds what would be built now.** So whoever finds the
revision and the key unchanged may take the value, and need not build it. -/
theorem Faithful.value_eq (faithful : Faithful src build s kept) {entry : Entry K V}
    (mem : entry ∈ kept) (stands : entry.revision = src.revision s) :
    entry.value = build (src.content s) entry.key :=
  (faithful entry mem).2 stands

end Cached
