import Mathlib.Algebra.Order.Ring.Int
import Mathlib.Order.Monotone.Basic

/-!
# Days cut into years

A calendar counts the days and cuts the count into years, each of at most 366 days.  Where the
years begin is all that it takes to say on which day of its year a day falls: `place`.

* `year_unique` — a day falls in one year;
* `day_before` — the day before a day falls in the same year, or it is the last one of the year
  before, and the day itself is the first of its year;
* `gregorian` — the years of the Gregorian calendar, counted from the first of January 1970.

### design decisions

* **A year is an interval.**  Nothing is said of months.  What two days have to do with each other
  is then a matter of order, and leap years are a property of `gregorian` alone.
* **Integers throughout.**  Days before 1970 are negative, and years go on before their
  introduction, as they do in the calendars of the platforms.

### What is load-bearing

`year_unique` and `place_bounds`: the place of a day in its year is determined, and lies between
one and 366.
-/

/-- Where each year begins, as a count of days. -/
structure Years where
  newYear : ℤ → ℤ
  grows : ∀ y, newYear y < newYear (y + 1)
  bounded : ∀ y, newYear (y + 1) ≤ newYear y + 366

namespace Years

variable (years : Years) {y y' d d' : ℤ}

/-- The day falls in the year. -/
def In (y d : ℤ) : Prop :=
  years.newYear y ≤ d ∧ d < years.newYear (y + 1)

instance (y d : ℤ) : Decidable (years.In y d) :=
  inferInstanceAs (Decidable (_ ∧ _))

/-- The place of a day in its year; the first is 1. -/
def place (y d : ℤ) : ℤ :=
  d - years.newYear y + 1

variable {years}

theorem place_bounds (h : years.In y d) : 1 ≤ years.place y d ∧ years.place y d ≤ 366 := by
  obtain ⟨low, high⟩ := h
  have := years.bounded y
  unfold place
  omega

/-- **A day falls in one year.** The years are half-open stretches, and the next one begins where
this one ends. -/
theorem year_unique (h : years.In y d) (h' : years.In y' d) : y = y' := by
  have mono : Monotone years.newYear := (strictMono_int_of_lt_succ years.grows).monotone
  rcases lt_trichotomy y y' with lt | same | gt
  · have := mono (Int.add_one_le_of_lt lt)
    exact absurd (this.trans h'.1) (not_le.mpr h.2)
  · exact same
  · have := mono (Int.add_one_le_of_lt gt)
    exact absurd (this.trans h.1) (not_le.mpr h'.2)

/-- **The day before** falls in the same year, unless the day is the first one of its year.  Before
that one it is a day of the year before. -/
theorem day_before (h : years.In y d) (h' : years.In y' (d - 1)) :
    y' = y ∧ 1 < years.place y d ∨ y' = y - 1 ∧ years.place y d = 1 := by
  obtain ⟨low, high⟩ := h
  unfold place
  by_cases first : d = years.newYear y
  · -- the year before ends there
    have last : years.In (y - 1) (d - 1) := by
      have grows := years.grows (y - 1)
      refine ⟨?_, ?_⟩ <;> rw [Int.sub_add_cancel] at * <;> omega
    exact Or.inr ⟨year_unique h' last, by omega⟩
  · have inside : years.In y (d - 1) := ⟨by omega, by omega⟩
    exact Or.inl ⟨year_unique h' inside, by omega⟩

/-- **The years of the Gregorian calendar**, before its introduction too, in days since the first
of January 1970. -/
def gregorian : Years where
  newYear := fun y => (y - 1) * 365 + (y - 1) / 4 - (y - 1) / 100 + (y - 1) / 400 - 719162
  grows := fun y => by omega
  bounded := fun y => by omega

end Years
