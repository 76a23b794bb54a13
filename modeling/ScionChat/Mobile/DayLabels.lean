import ScionChat.Lib.Years
import ScionChat.Mobile.ChatRows

/-!
# The names of days

What `Clocks.label` writes above a day: whether it is today, yesterday, or a date.  The Android app
compares days by `YEAR * 1000 + DAY_OF_YEAR` and takes one from it for the day before, which leads
out of the year on the first of January; the iOS app compares when days start and steps back by the
calendar.  `labels_name_days_iff` says exactly when either names the right day.

The calendars are the devices'.  What the apps rely on is that they cut the days of the time zone
into years (`Android.Calendar.Reads`), and that they know where a day starts and what it is to go
back a day (`Ios.Calendar.Reads`).  The zone is any assignment of days to times.

### design decisions

* **Days are numbers, and years a partition of them.** `Years` says where each year starts, and
  that none has more than 366 days.  So the result is not one about the Gregorian calendar alone.
* **Eras are in it.**  `YEAR` is the year of its era, so two years may have one number.  The
  condition for Android has a clause for that.
* **A day that does not start at midnight.**  Where the clocks go forward over midnight, going back
  a day from the start of today need not lead to the start of yesterday, and that is the iOS case.

### What is load-bearing

Each app's comparison is turned into one of days before anything else: `Years` gives the Android
one, and the start of a day the iOS one.  What is left is arithmetic on day numbers.
-/

namespace ScionChat

namespace ChatRows

/-- **The label names the day**: `TODAY` and `YESTERDAY` exactly for these, and else its date. -/
structure NamesDay (label date : String) (day today : ℤ) : Prop where
  sameDay : label = "TODAY" ↔ day = today
  dayBefore : label = "YESTERDAY" ↔ day = today - 1
  otherwise : day ≠ today → day ≠ today - 1 → label = date

/-! ### Android -/

namespace Android

/-- The number of a year within its era, counted from 1 in either direction. -/
def yearOfEra (y : ℤ) : ℤ :=
  if 1 ≤ y then y else 1 - y

/-- What `Calendar.YEAR` and `Calendar.DAY_OF_YEAR` say of a time that falls on a day of the year
`y`: the era of the year is not part of it. -/
structure Calendar.Reads (calendar : Calendar) (years : Years) (day : ℤ → ℤ) (y at_ : ℤ) :
    Prop where
  inside : years.In y (day at_)
  year : calendar.year at_ = yearOfEra y
  dayOfYear : calendar.dayOfYear at_ = years.place y (day at_)

namespace Clocks

variable (clocks : Clocks) (day : ℤ → ℤ) (index : ℕ) (at_ : ℤ)

/-- The message is of the day before, and today is the first day of a year. -/
def AcrossNewYear : Prop :=
  day at_ = day (clocks.now index) - 1 ∧ clocks.on.dayOfYear (clocks.now index) = 1

/-- The message is of another year than today, of the same number in another era, and its day has
the place of today in the year, or the one before. -/
def AcrossEras (y y' : ℤ) : Prop :=
  y ≠ y' ∧ clocks.on.year at_ = clocks.on.year (clocks.now index) ∧
    (clocks.on.dayOfYear at_ = clocks.on.dayOfYear (clocks.now index) ∨
      clocks.on.dayOfYear at_ = clocks.on.dayOfYear (clocks.now index) - 1)

instance : Decidable (clocks.AcrossNewYear day index at_) :=
  inferInstanceAs (Decidable (_ ∧ _))

instance (y y' : ℤ) : Decidable (clocks.AcrossEras index at_ y y') :=
  inferInstanceAs (Decidable (_ ∧ _ ∧ (_ ∨ _)))

variable {clocks day index at_} {years : Years} {y y' : ℤ}

/-- The label says `TODAY` of the days that are none ago, as it counts. -/
theorem label_today_iff : clocks.label index at_ = "TODAY" ↔ clocks.daysAgo index at_ = 0 := by
  constructor
  · intro today
    rcases clocks.today_or_yesterday_or_dated index at_ with here | here | here
    · exact here
    · exact absurd ((label_of_yesterday here).symm.trans today) (by decide)
    · exact absurd ((label_of_dated here).symm.trans today) (date_ne at_ (by simp))
  · exact label_of_today

/-- It says `YESTERDAY` of those that are one ago. -/
theorem label_yesterday_iff :
    clocks.label index at_ = "YESTERDAY" ↔ clocks.daysAgo index at_ = 1 := by
  constructor
  · intro yesterday
    rcases clocks.today_or_yesterday_or_dated index at_ with here | here | here
    · exact absurd ((label_of_today here).symm.trans yesterday) (by decide)
    · exact here
    · exact absurd ((label_of_dated here).symm.trans yesterday) (date_ne at_ (by simp))
  · exact label_of_yesterday

/-- The label names the day where the app counts none and one rightly. -/
theorem namesDay_iff {today : ℤ} :
    NamesDay (clocks.label index at_) (clocks.date at_).toUpper (day at_) today ↔
      (clocks.daysAgo index at_ = 0 ↔ day at_ = today) ∧
        (clocks.daysAgo index at_ = 1 ↔ day at_ = today - 1) := by
  constructor
  · intro names
    exact ⟨label_today_iff.symm.trans names.sameDay, label_yesterday_iff.symm.trans names.dayBefore⟩
  · rintro ⟨none, one⟩
    refine ⟨label_today_iff.trans none, label_yesterday_iff.trans one, fun other before => ?_⟩
    exact label_of_dated ⟨fun zero => other (none.mp zero), fun first => before (one.mp first)⟩

section Counting

variable (message : clocks.on.Reads years day y at_)
  (today : clocks.on.Reads years day y' (clocks.now index))
include message today

/-- No place in a year is as large as a year weighs in `dayOf`. -/
theorem daysAgo_eq_iff {n : ℤ} (few : n = 0 ∨ n = 1) : clocks.daysAgo index at_ = n ↔
    clocks.on.year at_ = clocks.on.year (clocks.now index) ∧
      clocks.on.dayOfYear at_ = clocks.on.dayOfYear (clocks.now index) - n := by
  have bounds := Years.place_bounds message.inside
  have bounds' := Years.place_bounds today.inside
  rw [← message.dayOfYear] at bounds
  rw [← today.dayOfYear] at bounds'
  unfold daysAgo dayOf
  omega

/-- **When the Android app names the right day**: neither across a new year, nor across eras.  The
day before the first of January is the last of December, and its number is not one less. -/
theorem label_names_iff :
    NamesDay (clocks.label index at_) (clocks.date at_).toUpper (day at_) (day (clocks.now index))
      ↔ ¬ clocks.AcrossNewYear day index at_ ∧ ¬ clocks.AcrossEras index at_ y y' := by
  rw [namesDay_iff, daysAgo_eq_iff message today (Or.inl rfl),
    daysAgo_eq_iff message today (Or.inr rfl), sub_zero]
  unfold AcrossNewYear AcrossEras
  have bounds := Years.place_bounds message.inside
  rw [← message.dayOfYear] at bounds
  by_cases same : y = y'
  · -- within a year the places tell the days apart
    subst same
    have years_same : clocks.on.year at_ = clocks.on.year (clocks.now index) := by
      rw [message.year, today.year]
    have places := message.dayOfYear
    have places' := today.dayOfYear
    unfold Years.place at places places'
    omega
  · -- days of different years are different, and follow each other only at a new year
    have apart : day at_ ≠ day (clocks.now index) := by
      intro one
      refine same (Years.year_unique message.inside ?_)
      rw [one]
      exact today.inside
    have new : day at_ = day (clocks.now index) - 1 →
        clocks.on.dayOfYear (clocks.now index) = 1 := by
      intro before
      have inside := message.inside
      rw [before] at inside
      rcases Years.day_before today.inside inside with ⟨one, -⟩ | ⟨-, first⟩
      · exact absurd one same
      · rw [today.dayOfYear]
        exact first
    constructor
    · rintro ⟨none, one⟩
      refine ⟨fun ⟨before, first⟩ => ?_, fun ⟨_, number, places⟩ => ?_⟩
      · have := (one.mpr before).2
        omega
      · rcases places with here | here
        · exact apart (none.mp ⟨number, here⟩)
        · have := new (one.mp ⟨number, here⟩)
          omega
    · rintro ⟨within, era⟩
      refine ⟨⟨fun ⟨number, here⟩ => ?_, fun one => absurd one apart⟩,
        ⟨fun ⟨number, here⟩ => ?_, fun before => ?_⟩⟩
      · exact absurd ⟨same, number, Or.inl here⟩ era
      · exact absurd ⟨same, number, Or.inr here⟩ era
      · exact absurd ⟨before, new before⟩ within

end Counting

end Clocks

end Android

/-! ### iOS -/

namespace Ios

/-- What the calendar says of a message's time `at_` and of the current time: where their days
start, where it is a day before, and a date, as `d MMM` has it, with the day of the month first. -/
structure Calendar.Reads (calendar : Calendar) (day : ℤ → ℤ) (at_ now : ℤ) : Prop where
  starts : calendar.startOfDay at_ = calendar.startOfDay now ↔ day at_ = day now
  within : day (calendar.startOfDay at_) = day at_
  back : ∀ t, calendar.dayBefore (calendar.startOfDay now) = some t → day t = day now - 1
  written : ∃ digit rest, (calendar.date (calendar.startOfDay at_)).toList = digit :: rest ∧
    digit.isDigit = true

namespace Clocks

variable {clocks : Clocks} {day : ℤ → ℤ} {index : ℕ} {at_ : ℤ}

variable (clocks day index at_) in
/-- If the message is of the day before, a day back from the start of today is where that day
starts.  It is not where the clocks of the zone skip the midnight that today would start at. -/
def StepsBack : Prop :=
  day at_ = day (clocks.now index) - 1 →
    clocks.calendar.dayBefore (clocks.calendar.startOfDay (clocks.now index))
      = some (clocks.calendar.startOfDay at_)

section Reading

variable (reads : clocks.calendar.Reads day at_ (clocks.now index))
include reads

/-- A date is no word. -/
theorem date_ne {word : String} (letter : ∀ c ∈ word.toList.head?, ¬ c.isDigit) :
    (clocks.calendar.date (clocks.calendar.startOfDay at_)).toUpper ≠ word := by
  obtain ⟨digit, rest, date, number⟩ := reads.written
  rintro rfl
  refine letter digit ?_ number
  unfold String.toUpper
  rw [String.toList_map, date, List.map_cons, List.head?_cons,
    Android.Clocks.toUpper_of_isDigit number]
  rfl

/-- **When the iOS app names the right day**: where going back a day leads to where that day
starts.  Where the clocks skip midnight a day starts later, and the calendar's step back keeps that
hour. -/
theorem label_names_iff :
    NamesDay (clocks.label index at_)
        (clocks.calendar.date (clocks.calendar.startOfDay at_)).toUpper (day at_)
        (day (clocks.now index))
      ↔ clocks.StepsBack day index at_ := by
  unfold label StepsBack
  dsimp only
  by_cases same : day at_ = day (clocks.now index)
  · rw [if_pos (reads.starts.mpr same)]
    constructor
    · intro _ before
      omega
    · intro _
      refine ⟨⟨fun _ => same, fun _ => rfl⟩, ⟨fun word => ?_, fun before => by omega⟩,
        fun other => absurd same other⟩
      exact absurd word (by decide)
  · rw [if_neg fun start => same (reads.starts.mp start)]
    by_cases steps : clocks.calendar.dayBefore (clocks.calendar.startOfDay (clocks.now index))
        = some (clocks.calendar.startOfDay at_)
    · have before : day at_ = day (clocks.now index) - 1 :=
        reads.within.symm.trans (reads.back _ steps)
      rw [if_pos steps]
      constructor
      · intro _ _
        exact steps
      · intro _
        refine ⟨⟨fun word => absurd word (by decide), fun today => absurd today same⟩,
          ⟨fun _ => before, fun _ => rfl⟩, fun _ other => absurd before other⟩
    · rw [if_neg steps]
      have not_today : _ ≠ "TODAY" := date_ne reads (by simp)
      have not_yesterday : _ ≠ "YESTERDAY" := date_ne reads (by simp)
      constructor
      · intro names before
        exact absurd (names.dayBefore.mpr before) not_yesterday
      · intro leads
        exact ⟨⟨fun word => absurd word not_today, fun today => absurd today same⟩,
          ⟨fun word => absurd word not_yesterday, fun before => absurd (leads before) steps⟩,
          fun _ _ => rfl⟩

end Reading

end Clocks

end Ios

/-! ### Both -/

/-- **The labels name the right day** exactly when the Android app compares neither across a new
year nor across eras, and on iOS a day back from the start of today is where a day starts. -/
theorem labels_name_days_iff {years : Years} {day : ℤ → ℤ} {android : Android.Clocks}
    {ios : Ios.Clocks} {index : ℕ} {at_ y y' : ℤ} (message : android.on.Reads years day y at_)
    (today : android.on.Reads years day y' (android.now index))
    (reads : ios.calendar.Reads day at_ (ios.now index)) :
    NamesDay (android.label index at_) (android.date at_).toUpper (day at_)
          (day (android.now index)) ∧
        NamesDay (ios.label index at_)
          (ios.calendar.date (ios.calendar.startOfDay at_)).toUpper (day at_)
          (day (ios.now index))
      ↔ (¬ android.AcrossNewYear day index at_ ∧ ¬ android.AcrossEras index at_ y y') ∧
        ios.StepsBack day index at_ :=
  and_congr (Android.Clocks.label_names_iff message today) (Ios.Clocks.label_names_iff reads)

namespace Sample

/-- The day of a time at Greenwich. -/
def dayAt (at_ : ℤ) : ℤ := at_ / day

/-- Noon on 31 December 2024, and on the day after it. -/
def silvester : ℤ := 1735646400000

def newYearsDay : ℤ := 1735732800000

/-- Noon on 29 February 2024, and on the day after it. -/
def leapDay : ℤ := 1709208000000

def firstOfMarch : ℤ := 1709294400000

theorem android_reads {now at_ y : ℤ} (inside : Years.gregorian.In y (dayAt at_))
    (year : (civil at_).1 = y) (common : 1 ≤ y) :
    (android now).on.Reads Years.gregorian dayAt y at_ where
  inside := inside
  year := by
    unfold Android.yearOfEra
    rw [if_pos common]
    exact year
  dayOfYear := by
    change at_ / day - newYear (civil at_).1 + 1 = Years.gregorian.place y (dayAt at_)
    rw [year]
    rfl

theorem ios_reads {now at_ : ℤ} (written : ∃ digit rest,
    ((ios now).calendar.date ((ios now).calendar.startOfDay at_)).toList = digit :: rest ∧
      digit.isDigit = true) : (ios now).calendar.Reads dayAt at_ now where
  starts := by
    change at_ - at_ % day = now - now % day ↔ at_ / day = now / day
    unfold day
    omega
  within := by
    change (at_ - at_ % day) / day = at_ / day
    unfold day
    omega
  back := by
    rintro t ⟨⟩
    change (now - now % day - day) / day = now / day - 1
    unfold day
    omega
  written := written

end Sample

/-- The last of a February of a leap year, seen from the next day. -/
theorem labels_name_days_leap :
    NamesDay ((Sample.android Sample.firstOfMarch).label 0 Sample.leapDay)
        ((Sample.android Sample.firstOfMarch).date Sample.leapDay).toUpper
        (Sample.dayAt Sample.leapDay) (Sample.dayAt Sample.firstOfMarch) ∧
      NamesDay ((Sample.ios Sample.firstOfMarch).label 0 Sample.leapDay)
        ((Sample.ios Sample.firstOfMarch).calendar.date
          ((Sample.ios Sample.firstOfMarch).calendar.startOfDay Sample.leapDay)).toUpper
        (Sample.dayAt Sample.leapDay) (Sample.dayAt Sample.firstOfMarch) := by
  have message : (Sample.android Sample.firstOfMarch).on.Reads Years.gregorian Sample.dayAt 2024
      Sample.leapDay :=
    Sample.android_reads (by decide +kernel) (by decide +kernel) (by decide)
  have today : (Sample.android Sample.firstOfMarch).on.Reads Years.gregorian Sample.dayAt 2024
      ((Sample.android Sample.firstOfMarch).now 0) :=
    Sample.android_reads (by decide +kernel) (by decide +kernel) (by decide)
  have reads : (Sample.ios Sample.firstOfMarch).calendar.Reads Sample.dayAt Sample.leapDay
      ((Sample.ios Sample.firstOfMarch).now 0) :=
    Sample.ios_reads ⟨'2', ['9', ' ', 'F', 'e', 'b'], by decide +kernel, rfl⟩
  exact (labels_name_days_iff message today reads).mpr
    ⟨⟨by decide +kernel, by decide +kernel⟩, fun _ => by decide +kernel⟩

/-- **On the first of January the Android app does not know yesterday**: it writes the date, where
the iOS app writes `YESTERDAY`. -/
theorem new_year_missed :
    (Sample.android Sample.newYearsDay).label 0 Sample.silvester = "31 DEC" ∧
      (Sample.ios Sample.newYearsDay).label 0 Sample.silvester = "YESTERDAY" ∧
        ¬ NamesDay ((Sample.android Sample.newYearsDay).label 0 Sample.silvester)
          ((Sample.android Sample.newYearsDay).date Sample.silvester).toUpper
          (Sample.dayAt Sample.silvester) (Sample.dayAt Sample.newYearsDay) := by
  have date : (Sample.android Sample.newYearsDay).label 0 Sample.silvester = "31 DEC" := by
    decide +kernel
  refine ⟨date, by decide +kernel, fun names => ?_⟩
  have yesterday := names.dayBefore.mpr (by decide)
  rw [date] at yesterday
  exact absurd yesterday (by decide)

end ChatRows

end ScionChat
