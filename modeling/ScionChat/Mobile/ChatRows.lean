import Mathlib
import ScionChat.Lib.Sections
import ScionChat.Mobile.Room

/-!
# The rows of the conversation

`ChatRows.kt` and `ChatRows.swift`: the messages as rows, with a row for the day above each message
on another day than the one before it.  Both apps run the same loop; what a day is, what is written
above it and which key its row has differ.  The Android app keys the row by what is written on it,
the iOS app by when the day starts.

The calendar of the device is not the app's, so it is a parameter, as is the clock: `now` says what
it reads while the message at an index is looked at.  Names are compared as strings of the app's
language are: Swift does not tell canonically equivalent ones apart, so on iOS a name stands for
its canonical form.

### design decisions

* **One loop for both apps.**  `Drawing` has what the loop takes from `Clocks`: the day of a time,
  what its row says, which key it has.  Each app's `chatRows` is the loop with its own, and what
  the rows are is proved once.
* **The clock may move while rows are made.**  A label depends on today, and midnight may pass
  between two messages.  So the clock is read per index, and not once for a conversation.

### What is load-bearing

`keys_rowsFrom`: the keys of the rows are those of the days that messages open, and those of the
messages.  Messages have distinct positions, so that only the days can repeat; `keys_distinct_iff`
is what repeating means in either app.
-/

namespace ScionChat

open Sections

namespace ChatRows

/-- A message as the generated clients decode it, which has signed numbers. -/
structure Message where
  seq : ℤ
  username : String
  body : String
  postedAt : ℤ
  deriving DecidableEq, Repr

/-- One message, and where it sits in its author's run. -/
structure Said where
  message : Message
  clock : String
  mine : Bool
  opensGroup : Bool
  closesGroup : Bool
  /-- A name under this message carries the gap, so the row leaves none of its own. -/
  nameFollows : Bool
  deriving DecidableEq, Repr

/-- A row of the conversation: something somebody said, or the day it was said on. -/
inductive ChatRow (Day : Type)
  | day (day : Day)
  | said (said : Said)
  deriving DecidableEq, Repr

/-- The key of a row, given that of a day. -/
def ChatRow.key {Day : Type} (dayKey : Day → String) : ChatRow Day → String
  | .day row => dayKey row
  | .said row => "seq " ++ toString row.message.seq

/-- What `chatRows` has of `Clocks`. -/
structure Drawing (Day : Type) where
  clock : ℤ → String
  /-- Which day a time falls on locally, as one comparable number. -/
  dayOf : ℤ → ℤ
  /-- The row of the day above the message at an index. -/
  dayRow : ℕ → ℤ → Day

namespace Drawing

variable {Day : Type} (clocks : Drawing Day) (me : Option String)

/-- The loop of `chatRows`, at the message of an index, after the one `before` on the day `day`. -/
def rowsFrom (index : ℕ) (before : Option Message) (day : Option ℤ) :
    List Message → List (ChatRow Day)
  | [] => []
  | message :: rest =>
      let on := clocks.dayOf message.postedAt
      let newDay := decide (some on ≠ day)
      let after := rest.head?
      let opens := newDay || decide (before.map Message.username ≠ some message.username)
      let closes := match after with
        | none => true
        | some after =>
            decide (after.username ≠ message.username) ||
              decide (clocks.dayOf after.postedAt ≠ on)
      let nameFollows := closes && match after with
        | none => false
        | some after =>
            decide (some after.username ≠ me) && decide (clocks.dayOf after.postedAt = on)
      (if newDay then [.day (clocks.dayRow index message.postedAt)] else [])
        ++ .said ⟨message, clocks.clock message.postedAt, decide (some message.username = me),
            opens, closes, nameFollows⟩
          :: rowsFrom (index + 1) (some message) (some on) rest

/-- The messages as rows, oldest first. -/
def chatRows (messages : List Message) : List (ChatRow Day) :=
  clocks.rowsFrom me 0 none none messages

/-! ### Keys -/

variable {clocks me} {dayKey : Day → String}

/-- The key of the row of a message. -/
def seqKey (message : Message) : String :=
  "seq " ++ toString message.seq

variable (clocks dayKey) in
/-- The key of the row of the day that a message opens, at its index. -/
def openingKey (opening : Message × ℕ) : String :=
  dayKey (clocks.dayRow opening.2 opening.1.postedAt)

/-- **The keys are those of the days that messages open, and those of the messages.** The loop is
followed with the message before and its day, as the source carries them. -/
theorem keys_rowsFrom (index : ℕ) (before : Option Message) (day : Option ℤ)
    (messages : List Message) :
    ((clocks.rowsFrom me index before day messages).map (ChatRow.key dayKey)).Perm
      ((openings (fun m => clocks.dayOf m.postedAt) index day messages).map
          (clocks.openingKey dayKey)
        ++ messages.map seqKey) := by
  induction messages generalizing index before day with
  | nil => exact List.Perm.nil
  | cons message rest ih =>
      have later := ih (index + 1) (some message) (some (clocks.dayOf message.postedAt))
      have tail := ((later.cons (seqKey message)).trans List.perm_middle.symm)
      unfold rowsFrom openings
      dsimp only
      by_cases new : some (clocks.dayOf message.postedAt) ≠ day
      · rw [if_pos new, decide_eq_true new, if_pos rfl]
        exact tail.cons _
      · rw [if_neg new, decide_eq_false new, if_neg Bool.false_ne_true]
        exact tail

/-- Messages at different positions have different keys. -/
theorem nodup_seqKeys {messages : List Message}
    (ascending : messages.Pairwise fun a b => a.seq < b.seq) : (messages.map seqKey).Nodup := by
  rw [List.Nodup, List.pairwise_map]
  refine ascending.imp ?_
  intro a b lt same
  have digits : toString a.seq = toString b.seq := String.append_right_inj _ |>.mp same
  exact absurd (Int.repr_inj.mp digits) (by omega)

/-- **The rows have distinct keys exactly when the days that messages open do**, where no key of a
day is one of a message.  A key of a day and a key of a message have to be told apart by how they
are written, which either app sees to. -/
theorem nodup_keys_iff {messages : List Message}
    (ascending : messages.Pairwise fun a b => a.seq < b.seq)
    (apart : ∀ index at_ message, dayKey (clocks.dayRow index at_) ≠ seqKey message) :
    ((clocks.chatRows me messages).map (ChatRow.key dayKey)).Nodup
      ↔ ∀ i j a b, i < j → Sections.Opens (fun m => clocks.dayOf m.postedAt) messages i a →
          Sections.Opens (fun m => clocks.dayOf m.postedAt) messages j b →
          dayKey (clocks.dayRow i a.postedAt) ≠ dayKey (clocks.dayRow j b.postedAt) := by
  unfold chatRows
  rw [(keys_rowsFrom 0 none none messages).nodup_iff, List.nodup_append]
  rw [List.Nodup, List.pairwise_map, pairwise_openings]
  constructor
  · rintro ⟨days, -, -⟩
    exact days
  · intro days
    refine ⟨days, nodup_seqKeys ascending, ?_⟩
    intro day here key there same
    obtain ⟨opening, -, rfl⟩ := List.mem_map.mp here
    obtain ⟨message, -, rfl⟩ := List.mem_map.mp there
    exact apart _ _ _ same

end Drawing

/-! ### Android -/

namespace Android

/-- What the calendar and the date formats of a device say of a time. -/
structure Calendar where
  year : ℤ → ℤ
  dayOfYear : ℤ → ℤ
  dayOfMonth : ℤ → ℕ
  /-- The month as `MMM` has it, in ASCII. -/
  month : ℤ → String
  /-- The time of day as `HH:mm` has it. -/
  time : ℤ → String

/-- The clock and the date. -/
structure Clocks where
  on : Calendar
  now : ℕ → ℤ

namespace Clocks

variable (clocks : Clocks)

/-- Which day `at_` falls on locally, as one comparable number. -/
def dayOf (at_ : ℤ) : ℤ :=
  clocks.on.year at_ * 1000 + clocks.on.dayOfYear at_

/-- The date as `d MMM` has it. -/
def date (at_ : ℤ) : String :=
  toString (clocks.on.dayOfMonth at_) ++ " " ++ clocks.on.month at_

/-- What to write above the day's first message. -/
def label (index : ℕ) (at_ : ℤ) : String :=
  let today := clocks.dayOf (clocks.now index)
  if clocks.dayOf at_ = today then "TODAY"
  else if clocks.dayOf at_ = today - 1 then "YESTERDAY"
  else (clocks.date at_).toUpper

/-- The Android app's `Clocks`; the row of a day is what is written on it. -/
def drawing : Drawing String :=
  ⟨clocks.on.time, clocks.dayOf, clocks.label⟩

end Clocks

/-- The messages as rows. -/
def chatRows (messages : List Message) (me : Option String) (clocks : Clocks) :
    List (ChatRow String) :=
  clocks.drawing.chatRows me messages

/-- The key of a row. -/
def key : ChatRow String → String :=
  ChatRow.key fun label => "day " ++ label

namespace Clocks

variable {clocks : Clocks}

/-- How many days ago `at_` was, as the label counts. -/
def daysAgo (clocks : Clocks) (index : ℕ) (at_ : ℤ) : ℤ :=
  clocks.dayOf (clocks.now index) - clocks.dayOf at_

/-- The label of `at_` is a date. -/
def Dated (clocks : Clocks) (index : ℕ) (at_ : ℤ) : Prop :=
  clocks.daysAgo index at_ ≠ 0 ∧ clocks.daysAgo index at_ ≠ 1

/-- The same is written above two messages: both are of today, both are of yesterday, or both are
of another day, of the same day of the month in the same month of any year. -/
def SameLabel (clocks : Clocks) (i : ℕ) (a : ℤ) (j : ℕ) (b : ℤ) : Prop :=
  clocks.daysAgo i a = 0 ∧ clocks.daysAgo j b = 0
    ∨ clocks.daysAgo i a = 1 ∧ clocks.daysAgo j b = 1
    ∨ clocks.Dated i a ∧ clocks.Dated j b ∧ clocks.on.dayOfMonth a = clocks.on.dayOfMonth b ∧
        (clocks.on.month a).toUpper = (clocks.on.month b).toUpper

instance (index : ℕ) (at_ : ℤ) : Decidable (clocks.Dated index at_) :=
  inferInstanceAs (Decidable (_ ∧ _))

instance (i : ℕ) (a : ℤ) (j : ℕ) (b : ℤ) : Decidable (clocks.SameLabel i a j b) :=
  inferInstanceAs (Decidable (_ ∨ _ ∨ _))

/-- The three labels. -/
theorem label_of_today {index : ℕ} {at_ : ℤ} (today : clocks.daysAgo index at_ = 0) :
    clocks.label index at_ = "TODAY" :=
  if_pos (sub_eq_zero.mp today).symm

theorem label_of_yesterday {index : ℕ} {at_ : ℤ} (yesterday : clocks.daysAgo index at_ = 1) :
    clocks.label index at_ = "YESTERDAY" := by
  unfold daysAgo at yesterday
  exact (if_neg (by omega)).trans (if_pos (by omega))

theorem label_of_dated {index : ℕ} {at_ : ℤ} (dated : clocks.Dated index at_) :
    clocks.label index at_ = (clocks.date at_).toUpper := by
  unfold Dated daysAgo at dated
  exact (if_neg (by omega)).trans (if_neg (by omega))

theorem today_or_yesterday_or_dated (clocks : Clocks) (index : ℕ) (at_ : ℤ) :
    clocks.daysAgo index at_ = 0 ∨ clocks.daysAgo index at_ = 1 ∨ clocks.Dated index at_ := by
  unfold Dated
  omega

/-- A digit has no capital. -/
theorem toUpper_of_isDigit {c : Char} (digit : c.isDigit) : c.toUpper = c := by
  refine Char.toUpper_eq_of_not_isLower ?_
  simp only [Char.isDigit, Char.isLower, Bool.and_eq_true, decide_eq_true_eq,
    UInt32.le_iff_toNat_le, not_and, not_le] at digit ⊢
  intro letter
  exact absurd (letter.trans digit.2) (by decide)

/-- A date in capitals: its digits stay. -/
theorem toList_date (at_ : ℤ) : (clocks.date at_).toUpper.toList
    = Nat.toDigits 10 (clocks.on.dayOfMonth at_)
      ++ ' ' :: (clocks.on.month at_).toUpper.toList := by
  have digits : (Nat.toDigits 10 (clocks.on.dayOfMonth at_)).map Char.toUpper
      = Nat.toDigits 10 (clocks.on.dayOfMonth at_) :=
    (List.map_congr_left fun c mem => toUpper_of_isDigit
      (Nat.isDigit_of_mem_toDigits (by decide) (by decide) mem)).trans (List.map_id _)
  unfold date String.toUpper
  rw [String.toList_map, String.toList_map, String.toList_append, String.toList_append,
    List.map_append, List.map_append, Nat.toString_eq_repr, Nat.toList_repr, digits,
    List.append_assoc]
  rfl

/-- A date is none of the words. -/
theorem date_ne (at_ : ℤ) {word : String} (letters : ∀ c ∈ word.toList, ¬ c.isDigit) :
    (clocks.date at_).toUpper ≠ word := by
  rintro rfl
  obtain ⟨c, mem⟩ := List.exists_mem_of_ne_nil _
    (Nat.toDigits_ne_nil (b := 10) (n := clocks.on.dayOfMonth at_))
  refine letters c ?_ (Nat.isDigit_of_mem_toDigits (by decide) (by decide) mem)
  rw [toList_date]
  exact List.mem_append_left _ mem

/-- The digits of a date are what it starts with. -/
theorem takeWhile_date (at_ : ℤ) : (clocks.date at_).toUpper.toList.takeWhile Char.isDigit
    = Nat.toDigits 10 (clocks.on.dayOfMonth at_) := by
  rw [toList_date, List.takeWhile_append_of_pos fun c mem =>
    Nat.isDigit_of_mem_toDigits (by decide) (by decide) mem]
  exact List.append_nil _

/-- When two dates are the same. -/
theorem date_eq_iff {a b : ℤ} : (clocks.date a).toUpper = (clocks.date b).toUpper
    ↔ clocks.on.dayOfMonth a = clocks.on.dayOfMonth b ∧
        (clocks.on.month a).toUpper = (clocks.on.month b).toUpper := by
  constructor
  · intro same
    have digits := congrArg (fun text => text.toList.takeWhile Char.isDigit) same
    simp only [takeWhile_date] at digits
    have chars := congrArg String.toList same
    rw [toList_date, toList_date, digits] at chars
    refine ⟨?_, String.toList_inj.mp (List.cons.inj (List.append_cancel_left chars)).2⟩
    rw [← Nat.ofDigitChars_toDigits (b := 10) (n := clocks.on.dayOfMonth a) (by decide)
      (by decide), digits, Nat.ofDigitChars_toDigits (by decide) (by decide)]
  · rintro ⟨day, month⟩
    rw [← String.toList_inj, toList_date, toList_date, day, month]

/-- **When two labels are the same.** A label is `TODAY`, `YESTERDAY` or a date, so two are the
same as words, or as dates. -/
theorem label_eq_iff {i j : ℕ} {a b : ℤ} :
    clocks.label i a = clocks.label j b ↔ clocks.SameLabel i a j b := by
  have today (at_ : ℤ) : (clocks.date at_).toUpper ≠ "TODAY" := date_ne at_ (by simp)
  have yesterday (at_ : ℤ) : (clocks.date at_).toUpper ≠ "YESTERDAY" := date_ne at_ (by simp)
  constructor
  · intro same
    rcases clocks.today_or_yesterday_or_dated i a with here | here | here
    · rw [label_of_today here] at same
      rcases clocks.today_or_yesterday_or_dated j b with there | there | there
      · exact Or.inl ⟨here, there⟩
      · exact absurd (same.trans (label_of_yesterday there)) (by decide)
      · exact absurd (same.trans (label_of_dated there)).symm (today b)
    · rw [label_of_yesterday here] at same
      rcases clocks.today_or_yesterday_or_dated j b with there | there | there
      · exact absurd (same.trans (label_of_today there)) (by decide)
      · exact Or.inr (Or.inl ⟨here, there⟩)
      · exact absurd (same.trans (label_of_dated there)).symm (yesterday b)
    · rw [label_of_dated here] at same
      rcases clocks.today_or_yesterday_or_dated j b with there | there | there
      · exact absurd (same.trans (label_of_today there)) (today a)
      · exact absurd (same.trans (label_of_yesterday there)) (yesterday a)
      · exact Or.inr (Or.inr ⟨here, there, date_eq_iff.mp (same.trans (label_of_dated there))⟩)
  · rintro (⟨here, there⟩ | ⟨here, there⟩ | ⟨here, there, dates⟩)
    · rw [label_of_today here, label_of_today there]
    · rw [label_of_yesterday here, label_of_yesterday there]
    · rw [label_of_dated here, label_of_dated there, date_eq_iff.mpr dates]

variable (clocks) in
/-- No two messages that each open a day have the same written above them. -/
def LabelsApart (messages : List Message) : Prop :=
  ∀ i j a b, i < j → Sections.Opens (fun m => clocks.dayOf m.postedAt) messages i a →
    Sections.Opens (fun m => clocks.dayOf m.postedAt) messages j b →
    ¬ clocks.SameLabel i a.postedAt j b.postedAt

instance (messages : List Message) : Decidable (clocks.LabelsApart messages) :=
  decidable_of_iff
    ((openings (fun m => clocks.dayOf m.postedAt) 0 none messages).Pairwise fun a b =>
      ¬ clocks.SameLabel a.2 a.1.postedAt b.2 b.1.postedAt)
    pairwise_openings

end Clocks

/-- **The rows of the Android app have distinct keys exactly when no label repeats.** A label
repeats where two days are written alike, as the same date of two years is. -/
theorem nodup_keys_iff {clocks : Clocks} {messages : List Message} {me : Option String}
    (ascending : messages.Pairwise fun a b => a.seq < b.seq) :
    ((chatRows messages me clocks).map key).Nodup ↔ clocks.LabelsApart messages := by
  unfold chatRows key Clocks.LabelsApart
  rw [Drawing.nodup_keys_iff ascending]
  swap
  · intro index at_ message same
    exact absurd (congrArg (fun key => key.toList.head?) same)
      (by simp [Drawing.seqKey])
  refine forall_congr' fun i => forall_congr' fun j => forall_congr' fun a => forall_congr' fun b =>
    imp_congr_right fun _ => imp_congr_right fun _ => imp_congr_right fun _ => not_congr ?_
  rw [← Clocks.label_eq_iff]
  exact String.append_right_inj _

end Android

/-! ### iOS -/

namespace Ios

/-- What the calendar and the date formats of a device say of a time, in milliseconds. -/
structure Calendar where
  startOfDay : ℤ → ℤ
  /-- The same time on the day before, if there is one. -/
  dayBefore : ℤ → Option ℤ
  /-- The date as `d MMM` has it, in ASCII. -/
  date : ℤ → String
  /-- The time of day as `HH:mm` has it. -/
  time : ℤ → String

/-- The clock and the date. -/
structure Clocks where
  calendar : Calendar
  now : ℕ → ℤ

/-- What is written on the row of a day, and its id. -/
structure Day where
  label : String
  id : String
  deriving DecidableEq, Repr

namespace Clocks

variable (clocks : Clocks)

/-- Which day `at_` falls on locally, as one comparable number: the second that it starts. -/
def dayOf (at_ : ℤ) : ℤ :=
  (clocks.calendar.startOfDay at_).tdiv 1000

/-- What to write above the day's first message. -/
def label (index : ℕ) (at_ : ℤ) : String :=
  let today := clocks.calendar.startOfDay (clocks.now index)
  let day := clocks.calendar.startOfDay at_
  if day = today then "TODAY"
  else if clocks.calendar.dayBefore today = some day then "YESTERDAY"
  else (clocks.calendar.date day).toUpper

/-- The iOS app's `Clocks`; the id of the row of a day is where the day starts. -/
def drawing : Drawing Day :=
  ⟨clocks.calendar.time, clocks.dayOf,
    fun index at_ => ⟨clocks.label index at_, "day " ++ toString (clocks.dayOf at_)⟩⟩

end Clocks

/-- The messages as rows. -/
def chatRows (messages : List Message) (me : Option String) (clocks : Clocks) :
    List (ChatRow Day) :=
  clocks.drawing.chatRows me messages

/-- The id of a row. -/
def id : ChatRow Day → String :=
  ChatRow.key Day.id

/-- **The rows of the iOS app have distinct ids exactly when each day stands together.** A day that
is come back to has its row twice, with one id. -/
theorem nodup_ids_iff {clocks : Clocks} {messages : List Message} {me : Option String}
    (ascending : messages.Pairwise fun a b => a.seq < b.seq) :
    ((chatRows messages me clocks).map id).Nodup
      ↔ Together (fun m => clocks.dayOf m.postedAt) messages := by
  unfold chatRows id
  rw [Drawing.nodup_keys_iff ascending, ← opens_apart_iff]
  swap
  · intro index at_ message same
    exact absurd (congrArg (fun key => key.toList.head?) same)
      (by simp [Clocks.drawing, Drawing.seqKey])
  refine forall_congr' fun i => forall_congr' fun j => forall_congr' fun a => forall_congr' fun b =>
    imp_congr_right fun _ => imp_congr_right fun _ => imp_congr_right fun _ => not_congr ?_
  exact (String.append_right_inj _).trans Int.repr_inj

end Ios

/-! ### Distinct keys -/

/-- **The rows of a conversation have distinct keys**, in the Android app exactly when no two
messages that each open a day have the same label above them, and in the iOS app exactly when
the messages of each day stand together. -/
theorem keys_distinct_iff {messages : List Message} {me : Option String}
    (ascending : messages.Pairwise fun a b => a.seq < b.seq) :
    (∀ clocks : Android.Clocks, ((Android.chatRows messages me clocks).map Android.key).Nodup
      ↔ clocks.LabelsApart messages) ∧
    (∀ clocks : Ios.Clocks, ((Ios.chatRows messages me clocks).map Ios.id).Nodup
      ↔ Together (fun m => clocks.dayOf m.postedAt) messages) :=
  ⟨fun _ => Android.nodup_keys_iff ascending, fun _ => Ios.nodup_ids_iff ascending⟩

/-- A message of the server, as the apps decode it. -/
def decoded (message : ScionChat.Message) : Message :=
  ⟨message.seq.get, message.username, message.body, message.postedAt.get⟩

/-- The open room is drawn from messages in order, so this is when its rows have distinct keys. -/
theorem shown_keys_iff {log : List (RoomId × ScionChat.Message)} {openRoomId : Option RoomId}
    {messages : List ScionChat.Message} (shown : Mobile.NoHoles log openRoomId messages)
    {me : Option String} (android : Android.Clocks) (ios : Ios.Clocks) :
    (((Android.chatRows (messages.map decoded) me android).map Android.key).Nodup
      ↔ android.LabelsApart (messages.map decoded)) ∧
    (((Ios.chatRows (messages.map decoded) me ios).map Ios.id).Nodup
      ↔ Together (fun m => ios.dayOf m.postedAt) (messages.map decoded)) := by
  have ascending : (messages.map decoded).Pairwise fun a b => a.seq < b.seq :=
    List.pairwise_map.mpr (shown.sorted.imp fun lt => Int.ofNat_lt.mpr lt)
  exact ⟨Android.nodup_keys_iff ascending, Ios.nodup_ids_iff ascending⟩

namespace Sample

/-- How long a day is. -/
def day : ℤ := 86400000

/-- The first of a year, in days since the epoch. -/
def newYear (year : ℤ) : ℤ :=
  (year - 1) * 365 + (year - 1) / 4 - (year - 1) / 100 + (year - 1) / 400 - 719162

/-- The civil date of a time at Greenwich: the year, the month and the day of the month. -/
def civil (at_ : ℤ) : ℤ × ℤ × ℤ :=
  let z := at_ / day + 719468
  let doe := z % 146097
  let yoe := (doe - doe / 1460 + doe / 36524 - doe / 146096) / 365
  let doy := doe - (365 * yoe + yoe / 4 - yoe / 100)
  let mp := (5 * doy + 2) / 153
  let month := if mp < 10 then mp + 3 else mp - 9
  (yoe + z / 146097 * 400 + (if month ≤ 2 then 1 else 0), month, doy - (153 * mp + 2) / 5 + 1)

/-- A month, for short. -/
def month (at_ : ℤ) : String :=
  (["Jan", "Feb", "Mar", "Apr", "May", "Jun", "Jul", "Aug", "Sep", "Oct", "Nov", "Dec"][
    (civil at_).2.1.toNat - 1]?).getD ""

/-- The time of day. -/
def time (at_ : ℤ) : String :=
  let two (n : ℤ) : String := (if n < 10 then "0" else "") ++ toString n
  two (at_ % day / 3600000) ++ ":" ++ two (at_ % 3600000 / 60000)

/-- An Android device at Greenwich, of which the clock stands at `now`. -/
def android (now : ℤ) : Android.Clocks :=
  ⟨⟨fun at_ => (civil at_).1, fun at_ => at_ / day - newYear (civil at_).1 + 1,
    fun at_ => (civil at_).2.2.toNat, month, time⟩, fun _ => now⟩

/-- An iOS device at Greenwich. -/
def ios (now : ℤ) : Ios.Clocks :=
  ⟨⟨fun at_ => at_ - at_ % day, fun at_ => some (at_ - day),
    fun at_ => toString (civil at_).2.2 ++ " " ++ month at_, time⟩, fun _ => now⟩

/-- A message of the `seq`th position. -/
def message (seq : ℤ) (postedAt : ℤ) : Message := ⟨seq, "ada", "hi", postedAt⟩

/-- The first minutes of 3 May 2024 and of 3 May 2025. -/
def anniversary : List Message := [message 1 1714694400000, message 2 1746230400000]

/-- The clock of the server is set back past midnight, by two minutes. -/
def setBack : List Message :=
  [message 1 1714780860000, message 2 1714780740000, message 3 1714780861000]

/-- Three messages of two days. -/
def plain : List Message :=
  [message 1 1714694400000, message 2 1714694460000, message 3 1714780860000]

end Sample

/-- Of three messages of two days, all rows have distinct keys. -/
theorem keys_distinct_plain :
    ((Android.chatRows Sample.plain (some "ada") (Sample.android 1748736000000)).map
        Android.key).Nodup ∧
      ((Ios.chatRows Sample.plain (some "ada") (Sample.ios 1748736000000)).map Ios.id).Nodup := by
  have both := @keys_distinct_iff Sample.plain (some "ada") (by decide)
  exact ⟨(both.1 _).mpr (by decide +kernel), (both.2 _).mpr (by decide +kernel)⟩

/-- **Keys repeat**: of two messages a year apart in the Android app, and in the iOS app once the
clock of the server has been set back past midnight. -/
theorem keys_repeat :
    (¬ ∀ (messages : List Message) (me : Option String) (clocks : Android.Clocks),
      messages.Pairwise (fun a b => a.seq < b.seq) →
        ((Android.chatRows messages me clocks).map Android.key).Nodup) ∧
    ¬ ∀ (messages : List Message) (me : Option String) (clocks : Ios.Clocks),
      messages.Pairwise (fun a b => a.seq < b.seq) →
        ((Ios.chatRows messages me clocks).map Ios.id).Nodup := by
  constructor
  · intro distinct
    have apart := (Android.nodup_keys_iff (by decide)).mp
      (distinct Sample.anniversary none (Sample.android 1748736000000) (by decide))
    refine apart 0 1 (Sample.message 1 1714694400000) (Sample.message 2 1746230400000) (by decide)
      ⟨rfl, Or.inl rfl⟩ ⟨rfl, Or.inr ?_⟩ ?_
    · rintro _ ⟨⟩
      decide +kernel
    · exact Or.inr (Or.inr ⟨by decide +kernel, by decide +kernel, by decide +kernel,
        congrArg String.toUpper (by decide +kernel)⟩)
  · intro distinct
    have together := (Ios.nodup_ids_iff (by decide)).mp
      (distinct Sample.setBack none (Sample.ios 1748736000000) (by decide))
    have day := together 0 1 2 _ _ _ (by decide) (by decide) rfl rfl rfl (by decide +kernel)
    exact absurd day (by decide +kernel)

end ChatRows

end ScionChat
