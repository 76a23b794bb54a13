import Mathlib.Data.List.SplitBy
import ScionChat.Mobile.ChatRows

/-!
# Runs of messages

What the rows of a conversation say of who spoke in a row.  `opensGroup` looks back, through the
day that the loop carries along; `closesGroup` and `nameFollows` look ahead, each in its own way;
and the lists draw a name where a third condition holds, `Said.named`.  They agree, in both apps:
the groups are the longest runs of consecutive messages of one author on one day (`rows_runs`).

A row of a message is placed by the rows before it and after it.  `rowsFrom_placed` says what
the loop has made of it there.

* `chatRows_runs` — the rows of any list of messages, over any clock and calendar: both apps'
  conditions draw the runs.
* `rows_runs` — the two apps themselves, each with its own reading of the clock.

### design decisions

* **A place, not an index.**  `Placed` holds the rows before a message and the rows after it, and
  the three flags are compared with the neighbours at that place.  The loop's own index and the
  day that it carries along appear only in the lemma that establishes the place.
* **Runs are `List.splitBy`.**  The groups are those of the library's function, for the relation
  *same author, same day*, so that what a group is does not depend on the loop at all.

### What is load-bearing

`last_day_iff`: a row of a day stands directly before a message exactly when the message before
that one is of another day.  It turns what the flags ask of rows into a question about two
messages, which is what a run is made of.
-/

namespace ScionChat

namespace ChatRows

variable {Day : Type}

/-- What was said, in a row that is not a day. -/
def ChatRow.saying : ChatRow Day → Option Said
  | .day _ => none
  | .said what => some what

/-- The rows without those of the days. -/
def sayings (rows : List (ChatRow Day)) : List Said :=
  rows.filterMap ChatRow.saying

/-- The messages of the rows. -/
def messagesOf (rows : List (ChatRow Day)) : List Message :=
  (sayings rows).map Said.message

/-- `MessageList.kt` and `ChatScreen.swift` write a name above the message: once per run, and
never for the reader. -/
def Said.named (said : Said) : Bool :=
  said.opensGroup && !said.mine

/-- Two messages of one author on one day. -/
def together (dayOf : ℤ → ℤ) (a b : Message) : Bool :=
  decide (a.username = b.username) && decide (dayOf a.postedAt = dayOf b.postedAt)

/-- **The rows partition the messages into runs.** Days, groups and where a group closes are each
said of neighbours in the list, and the groups are cut as `List.splitBy` cuts. -/
structure Runs (dayOf : ℤ → ℤ) (me : Option String) (messages : List Message)
    (rows : List (ChatRow Day)) : Prop where
  /-- Without the rows of the days, they are the messages. -/
  undated : messagesOf rows = messages
  /-- A day stands directly before a message that is the first one, or the first of its day. -/
  days : ∀ before said after, rows = before ++ .said said :: after →
    ((∃ day, before.getLast? = some (.day day)) ↔
      messagesOf before = [] ∨ ∃ last, (messagesOf before).getLast? = some last ∧
        dayOf last.postedAt ≠ dayOf said.message.postedAt)
  /-- A message closes its group if it is the last one, or if the next one opens a group. -/
  closes : ∀ before said after, rows = before ++ .said said :: after →
    (said.closesGroup = true ↔
      sayings after = [] ∨ ∃ next, (sayings after).head? = some next ∧ next.opensGroup = true)
  /-- The groups are the longest runs of consecutive messages of one author on one day. -/
  groups : ((sayings rows).splitBy fun _ next => !next.opensGroup).map (List.map Said.message)
    = messages.splitBy (together dayOf)
  /-- A name follows if the very next row is a message that a name is written above. -/
  names : ∀ before said after, rows = before ++ .said said :: after →
    (said.nameFollows = true ↔ ∃ next rest, after = .said next :: rest ∧ next.named = true)
  /-- The reader's own messages are those of their name. -/
  mine : ∀ said ∈ sayings rows, said.mine = decide (some said.message.username = me)

@[simp] theorem sayings_nil : sayings ([] : List (ChatRow Day)) = [] := rfl

@[simp] theorem sayings_day (day : Day) (rows : List (ChatRow Day)) :
    sayings (.day day :: rows) = sayings rows := rfl

@[simp] theorem sayings_said (said : Said) (rows : List (ChatRow Day)) :
    sayings (.said said :: rows) = said :: sayings rows := rfl

@[simp] theorem messagesOf_nil : messagesOf ([] : List (ChatRow Day)) = [] := rfl

@[simp] theorem messagesOf_day (day : Day) (rows : List (ChatRow Day)) :
    messagesOf (.day day :: rows) = messagesOf rows := rfl

@[simp] theorem messagesOf_said (said : Said) (rows : List (ChatRow Day)) :
    messagesOf (.said said :: rows) = said.message :: messagesOf rows := rfl

namespace Drawing

variable (clocks : Drawing Day) (me : Option String)

/-- The message, as the loop sees it between the one `before` on the day `day` and the one
`after`. -/
def place (before : Option Message) (day : Option ℤ) (message : Message)
    (after : Option Message) : Said :=
  let on := clocks.dayOf message.postedAt
  let closes := match after with
    | none => true
    | some after =>
        decide (after.username ≠ message.username) || decide (clocks.dayOf after.postedAt ≠ on)
  let nameFollows := closes && match after with
    | none => false
    | some after => decide (some after.username ≠ me) && decide (clocks.dayOf after.postedAt = on)
  ⟨message, clocks.clock message.postedAt, decide (some message.username = me),
    decide (some on ≠ day) || decide (before.map Message.username ≠ some message.username),
    closes, nameFollows⟩

variable {clocks me} {index : ℕ} {before : Option Message} {day : Option ℤ} {message : Message}
  {messages rest : List Message}

theorem rowsFrom_cons : clocks.rowsFrom me index before day (message :: rest)
    = (if decide (some (clocks.dayOf message.postedAt) ≠ day) then
          [.day (clocks.dayRow index message.postedAt)] else [])
        ++ .said (clocks.place me before day message rest.head?)
        :: clocks.rowsFrom me (index + 1) (some message)
            (some (clocks.dayOf message.postedAt)) rest := rfl

theorem sayings_rowsFrom_cons :
    sayings (clocks.rowsFrom me index before day (message :: rest))
      = clocks.place me before day message rest.head?
        :: sayings (clocks.rowsFrom me (index + 1) (some message)
            (some (clocks.dayOf message.postedAt)) rest) := by
  rw [rowsFrom_cons]
  cases decide (some (clocks.dayOf message.postedAt) ≠ day) <;> rfl

/-- Without the rows of the days, the rows are the messages. -/
theorem messagesOf_rowsFrom : messagesOf (clocks.rowsFrom me index before day messages)
    = messages := by
  induction messages generalizing index before day with
  | nil => rfl
  | cons message rest ih =>
      unfold messagesOf at ih ⊢
      rw [sayings_rowsFrom_cons, List.map_cons, ih]
      rfl

/-- The last of a list, or what comes before it. -/
theorem getLast?_cons_or {α : Type} (a : α) (l : List α) (b : Option α) :
    (a :: l).getLast?.or b = l.getLast?.or (some a) := by
  rw [List.getLast?_cons]
  cases l.getLast? <;> rfl

/-- The row of a message is no day, so the last row is one only if it comes after. -/
theorem last_day_iff (dated : List (ChatRow Day)) (what : Said) (rows : List (ChatRow Day)) :
    (∃ row, (dated ++ .said what :: rows).getLast? = some (.day row))
      ↔ ∃ row, rows.getLast? = some (ChatRow.day row) := by
  rw [List.getLast?_append, List.getLast?_cons]
  cases rows.getLast? with
  | none => simp
  | some last => simp

variable (clocks me) in
/-- **What the loop makes of a message**, of which the row is `said`, between the rows `front` and
`back`: it sees the last message of the ones in front, or what the loop has started from. -/
structure Placed (before : Option Message) (day : Option ℤ) (front : List (ChatRow Day))
    (said : Said) (back : List (ChatRow Day)) : Prop where
  place : said = clocks.place me ((messagesOf front).getLast?.or before)
    (((messagesOf front).getLast?.map fun m => clocks.dayOf m.postedAt).or day) said.message
    (messagesOf back).head?
  back : ∃ index, back = clocks.rowsFrom me index (some said.message)
    (some (clocks.dayOf said.message.postedAt)) (messagesOf back)
  dated : (∃ row, front.getLast? = some (.day row)) ↔
    some (clocks.dayOf said.message.postedAt)
      ≠ ((messagesOf front).getLast?.map fun m => clocks.dayOf m.postedAt).or day

/-- The first message, after the row of its day if that is new. -/
theorem placed_first {dated : List (ChatRow Day)} (silent : messagesOf dated = [])
    (new : (∃ row, dated.getLast? = some (.day row)) ↔
      some (clocks.dayOf message.postedAt) ≠ day) :
    clocks.Placed me before day dated (clocks.place me before day message rest.head?)
      (clocks.rowsFrom me (index + 1) (some message) (some (clocks.dayOf message.postedAt))
        rest) := by
  constructor
  · rw [silent, messagesOf_rowsFrom]
    rfl
  · rw [messagesOf_rowsFrom]
    exact ⟨_, rfl⟩
  · rw [silent]
    exact new

/-- A message after the first one. -/
theorem placed_later {dated front back : List (ChatRow Day)} {first said : Said}
    (silent : messagesOf dated = []) (own : first.message = message)
    (placed : clocks.Placed me (some message) (some (clocks.dayOf message.postedAt)) front
      said back) :
    clocks.Placed me before day (dated ++ .said first :: front) said back := by
  have messages : messagesOf (dated ++ .said first :: front) = message :: messagesOf front := by
    unfold messagesOf sayings at silent ⊢
    rw [List.filterMap_append, List.map_append, silent, ← own]
    rfl
  have on : ((message :: messagesOf front).getLast?.map fun m => clocks.dayOf m.postedAt).or day
      = ((messagesOf front).getLast?.map fun m => clocks.dayOf m.postedAt).or
          (some (clocks.dayOf message.postedAt)) := by
    rw [List.getLast?_cons]
    cases (messagesOf front).getLast? <;> rfl
  constructor
  · rw [messages, getLast?_cons_or, on]
    exact placed.place
  · exact placed.back
  · rw [messages, on, last_day_iff]
    exact placed.dated

/-- **Every message is placed.** The induction follows the loop, with the row before and the day it
was said on. -/
theorem rowsFrom_placed {said : Said} {front back : List (ChatRow Day)}
    (split : clocks.rowsFrom me index before day messages = front ++ .said said :: back) :
    clocks.Placed me before day front said back := by
  induction messages generalizing index before day front with
  | nil => exact absurd split (by simp [rowsFrom])
  | cons message rest ih =>
      -- it is the row of the message itself, after that of its day, or a later one
      have own : ∀ dated front' : List (ChatRow Day), messagesOf dated = [] →
          ((∃ row, dated.getLast? = some (.day row)) ↔
            some (clocks.dayOf message.postedAt) ≠ day) →
          .said (clocks.place me before day message rest.head?)
            :: clocks.rowsFrom me (index + 1) (some message)
                (some (clocks.dayOf message.postedAt)) rest = front' ++ .said said :: back →
          clocks.Placed me before day (dated ++ front') said back := by
        intro dated front' silent new tail
        rcases List.cons_eq_append_iff.mp tail with ⟨rfl, here⟩ | ⟨front'', rfl, later⟩
        · obtain ⟨same, rfl⟩ := List.cons.inj here
          cases same
          rw [List.append_nil]
          exact placed_first silent new
        · exact placed_later silent rfl (ih later)
      rw [rowsFrom_cons] at split
      by_cases new : some (clocks.dayOf message.postedAt) ≠ day
      · rw [decide_eq_true new, if_pos rfl] at split
        rcases List.cons_eq_append_iff.mp split with ⟨rfl, here⟩ | ⟨front', rfl, tail⟩
        · cases here
        · exact own [_] front' rfl ⟨fun _ => new, fun _ => ⟨_, rfl⟩⟩ tail
      · rw [decide_eq_false new, if_neg Bool.false_ne_true] at split
        exact own [] front rfl ⟨fun empty => absurd empty (by simp), fun h => absurd h new⟩ split

/-- A message opens its group, seen from the one before it, if it is on another day or of another
author. -/
theorem place_opens (last : Message) (after : Option Message) :
    (clocks.place me (some last) (some (clocks.dayOf last.postedAt)) message after).opensGroup
      = !together clocks.dayOf last message := by
  unfold place together
  grind

/-- A message closes its group, seen from the one after it, in the same cases. -/
theorem place_closes (after : Message) :
    (clocks.place me before day message (some after)).closesGroup
      = !together clocks.dayOf message after := by
  unfold place together
  grind

/-- A name follows a message that closes its group, on the same day, if it is not the reader's. -/
theorem place_nameFollows (after : Message) :
    (clocks.place me before day message (some after)).nameFollows
      = (!together clocks.dayOf message after && decide (some after.username ≠ me)
        && decide (clocks.dayOf after.postedAt = clocks.dayOf message.postedAt)) := by
  have closes : (clocks.place me before day message (some after)).closesGroup
      = !together clocks.dayOf message after := place_closes after
  rw [← closes, Bool.and_assoc]
  rfl

/-- Of two messages in a row, the later one opens a group unless they are of one. -/
theorem isChain_opens : (sayings (clocks.rowsFrom me index before day messages)).IsChain
    fun a b => (!b.opensGroup) = together clocks.dayOf a.message b.message := by
  induction messages generalizing index before day with
  | nil => exact List.isChain_nil
  | cons message rest ih =>
      rw [sayings_rowsFrom_cons]
      refine List.isChain_cons.mpr ⟨fun next mem => ?_, ih⟩
      cases rest with
      | nil => cases mem
      | cons after rest =>
          rw [sayings_rowsFrom_cons] at mem
          cases mem
          rw [place_opens, Bool.not_not]
          rfl

/-- Whose message it is is told by the name. -/
theorem mine_rowsFrom : ∀ said ∈ sayings (clocks.rowsFrom me index before day messages),
    said.mine = decide (some said.message.username = me) := by
  induction messages generalizing index before day with
  | nil => exact fun said mem => absurd mem List.not_mem_nil
  | cons message rest ih =>
      intro said mem
      rw [sayings_rowsFrom_cons] at mem
      rcases List.mem_cons.mp mem with rfl | later
      · rfl
      · exact ih said later

section Placed

variable {front back : List (ChatRow Day)} {said : Said}

/-- A day stands before a message that is the first one, or the first of its day. -/
theorem Placed.day_iff (placed : clocks.Placed me none none front said back) :
    (∃ row, front.getLast? = some (.day row)) ↔
      messagesOf front = [] ∨ ∃ last, (messagesOf front).getLast? = some last ∧
        clocks.dayOf last.postedAt ≠ clocks.dayOf said.message.postedAt := by
  rw [placed.dated]
  cases last : (messagesOf front).getLast? with
  | none => simp [List.getLast?_eq_none_iff.mp last]
  | some message =>
      have some_ : messagesOf front ≠ [] := by
        intro empty
        rw [empty] at last
        cases last
      simp [some_, eq_comm]

/-- A message closes its group if it is the last one, or if the next one opens a group. -/
theorem Placed.closes_iff (placed : clocks.Placed me before day front said back) :
    said.closesGroup = true ↔
      sayings back = [] ∨ ∃ next, (sayings back).head? = some next ∧ next.opensGroup = true := by
  obtain ⟨index, eq⟩ := placed.back
  have own := congrArg Said.closesGroup placed.place
  cases later : messagesOf back with
  | nil =>
      rw [later] at own eq
      rw [own, eq]
      exact ⟨fun _ => Or.inl rfl, fun _ => rfl⟩
  | cons after rest =>
      rw [later] at own eq
      rw [List.head?_cons, place_closes] at own
      rw [eq, sayings_rowsFrom_cons, own, List.head?_cons]
      constructor
      · intro apart
        exact Or.inr ⟨_, rfl, by rw [place_opens]; exact apart⟩
      · rintro (none | ⟨next, first, opens⟩)
        · cases none
        · cases first
          rw [place_opens] at opens
          exact opens

/-- A name follows if the very next row is a message that a name is written above. -/
theorem Placed.names_iff (placed : clocks.Placed me before day front said back) :
    said.nameFollows = true ↔ ∃ next rest, back = .said next :: rest ∧ next.named = true := by
  obtain ⟨index, eq⟩ := placed.back
  have own := congrArg Said.nameFollows placed.place
  cases later : messagesOf back with
  | nil =>
      rw [later] at own eq
      rw [own, eq]
      constructor
      · intro follows
        cases follows
      · rintro ⟨next, rest, none, -⟩
        cases none
  | cons after rest =>
      rw [later] at own eq
      rw [List.head?_cons, place_nameFollows] at own
      rw [eq, rowsFrom_cons, own]
      by_cases new : some (clocks.dayOf after.postedAt) ≠ some (clocks.dayOf said.message.postedAt)
      · -- the row of the day comes in between
        rw [decide_eq_true new, if_pos rfl]
        constructor
        · intro follows
          simp only [Bool.and_eq_true, decide_eq_true_eq] at follows
          exact absurd (congrArg some follows.2) new
        · rintro ⟨next, rest', between, -⟩
          cases between
      · rw [decide_eq_false new, if_neg Bool.false_ne_true, List.nil_append]
        have on : clocks.dayOf after.postedAt = clocks.dayOf said.message.postedAt :=
          Option.some.inj (not_not.mp new)
        have named : (clocks.place me (some said.message)
            (some (clocks.dayOf said.message.postedAt)) after rest.head?).named
              = (!together clocks.dayOf said.message after
                && decide (some after.username ≠ me)) := by
          unfold Said.named
          rw [place_opens]
          exact congrArg _ decide_not.symm
        rw [decide_eq_true on, Bool.and_true, ← named]
        constructor
        · intro follows
          exact ⟨_, _, rfl, follows⟩
        · rintro ⟨next, rest', first, follows⟩
          cases first
          exact follows

end Placed

/-- **The rows are the runs of the messages**, whatever the clock and the reader's name. -/
theorem chatRows_runs (clocks : Drawing Day) (me : Option String) (messages : List Message) :
    Runs clocks.dayOf me messages (clocks.chatRows me messages) where
  undated := messagesOf_rowsFrom
  days := fun _ _ _ split => (rowsFrom_placed split).day_iff
  closes := fun _ _ _ split => (rowsFrom_placed split).closes_iff
  groups := by
    refine (Sections.map_splitBy (s := together clocks.dayOf) Said.message ?_).trans ?_
    · exact isChain_opens
    · exact congrArg _ messagesOf_rowsFrom
  names := fun _ _ _ split => (rowsFrom_placed split).names_iff
  mine := mine_rowsFrom

end Drawing

/-- **The rows of a conversation partition its messages into runs**, on Android and on iOS, for any
messages, reader and clock.  The apps differ in the days that they draw, and not in how they cut
the list, so both are cases of one fact about `chatRows`. -/
theorem rows_runs (messages : List Message) (me : Option String) :
    (∀ clocks : Android.Clocks,
      Runs clocks.dayOf me messages (Android.chatRows messages me clocks)) ∧
    (∀ clocks : Ios.Clocks, Runs clocks.dayOf me messages (Ios.chatRows messages me clocks)) :=
  ⟨fun clocks => clocks.drawing.chatRows_runs me messages,
    fun clocks => clocks.drawing.chatRows_runs me messages⟩

end ChatRows

end ScionChat
