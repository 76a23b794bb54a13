import ScionChat.Terminal.View

/-!
# Names in their column

`ui::clip` and `ui::right_align`: a name is cut or padded to the column it stands in, so that the
messages behind the names line up (`FillsColumn`).

The loop adds the widths of the characters, while text is as wide as `unicode_width` finds the
whole of it, which may be more: a heart and the selector of its emoji take two columns together,
and one and none by themselves.  So a text is cut to its column exactly if the part that the
characters leave of it is as narrow as they say (`fills_column_iff`), and in every column exactly
if none of its parts that could be left is wider (`fills_every_column_iff`).

### design decisions

* **Two widths.**  The width of a character and the width of a text are two functions of the
  library, and no law makes the one the sum of the other.  `Separate` asks for what its
  documentation says of blanks and of the ellipsis only: they are part of no sequence.
* **The condition reads the text.**  `CutFits` speaks of the beginnings of the text and of their
  two widths.  It does not call `clip`, so the equivalence relates the loop to something outside
  it.

### What is load-bearing

The loop keeps a running sum and stops before the character that would take it past the column less
the ellipsis.  What it leaves is therefore the longest beginning that is narrow enough by that sum,
and the induction over the characters has the sum in its statement.
-/

namespace ScionChat

namespace Chat

section Columns

variable {Input Buffer : Type} (kit : Toolkit Input) (tui : Ratatui Buffer)

/-- How many columns characters take by themselves, one after the other. -/
def columns : List Char → ℕ
  | [] => 0
  | c :: rest => (tui.charWidth c).getD 0 + columns rest

/-- What `unicode_width` says of blanks and of the ellipsis: they take a column, and are part of no
sequence that is wider or narrower than its characters. -/
structure Separate : Prop where
  ellipsis : tui.charWidth ELLIPSIS = some 1
  /-- The ellipsis behind a text takes one column more. -/
  cut : ∀ text : List Char,
    kit.width (String.ofList (text ++ [ELLIPSIS])) = kit.width (String.ofList text) + 1
  /-- A blank before a text takes one column more. -/
  before : ∀ text : List Char,
    kit.width (String.ofList (' ' :: text)) = kit.width (String.ofList text) + 1
  /-- A blank behind a text takes one column more. -/
  behind : ∀ text : List Char,
    kit.width (String.ofList (text ++ [' '])) = kit.width (String.ofList text) + 1

/-- **A text fills exactly its column**: what is left of it takes no more, is the whole of it if
that fits and its beginning before an ellipsis if not, and is padded to the width of the column,
so that the text of a message by that name starts in its own. -/
structure FillsColumn (text : String) (width : ℕ) : Prop where
  /-- What is left of the text fits. -/
  fits : kit.width (clip kit tui text width) ≤ width
  /-- A text that fits is left as it is. -/
  whole : kit.width text ≤ width → clip kit tui text width = text
  /-- Of one that does not, the beginning is left, and an ellipsis. -/
  begins : width < kit.width text →
    ∃ part, part <+: text.toList ∧ clip kit tui text width = String.ofList (part ++ [ELLIPSIS])
  /-- What is aligned takes the whole column. -/
  aligned : kit.width (rightAlign kit tui text width) = width
  /-- The body of a message starts behind the column of the names. -/
  indents : width = NAME_WIDTH → ∀ here me message, message.username = text →
    ((messageLine kit tui here me message).spans.head?.map fun span => kit.width span.text)
      = some BODY_COLUMN

/-- **The text is cut where it should be**: it fits, or the part of it before the character that
takes its characters to the width of the column, or all of it, is narrower as a text too. -/
def CutFits (text : String) (width : ℕ) : Prop :=
  kit.width text ≤ width ∨ ∀ part rest, text.toList = part ++ rest → columns tui part < width →
    (∀ c ∈ rest.head?, width ≤ columns tui (part ++ [c])) → kit.width (String.ofList part) < width

variable {kit tui} {text : String} {width : ℕ}

@[simp] theorem columns_nil : columns tui [] = 0 := rfl

@[simp] theorem columns_cons (c : Char) (rest : List Char) :
    columns tui (c :: rest) = (tui.charWidth c).getD 0 + columns tui rest := rfl

theorem columns_append (part rest : List Char) :
    columns tui (part ++ rest) = columns tui part + columns tui rest := by
  induction part with
  | nil => rw [List.nil_append, columns_nil, Nat.zero_add]
  | cons c part ih => rw [List.cons_append, columns_cons, columns_cons, ih, Nat.add_assoc]

/-! ### Where a text is cut -/

/-- Where the loop stops: before the character that does not fit any more. -/
theorem exists_fitting (tui : Ratatui Buffer) (room taken : ℕ) (text : List Char) : ∃ rest,
    text = fitting tui room taken text ++ rest ∧
      (taken ≤ room → taken + columns tui (fitting tui room taken text) ≤ room) ∧
        ∀ c ∈ rest.head?, room < taken + columns tui (fitting tui room taken text ++ [c]) := by
  induction text generalizing taken with
  | nil => exact ⟨[], rfl, fun h => h, fun c none_ => by cases none_⟩
  | cons c text ih =>
      unfold fitting
      dsimp only
      split
      · next over_ =>
          refine ⟨c :: text, rfl, fun h => h, fun c' head => ?_⟩
          obtain rfl := Option.some.inj head
          rw [List.nil_append, columns_cons, columns_nil, Nat.add_zero]
          exact over_
      · next fits =>
          obtain ⟨rest, eq, within, stops⟩ := ih (taken + (tui.charWidth c).getD 0)
          refine ⟨rest, ?_, fun _ => ?_, fun c' head => ?_⟩
          · rw [List.cons_append, ← eq]
          · rw [columns_cons, ← Nat.add_assoc]
            exact within (Nat.le_of_not_lt fits)
          · have stop := stops c' head
            rw [List.cons_append, columns_cons, ← Nat.add_assoc]
            exact stop

/-- And nowhere else. -/
theorem fitting_append {room : ℕ} (part : List Char) {taken : ℕ} {rest : List Char}
    (within : taken + columns tui part ≤ room)
    (stops : ∀ c ∈ rest.head?, room < taken + columns tui (part ++ [c])) :
    fitting tui room taken (part ++ rest) = part := by
  induction part generalizing taken with
  | nil =>
      cases rest with
      | nil => rfl
      | cons c rest =>
          have over_ := stops c rfl
          rw [List.nil_append, columns_cons, columns_nil, Nat.add_zero] at over_
          exact if_pos over_
  | cons c part ih =>
      rw [columns_cons, ← Nat.add_assoc] at within
      have fits : ¬room < taken + (tui.charWidth c).getD 0 := by omega
      refine (if_neg fits).trans (congrArg (c :: ·) (ih within fun c' head => ?_))
      have stop := stops c' head
      rw [List.cons_append, columns_cons, ← Nat.add_assoc] at stop
      exact stop

/-! ### How wide what is left is -/

theorem clip_of_fits (fits : kit.width text ≤ width) : clip kit tui text width = text :=
  if_pos fits

theorem clip_of_wide (separate : Separate kit tui) (long : width < kit.width text) :
    clip kit tui text width
      = String.ofList (fitting tui (width - 1) 0 text.toList ++ [ELLIPSIS]) := by
  unfold clip
  rw [if_neg (Nat.not_le_of_lt long), separate.ellipsis]
  rfl

/-- Blanks before a text are as wide as they are many. -/
theorem width_blanks (separate : Separate kit tui) (n : ℕ) (text : List Char) :
    kit.width (String.ofList (List.replicate n ' ' ++ text))
      = n + kit.width (String.ofList text) := by
  induction n with
  | zero => rw [List.replicate_zero, List.nil_append, Nat.zero_add]
  | succ n ih =>
      rw [List.replicate_succ, List.cons_append, separate.before, ih]
      omega

/-- **Aligned text is as wide as its column**, or as what is left of it.  The blanks before it make
up for what is missing, and nothing makes up for what is too much. -/
theorem width_rightAlign (separate : Separate kit tui) :
    kit.width (rightAlign kit tui text width)
      = max width (kit.width (clip kit tui text width)) := by
  have blanks := width_blanks separate (width - kit.width (clip kit tui text width))
    (clip kit tui text width).toList
  rw [String.ofList_append, String.ofList_toList] at blanks
  unfold rightAlign
  rw [blanks]
  omega

/-- The name of a message and the blank behind it. -/
theorem width_messageLine (separate : Separate kit tui) {here : ℤ} {me : String}
    {message : Message} :
    ((messageLine kit tui here me message).spans.head?.map fun span => kit.width span.text)
      = some (kit.width (rightAlign kit tui message.username NAME_WIDTH) + 1) := by
  have blank := separate.behind (rightAlign kit tui message.username NAME_WIDTH).toList
  rw [String.ofList_append, String.ofList_toList] at blank
  exact congrArg some blank

/-- What is left of a text fits exactly if it is cut where it should be. -/
theorem clip_fits_iff (separate : Separate kit tui) (wide : 1 ≤ width) :
    kit.width (clip kit tui text width) ≤ width ↔ CutFits kit tui text width := by
  by_cases fits : kit.width text ≤ width
  · rw [clip_of_fits fits]
    exact ⟨Or.inl, fun _ => fits⟩
  · rw [clip_of_wide separate (Nat.lt_of_not_le fits), separate.cut]
    obtain ⟨rest, eq, within, stops⟩ := exists_fitting tui (width - 1) 0 text.toList
    have within := within (Nat.zero_le _)
    simp only [Nat.zero_add] at within stops
    constructor
    · intro narrow
      refine Or.inr fun part rest' eq' less next => ?_
      have same : fitting tui (width - 1) 0 text.toList = part := by
        rw [eq']
        refine fitting_append part (by omega) fun c head => ?_
        have := next c head
        omega
      rw [same] at narrow
      exact narrow
    · intro cut
      refine cut.resolve_left fits _ rest eq (by omega) fun c head => ?_
      have := stops c head
      omega

/-- **A text that is cut where it should be** fills exactly its column.  It is the direction that
is used of names as they are: letters are as wide as they say. -/
theorem fillsColumn_of_cutFits (separate : Separate kit tui) (wide : 1 ≤ width)
    (cut : CutFits kit tui text width) : FillsColumn kit tui text width := by
  have fits := (clip_fits_iff separate wide).mpr cut
  have aligned : kit.width (rightAlign kit tui text width) = width := by
    rw [width_rightAlign separate]
    exact max_eq_left fits
  refine ⟨fits, clip_of_fits, fun long => ?_, aligned, ?_⟩
  · obtain ⟨rest, eq, -⟩ := exists_fitting tui (width - 1) 0 text.toList
    exact ⟨_, ⟨rest, eq.symm⟩, clip_of_wide separate long⟩
  · rintro rfl here me message rfl
    rw [width_messageLine separate, aligned]
    rfl

/-- **Names fill exactly their column if and only if** they are cut where they should be.  The
column is one wide at least, for the ellipsis. -/
theorem fills_column_iff (separate : Separate kit tui) (text : String) {width : ℕ}
    (wide : 1 ≤ width) : FillsColumn kit tui text width ↔ CutFits kit tui text width :=
  ⟨fun fills => (clip_fits_iff separate wide).mp fills.fits, fillsColumn_of_cutFits separate wide⟩

/-- **A text fills every column exactly if** none of the parts that it can be cut to is wider than
its characters, the text itself not fitting. -/
theorem fills_every_column_iff (separate : Separate kit tui) (text : String) :
    (∀ width, 1 ≤ width → FillsColumn kit tui text width) ↔
      ∀ part rest, text.toList = part ++ rest → (∀ c ∈ rest.head?, 0 < columns tui [c]) →
        kit.width (String.ofList part) ≤ columns tui part ∨
          kit.width text ≤ columns tui part + 1 := by
  constructor
  · intro fills part rest eq next
    have wide : 1 ≤ columns tui part + 1 := Nat.le_add_left ..
    have cut := (clip_fits_iff separate wide).mp (fills _ wide).fits
    refine cut.symm.imp (fun narrow => ?_) id
    refine Nat.le_of_lt_succ (narrow part rest eq (Nat.lt_succ_self _) fun c head => ?_)
    rw [columns_append]
    exact Nat.add_le_add_left (next c head) _
  · intro narrow width wide
    refine fillsColumn_of_cutFits separate wide ?_
    by_cases fits : kit.width text ≤ width
    · exact Or.inl fits
    · refine Or.inr fun part rest eq less next => ?_
      have positive : ∀ c ∈ rest.head?, 0 < columns tui [c] := by
        intro c head
        have reached := next c head
        rw [columns_append] at reached
        omega
      rcases narrow part rest eq positive with as_wide | all_of_it
      · exact Nat.lt_of_le_of_lt as_wide less
      · omega

end Columns

/-! ### A name of hearts -/

namespace Hearts

/-- The character that asks for the emoji of the one before it. -/
def SELECTOR : Char := '\uFE0F'

/-- A character of one column whose emoji takes two. -/
def HEART : Char := '\u2764'

/-- How wide a text of hearts, selectors and characters of one column is. -/
def widthOf : List Char → ℕ
  | [] => 0
  | c :: rest =>
      (if c = SELECTOR then 0 else if c = HEART ∧ rest.head? = some SELECTOR then 2 else 1)
        + widthOf rest

/-- A character of one column behind a text takes one column more. -/
theorem widthOf_append {e : Char} (other : e ≠ SELECTOR) (single : widthOf [e] = 1) :
    ∀ text, widthOf (text ++ [e]) = widthOf text + 1
  | [] => single
  | c :: rest => by
      have head : (rest ++ [e]).head? = some SELECTOR ↔ rest.head? = some SELECTOR := by
        cases rest with
        | nil => simp [other]
        | cons c rest => rfl
      rw [List.cons_append, widthOf, widthOf, widthOf_append other single rest]
      simp only [head, Nat.add_assoc]

/-- A stand-in for `unicode_width` that is true to it on such texts. -/
def kit : Toolkit String :=
  { Toolkit.plain with width := fun text => widthOf text.toList }

/-- And on such characters. -/
def tui : Ratatui (List String) :=
  { Ratatui.plain with charWidth := fun c => if c = SELECTOR then some 0 else some 1 }

/-- A name of six hearts. -/
def six : String := "\u2764\uFE0F\u2764\uFE0F\u2764\uFE0F\u2764\uFE0F\u2764\uFE0F\u2764\uFE0F"

theorem separate : Separate kit tui where
  ellipsis := by decide
  cut text := by
    show widthOf (String.ofList _).toList = widthOf (String.ofList _).toList + 1
    rw [String.toList_ofList, String.toList_ofList]
    exact widthOf_append (by decide) (by decide) text
  before text := by
    show widthOf (String.ofList _).toList = widthOf (String.ofList _).toList + 1
    rw [String.toList_ofList, String.toList_ofList, Nat.add_comm]
    rfl
  behind text := by
    show widthOf (String.ofList _).toList = widthOf (String.ofList _).toList + 1
    rw [String.toList_ofList, String.toList_ofList]
    exact widthOf_append (by decide) (by decide) text

end Hearts

/-- A name of eleven letters is cut to ten columns. -/
theorem fills_column_letters : FillsColumn Hearts.kit Hearts.tui "newsreaders" NAME_WIDTH := by
  have fits : Hearts.kit.width (clip Hearts.kit Hearts.tui "newsreaders" NAME_WIDTH)
      ≤ NAME_WIDTH := by decide +kernel
  have wide : 1 ≤ NAME_WIDTH := by decide
  exact (fills_column_iff Hearts.separate "newsreaders" wide).mpr
    ((clip_fits_iff Hearts.separate wide).mp fits)

/-- **Six hearts are thirteen columns in ten**: by themselves they take six, so none is cut, and the
ellipsis is put behind the twelve they take together. -/
theorem hearts_overflow : Separate Hearts.kit Hearts.tui ∧
    Hearts.kit.width Hearts.six = 12 ∧
    clip Hearts.kit Hearts.tui Hearts.six NAME_WIDTH = Hearts.six ++ "…" ∧
    Hearts.kit.width (clip Hearts.kit Hearts.tui Hearts.six NAME_WIDTH) = 13 ∧
    Hearts.kit.width (rightAlign Hearts.kit Hearts.tui Hearts.six NAME_WIDTH) = 13 ∧
    ¬FillsColumn Hearts.kit Hearts.tui Hearts.six NAME_WIDTH := by
  have overflow : Hearts.kit.width (clip Hearts.kit Hearts.tui Hearts.six NAME_WIDTH) = 13 := by
    decide +kernel
  refine ⟨Hearts.separate, by decide +kernel, by decide +kernel, overflow, by decide +kernel,
    fun fills => ?_⟩
  have fits := fills.fits
  rw [overflow] at fits
  exact absurd fits (by decide)

end Chat

end ScionChat
