import Mathlib.Data.List.DropRight

/-!
# Keys and lines of text

What the screens of the terminal client are made of: the keys that are pressed, the text that is
typed, and the line editor it is typed into, which is a library and taken as a parameter.

`Toolkit` is that library, `tui_input`, together with what the screens ask of `unicode_width`.  Its
`Input` is abstract: it holds a text, makes what it does of a key, and is built from a text again
when one is put back.  The screens read a line as text and trim it as `str::trim` does, by
Unicode's `White_Space`.

### design decisions

* **One law.** A new line holds its text, and nothing is asked of what a key does to a line.  So
  the results hold for any editor, also for one that drops characters or inserts them anywhere, and
  what a key has done to a line is found by running the editor.
* **Keys as far as a screen tells them apart.**  `KeyCode` has the keys that some screen matches
  on, and a case for all others, and a `KeyEvent` has the modifiers that decide what quits.
* **A kit that runs.** `Toolkit.plain` takes characters at the end of its line, and nothing else;
  it is what the runs on concrete keys are made with.
-/

namespace ScionChat

/-! ### Keys -/

/-- The keys, as far as a screen tells one from another. -/
inductive KeyCode
  | enter
  | esc
  | tab
  | backTab
  | up
  | down
  | left
  | right
  | pageUp
  | pageDown
  | char (c : Char)
  | other (code : ℕ)
  deriving DecidableEq, Repr

/-- A key that is pressed, and the modifiers held with it. -/
structure KeyEvent where
  code : KeyCode
  control : Bool := false
  /-- The other modifiers. -/
  others : ℕ := 0
  deriving DecidableEq, Repr

/-! ### Text -/

/-- The characters with the Unicode property `White_Space`, which is `char::is_whitespace`. -/
def isWhitespace (c : Char) : Bool :=
  let n := c.toNat
  (9 ≤ n && n ≤ 13) || n = 32 || n = 133 || n = 160 || n = 5760 || (8192 ≤ n && n ≤ 8202) ||
    n = 8232 || n = 8233 || n = 8239 || n = 8287 || n = 12288

/-- `str::trim`. -/
def trimmed (text : String) : String :=
  String.ofList ((text.toList.dropWhile isWhitespace).rdropWhile isWhitespace)

/-- `split_once(char::is_whitespace)`, or the whole text and nothing. -/
def splitWord (text : String) : String × String :=
  (String.ofList (text.toList.takeWhile fun c => !isWhitespace c),
    String.ofList ((text.toList.dropWhile fun c => !isWhitespace c).drop 1))

/-- Text in a column of its own: at its left, or at its right. -/
def padRight (width : ℕ) (text : String) : String :=
  text ++ String.ofList (List.replicate (width - text.length) ' ')

def padLeft (width : ℕ) (text : String) : String :=
  String.ofList (List.replicate (width - text.length) ' ') ++ text

/-! ### The line editor -/

/-- The libraries the screens use: `tui_input`, whose `Input` holds a line and makes what it does
of a key, and `unicode_width`. -/
structure Toolkit (Input : Type) where
  new (value : String) : Input
  value (input : Input) : String
  handleEvent (input : Input) (key : KeyEvent) : Input
  width (text : String) : ℕ
  /-- A new line holds its text. -/
  value_new : ∀ text, value (new text) = text

/-- A line without anything in it, which is also what `reset` leaves. -/
def Toolkit.empty {Input : Type} (kit : Toolkit Input) : Input :=
  kit.new ""

@[simp] theorem Toolkit.value_empty {Input : Type} (kit : Toolkit Input) :
    kit.value kit.empty = "" :=
  kit.value_new ""

/-- A line that takes characters at its end, and nothing else: enough to type with. -/
def Toolkit.plain : Toolkit String where
  new value := value
  value input := input
  handleEvent input key :=
    match key.code with
    | .char c => if key.control then input else input.push c
    | _ => input
  width text := text.length
  value_new _ := rfl

end ScionChat
