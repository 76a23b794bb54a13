import Mathlib.Data.List.TakeWhile
import ScionChat.Lib.Json
import ScionChat.Lib.TransitionSystem

/-!
# Reading JSON

A reader takes a text one character at a time.  What it has of a value that is still open lies
on a stack, one frame for each array or object around it, so a reader is a transition system
whose labels are the characters, and a text is read by a run over it.

* `Value` is what there is to read.  A number stays as it is written: what it is worth is for
  whoever wants a number to say (`Value.asNat`).
* `parse` reads a whole text: one value, and blanks around it.
* `Reads text v` says that a text is read as `v` wherever a value may stand.  The texts that
  `Json` writes are read as what they were written from: `reads_string`, `reads_number`,
  `reads_array`, `reads_object`, whatever their parts are.
* `Value.struct` picks the fields of a record out of what was read, by name, whatever else is
  there and in whatever order, or by position.
* `Writes read text a` says that `read` takes `a` from the text, and `writes_string`,
  `writes_number`, `writes_list`, `record_writes` that it does from the texts `Json` writes.

### What is load-bearing

`Reads` quantifies over what follows.  A number is the one value that does not end by itself, so
what is read of a text depends on the next character, and an induction over a list of items would
not go through without it.  `ReadsAlways` is for the values that do.
-/

namespace Json

open TransitionSystem

/-- A JSON value. -/
inductive Value
  | null
  | bool (b : Bool)
  | number (literal : List Char)
  | string (text : String)
  | array (items : List Value)
  | object (fields : List (String × Value))

/-! ### Characters -/

/-- The braces. -/
def openBrace : Char := Char.ofNat 123
def closeBrace : Char := Char.ofNat 125

/-- White space, as JSON has it. -/
def isBlank (c : Char) : Bool :=
  c.toNat = 32 || c.toNat = 9 || c.toNat = 10 || c.toNat = 13

/-- A character that a number may go on with. -/
def isNumeral (c : Char) : Bool :=
  c.isDigit || c = '-' || c = '+' || c = '.' || c = 'e' || c = 'E'

/-- The value of a hexadecimal digit. -/
def hexValue (c : Char) : Option ℕ :=
  if '0' ≤ c ∧ c ≤ '9' then some (c.toNat - 48)
  else if 'a' ≤ c ∧ c ≤ 'f' then some (c.toNat - 87)
  else if 'A' ≤ c ∧ c ≤ 'F' then some (c.toNat - 55)
  else none

/-! ### Literals -/

/-- The three names. -/
def name (word : List Char) : Option Value :=
  if word = "null".toList then some .null
  else if word = "true".toList then some (.bool true)
  else if word = "false".toList then some (.bool false)
  else none

/-- Some digits, and what follows them. -/
def digits (text : List Char) : Option (List Char) :=
  if (text.takeWhile Char.isDigit).isEmpty then none else some (text.dropWhile Char.isDigit)

/-- The integral part of a number: no zero in front of other digits. -/
def integral (text : List Char) : Option (List Char) :=
  match text with
  | '0' :: rest => some rest
  | _ => digits text

/-- The fraction, if there is one. -/
def fraction (text : List Char) : Option (List Char) :=
  match text with
  | '.' :: rest => digits rest
  | _ => some text

/-- The exponent, if there is one. -/
def exponent (text : List Char) : Option (List Char) :=
  match text with
  | 'e' :: '+' :: rest | 'e' :: '-' :: rest | 'E' :: '+' :: rest | 'E' :: '-' :: rest => digits rest
  | 'e' :: rest | 'E' :: rest => digits rest
  | _ => some text

/-- A number, as JSON writes one. -/
def isNumber (literal : List Char) : Bool :=
  let unsigned := match literal with
    | '-' :: rest => rest
    | _ => literal
  (integral unsigned >>= fraction >>= exponent) = some []

/-! ### The reader -/

/-- Where in a string a reader is: past a character, past a backslash, in the digits after `\u`,
or past the first half of a pair. -/
inductive Escape
  | plain
  | slash (high : Option ℕ)
  | unit (high : Option ℕ) (digits : List ℕ)
  | low (high : ℕ)

/-- What a string is read for: to be a value, or the key of the next field. -/
inductive Purpose
  | value
  | key (before : List (String × Value))

/-- What a reader has just read, and so what may come next. -/
inductive Mode
  | value
  | valueOrEnd
  | key (before : List (String × Value))
  | keyOrEnd
  | colon (before : List (String × Value)) (key : String)
  | text (purpose : Purpose) (sofar : List Char) (escape : Escape)
  | numeral (sofar : List Char)
  | word (sofar : List Char)
  | done (value : Value)

/-- What is open around the value: the items there were, or the fields and the key. -/
inductive Frame
  | array (before : List Value)
  | object (before : List (String × Value)) (key : String)

/-- A reader in the middle of a text. -/
structure Reader where
  mode : Mode
  stack : List Frame

/-- The UTF-16 unit that an escape has spelled: a character, or half of one. -/
def unitRead (high : Option ℕ) (sofar : List Char) (n : ℕ) : Option (List Char × Escape) :=
  match high with
  | some h =>
      if 0xDC00 ≤ n ∧ n ≤ 0xDFFF then
        some (sofar ++ [Char.ofNat (0x10000 + (h - 0xD800) * 0x400 + (n - 0xDC00))], .plain)
      else none
  | none =>
      if 0xD800 ≤ n ∧ n ≤ 0xDBFF then some (sofar, .low n)
      else if 0xDC00 ≤ n ∧ n ≤ 0xDFFF then none
      else some (sofar ++ [Char.ofNat n], .plain)

/-- One more character inside a string, other than the quote that ends it. -/
def Escape.step (sofar : List Char) (c : Char) : Escape → Option (List Char × Escape)
  | plain =>
      if c = backslash then some (sofar, .slash none)
      else if c.toNat < 32 then none
      else some (sofar ++ [c], .plain)
  | slash (some h) => if c = 'u' then some (sofar, .unit (some h) []) else none
  | slash none =>
      match c with
      | 'b' => some (sofar ++ [Char.ofNat 8], .plain)
      | 't' => some (sofar ++ [Char.ofNat 9], .plain)
      | 'n' => some (sofar ++ [Char.ofNat 10], .plain)
      | 'f' => some (sofar ++ [Char.ofNat 12], .plain)
      | 'r' => some (sofar ++ [Char.ofNat 13], .plain)
      | 'u' => some (sofar, .unit none [])
      | _ => if c = quote ∨ c = backslash ∨ c = '/' then some (sofar ++ [c], .plain) else none
  | unit high before =>
      match hexValue c with
      | none => none
      | some d =>
          if before.length < 3 then some (sofar, .unit high (before ++ [d]))
          else unitRead high sofar ((before ++ [d]).foldl (fun n d => 16 * n + d) 0)
  | low high => if c = backslash then some (sofar, .slash (some high)) else none

/-- A string that has come to its end. -/
def Purpose.over (sofar : List Char) : Purpose → Mode
  | value => .done (.string (String.ofList sofar))
  | key before => .colon before (String.ofList sofar)

/-- The first character of a value. -/
def opening (stack : List Frame) (c : Char) : Option Reader :=
  if c = quote then some ⟨.text .value [] .plain, stack⟩
  else if c = '[' then some ⟨.valueOrEnd, .array [] :: stack⟩
  else if c = openBrace then some ⟨.keyOrEnd, stack⟩
  else if c.isDigit || c = '-' then some ⟨.numeral [c], stack⟩
  else if c.isLower then some ⟨.word [c], stack⟩
  else none

/-- A character after a value: it ends what is around the value, or goes on with it. -/
def closing (v : Value) (stack : List Frame) (c : Char) : Option Reader :=
  if isBlank c then some ⟨.done v, stack⟩
  else
    match stack with
    | [] => none
    | .array before :: outer =>
        if c = ',' then some ⟨.value, .array (before ++ [v]) :: outer⟩
        else if c = ']' then some ⟨.done (.array (before ++ [v])), outer⟩
        else none
    | .object before k :: outer =>
        if c = ',' then some ⟨.key (before ++ [(k, v)]), outer⟩
        else if c = closeBrace then some ⟨.done (.object (before ++ [(k, v)])), outer⟩
        else none

/-- **One more character.** -/
def Reader.step (r : Reader) (c : Char) : Option Reader :=
  match r.mode with
  | .value => if isBlank c then some r else opening r.stack c
  | .valueOrEnd =>
      if isBlank c then some r
      else if c = ']' then some ⟨.done (.array []), r.stack.tail⟩
      else opening r.stack c
  | .key before =>
      if isBlank c then some r
      else if c = quote then some ⟨.text (.key before) [] .plain, r.stack⟩
      else none
  | .keyOrEnd =>
      if isBlank c then some r
      else if c = closeBrace then some ⟨.done (.object []), r.stack⟩
      else if c = quote then some ⟨.text (.key []) [] .plain, r.stack⟩
      else none
  | .colon before k =>
      if isBlank c then some r
      else if c = ':' then some ⟨.value, .object before k :: r.stack⟩
      else none
  | .text purpose sofar .plain =>
      if c = quote then some ⟨purpose.over sofar, r.stack⟩
      else (Escape.plain.step sofar c).map fun next => ⟨.text purpose next.1 next.2, r.stack⟩
  | .text purpose sofar escape =>
      (escape.step sofar c).map fun next => ⟨.text purpose next.1 next.2, r.stack⟩
  | .numeral sofar =>
      if isNumeral c then some ⟨.numeral (sofar ++ [c]), r.stack⟩
      else if isNumber sofar then closing (.number sofar) r.stack c
      else none
  | .word sofar =>
      if c.isLower then some ⟨.word (sofar ++ [c]), r.stack⟩
      else (name sofar).bind fun v => closing v r.stack c
  | .done v => closing v r.stack c

/-- What has been read when the text is over. -/
def Reader.finish (r : Reader) : Option Value :=
  match r.stack, r.mode with
  | [], .done v => some v
  | [], .numeral sofar => if isNumber sofar then some (.number sofar) else none
  | [], .word sofar => name sofar
  | _, _ => none

/-- **Reading a text.** -/
def parse (text : List Char) : Option Value :=
  (run Reader.step ⟨.value, []⟩ text).bind Reader.finish

/-! ### Texts that read as a value -/

/-- The modes in which a value may come next. -/
def Mode.Opens (mode : Mode) : Prop :=
  mode = .value ∨ mode = .valueOrEnd

/-- The text is read as the value wherever a value may stand, whatever comes next. -/
def ReadsAlways (text : List Char) (v : Value) : Prop :=
  ∀ mode stack rest, mode.Opens →
    run Reader.step ⟨mode, stack⟩ (text ++ rest) = run Reader.step ⟨.done v, stack⟩ rest

/-- What follows cannot be part of a number or a name. -/
def Delimited (rest : List Char) : Prop :=
  ∃ c more, rest = c :: more ∧ (c = ',' ∨ c = ']' ∨ c = closeBrace)

/-- **The text is read as the value** wherever a value may stand in front of what delimits it.
What delimits a value is a comma, a closing bracket, or white space, or the text is at its end. -/
def Reads (text : List Char) (v : Value) : Prop :=
  ∀ mode stack rest, mode.Opens → Delimited rest →
    run Reader.step ⟨mode, stack⟩ (text ++ rest) = run Reader.step ⟨.done v, stack⟩ rest

theorem ReadsAlways.reads {text : List Char} {v : Value} (h : ReadsAlways text v) :
    Reads text v :=
  fun mode stack rest opens _ => h mode stack rest opens

/-- **A text that is read whatever comes next is a whole text.** -/
theorem ReadsAlways.parse {text : List Char} {v : Value} (h : ReadsAlways text v) :
    Json.parse text = some v := by
  have whole := h .value [] [] (Or.inl rfl)
  rw [List.append_nil] at whole
  rw [Json.parse, whole]
  rfl

theorem run_of_step {r next : Reader} {c : Char} {rest : List Char} (h : r.step c = some next) :
    run Reader.step r (c :: rest) = run Reader.step next rest := by
  rw [run_cons, h]
  rfl

theorem run_to {r : Reader} (next : Reader) {c : Char} {rest : List Char}
    (h : r.step c = some next) : run Reader.step r (c :: rest) = run Reader.step next rest :=
  run_of_step h

/-- A character that opens a value opens it in either mode. -/
theorem step_opening {mode : Mode} (opens : mode.Opens) {stack : List Frame} {c : Char}
    {next : Reader} (blank : isBlank c = false) (bracket : c ≠ ']')
    (h : opening stack c = some next) : (Reader.mk mode stack).step c = some next := by
  rcases opens with rfl | rfl
  · simp only [Reader.step, blank, Bool.false_eq_true, if_false, h]
  · simp only [Reader.step, blank, Bool.false_eq_true, if_false, bracket, h]

/-! ### Strings -/

section Strings

variable (purpose : Purpose) (sofar : List Char) (stack : List Frame)

/-- The reader inside a string. -/
private abbrev within (sofar : List Char) (escape : Escape) : Reader :=
  ⟨.text purpose sofar escape, stack⟩

theorem hexValue_digitChar {d : ℕ} (small : d < 16) : hexValue (Nat.digitChar d) = some d :=
  (show ∀ d < 16, hexValue (Nat.digitChar d) = some d by decide) d small

/-- A character past a backslash. -/
theorem run_escape {c e : Char} (rest : List Char)
    (reads : (Escape.slash none).step sofar e = some (sofar ++ [c], .plain)) :
    run Reader.step (within purpose stack sofar .plain) (backslash :: e :: rest)
      = run Reader.step (within purpose stack (sofar ++ [c]) .plain) rest := by
  rw [run_to (within purpose stack sofar (.slash none)) rfl]
  refine run_of_step ?_
  show ((Escape.slash none).step sofar e).map _ = _
  rw [reads]
  rfl

/-- A control character that has no letter of its own. -/
theorem run_control {c : Char} (control : c.toNat < 32) (rest : List Char) :
    run Reader.step (within purpose stack sofar .plain)
        ([backslash, 'u', '0', '0', Nat.digitChar (c.toNat / 16), Nat.digitChar (c.toNat % 16)]
          ++ rest)
      = run Reader.step (within purpose stack (sofar ++ [c]) .plain) rest := by
  have high : hexValue (Nat.digitChar (c.toNat / 16)) = some (c.toNat / 16) :=
    hexValue_digitChar (by omega)
  have low : hexValue (Nat.digitChar (c.toNat % 16)) = some (c.toNat % 16) :=
    hexValue_digitChar (by omega)
  have worth : 16 * (16 * (16 * (16 * 0 + 0) + 0) + c.toNat / 16) + c.toNat % 16 = c.toNat := by
    omega
  show run Reader.step _ (backslash :: 'u' :: '0' :: '0' :: _ :: _ :: rest) = _
  rw [run_to (within purpose stack sofar (.slash none)) rfl,
    run_to (within purpose stack sofar (.unit none [])) rfl,
    run_to (within purpose stack sofar (.unit none [0])) rfl,
    run_to (within purpose stack sofar (.unit none [0, 0])) rfl,
    run_to (within purpose stack sofar (.unit none [0, 0, c.toNat / 16]))
      (by simp [Reader.step, Escape.step, high])]
  refine run_of_step ?_
  have no_surrogate : ¬ (0xD800 ≤ c.toNat ∧ c.toNat ≤ 0xDBFF) ∧
      ¬ (0xDC00 ≤ c.toNat ∧ c.toNat ≤ 0xDFFF) := by omega
  show ((Escape.unit none [0, 0, c.toNat / 16]).step sofar _).map _ = _
  simp only [Escape.step, low, List.length_cons, List.length_nil, List.cons_append,
    List.nil_append, List.foldl_cons, List.foldl_nil, worth, unitRead, if_neg no_surrogate.1,
    if_neg no_surrogate.2, Char.ofNat_toNat]
  rfl

/-- **A character, escaped, is read as the character.** -/
theorem run_escaped (c : Char) (rest : List Char) :
    run Reader.step (within purpose stack sofar .plain) (escaped c ++ rest)
      = run Reader.step (within purpose stack (sofar ++ [c]) .plain) rest := by
  have is_char : ∀ {n : ℕ}, c.toNat = n → c = Char.ofNat n := fun same => by
    rw [← same, Char.ofNat_toNat]
  unfold escaped
  split
  next same => exact run_escape purpose sofar stack rest (by rw [is_char same]; rfl)
  next same => exact run_escape purpose sofar stack rest (by rw [is_char same]; rfl)
  next same => exact run_escape purpose sofar stack rest (by rw [is_char same]; rfl)
  next same => exact run_escape purpose sofar stack rest (by rw [is_char same]; rfl)
  next same => exact run_escape purpose sofar stack rest (by rw [is_char same]; rfl)
  next same => exact run_escape purpose sofar stack rest (by rw [is_char same]; rfl)
  next same => exact run_escape purpose sofar stack rest (by rw [is_char same]; rfl)
  next n no_quote no_backslash _ _ _ _ _ =>
    split
    next control => exact run_control purpose sofar stack control rest
    next printable =>
      have not_quote : c ≠ quote := by
        rintro rfl
        exact no_quote rfl
      have not_backslash : c ≠ backslash := by
        rintro rfl
        exact no_backslash rfl
      refine run_of_step ?_
      simp only [Reader.step, if_neg not_quote, Escape.step, if_neg not_backslash,
        if_neg printable]
      rfl

/-- The characters of a string, up to the quote that ends it. -/
theorem run_text (cs rest : List Char) :
    run Reader.step (within purpose stack sofar .plain) (cs.flatMap escaped ++ quote :: rest)
      = run Reader.step ⟨purpose.over (sofar ++ cs), stack⟩ rest := by
  induction cs generalizing sofar with
  | nil =>
      rw [List.append_nil]
      exact run_of_step rfl
  | cons c cs ih =>
      rw [List.flatMap_cons, List.append_assoc, run_escaped, ih, List.append_assoc,
        List.singleton_append]

end Strings

/-- **A string is read as its text.** Every character is escaped where it has to be, so the text
comes back whatever it holds. -/
theorem reads_string (text : String) : ReadsAlways (string text) (.string text) := by
  intro mode stack rest opens
  have first : (Reader.mk mode stack).step quote = some ⟨.text .value [] .plain, stack⟩ :=
    step_opening opens rfl (by decide) rfl
  rw [string, List.cons_append, run_of_step first, List.append_assoc, List.singleton_append,
    run_text, List.nil_append, Purpose.over, String.ofList_toList]

/-- A key is read as its text, up to the colon. -/
theorem run_key {mode : Mode} {before : List (String × Value)} (stack : List Frame) (k : String)
    (rest : List Char) (expects : mode = .key before ∨ mode = .keyOrEnd ∧ before = []) :
    run Reader.step ⟨mode, stack⟩ (string k ++ ':' :: rest)
      = run Reader.step ⟨.value, .object before k :: stack⟩ rest := by
  have first : (Reader.mk mode stack).step quote
      = some ⟨.text (.key before) [] .plain, stack⟩ := by
    rcases expects with rfl | ⟨rfl, rfl⟩ <;> rfl
  rw [string, List.cons_append, run_of_step first, List.append_assoc, List.singleton_append,
    run_text, List.nil_append, Purpose.over, String.ofList_toList]
  exact run_of_step rfl

/-! ### Numbers -/

/-- Only zero is written with a zero in front. -/
theorem head_toDigits {n : ℕ} (zero : (Nat.toDigits 10 n).head? = some '0') : n = 0 := by
  induction n using Nat.strong_induction_on with
  | _ n ih =>
      rcases Nat.lt_or_ge n 10 with small | large
      · rw [Nat.toDigits_of_lt_base small] at zero
        exact (show ∀ n < 10, [Nat.digitChar n].head? = some '0' → n = 0 by decide) n small zero
      · rw [Nat.toDigits_of_base_le (by decide) large,
          List.head?_append_of_ne_nil _ Nat.toDigits_ne_nil] at zero
        have := ih (n / 10) (by omega) zero
        omega

theorem number_isDigit {n : ℕ} : ∀ c ∈ number n, c.isDigit := fun _ mem =>
  Nat.isDigit_of_mem_toDigits (by decide) (by decide) mem

theorem digits_of_all {text : List Char} (some_ : text ≠ []) (all : ∀ c ∈ text, c.isDigit) :
    digits text = some [] := by
  rw [digits, List.takeWhile_eq_self_iff.mpr all, List.dropWhile_eq_nil_iff.mpr all,
    if_neg (by simpa using some_)]

theorem isNumber_number (n : ℕ) : isNumber (number n) = true := by
  have all := number_isDigit (n := n)
  have some_ : number n ≠ [] := Nat.toDigits_ne_nil
  have unsigned : (match number n with
      | '-' :: rest => rest
      | _ => number n) = number n := by
    split
    next rest eq =>
      have := all '-' (eq ▸ List.mem_cons_self)
      cases this
    next => rfl
  have int : integral (number n) = some [] := by
    unfold integral
    split
    next rest eq =>
      have := head_toDigits (n := n) (by
        show (number n).head? = _
        rw [eq]
        rfl)
      subst this
      cases eq
      rfl
    next => exact digits_of_all some_ all
  simp only [isNumber, unsigned, int]
  rfl

/-- More digits of a number. -/
theorem run_numeral (stack : List Frame) (sofar more rest : List Char)
    (all : ∀ c ∈ more, c.isDigit) :
    run Reader.step ⟨.numeral sofar, stack⟩ (more ++ rest)
      = run Reader.step ⟨.numeral (sofar ++ more), stack⟩ rest := by
  induction more generalizing sofar with
  | nil => rw [List.append_nil, List.nil_append]
  | cons c more ih =>
      have next : (Reader.mk (.numeral sofar) stack).step c
          = some ⟨.numeral (sofar ++ [c]), stack⟩ := by
        simp [Reader.step, isNumeral, all c List.mem_cons_self]
      rw [List.cons_append, run_of_step next,
        ih (sofar ++ [c]) (fun d mem => all d (List.mem_cons_of_mem c mem)), List.append_assoc,
        List.singleton_append]

theorem opening_digit {c : Char} (digit : c.isDigit) (stack : List Frame) :
    isBlank c = false ∧ c ≠ ']' ∧ opening stack c = some ⟨.numeral [c], stack⟩ := by
  have differs : ∀ d : Char, d.isDigit = false → c ≠ d := by
    rintro d no rfl
    rw [digit] at no
    cases no
  have apart : ∀ n : ℕ, (Char.ofNat n).isDigit = false → c.toNat ≠ n := by
    rintro n no rfl
    rw [Char.ofNat_toNat, digit] at no
    cases no
  refine ⟨?_, differs _ rfl, ?_⟩
  · simp [isBlank, apart 32 rfl, apart 9 rfl, apart 10 rfl, apart 13 rfl]
  · simp only [opening, if_neg (differs quote rfl), if_neg (differs '[' rfl),
      if_neg (differs openBrace rfl), digit, Bool.true_or, if_true]

/-- **A number is read as it is written.** -/
theorem reads_number (n : ℕ) : Reads (number n) (.number (number n)) := by
  rintro mode stack rest opens ⟨c, more, rfl, delimits⟩
  have ends : isNumeral c = false := by rcases delimits with rfl | rfl | rfl <;> rfl
  cases written : number n with
  | nil => exact absurd written Nat.toDigits_ne_nil
  | cons d ds =>
      have all := number_isDigit (n := n)
      rw [written] at all
      obtain ⟨blank, bracket, opened⟩ := opening_digit (all d List.mem_cons_self) stack
      rw [List.cons_append, run_of_step (step_opening opens blank bracket opened),
        run_numeral stack [d] ds _ fun e mem => all e (List.mem_cons_of_mem d mem),
        List.singleton_append, ← written, run_cons, run_cons]
      refine congrArg (fun next => Option.bind next _) ?_
      simp only [Reader.step, ends, isNumber_number, Bool.false_eq_true, if_false, if_true]

/-! ### Arrays and objects -/

theorem delimited_cons {c : Char} (rest : List Char)
    (delimits : c = ',' ∨ c = ']' ∨ c = closeBrace) : Delimited (c :: rest) :=
  ⟨c, rest, rfl, delimits⟩

/-- The items of an array, up to the bracket. -/
theorem run_items {texts : List (List Char)} {items : List Value}
    (reads : List.Forall₂ Reads texts items) (some_ : texts ≠ []) {mode : Mode}
    (opens : mode.Opens) (before : List Value) (stack : List Frame) (rest : List Char) :
    run Reader.step ⟨mode, .array before :: stack⟩ (commas texts ++ ']' :: rest)
      = run Reader.step ⟨.done (.array (before ++ items)), stack⟩ rest := by
  induction reads generalizing mode before with
  | nil => exact absurd rfl some_
  | @cons text item texts items first later ih =>
      cases later with
      | nil =>
          rw [commas, first mode _ _ opens (delimited_cons _ (Or.inr (Or.inl rfl)))]
          exact run_of_step rfl
      | cons second later =>
          rw [commas, List.append_assoc, List.cons_append,
            first mode _ _ opens (delimited_cons _ (Or.inl rfl))]
          rw [run_to ⟨.value, .array (before ++ [item]) :: stack⟩ rfl,
            ih (List.cons_ne_nil _ _) (Or.inl rfl), List.append_assoc, List.singleton_append]
          exact List.cons_ne_nil _ _

/-- **An array is read as its items.** -/
theorem reads_array {texts : List (List Char)} {items : List Value}
    (reads : List.Forall₂ Reads texts items) : ReadsAlways (array texts) (.array items) := by
  intro mode stack rest opens
  have first : (Reader.mk mode stack).step '[' = some ⟨.valueOrEnd, .array [] :: stack⟩ :=
    step_opening opens rfl (by decide) rfl
  rw [array, List.cons_append, run_of_step first, List.append_assoc, List.singleton_append]
  cases reads with
  | nil => exact run_of_step rfl
  | cons head tail =>
      exact run_items (.cons head tail) (List.cons_ne_nil _ _) (Or.inr rfl) [] stack rest

/-- The text of a field. -/
def fieldText (field : String × List Char) : List Char :=
  string field.1 ++ ':' :: field.2

/-- A field is read as its name and its value. -/
def ReadsField (field : String × List Char) (read : String × Value) : Prop :=
  field.1 = read.1 ∧ Reads field.2 read.2

/-- The fields of an object, up to the brace. -/
theorem run_fields {fields : List (String × List Char)} {read : List (String × Value)}
    (reads : List.Forall₂ ReadsField fields read) (some_ : fields ≠ []) {mode : Mode}
    {before : List (String × Value)} (expects : mode = .key before ∨ mode = .keyOrEnd ∧ before = [])
    (stack : List Frame) (rest : List Char) :
    run Reader.step ⟨mode, stack⟩ (commas (fields.map fieldText) ++ closeBrace :: rest)
      = run Reader.step ⟨.done (.object (before ++ read)), stack⟩ rest := by
  induction reads generalizing mode before with
  | nil => exact absurd rfl some_
  | @cons field value fields read first later ih =>
      obtain ⟨name, text⟩ := field
      obtain ⟨_, item⟩ := value
      obtain ⟨rfl, reads⟩ := first
      cases later with
      | nil =>
          rw [List.map_cons, List.map_nil, commas, fieldText, List.append_assoc,
            List.cons_append, run_key stack _ _ expects,
            reads .value _ _ (Or.inl rfl) (delimited_cons _ (Or.inr (Or.inr rfl)))]
          exact run_of_step rfl
      | cons second later =>
          rw [List.map_cons, List.map_cons, commas, fieldText, List.append_assoc,
            List.append_assoc, List.cons_append, List.cons_append, run_key stack _ _ expects,
            reads .value _ _ (Or.inl rfl) (delimited_cons _ (Or.inl rfl)),
            run_to ⟨.key (before ++ [(name, item)]), stack⟩ rfl]
          have expects' : Mode.key (before ++ [(name, item)]) = .key (before ++ [(name, item)]) ∨
              Mode.key (before ++ [(name, item)]) = .keyOrEnd ∧ before ++ [(name, item)] = [] :=
            Or.inl rfl
          have tail := ih (List.cons_ne_nil _ _) expects'
          rw [List.map_cons] at tail
          rw [tail, List.append_assoc, List.singleton_append]
          exact List.cons_ne_nil _ _

/-- **An object is read as its fields.** Fields are read in the order in which they stand, and none
is skipped at this level. -/
theorem reads_object {fields : List (String × List Char)} {read : List (String × Value)}
    (reads : List.Forall₂ ReadsField fields read) : ReadsAlways (object fields) (.object read) := by
  intro mode stack rest opens
  have first : (Reader.mk mode stack).step openBrace = some ⟨.keyOrEnd, stack⟩ :=
    step_opening opens rfl (by decide) rfl
  show run Reader.step _ (openBrace :: (commas (fields.map fieldText) ++ [closeBrace]) ++ rest) = _
  rw [List.cons_append, run_of_step first, List.append_assoc, List.singleton_append]
  cases reads with
  | nil => exact run_of_step rfl
  | cons head tail =>
      exact run_fields (.cons head tail) (List.cons_ne_nil _ _) (Or.inr ⟨rfl, rfl⟩) stack rest

/-- The name of nothing. -/
def nullText : List Char := "null".toList

theorem reads_null : Reads nullText .null := by
  rintro mode stack rest opens ⟨c, more, rfl, delimits⟩
  have first : (Reader.mk mode stack).step 'n' = some ⟨.word ['n'], stack⟩ :=
    step_opening opens rfl (by decide) rfl
  have ends : c.isLower = false := by rcases delimits with rfl | rfl | rfl <;> rfl
  show run Reader.step _ ('n' :: 'u' :: 'l' :: 'l' :: c :: more) = _
  rw [run_of_step first, run_to ⟨.word ['n', 'u'], stack⟩ rfl,
    run_to ⟨.word ['n', 'u', 'l'], stack⟩ rfl,
    run_to ⟨.word ['n', 'u', 'l', 'l'], stack⟩ rfl, run_cons, run_cons]
  refine congrArg (fun next => Option.bind next _) ?_
  simp only [Reader.step, ends, Bool.false_eq_true, if_false]
  rfl

/-! ### What a reader wants -/

namespace Value

/-- A string. -/
def asString : Value → Option String
  | string text => some text
  | _ => none

/-- A number without a sign, a fraction or an exponent, up to `max`. -/
def asNat (max : ℕ) : Value → Option ℕ
  | number literal =>
      if literal.all Char.isDigit then
        let n := Nat.ofDigitChars 10 literal 0
        if n ≤ max then some n else none
      else none
  | _ => none

/-- An array, each item read alike. -/
def asList {α : Type} (read : Value → Option α) : Value → Option (List α)
  | array items => items.mapM read
  | _ => none

/-- Nothing, or what is read. -/
def asOption {α : Type} (read : Value → Option α) : Value → Option (Option α)
  | null => some none
  | v => (read v).map some

/-- What is there once, or not at all. -/
def sole {α : Type} : List α → Option (Option α)
  | [] => some none
  | [a] => some (some a)
  | _ => none

/-- The field of a name: it may be missing, and may not be there twice. -/
def field (name : String) (fields : List (String × Value)) : Option (Option Value) :=
  sole ((fields.filter fun f => f.1 = name).map Prod.snd)

/-- **The fields of a record**, by name, others being ignored, or by position, all of them. -/
def struct (names : List String) : Value → Option (List (Option Value))
  | object fields => names.mapM fun name => field name fields
  | array items => if items.length = names.length then some (items.map some) else none
  | _ => none

/-- A field that has to be there. -/
def needed {α : Type} (read : Value → Option α) (v : Option Value) : Option α :=
  v.bind read

/-- A field that may be missing. -/
def optional {α : Type} (read : Value → Option α) : Option Value → Option (Option α)
  | none => some none
  | some v => asOption read v

end Value

open Value

theorem mapM_congr {α β : Type} {f g : α → Option β} {as : List α}
    (same : ∀ a ∈ as, f a = g a) : as.mapM f = as.mapM g := by
  induction as with
  | nil => rfl
  | cons a as ih =>
      rw [List.mapM_cons, List.mapM_cons, same a List.mem_cons_self,
        ih fun b mem => same b (List.mem_cons_of_mem a mem)]

/-- The fields of a record that has them all, in order. -/
theorem struct_zip : ∀ {names : List String} {values : List Value}, names.Nodup →
    values.length = names.length →
      struct names (.object (names.zip values)) = some (values.map some) := by
  intro names
  induction names with
  | nil =>
      intro values _ same
      rw [List.length_eq_zero_iff.mp same]
      rfl
  | cons name names ih =>
      intro values distinct same
      obtain ⟨fresh, distinct⟩ := List.nodup_cons.mp distinct
      cases values with
      | nil => cases same
      | cons v values =>
          have rest := ih distinct (Nat.succ.inj same)
          have absent : ((names.zip values).filter fun f => f.1 = name) = [] := by
            refine List.filter_eq_nil_iff.mpr fun f there same => fresh ?_
            rw [← of_decide_eq_true same]
            exact (List.of_mem_zip there).1
          have first : field name ((name, v) :: names.zip values) = some (some v) := by
            rw [field, List.filter_cons_of_pos (by simp), absent]
            rfl
          have others : names.mapM (fun other => field other ((name, v) :: names.zip values))
              = names.mapM fun other => field other (names.zip values) := by
            refine mapM_congr fun other mem => ?_
            have differ : ¬ decide ((name, v).1 = other) = true := by
              intro same
              obtain rfl : name = other := of_decide_eq_true same
              exact fresh mem
            rw [field, List.filter_cons, if_neg differ]
            rfl
          show ((name :: names).mapM fun other => field other ((name, v) :: names.zip values)) = _
          rw [List.mapM_cons, first, others]
          have rest' : names.mapM (fun other => field other (names.zip values))
              = some (values.map some) := rest
          rw [rest']
          rfl

/-! ### Texts that say something -/

section Writing

variable {α β : Type} {read : Value → Option α}

/-- **The reader takes `a` from the text**, wherever the text stands. -/
def Writes (read : Value → Option α) (text : List Char) (a : α) : Prop :=
  ∃ v, Reads text v ∧ read v = some a

/-- It does so whatever comes next, so it does from the text alone. -/
def WritesAlways (read : Value → Option α) (text : List Char) (a : α) : Prop :=
  ∃ v, ReadsAlways text v ∧ read v = some a

theorem WritesAlways.writes {text : List Char} {a : α} (h : WritesAlways read text a) :
    Writes read text a := by
  obtain ⟨v, reads, takes⟩ := h
  exact ⟨v, reads.reads, takes⟩

theorem WritesAlways.parse {text : List Char} {a : α} (h : WritesAlways read text a) :
    Json.parse text >>= read = some a := by
  obtain ⟨v, reads, takes⟩ := h
  rw [reads.parse]
  exact takes

theorem writes_string (text : String) : WritesAlways asString (string text) text :=
  ⟨.string text, reads_string text, rfl⟩

theorem asNat_number {max n : ℕ} (fits : n ≤ max) : asNat max (.number (number n)) = some n := by
  have all : (number n).all Char.isDigit = true := List.all_eq_true.mpr number_isDigit
  have worth : Nat.ofDigitChars 10 (number n) 0 = n := Nat.ofDigitChars_ten_toDigits
  simp only [asNat, all, worth, if_true, if_pos fits]

theorem writes_number {max n : ℕ} (fits : n ≤ max) : Writes (asNat max) (number n) n :=
  ⟨.number (number n), reads_number n, asNat_number fits⟩

/-- **A list is taken from the array of its items.** -/
theorem writes_list {text : α → List Char} {items : List α}
    (writes : ∀ a ∈ items, Writes read (text a) a) :
    WritesAlways (asList read) (array (items.map text)) items := by
  have each : ∃ values, List.Forall₂ Reads (items.map text) values ∧
      values.mapM read = some items := by
    induction items with
    | nil => exact ⟨[], .nil, rfl⟩
    | cons a items ih =>
        obtain ⟨values, reads, takes⟩ := ih fun b mem => writes b (List.mem_cons_of_mem a mem)
        obtain ⟨v, first, takes_first⟩ := writes a List.mem_cons_self
        refine ⟨v :: values, .cons first reads, ?_⟩
        rw [List.mapM_cons, takes_first, takes]
        rfl
  obtain ⟨values, reads, takes⟩ := each
  exact ⟨.array values, reads_array reads, takes⟩

theorem asOption_some {v : Value} {a : α} (takes : read v = some a)
    (something : read .null = none) : asOption read v = some (some a) := by
  cases v with
  | null =>
      rw [something] at takes
      cases takes
  | _ => exact congrArg (Option.map some) takes

theorem writes_none : Writes (asOption read) nullText none :=
  ⟨.null, reads_null, rfl⟩

theorem writes_some {text : List Char} {a : α} (writes : Writes read text a)
    (something : read .null = none) : Writes (asOption read) text (some a) := by
  obtain ⟨v, reads, takes⟩ := writes
  exact ⟨v, reads, asOption_some takes something⟩

/-- **A record is taken from the object of its fields**: what is read of them is handed over in
order. -/
theorem record_writes (names : List String) (texts : List (List Char)) (values : List Value)
    (distinct : names.Nodup) (reads : List.Forall₂ Reads texts values)
    (all : texts.length = names.length) {read : Value → Option β} {b : β}
    (takes : ∀ v, struct names v = some (values.map some) → read v = some b) :
    WritesAlways read (object (names.zip texts)) b := by
  have same : values.length = names.length := reads.length_eq.symm.trans all
  refine ⟨.object (names.zip values), reads_object ?_, takes _ (struct_zip distinct same)⟩
  clear takes distinct same
  induction reads generalizing names with
  | nil =>
      rw [List.zip_nil_right, List.zip_nil_right]
      exact .nil
  | @cons text v texts values first later ih =>
      cases names with
      | nil => exact .nil
      | cons name names => exact .cons ⟨rfl, first⟩ (ih names (Nat.succ.inj all))

end Writing

end Json
