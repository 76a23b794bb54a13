import Mathlib.Algebra.BigOperators.Ring.List
import Mathlib.Algebra.Group.Action.Defs
import Mathlib.Algebra.Order.BigOperators.Group.List
import Mathlib.Data.Nat.Digits.Defs
import Mathlib.Order.Nat

/-!
# JSON text, and how long it is

JSON as a compact writer puts it down: no blanks, the escapes that JSON asks for and no others,
characters above ASCII as they are.  A text is a list of characters; `bytes` is its UTF-8, and
`size` how long that is.

* `size_string` — a string takes two bytes more than its characters, escaped;
* `size_string_le` and `size_string_le_of_printable` — how much escaping can make of it;
* `size_array` — an array takes what its elements take, a comma after each but the last, and the
  brackets.

### design decisions

* **Sizes in bytes, texts in characters.**  A bound is on bytes, and escaping works on characters.
  `size` is defined on lists of characters, so that it is additive, and `length_bytes` ties it to
  the encoding.
* **Escaping is a function of one character.**  Whether a character is escaped, and how, depends on
  nothing around it.  This is why the size of a string is a sum.

### What is load-bearing

`size_escaped_le`: six bytes for one, which is what `\u0001` takes.  Both the bound and its being
attained (`size_string_replicate`) come from there.
-/

namespace Json

/-- The UTF-8 of a text. -/
def bytes (text : List Char) : List UInt8 :=
  text.flatMap String.utf8EncodeChar

/-- How many bytes a text takes. -/
def size (text : List Char) : ℕ :=
  (text.map Char.utf8Size).sum

@[simp] theorem size_nil : size [] = 0 := rfl

@[simp] theorem size_cons (c : Char) (text : List Char) :
    size (c :: text) = c.utf8Size + size text :=
  List.sum_cons

@[simp] theorem size_append (a b : List Char) : size (a ++ b) = size a + size b := by
  unfold size
  rw [List.map_append, List.sum_append]

theorem length_bytes (text : List Char) : (bytes text).length = size text := by
  induction text with
  | nil => rfl
  | cons c rest ih =>
      unfold bytes at *
      rw [List.flatMap_cons, List.length_append, ih, size_cons, String.length_utf8EncodeChar]

theorem size_flatMap {α : Type*} (f : α → List Char) (xs : List α) :
    size (xs.flatMap f) = (xs.map fun x => size (f x)).sum := by
  induction xs with
  | nil => rfl
  | cons x rest ih => rw [List.flatMap_cons, size_append, ih, List.map_cons, List.sum_cons]

/-- A string takes the bytes of its characters. -/
theorem size_toList (text : String) : size text.toList = text.utf8ByteSize := by
  have encoded : ∀ cs : List Char, cs.utf8Encode.size = size cs := by
    intro cs
    induction cs with
    | nil => rfl
    | cons c rest ih =>
        rw [List.utf8Encode_cons, ByteArray.size_append, ih, size_cons]
        congr 1
        rw [List.utf8Encode_singleton]
        simp
  rw [← encoded, String.utf8Encode_toList, String.size_toByteArray]

/-! ### Writing -/

/-- The double quote, and the backslash. -/
def quote : Char := Char.ofNat 34
def backslash : Char := Char.ofNat 92

/-- A character inside a string. -/
def escaped (c : Char) : List Char :=
  match c.toNat with
  | 34 => [backslash, quote]
  | 92 => [backslash, backslash]
  | 8 => [backslash, 'b']
  | 9 => [backslash, 't']
  | 10 => [backslash, 'n']
  | 12 => [backslash, 'f']
  | 13 => [backslash, 'r']
  | n => if n < 32 then [backslash, 'u', '0', '0', Nat.digitChar (n / 16), Nat.digitChar (n % 16)]
      else [c]

/-- A string. -/
def string (text : String) : List Char :=
  quote :: (text.toList.flatMap escaped ++ [quote])

/-- A number. -/
def number (n : ℕ) : List Char :=
  Nat.toDigits 10 n

/-- Values with commas between. -/
def commas : List (List Char) → List Char
  | [] => []
  | [value] => value
  | value :: rest => value ++ ',' :: commas rest

/-- An array. -/
def array (values : List (List Char)) : List Char :=
  '[' :: (commas values ++ [']'])

/-- An object, from its fields. -/
def object (fields : List (String × List Char)) : List Char :=
  Char.ofNat 123 :: (commas (fields.map fun field => string field.1 ++ ':' :: field.2)
    ++ [Char.ofNat 125])

/-! ### Sizes -/

/-- A character in ASCII takes one byte. -/
theorem utf8Size_of_ascii {c : Char} (ascii : c.toNat < 128) : c.utf8Size = 1 := by
  rw [Char.utf8Size_eq_one_iff, UInt32.le_iff_toNat_le]
  exact Nat.le_of_lt_succ ascii

theorem toNat_lt_of_isDigit {c : Char} (digit : c.isDigit) : c.toNat < 128 := by
  simp only [Char.isDigit, Bool.and_eq_true, decide_eq_true_eq, UInt32.le_iff_toNat_le] at digit
  exact lt_of_le_of_lt digit.2 (by decide)

theorem utf8Size_hexDigit {n : ℕ} (small : n < 16) : (Nat.digitChar n).utf8Size = 1 :=
  (show ∀ n < 16, (Nat.digitChar n).utf8Size = 1 by decide) n small

/-- A number takes its digits. -/
theorem size_number (n : ℕ) : size (number n) = (Nat.toDigits 10 n).length := by
  have ones : (number n).map Char.utf8Size = List.replicate (number n).length 1 := by
    refine List.eq_replicate_iff.mpr ⟨List.length_map _, fun k mem => ?_⟩
    obtain ⟨c, there, rfl⟩ := List.mem_map.mp mem
    exact utf8Size_of_ascii (toNat_lt_of_isDigit
      (Nat.isDigit_of_mem_toDigits (by decide) (by decide) there))
  unfold size
  rw [ones, List.sum_replicate, smul_eq_mul, Nat.mul_one]
  rfl

theorem size_number_le {n k : ℕ} (positive : 0 < k) (small : n < 10 ^ k) :
    size (number n) ≤ k := by
  rw [size_number]
  exact (Nat.length_toDigits_le_iff (by decide) positive).mpr small

theorem lt_size_number {n k : ℕ} (positive : 0 < k) (large : 10 ^ k ≤ n) :
    k < size (number n) := by
  rw [size_number]
  by_contra short
  have small := (Nat.length_toDigits_le_iff (b := 10) (by decide) positive).mp (not_lt.mp short)
  omega

/-- **Escaping** makes at most six bytes of each byte.  A control character without a short form
takes all six of them, and no other byte takes more. -/
theorem size_escaped_le (c : Char) : size (escaped c) ≤ 6 * c.utf8Size := by
  have some_ : 1 ≤ c.utf8Size := c.utf8Size_pos
  unfold escaped
  split
  · exact le_trans (by decide) (Nat.mul_le_mul_left 6 some_)
  · exact le_trans (by decide) (Nat.mul_le_mul_left 6 some_)
  · exact le_trans (by decide) (Nat.mul_le_mul_left 6 some_)
  · exact le_trans (by decide) (Nat.mul_le_mul_left 6 some_)
  · exact le_trans (by decide) (Nat.mul_le_mul_left 6 some_)
  · exact le_trans (by decide) (Nat.mul_le_mul_left 6 some_)
  · exact le_trans (by decide) (Nat.mul_le_mul_left 6 some_)
  · split
    · next control =>
        rw [size_cons, size_cons, size_cons, size_cons, size_cons, size_cons, size_nil,
          utf8Size_hexDigit (n := c.toNat / 16) (by omega),
          utf8Size_hexDigit (n := c.toNat % 16) (by omega)]
        exact le_trans (by decide) (Nat.mul_le_mul_left 6 some_)
    · rw [size_cons, size_nil]
      omega

/-- Of a character that is not a control character it makes at most four. -/
theorem size_escaped_le_of_printable {c : Char} (printable : 32 ≤ c.toNat) :
    size (escaped c) ≤ 4 := by
  unfold escaped
  split
  · decide
  · decide
  · decide
  · decide
  · decide
  · decide
  · decide
  · rw [if_neg (by omega), size_cons, size_nil]
    exact c.utf8Size_le_four

/-- A string takes its characters, escaped, and the quotes. -/
theorem size_string (text : String) :
    size (string text) = 2 + (text.toList.map fun c => size (escaped c)).sum := by
  unfold string
  rw [size_cons, size_append, size_flatMap]
  show 1 + (_ + 1) = _
  omega

theorem size_string_le (text : String) : size (string text) ≤ 2 + 6 * text.utf8ByteSize := by
  rw [size_string, ← size_toList]
  refine Nat.add_le_add_left ?_ 2
  unfold size
  rw [← List.sum_map_mul_left]
  exact List.sum_le_sum fun c _ => size_escaped_le c

theorem size_string_le_of_printable {text : String} (printable : ∀ c ∈ text.toList, 32 ≤ c.toNat) :
    size (string text) ≤ 2 + 4 * text.toList.length := by
  rw [size_string, Nat.mul_comm]
  refine Nat.add_le_add_left ?_ 2
  have each := List.sum_le_card_nsmul (text.toList.map fun c => size (escaped c)) 4 fun k mem => by
    obtain ⟨c, there, rfl⟩ := List.mem_map.mp mem
    exact size_escaped_le_of_printable (printable c there)
  rwa [List.length_map, smul_eq_mul] at each

/-- A string of one character, over and over. -/
theorem size_string_replicate (n : ℕ) (c : Char) :
    size (string (String.ofList (List.replicate n c))) = 2 + n * size (escaped c) := by
  rw [size_string, String.toList_ofList, List.map_replicate, List.sum_replicate, smul_eq_mul]

/-- There are texts of one character, over and over, as long as one likes. -/
theorem exists_repeated (n : ℕ) (c : Char) : ∃ text : String,
    text.utf8ByteSize = n * c.utf8Size ∧ size (string text) = 2 + n * size (escaped c) := by
  refine ⟨String.ofList (List.replicate n c), ?_, size_string_replicate n c⟩
  rw [← size_toList, String.toList_ofList]
  unfold size
  rw [List.map_replicate, List.sum_replicate, smul_eq_mul]

/-- Values take themselves, and a comma each but the last. -/
theorem size_commas (values : List (List Char)) :
    size (commas values) = (values.map size).sum + (values.length - 1) := by
  induction values with
  | nil => rfl
  | cons value rest ih =>
      cases rest with
      | nil =>
          show size value = size value + 0 + 0
          rfl
      | cons next rest =>
          show size (value ++ ',' :: commas (next :: rest)) = _
          rw [size_append, size_cons, ih]
          show size value + (1 + _) = _
          simp only [List.map_cons, List.sum_cons, List.length_cons]
          omega

theorem size_array (values : List (List Char)) :
    size (array values) = 2 + (values.map size).sum + (values.length - 1) := by
  unfold array
  rw [size_cons, size_append, size_commas]
  show 1 + (_ + 1) = _
  omega

/-- A field takes its name and its value. -/
def sizeField (field : String × List Char) : ℕ :=
  size (string field.1) + 1 + size field.2

theorem size_object (fields : List (String × List Char)) :
    size (object fields) = 2 + (fields.map sizeField).sum + (fields.length - 1) := by
  unfold object
  rw [size_cons, size_append, size_commas, List.map_map, List.length_map]
  have each : (fields.map (size ∘ fun field => string field.1 ++ ':' :: field.2))
      = fields.map sizeField := by
    refine List.map_congr_left fun field _ => ?_
    show size (_ ++ _) = _
    rw [size_append, size_cons, sizeField]
    exact (Nat.add_assoc _ 1 _).symm
  rw [each]
  show 1 + (_ + 1) = _
  omega

end Json
