import Mathlib.Data.List.TakeWhile
import Mathlib.Data.Nat.Digits.Defs

/-!
# IP addresses as text

How addresses are written, and how they are read: four numbers with dots between them, or eight
groups of hexadecimal digits with colons between them, of which one row of zeros may be left out.
The functions are those of the standard library of Rust, `Display` and `FromStr` of its
`IpAddr`.  A reader takes what it can from the front of a text and hands back the rest; `parse`
takes the whole text.

* `parse_display_v4` — what is written of an IPv4 address is read back;
* `parse_v4_chars` — a text that is read as one has nothing but digits and dots;
* `parse_v4_append` — and with a colon and more behind it, it is no address;
* `display_chars`, `parse_chars` — no address has anything but digits, colons and dots.

### design decisions

* **Readers hand back what they have not read.**  Rust's parser tries one thing after another from
  the same place, and so does this one.  It makes "more text behind it" a statement about a reader,
  which `readNumber_append` and its like are.
* **Written by digits, not by `toString`.**  What is written is a list of characters made of
  `Nat.toDigits`, of which the library knows enough to read them back.

### What is load-bearing

`Ends`: a number that is written is read back if what follows is no digit.  Every larger piece of
an address has a dot or a colon there, or nothing at all.
-/

/-- An address of four octets. -/
structure Ipv4Addr where
  a : UInt8
  b : UInt8
  c : UInt8
  d : UInt8
  deriving DecidableEq, Repr

/-- An address of eight segments of two octets. -/
structure Ipv6Addr where
  segments : Vector UInt16 8
  deriving DecidableEq, Repr

/-- An address of either version. -/
inductive IpAddr
  | v4 (addr : Ipv4Addr)
  | v6 (addr : Ipv6Addr)
  deriving DecidableEq, Repr

/-! ### Writing -/

/-- A number in decimal. -/
def decimal (n : ℕ) : List Char := Nat.toDigits 10 n

/-- An IPv4 address as it is written. -/
def Ipv4Addr.display (addr : Ipv4Addr) : List Char :=
  decimal addr.a.toNat ++ '.' :: decimal addr.b.toNat ++ '.' :: decimal addr.c.toNat
    ++ '.' :: decimal addr.d.toNat

namespace Ipv6Addr

/-- A row of segments: where it starts, and how long it is. -/
structure Span where
  start : ℕ
  len : ℕ
  deriving DecidableEq, Repr

/-- The first of the longest rows of zeros among the segments from the `i`th on. -/
def zeroesFrom (i : ℕ) (longest current : Span) : List UInt16 → Span
  | [] => longest
  | segment :: rest =>
      if segment = 0 then
        let current : Span :=
          ⟨if current.len = 0 then i else current.start, current.len + 1⟩
        zeroesFrom (i + 1) (if longest.len < current.len then current else longest) current rest
      else zeroesFrom (i + 1) longest ⟨0, 0⟩ rest

/-- Segments in hexadecimal, with colons between them. -/
def subslice : List UInt16 → List Char
  | [] => []
  | first :: tail =>
      Nat.toDigits 16 first.toNat ++ tail.flatMap fun segment =>
        ':' :: Nat.toDigits 16 segment.toNat

/-- The IPv4 address that an address of the form `::ffff:a.b.c.d` maps. -/
def toIpv4Mapped (addr : Ipv6Addr) : Option Ipv4Addr :=
  match addr.segments.toList with
  | [0, 0, 0, 0, 0, 65535, ab, cd] =>
      some ⟨(ab >>> 8).toUInt8, ab.toUInt8, (cd >>> 8).toUInt8, cd.toUInt8⟩
  | _ => none

/-- An IPv6 address as it is written: the longest row of zeros is left out, if it has more than
one. -/
def display (addr : Ipv6Addr) : List Char :=
  match addr.toIpv4Mapped with
  | some mapped => "::ffff:".toList ++ mapped.display
  | none =>
      let segments := addr.segments.toList
      let zeroes := zeroesFrom 0 ⟨0, 0⟩ ⟨0, 0⟩ segments
      if 1 < zeroes.len then
        subslice (segments.take zeroes.start) ++ ':' :: ':'
          :: subslice (segments.drop (zeroes.start + zeroes.len))
      else subslice segments

end Ipv6Addr

/-- An address as it is written. -/
def IpAddr.display : IpAddr → List Char
  | .v4 addr => addr.display
  | .v6 addr => addr.display

/-! ### Reading -/

/-- The number that a digit stands for. -/
def digitValue (c : Char) : ℕ :=
  if c.isDigit then c.toNat - '0'.toNat
  else if 'a' ≤ c ∧ c ≤ 'f' then c.toNat - 'a'.toNat + 10
  else if 'A' ≤ c ∧ c ≤ 'F' then c.toNat - 'A'.toNat + 10
  else 16

/-- The character is a digit of this radix, ten or sixteen. -/
def isDigitOf (radix : ℕ) (c : Char) : Bool :=
  decide (digitValue c < radix)

/-- A number below `limit` of at most so many digits. -/
def readNumber (radix maxDigits : ℕ) (allowZeroPrefix : Bool) (limit : ℕ) (text : List Char) :
    Option (ℕ × List Char) :=
  let digits := text.takeWhile (isDigitOf radix)
  let value := digits.foldl (fun value c => value * radix + digitValue c) 0
  if digits.length = 0 ∨ maxDigits < digits.length then none
  else if allowZeroPrefix = false ∧ digits.head? = some '0' ∧ 1 < digits.length then none
  else if value < limit then some (value, text.dropWhile (isDigitOf radix))
  else none

/-- What comes after a separator, which nothing but the first of a row goes without. -/
def readSeparator {α : Type} (sep : Char) (index : ℕ) (inner : List Char → Option (α × List Char))
    (text : List Char) : Option (α × List Char) :=
  if index = 0 then inner text
  else
    match text with
    | [] => none
    | c :: rest => if c = sep then inner rest else none

/-- One of the numbers of an IPv4 address: leading zeros are for octal, so there are none. -/
def readOctet (index : ℕ) : List Char → Option (ℕ × List Char) :=
  readSeparator '.' index (readNumber 10 3 false 256)

/-- An IPv4 address. -/
def readIpv4Addr (text : List Char) : Option (Ipv4Addr × List Char) := do
  let (a, text) ← readOctet 0 text
  let (b, text) ← readOctet 1 text
  let (c, text) ← readOctet 2 text
  let (d, text) ← readOctet 3 text
  return (⟨.ofNat a, .ofNat b, .ofNat c, .ofNat d⟩, text)

/-- The groups of a part of an IPv6 address, of which `left` are left to read, and whether the last
ones are an IPv4 address, for which two have to be. -/
def readGroups (index : ℕ) : ℕ → List Char → List ℕ × Bool × List Char
  | 0, text => ([], false, text)
  | left + 1, text =>
      match if 0 < left then readSeparator ':' index readIpv4Addr text else none with
      | some (v4, rest) =>
          ([v4.a.toNat * 256 + v4.b.toNat, v4.c.toNat * 256 + v4.d.toNat], true, rest)
      | none =>
          match readSeparator ':' index (readNumber 16 4 true 65536) text with
          | some (group, rest) =>
              let (groups, v4, rest) := readGroups (index + 1) left rest
              (group :: groups, v4, rest)
          | none => ([], false, text)

/-- The address of eight groups. -/
def Ipv6Addr.ofGroups (groups : List ℕ) : Ipv6Addr :=
  ⟨Vector.ofFn fun i => UInt16.ofNat (groups.getD i 0)⟩

/-- An IPv6 address: eight groups, or fewer with `::` for the others, which are zeros. -/
def readIpv6Addr (text : List Char) : Option (Ipv6Addr × List Char) :=
  let (head, v4, text) := readGroups 0 8 text
  if head.length = 8 then some (.ofGroups head, text)
  else if v4 then none
  else
    match text with
    | ':' :: ':' :: text =>
        let (tail, _, text) := readGroups 0 (8 - (head.length + 1)) text
        some (.ofGroups (head ++ List.replicate (8 - head.length - tail.length) 0 ++ tail), text)
    | _ => none

/-- An address of either version. -/
def readIpAddr (text : List Char) : Option (IpAddr × List Char) :=
  match readIpv4Addr text with
  | some (addr, rest) => some (.v4 addr, rest)
  | none => (readIpv6Addr text).map fun (addr, rest) => (.v6 addr, rest)

/-- The address that a text is, from its beginning to its end. -/
def IpAddr.parse (text : List Char) : Option IpAddr :=
  match readIpAddr text with
  | some (addr, []) => some addr
  | _ => none

/-! ### Digits -/

/-- The text does not go on with a digit. -/
def Ends (radix : ℕ) (text : List Char) : Prop :=
  ∀ c ∈ text.head?, isDigitOf radix c = false

theorem ends_nil (radix : ℕ) : Ends radix [] := fun _ none => by cases none

theorem ends_cons {radix : ℕ} {c : Char} {text : List Char} (other : isDigitOf radix c = false) :
    Ends radix (c :: text) := by
  rintro _ ⟨⟩
  exact other

theorem isDigitOf_ten (c : Char) : isDigitOf 10 c = c.isDigit := by
  unfold isDigitOf digitValue
  by_cases digit : c.isDigit
  · rw [if_pos digit, digit]
    simp only [Char.isDigit, Bool.and_eq_true, decide_eq_true_eq, UInt32.le_iff_toNat_le] at digit
    have high : c.toNat ≤ 57 := digit.2
    exact decide_eq_true (by change c.toNat - 48 < 10; omega)
  · rw [if_neg digit, Bool.not_eq_true] at *
    rw [digit]
    refine decide_eq_false ?_
    split
    · omega
    · split <;> omega

/-- A number in decimal is digits. -/
theorem isDigitOf_of_mem_decimal {n : ℕ} : ∀ c ∈ decimal n, isDigitOf 10 c = true := by
  intro c mem
  rw [isDigitOf_ten]
  exact Nat.isDigit_of_mem_toDigits (by decide) (by decide) mem

/-- What goes on after a text that stops by itself, or does not go on with a digit. -/
theorem takeWhile_append_of_stops {α : Type*} {p : α → Bool} {text more : List α}
    (stops : text.dropWhile p ≠ [] ∨ ∀ c ∈ more.head?, p c = false) :
    (text ++ more).takeWhile p = text.takeWhile p ∧
      (text ++ more).dropWhile p = text.dropWhile p ++ more := by
  induction text with
  | nil =>
      have ends := stops.resolve_left fun some => some rfl
      cases more with
      | nil => exact ⟨rfl, rfl⟩
      | cons c more =>
          have other := ends c rfl
          simp [other]
  | cons c text ih =>
      by_cases holds : p c = true
      · rw [List.dropWhile_cons_of_pos holds] at stops
        obtain ⟨taken, left⟩ := ih stops
        rw [List.cons_append, List.takeWhile_cons_of_pos holds, List.takeWhile_cons_of_pos holds,
          List.dropWhile_cons_of_pos holds, List.dropWhile_cons_of_pos holds, taken, left]
        exact ⟨rfl, rfl⟩
      · rw [List.cons_append, List.takeWhile_cons_of_neg holds, List.takeWhile_cons_of_neg holds,
          List.dropWhile_cons_of_neg holds, List.dropWhile_cons_of_neg holds]
        exact ⟨rfl, rfl⟩

/-- What is all of one kind ends where what goes on is of another. -/
theorem span_append {α : Type*} {p : α → Bool} {text more : List α}
    (all : ∀ c ∈ text, p c = true) (ends : ∀ c ∈ more.head?, p c = false) :
    (text ++ more).takeWhile p = text ∧ (text ++ more).dropWhile p = more := by
  obtain ⟨taken, left⟩ := takeWhile_append_of_stops (Or.inr ends)
  rw [List.takeWhile_eq_self_iff.mpr all] at taken
  rw [List.dropWhile_eq_nil_iff.mpr all] at left
  exact ⟨taken, left⟩

/-! ### What is taken of a text -/

/-- Nothing but characters of one kind goes from the front of a text. -/
def Takes (p : Char → Prop) (text rest : List Char) : Prop :=
  ∃ taken, text = taken ++ rest ∧ ∀ c ∈ taken, p c

namespace Takes

variable {p q : Char → Prop} {text rest left : List Char} {c : Char}

theorem refl : Takes p text text :=
  ⟨[], rfl, List.forall_mem_nil _⟩

theorem cons (holds : p c) (takes : Takes p text rest) : Takes p (c :: text) rest := by
  obtain ⟨taken, rfl, chars⟩ := takes
  refine ⟨c :: taken, rfl, fun c' mem => ?_⟩
  rcases List.mem_cons.mp mem with rfl | later
  · exact holds
  · exact chars c' later

theorem trans (first : Takes p text rest) (later : Takes p rest left) : Takes p text left := by
  obtain ⟨taken, rfl, chars⟩ := first
  obtain ⟨more, rfl, chars'⟩ := later
  refine ⟨taken ++ more, (List.append_assoc ..).symm, fun c mem => ?_⟩
  rcases List.mem_append.mp mem with mem | mem
  · exact chars c mem
  · exact chars' c mem

theorem imp (weaker : ∀ c, p c → q c) (takes : Takes p text rest) : Takes q text rest := by
  obtain ⟨taken, rfl, chars⟩ := takes
  exact ⟨taken, rfl, fun c mem => weaker c (chars c mem)⟩

/-- When all of a text is taken, all of it is of that kind. -/
theorem all (takes : Takes p text []) : ∀ c ∈ text, p c := by
  obtain ⟨taken, rfl, chars⟩ := takes
  rw [List.append_nil]
  exact chars

end Takes

/-! ### What a reader takes -/

section Reading

variable {radix maxDigits limit n index : ℕ} {allow : Bool} {text rest more : List Char}

/-- What is read of a number is what is left of its digits. -/
theorem readNumber_rest (h : readNumber radix maxDigits allow limit text = some (n, rest)) :
    rest = text.dropWhile (isDigitOf radix) := by
  unfold readNumber at h
  dsimp only at h
  split at h
  · cases h
  · split at h
    · cases h
    · split at h
      · cases h
        rfl
      · cases h

/-- **More text changes nothing** about a number that ends before it. -/
theorem readNumber_append (h : readNumber radix maxDigits allow limit text = some (n, rest))
    (stops : rest ≠ [] ∨ Ends radix more) :
    readNumber radix maxDigits allow limit (text ++ more) = some (n, rest ++ more) := by
  rw [readNumber_rest h] at stops
  obtain ⟨taken, left⟩ := takeWhile_append_of_stops stops
  unfold readNumber at h ⊢
  dsimp only at h ⊢
  rw [taken, left]
  split at h
  · cases h
  · split at h
    · cases h
    · split at h
      · next some few value =>
          cases h
          rw [if_neg ‹_›, if_neg ‹_›, if_pos ‹_›]
      · cases h

/-- A number takes nothing but digits. -/
theorem readNumber_takes (h : readNumber radix maxDigits allow limit text = some (n, rest)) :
    Takes (isDigitOf radix · = true) text rest := by
  refine ⟨text.takeWhile (isDigitOf radix), ?_, fun c mem => List.mem_takeWhile_imp mem⟩
  rw [readNumber_rest h, List.takeWhile_append_dropWhile]

/-- With its separator, a value takes what it takes by itself, and the separator. -/
theorem readSeparator_takes {α : Type} {a : α} {sep : Char} {p : Char → Prop} (holds : p sep)
    {inner : List Char → Option (α × List Char)}
    (takes : ∀ {text rest : List Char}, inner text = some (a, rest) → Takes p text rest)
    (h : readSeparator sep index inner text = some (a, rest)) : Takes p text rest := by
  unfold readSeparator at h
  split at h
  · exact takes h
  · cases text with
    | nil => cases h
    | cons c text =>
        dsimp only at h
        split at h
        · next same =>
            subst same
            exact (takes h).cons holds
        · cases h

theorem readOctet_append (h : readOctet index text = some (n, rest))
    (stops : rest ≠ [] ∨ Ends 10 more) :
    readOctet index (text ++ more) = some (n, rest ++ more) := by
  unfold readOctet readSeparator at h ⊢
  split at h
  · next first =>
      rw [if_pos first]
      exact readNumber_append h stops
  · next later =>
      rw [if_neg later]
      cases text with
      | nil => cases h
      | cons c text =>
          dsimp only [List.cons_append] at h ⊢
          split at h
          · next dot =>
              rw [if_pos dot]
              exact readNumber_append h stops
          · cases h

/-- An octet takes nothing but digits and a dot. -/
theorem readOctet_takes (h : readOctet index text = some (n, rest)) :
    Takes (fun c => c.isDigit = true ∨ c = '.') text rest := by
  refine readSeparator_takes (Or.inr rfl) (fun read => ?_) h
  exact (readNumber_takes read).imp fun c digit => Or.inl ((isDigitOf_ten c).symm.trans digit)

end Reading

/-- What makes an IPv4 address of a text: four octets, one after the other. -/
theorem readIpv4Addr_eq_some {text rest : List Char} {addr : Ipv4Addr} :
    readIpv4Addr text = some (addr, rest) ↔ ∃ a b c d t u v,
      readOctet 0 text = some (a, t) ∧ readOctet 1 t = some (b, u) ∧ readOctet 2 u = some (c, v) ∧
        readOctet 3 v = some (d, rest) ∧ addr = ⟨.ofNat a, .ofNat b, .ofNat c, .ofNat d⟩ := by
  unfold readIpv4Addr
  simp only [Option.bind_eq_bind, Option.bind_eq_some_iff, Option.pure_def, Option.some.injEq,
    Prod.exists, Prod.mk.injEq]
  constructor
  · rintro ⟨a, t, ha, b, u, hb, c, v, hc, d, w, hd, rfl, rfl⟩
    exact ⟨a, b, c, d, t, u, v, ha, hb, hc, hd, rfl⟩
  · rintro ⟨a, b, c, d, t, u, v, ha, hb, hc, hd, rfl⟩
    exact ⟨a, t, ha, b, u, hb, c, v, hc, d, rest, hd, rfl, rfl⟩

/-- An octet after the first one takes its dot, so there is something for it to take. -/
theorem ne_nil_of_readOctet {index n : ℕ} (later : index ≠ 0) {text rest : List Char}
    (h : readOctet index text = some (n, rest)) : text ≠ [] := by
  rintro rfl
  unfold readOctet readSeparator at h
  rw [if_neg later] at h
  cases h

/-- **More text changes nothing** about an IPv4 address, unless it goes on with a digit. -/
theorem readIpv4Addr_append {text rest more : List Char} {addr : Ipv4Addr}
    (h : readIpv4Addr text = some (addr, rest)) (stops : rest ≠ [] ∨ Ends 10 more) :
    readIpv4Addr (text ++ more) = some (addr, rest ++ more) := by
  obtain ⟨a, b, c, d, t, u, v, ha, hb, hc, hd, rfl⟩ := readIpv4Addr_eq_some.mp h
  refine readIpv4Addr_eq_some.mpr ⟨a, b, c, d, t ++ more, u ++ more, v ++ more, ?_, ?_, ?_, ?_, rfl⟩
  · exact readOctet_append ha (Or.inl (ne_nil_of_readOctet (by decide) hb))
  · exact readOctet_append hb (Or.inl (ne_nil_of_readOctet (by decide) hc))
  · exact readOctet_append hc (Or.inl (ne_nil_of_readOctet (by decide) hd))
  · exact readOctet_append hd stops

/-- An IPv4 address takes nothing but digits and dots. -/
theorem readIpv4Addr_takes {text rest : List Char} {addr : Ipv4Addr}
    (h : readIpv4Addr text = some (addr, rest)) :
    Takes (fun c => c.isDigit = true ∨ c = '.') text rest := by
  obtain ⟨a, b, c, d, t, u, v, ha, hb, hc, hd, -⟩ := readIpv4Addr_eq_some.mp h
  exact (readOctet_takes ha).trans
    ((readOctet_takes hb).trans ((readOctet_takes hc).trans (readOctet_takes hd)))

namespace IpAddr

/-- When a text is an IPv4 address. -/
theorem parse_v4_iff {text : List Char} {addr : Ipv4Addr} :
    parse text = some (.v4 addr) ↔ readIpv4Addr text = some (addr, []) := by
  unfold parse readIpAddr
  cases read : readIpv4Addr text with
  | none =>
      cases readIpv6Addr text with
      | none => simp
      | some result =>
          obtain ⟨found, rest⟩ := result
          cases rest with
          | nil => simp
          | cons c rest => simp
  | some result =>
      obtain ⟨found, rest⟩ := result
      cases rest with
      | nil => simp
      | cons c rest => simp

/-- **A text that is an IPv4 address** has nothing but digits and dots.  So a text with a colon in
it is not an address of that kind, whatever else it is. -/
theorem parse_v4_chars {text : List Char} {addr : Ipv4Addr} (h : parse text = some (.v4 addr)) :
    ∀ c ∈ text, c.isDigit = true ∨ c = '.' := by
  exact (readIpv4Addr_takes (parse_v4_iff.mp h)).all

/-- **With a colon and more behind it**, it is no address. -/
theorem parse_v4_append {text more : List Char} {addr : Ipv4Addr}
    (h : parse text = some (.v4 addr)) : parse (text ++ ':' :: more) = none := by
  have colon : Ends 10 (':' :: more) := ends_cons (by decide)
  have read := readIpv4Addr_append (parse_v4_iff.mp h) (Or.inr colon)
  unfold parse readIpAddr
  rw [read]
  rfl

end IpAddr

/-! ### Reading what is written -/

/-- An octet in decimal has at most three digits, and only zero begins with one. -/
theorem decimal_octet : ∀ n : Fin 256, (decimal n).length ≠ 0 ∧ (decimal n).length ≤ 3 ∧
    ((decimal n).head? = some '0' → (decimal n).length ≤ 1) ∧
      (decimal n).foldl (fun value c => value * 10 + digitValue c) 0 = n := by
  decide +kernel

/-- **An octet that is written is read back.** -/
theorem readNumber_decimal (n : UInt8) {more : List Char} (ends : Ends 10 more) :
    readNumber 10 3 false 256 (decimal n.toNat ++ more) = some (n.toNat, more) := by
  obtain ⟨some_, few, zero, value⟩ := decimal_octet ⟨n.toNat, n.toNat_lt⟩
  dsimp only at some_ few zero value
  obtain ⟨taken, rest⟩ := span_append isDigitOf_of_mem_decimal ends
  unfold readNumber
  dsimp only
  rw [taken, rest, value, if_neg (by omega), if_neg, if_pos n.toNat_lt]
  · rintro ⟨-, begins, long⟩
    have := zero begins
    omega

theorem readOctet_decimal (n : UInt8) {more : List Char} (ends : Ends 10 more) :
    readOctet 0 (decimal n.toNat ++ more) = some (n.toNat, more) :=
  readNumber_decimal n ends

theorem readOctet_dot_decimal {index : ℕ} (later : index ≠ 0) (n : UInt8) {more : List Char}
    (ends : Ends 10 more) :
    readOctet index ('.' :: (decimal n.toNat ++ more)) = some (n.toNat, more) := by
  unfold readOctet readSeparator
  rw [if_neg later]
  exact readNumber_decimal n ends

/-- **An IPv4 address that is written is read back.** The four octets are written in decimal
without leading zeros, which is the one form that is read. -/
theorem readIpv4Addr_display (addr : Ipv4Addr) {more : List Char} (ends : Ends 10 more) :
    readIpv4Addr (addr.display ++ more) = some (addr, more) := by
  have dot : ∀ text, Ends 10 ('.' :: text) := fun text => ends_cons (by decide)
  have first : readOctet 0 (addr.display ++ more) = some (addr.a.toNat, '.' :: (decimal addr.b.toNat
      ++ '.' :: (decimal addr.c.toNat ++ '.' :: (decimal addr.d.toNat ++ more)))) := by
    unfold Ipv4Addr.display
    simp only [List.append_assoc, List.cons_append]
    exact readOctet_decimal addr.a (dot _)
  have second := readOctet_dot_decimal (one_ne_zero : (1 : ℕ) ≠ 0) addr.b
    (dot (decimal addr.c.toNat ++ '.' :: (decimal addr.d.toNat ++ more)))
  have third := readOctet_dot_decimal (two_ne_zero : (2 : ℕ) ≠ 0) addr.c
    (dot (decimal addr.d.toNat ++ more))
  have last := readOctet_dot_decimal (three_ne_zero : (3 : ℕ) ≠ 0) addr.d ends
  refine readIpv4Addr_eq_some.mpr ⟨_, _, _, _, _, _, _, first, second, third, last, ?_⟩
  simp only [UInt8.ofNat_toNat]

namespace IpAddr

theorem parse_display_v4 (addr : Ipv4Addr) : parse addr.display = some (.v4 addr) := by
  refine parse_v4_iff.mpr ?_
  have read := readIpv4Addr_display addr (ends_nil 10)
  rw [List.append_nil] at read
  exact read

end IpAddr

/-! ### The characters of an address -/

/-- A hexadecimal digit, a colon or a dot. -/
def IsAddrChar (c : Char) : Prop :=
  isDigitOf 16 c = true ∨ c = ':' ∨ c = '.'

instance : DecidablePred IsAddrChar := fun c =>
  inferInstanceAs (Decidable (isDigitOf 16 c = true ∨ c = ':' ∨ c = '.'))

/-- A decimal digit is a hexadecimal one. -/
theorem isDigitOf_sixteen {c : Char} (digit : c.isDigit = true) : isDigitOf 16 c = true := by
  rw [← isDigitOf_ten] at digit
  unfold isDigitOf at digit ⊢
  have := of_decide_eq_true digit
  exact decide_eq_true (by omega)

theorem IsAddrChar.of_digit_or_dot {c : Char} (h : c.isDigit = true ∨ c = '.') : IsAddrChar c :=
  h.imp isDigitOf_sixteen Or.inr

/-- A number in hexadecimal is digits. -/
theorem isDigitOf_of_mem_toDigits (n : ℕ) : ∀ c ∈ Nat.toDigits 16 n, isDigitOf 16 c = true := by
  have digit : ∀ d < 16, isDigitOf 16 (Nat.digitChar d) = true := by decide
  induction n using Nat.strongRecOn with
  | ind n ih =>
      intro c mem
      rw [Nat.toDigits_eq_if (by decide)] at mem
      split at mem
      · next few =>
          rw [List.mem_singleton.mp mem]
          exact digit n few
      · rcases List.mem_append.mp mem with mem | mem
        · exact ih (n / 16) (by omega) c mem
        · rw [List.mem_singleton.mp mem]
          exact digit (n % 16) (Nat.mod_lt _ (by decide))

theorem Ipv4Addr.display_chars (addr : Ipv4Addr) : ∀ c ∈ addr.display, IsAddrChar c := by
  have digits : ∀ n, ∀ c ∈ decimal n, IsAddrChar c := fun n c mem =>
    Or.inl (isDigitOf_sixteen ((isDigitOf_ten c).symm.trans (isDigitOf_of_mem_decimal c mem)))
  unfold Ipv4Addr.display
  simp only [List.append_assoc, List.cons_append, List.mem_append, List.mem_cons]
  rintro c (mem | rfl | mem | rfl | mem | rfl | mem)
  · exact digits _ c mem
  · exact Or.inr (Or.inr rfl)
  · exact digits _ c mem
  · exact Or.inr (Or.inr rfl)
  · exact digits _ c mem
  · exact Or.inr (Or.inr rfl)
  · exact digits _ c mem

namespace Ipv6Addr

theorem subslice_chars : ∀ (segments : List UInt16), ∀ c ∈ subslice segments, IsAddrChar c
  | [], c, mem => absurd mem List.not_mem_nil
  | first :: tail, c, mem => by
      rcases List.mem_append.mp mem with mem | mem
      · exact Or.inl (isDigitOf_of_mem_toDigits _ c mem)
      · obtain ⟨segment, -, mem⟩ := List.mem_flatMap.mp mem
        rcases List.mem_cons.mp mem with rfl | mem
        · exact Or.inr (Or.inl rfl)
        · exact Or.inl (isDigitOf_of_mem_toDigits _ c mem)

theorem display_chars (addr : Ipv6Addr) : ∀ c ∈ addr.display, IsAddrChar c := by
  intro c mem
  unfold display at mem
  split at mem
  · rcases List.mem_append.mp mem with mem | mem
    · have chars : "::ffff:".toList.all (fun c => decide (IsAddrChar c)) = true := by decide
      exact of_decide_eq_true (List.all_eq_true.mp chars c mem)
    · exact Ipv4Addr.display_chars _ c mem
  · dsimp only at mem
    split at mem
    · rcases List.mem_append.mp mem with mem | mem
      · exact subslice_chars _ c mem
      · rcases List.mem_cons.mp mem with rfl | mem
        · exact Or.inr (Or.inl rfl)
        · rcases List.mem_cons.mp mem with rfl | mem
          · exact Or.inr (Or.inl rfl)
          · exact subslice_chars _ c mem
    · exact subslice_chars _ c mem

/-- **An IPv6 address is not written without a colon.** -/
theorem colon_mem_display (addr : Ipv6Addr) : ':' ∈ addr.display := by
  unfold display
  split
  · exact List.mem_append_left _ (by decide)
  · dsimp only
    split
    · exact List.mem_append_right _ List.mem_cons_self
    · have eight : addr.segments.toList.length = 8 := Vector.length_toList
      generalize addr.segments.toList = segments at eight
      match segments, eight with
      | first :: second :: rest, _ =>
          exact List.mem_append_right _ (List.mem_append_left _ List.mem_cons_self)

end Ipv6Addr

/-- **An address is written** with nothing but digits, colons and dots. -/
theorem IpAddr.display_chars : ∀ (addr : IpAddr), ∀ c ∈ addr.display, IsAddrChar c
  | .v4 addr => addr.display_chars
  | .v6 addr => addr.display_chars

/-- The groups of a part of an IPv6 address take nothing but these. -/
theorem readGroups_takes {index left : ℕ} {text : List Char} :
    Takes IsAddrChar text (readGroups index left text).2.2 := by
  induction left generalizing index text with
  | zero => exact Takes.refl
  | succ left ih =>
      have colon : IsAddrChar ':' := Or.inr (Or.inl rfl)
      unfold readGroups
      split
      · next v4 rest read =>
          split at read
          · refine readSeparator_takes colon (fun read => ?_) read
            exact (readIpv4Addr_takes read).imp fun c => IsAddrChar.of_digit_or_dot
          · cases read
      · split
        · next group rest read =>
            refine (readSeparator_takes colon (fun read => ?_) read).trans ih
            exact (readNumber_takes read).imp fun c => Or.inl
        · exact Takes.refl

theorem readIpv6Addr_takes {text rest : List Char} {addr : Ipv6Addr}
    (h : readIpv6Addr text = some (addr, rest)) : Takes IsAddrChar text rest := by
  have colon : IsAddrChar ':' := Or.inr (Or.inl rfl)
  have head : Takes IsAddrChar text (readGroups 0 8 text).2.2 := readGroups_takes
  unfold readIpv6Addr at h
  dsimp only at h
  split at h
  · cases h
    exact head
  · split at h
    · cases h
    · split at h
      · next text eq =>
          cases h
          rw [eq] at head
          exact head.trans ((readGroups_takes.cons colon).cons colon)
      · cases h

/-- **A text that is an address** has nothing but digits, colons and dots. -/
theorem IpAddr.parse_chars {text : List Char} {addr : IpAddr} (h : parse text = some addr) :
    ∀ c ∈ text, IsAddrChar c := by
  unfold parse readIpAddr at h
  split at h
  · next found read =>
      cases h
      split at read
      · next v4 =>
          cases read
          exact ((readIpv4Addr_takes v4).imp fun c => IsAddrChar.of_digit_or_dot).all
      · obtain ⟨⟨v6, rest⟩, read', eq⟩ := Option.map_eq_some_iff.mp read
        cases eq
        exact (readIpv6Addr_takes read').all
  · cases h
