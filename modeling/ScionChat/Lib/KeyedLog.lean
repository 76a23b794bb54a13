import Mathlib.Data.List.DropRight
import Mathlib.Data.List.Pairwise
import Mathlib.Data.List.Sort

/-!
# Logs ordered by a key

A log is a list whose entries carry keys from a linear order, strictly ascending along
the list.  A reader walks it with a cursor, which is a key and not an index: keys may
have gaps, and the log may have grown since the cursor was taken.

* `above c` and `below c` — what lies strictly after, and strictly before, a cursor;
* `between lo hi` — what lies after `lo` and not after `hi`;
* `pageAfter c n`, `pageBefore c n`, `pageNewest n` — the pages a cursor asks for: the
  first `n` above it, the last `n` below it, the last `n` of all.

The facts a reader lives on are that a page which ends at `z` *is* the stretch between
the cursor and `z` (`pageAfter_eq_between`), that stretches compose
(`between_append_between`), that a page shorter than was asked for has reached the end
(`pageAfter_of_short`), that a stretch is a contiguous piece of the log
(`between_isInfix`), and that none of it moves when the log grows at its end
(`between_append_of_lt`).

### What is load-bearing

`upto_append_above`.  An ascending log is cut in two by any key, whether or not an entry has it,
and every fact about pages is about how many entries are taken from which side of the cut.
-/

namespace KeyedLog

universe u v

variable {α : Type u} {κ : Type v} [LinearOrder κ] (key : α → κ)

/-- Keys strictly ascend along the list. -/
def Ascending (l : List α) : Prop :=
  l.Pairwise fun a b => key a < key b

/-- The entries strictly after the cursor. -/
def above (c : κ) (l : List α) : List α :=
  l.filter fun a => c < key a

/-- The entries strictly before the cursor. -/
def below (c : κ) (l : List α) : List α :=
  l.filter fun a => key a < c

/-- The entries not after the cursor. -/
def upto (c : κ) (l : List α) : List α :=
  l.filter fun a => key a ≤ c

/-- The entries after `lo` and not after `hi`. -/
def between (lo hi : κ) (l : List α) : List α :=
  upto key hi (above key lo l)

/-- The first `n` entries after the cursor. -/
def pageAfter (c : κ) (n : ℕ) (l : List α) : List α :=
  (above key c l).take n

/-- The last `n` entries before the cursor. -/
def pageBefore (c : κ) (n : ℕ) (l : List α) : List α :=
  (below key c l).rtake n

/-- The last `n` entries. -/
def pageNewest (n : ℕ) (l : List α) : List α :=
  l.rtake n

variable {key}

@[simp] theorem mem_above {c : κ} {l : List α} {a : α} :
    a ∈ above key c l ↔ a ∈ l ∧ c < key a := by
  simp [above]

@[simp] theorem mem_below {c : κ} {l : List α} {a : α} :
    a ∈ below key c l ↔ a ∈ l ∧ key a < c := by
  simp [below]

@[simp] theorem mem_between {lo hi : κ} {l : List α} {a : α} :
    a ∈ between key lo hi l ↔ a ∈ l ∧ lo < key a ∧ key a ≤ hi := by
  simp [between, upto, and_assoc]

@[simp] theorem between_self (c : κ) (l : List α) : between key c c l = [] := by
  refine List.eq_nil_iff_forall_not_mem.mpr fun a mem => ?_
  obtain ⟨-, after, upto⟩ := mem_between.mp mem
  exact absurd upto (not_le.mpr after)

theorem Ascending.filter {l : List α} (h : Ascending key l) (p : α → Bool) :
    Ascending key (l.filter p) :=
  List.Pairwise.filter p h

theorem Ascending.sublist {l m : List α} (sub : l.Sublist m) (h : Ascending key m) :
    Ascending key l :=
  List.Pairwise.sublist sub h

/-- An entry appended behind an ascending log keeps it ascending. -/
theorem Ascending.concat {l : List α} (h : Ascending key l) {a : α}
    (last : ∀ b ∈ l, key b < key a) : Ascending key (l ++ [a]) := by
  refine List.pairwise_append.mpr ⟨h, List.pairwise_singleton _ _, fun b mem c hc => ?_⟩
  cases List.mem_singleton.mp hc
  exact last b mem

/-- Two entries of an ascending log with the same key are the same entry. -/
theorem Ascending.eq_of_key_eq {l : List α} (h : Ascending key l) {a b : α} (ha : a ∈ l)
    (hb : b ∈ l) (same : key a = key b) : a = b := by
  by_contra differ
  have apart : l.Pairwise fun a b => key a ≠ key b := h.imp fun lt => ne_of_lt lt
  have symm : Std.Symm fun a b : α => key a ≠ key b := ⟨fun _ _ ne => ne.symm⟩
  exact apart.forall ha hb differ same

/-- The last entry of an ascending log has the greatest key. -/
theorem Ascending.le_getLast {l : List α} (h : Ascending key l) {a z : α} (mem : a ∈ l)
    (last : l.getLast? = some z) : key a ≤ key z := by
  obtain ⟨init, rfl⟩ := List.getLast?_eq_some_iff.mp last
  rcases List.mem_append.mp mem with early | here
  · exact le_of_lt ((List.pairwise_append.mp h).2.2 a early z (by simp))
  · rw [List.mem_singleton.mp here]

/-- Its first entry has the least. -/
theorem Ascending.head_le {l : List α} (h : Ascending key l) {a f : α} (mem : a ∈ l)
    (first : l.head? = some f) : key f ≤ key a := by
  obtain ⟨tail, rfl⟩ := List.head?_eq_some_iff.mp first
  rcases List.mem_cons.mp mem with rfl | later
  · exact le_rfl
  · exact le_of_lt ((List.pairwise_cons.mp h).1 a later)

/-! ### Cutting an ascending log at a key -/

/-- **An ascending log is what is not after a cursor, followed by what is.** -/
theorem upto_append_above {l : List α} (h : Ascending key l) (c : κ) :
    upto key c l ++ above key c l = l := by
  induction l with
  | nil => rfl
  | cons a l ih =>
      obtain ⟨least, rest⟩ := List.pairwise_cons.mp h
      -- once an entry lies after the cursor, so does the rest
      rcases le_or_gt (key a) c with early | late
      · have skip : above key c (a :: l) = above key c l := by
          simp [above, not_lt.mpr early]
        have keep : upto key c (a :: l) = a :: upto key c l := by
          simp [upto, early]
        rw [skip, keep, List.cons_append, ih rest]
      · have all : above key c (a :: l) = a :: l := by
          refine List.filter_eq_self.mpr fun b mem => decide_eq_true ?_
          rcases List.mem_cons.mp mem with rfl | later
          · exact late
          · exact late.trans (least b later)
        have none : upto key c (a :: l) = [] := by
          refine List.filter_eq_nil_iff.mpr fun b mem => ?_
          rw [decide_eq_true_iff, not_le]
          rcases List.mem_cons.mp mem with rfl | later
          · exact late
          · exact late.trans (least b later)
        rw [all, none, List.nil_append]

/-- A prefix of an ascending log is what is not after the prefix's last entry. -/
theorem upto_getLast {l m : List α} {z : α} (h : Ascending key (l ++ m))
    (last : l.getLast? = some z) : upto key (key z) (l ++ m) = l := by
  obtain ⟨ascending, -, apart⟩ := List.pairwise_append.mp h
  have z_mem : z ∈ l := List.mem_of_getLast? last
  have whole : upto key (key z) l = l := by
    exact List.filter_eq_self.mpr fun a mem => decide_eq_true
      (Ascending.le_getLast ascending mem last)
  have none : upto key (key z) m = [] := by
    refine List.filter_eq_nil_iff.mpr fun a mem => ?_
    rw [decide_eq_true_iff, not_le]
    exact apart z z_mem a mem
  rw [upto, List.filter_append, ← upto, ← upto, whole, none, List.append_nil]

/-- Stretches compose. -/
theorem between_append_between {l : List α} (h : Ascending key l) {lo mid hi : κ}
    (left : lo ≤ mid) (right : mid ≤ hi) :
    between key lo mid l ++ between key mid hi l = between key lo hi l := by
  have cut : upto key mid (between key lo hi l) ++ above key mid (between key lo hi l)
      = between key lo hi l := upto_append_above ((h.filter _).filter _) mid
  have first : upto key mid (between key lo hi l) = between key lo mid l := by
    simp only [between, upto, above, List.filter_filter]
    refine List.filter_congr fun a _ => ?_
    simp only [← Bool.decide_and, decide_eq_decide]
    exact ⟨fun ⟨m, _, a⟩ => ⟨m, a⟩, fun ⟨m, a⟩ => ⟨m, m.trans right, a⟩⟩
  have second : above key mid (between key lo hi l) = between key mid hi l := by
    simp only [between, upto, above, List.filter_filter]
    refine List.filter_congr fun a _ => ?_
    simp only [← Bool.decide_and, decide_eq_decide]
    exact ⟨fun ⟨m, u, _⟩ => ⟨u, m⟩, fun ⟨u, m⟩ => ⟨m, u, left.trans_lt m⟩⟩
  rw [first, second] at cut
  exact cut

/-- A stretch is a contiguous piece of the log. -/
theorem between_isInfix {l : List α} (h : Ascending key l) (lo hi : κ) :
    between key lo hi l <:+: l := by
  refine ⟨upto key lo l, above key hi (above key lo l), ?_⟩
  have rest : upto key hi (above key lo l) ++ above key hi (above key lo l) = above key lo l :=
    upto_append_above (h.filter _) hi
  rw [between, List.append_assoc, rest, upto_append_above h]

/-- A log that grows past `hi` keeps every stretch up to `hi`. -/
theorem between_append_of_lt {l more : List α} {hi : κ} (past : ∀ a ∈ more, hi < key a)
    (lo : κ) : between key lo hi (l ++ more) = between key lo hi l := by
  have none : between key lo hi more = [] := by
    refine List.eq_nil_iff_forall_not_mem.mpr fun a mem => ?_
    obtain ⟨inMore, -, early⟩ := mem_between.mp mem
    exact absurd early (not_le.mpr (past a inMore))
  have split : between key lo hi (l ++ more) = between key lo hi l ++ between key lo hi more := by
    simp [between, above, upto]
  rw [split, none, List.append_nil]

/-! ### Pages -/

/-- **A page that ends at `z` is the stretch between its cursor and `z`.** -/
theorem pageAfter_eq_between {l : List α} (h : Ascending key l) {c : κ} {n : ℕ} {z : α}
    (last : (pageAfter key c n l).getLast? = some z) :
    pageAfter key c n l = between key c (key z) l := by
  have cut : pageAfter key c n l ++ (above key c l).drop n = above key c l :=
    List.take_append_drop n _
  have ascending : Ascending key (pageAfter key c n l ++ (above key c l).drop n) := by
    rw [cut]
    exact h.filter _
  have := upto_getLast ascending last
  rw [cut] at this
  exact this.symm

/-- Everything on a page lies after its cursor. -/
theorem lt_of_mem_pageAfter {l : List α} {c : κ} {n : ℕ} {a : α}
    (mem : a ∈ pageAfter key c n l) : c < key a :=
  (mem_above.mp (List.mem_of_mem_take mem)).2

theorem mem_of_mem_pageAfter {l : List α} {c : κ} {n : ℕ} {a : α}
    (mem : a ∈ pageAfter key c n l) : a ∈ l :=
  (mem_above.mp (List.mem_of_mem_take mem)).1

/-- **A page shorter than was asked for has reached the end.** Had there been one entry more, the
page would have had room for it. -/
theorem pageAfter_of_short {l : List α} {c : κ} {n : ℕ}
    (short : (pageAfter key c n l).length < n) : pageAfter key c n l = above key c l := by
  refine List.take_of_length_le ?_
  rw [pageAfter, List.length_take] at short
  omega

variable (key) in
/-- A page of the log as it was some time ago is a page of the log, perhaps a shorter one. -/
theorem pageAfter_of_prefix {early l : List α} (c : κ) (n : ℕ) (grows : early <+: l) :
    ∃ m, pageAfter key c n early = pageAfter key c m l := by
  obtain ⟨more, rfl⟩ := grows
  refine ⟨min n (above key c early).length, ?_⟩
  have cut : (above key c early).take (min n (above key c early).length)
      = (above key c early).take n := by
    rw [← List.take_take, List.take_length]
  have split : above key c (early ++ more) = above key c early ++ above key c more :=
    List.filter_append _ _
  rw [pageAfter, pageAfter, split, List.take_append_of_le_length (min_le_right _ _), cut]

theorem pageNewest_suffix (n : ℕ) (l : List α) : pageNewest n l <:+ l :=
  List.drop_suffix _ _

/-- The newest page ends where the log does. -/
theorem getLast?_pageNewest {n : ℕ} (some_ : 0 < n) (l : List α) :
    (pageNewest n l).getLast? = l.getLast? := by
  rw [pageNewest, List.rtake, List.getLast?_drop]
  split
  · rename_i none
    have empty : l.length = 0 := by omega
    rw [List.length_eq_zero_iff.mp empty, List.getLast?_nil]
  · rfl

/-- **The newest page is the stretch from just before its first entry to its last.** -/
theorem pageNewest_eq_between {l : List α} (h : Ascending key l) {n : ℕ} {f z : α} {lo : κ}
    (first : (pageNewest n l).head? = some f) (last : (pageNewest n l).getLast? = some z)
    (before : ∀ a ∈ l, lo < key a ↔ key f ≤ key a) :
    pageNewest n l = between key lo (key z) l := by
  obtain ⟨early, cut⟩ := pageNewest_suffix n l
  have ascending : Ascending key (early ++ pageNewest n l) := by rw [cut]; exact h
  obtain ⟨-, own, apart⟩ := List.pairwise_append.mp ascending
  have f_mem : f ∈ pageNewest n l := List.mem_of_head? first
  have skip : above key lo early = [] := by
    refine List.filter_eq_nil_iff.mpr fun a mem => ?_
    have inLog : a ∈ l := by rw [← cut]; exact List.mem_append_left _ mem
    rw [decide_eq_true_iff, before a inLog, not_le]
    exact apart a mem f f_mem
  have keep : above key lo (pageNewest n l) = pageNewest n l := by
    refine List.filter_eq_self.mpr fun a mem => decide_eq_true ?_
    have inLog : a ∈ l := by rw [← cut]; exact List.mem_append_right _ mem
    rw [before a inLog]
    exact Ascending.head_le own mem first
  have all : upto key (key z) (pageNewest n l) = pageNewest n l :=
    List.filter_eq_self.mpr fun a mem => decide_eq_true (Ascending.le_getLast own mem last)
  calc pageNewest n l = upto key (key z) (above key lo (pageNewest n l)) := by rw [keep, all]
    _ = upto key (key z) (above key lo early ++ above key lo (pageNewest n l)) := by
        rw [skip, List.nil_append]
    _ = between key lo (key z) l := by
        rw [between, ← cut, above, above, above, List.filter_append, cut]

/-- The page before a cursor is the newest page of what lies before it. -/
theorem pageBefore_eq_pageNewest (c : κ) (n : ℕ) (l : List α) :
    pageBefore key c n l = pageNewest n (below key c l) := rfl

theorem mem_of_mem_pageNewest {l : List α} {n : ℕ} {a : α} (mem : a ∈ pageNewest n l) :
    a ∈ l :=
  (pageNewest_suffix n l).subset mem

/-- A newest page shorter than was asked for is the whole log. -/
theorem pageNewest_of_short {l : List α} {n : ℕ} (short : (pageNewest n l).length < n) :
    pageNewest n l = l := by
  have none : l.length - n = 0 := by
    rw [pageNewest, List.rtake, List.length_drop] at short
    omega
  rw [pageNewest, List.rtake, none, List.drop_zero]

/-- The page after a cursor has every entry from there to its own last. -/
theorem mem_pageAfter_of_le {l : List α} (h : Ascending key l) {c : κ} {n : ℕ} {a z : α}
    (mem : a ∈ l) (past : c < key a) (last : (pageAfter key c n l).getLast? = some z)
    (early : key a ≤ key z) : a ∈ pageAfter key c n l := by
  rw [pageAfter_eq_between h last]
  exact mem_between.mpr ⟨mem, past, early⟩

/-- The newest page has every entry from its own first on. -/
theorem mem_pageNewest_of_le {l : List α} (h : Ascending key l) {n : ℕ} {a f : α}
    (mem : a ∈ l) (first : (pageNewest n l).head? = some f) (late : key f ≤ key a) :
    a ∈ pageNewest n l := by
  obtain ⟨early, cut⟩ := pageNewest_suffix n l
  have ascending : Ascending key (early ++ pageNewest n l) := by rw [cut]; exact h
  have apart := (List.pairwise_append.mp ascending).2.2
  rw [← cut] at mem
  rcases List.mem_append.mp mem with before | here
  · exact absurd (apart a before f (List.mem_of_head? first)) (not_lt.mpr late)
  · exact here

/-- An entry of an ascending log is the only one at its key. -/
theorem Ascending.filter_key_eq {l : List α} (h : Ascending key l) {a : α} (mem : a ∈ l) :
    l.filter (fun b => key b = key a) = [a] := by
  induction l with
  | nil => cases mem
  | cons b l ih =>
      obtain ⟨least, rest⟩ := List.pairwise_cons.mp h
      rcases List.mem_cons.mp mem with rfl | later
      · have none : l.filter (fun b => key b = key a) = [] := by
          refine List.filter_eq_nil_iff.mpr fun b hb => ?_
          rw [decide_eq_true_iff]
          exact ne_of_gt (least b hb)
        rw [List.filter_cons_of_pos (by simp), none]
      · have differ : key b ≠ key a := ne_of_lt (least a later)
        rw [List.filter_cons_of_neg (by simpa using differ), ih rest later]

/-! ### Sorting rows by their key -/

/-- Sorting an ascending log by its key changes nothing. -/
theorem insertionSort_of_ascending {l : List α} (h : Ascending key l) :
    l.insertionSort (fun a b => key a ≤ key b) = l :=
  List.Pairwise.insertionSort_eq (h.imp le_of_lt)

/-- Sorting it downwards turns it round. -/
theorem insertionSort_desc_of_ascending {l : List α} (h : Ascending key l) :
    l.insertionSort (fun a b => key b ≤ key a) = l.reverse := by
  have total : Std.Total fun a b : α => key b ≤ key a := ⟨fun a b => le_total (key b) (key a)⟩
  have trans : IsTrans α fun a b => key b ≤ key a := ⟨fun _ _ _ hab hbc => hbc.trans hab⟩
  have sorted : (l.insertionSort fun a b => key b ≤ key a).Pairwise fun a b => key b ≤ key a :=
    List.pairwise_insertionSort _ l
  have turned : l.reverse.Pairwise fun a b => key b ≤ key a :=
    List.pairwise_reverse.mpr (h.imp le_of_lt)
  have perm : (l.insertionSort fun a b => key b ≤ key a).Perm l.reverse :=
    (List.perm_insertionSort _ l).trans (List.reverse_perm l).symm
  refine perm.eq_of_pairwise (fun a b ha hb down up => ?_) sorted turned
  exact h.eq_of_key_eq ((List.mem_insertionSort _).mp ha) (List.mem_reverse.mp hb)
    (le_antisymm up down)

end KeyedLog
