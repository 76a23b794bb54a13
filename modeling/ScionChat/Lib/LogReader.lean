import ScionChat.Lib.KeyedLog

/-!
# Reading a log page by page while it grows

A reader that walks a log towards its end keeps a cursor, and asks for the page after it; the
key of the page's last entry is the next cursor.  Between two pages the log may grow at its
end.  `Reading` is what the reader has in hand at any time: the stretch between the position it
started from and its cursor, whatever the log has grown to since (`Reading.grow`,
`Reading.page`).

A reader that walks towards the beginning asks for the page before the first entry it has.
`ReadingBack` is what it has in hand: everything that the log held, when the walk began, from
that entry on.

What a page leaves is what lies beyond all of it: `filter_after_take` and `filter_before_rtake`
say how much that is.

### design decisions

* **The log is not fixed.**  `Reading` has the log of now as an argument, and `Reading.grow` moves
  it on.  A page may be cut from an older log than the one it is compared with, as long as the one
  is a prefix of the other.
* **A walk back has no cursor.**  Where it stands is the first entry in hand.  So `ReadingBack` is
  being a suffix, of what the log was when the walk began.

### What is load-bearing

`Reading.page` and `all_of_short`: the step, and the way it ends.  A reader that goes on until a
page comes back short has everything from its start on, and this holds of the log at that moment,
however many entries have come in meanwhile.
-/

namespace KeyedLog

universe u v

variable {α : Type u} {κ : Type v} [LinearOrder κ] {key : α → κ}

/-! ### Towards the end -/

variable (key) in
/-- The cursor after a page: the key of its last entry, if it has one. -/
def nextCursor (c : κ) (page : List α) : κ :=
  (page.getLast?.map key).getD c

omit [LinearOrder κ] in
theorem nextCursor_of_getLast {c : κ} {page : List α} {z : α} (last : page.getLast? = some z) :
    nextCursor key c page = key z := by
  rw [nextCursor, last, Option.map_some, Option.getD_some]

/-- A page of what lies after a cursor does not take it back. -/
theorem le_nextCursor {c : κ} {page : List α} (past : ∀ a ∈ page, c < key a) :
    c ≤ nextCursor key c page := by
  cases last : page.getLast? with
  | none =>
      rw [List.getLast?_eq_none_iff.mp last]
      exact le_rfl
  | some z =>
      rw [nextCursor_of_getLast last]
      exact le_of_lt (past z (List.mem_of_getLast? last))

variable (key) in
/-- **What a reader has in hand** that started at `lo` and has got to the cursor `c`.  It has every
entry of the log from `lo` up to `c`, in order and each once, and nothing else. -/
structure Reading (lo c : κ) (log got : List α) : Prop where
  got : got = between key lo c log
  le : lo ≤ c
  reached : c = lo ∨ ∃ a ∈ log, key a = c

namespace Reading

variable {lo c : κ} {log got : List α}

theorem start (lo : κ) (log : List α) : Reading key lo lo log [] :=
  ⟨(between_self lo log).symm, le_rfl, Or.inl rfl⟩

/-- A log that grows leaves what has been read as it is. -/
theorem grow {log' : List α} (h : Reading key lo c log got) (grows : log <+: log')
    (ascending : Ascending key log') : Reading key lo c log' got := by
  obtain ⟨more, rfl⟩ := grows
  obtain ⟨-, -, apart⟩ := List.pairwise_append.mp ascending
  refine ⟨?_, h.le, ?_⟩
  · rcases h.reached with rfl | ⟨a, mem, rfl⟩
    · rw [between_self, h.got, between_self]
    · rw [between_append_of_lt (fun b later => apart a mem b later), h.got]
  · rcases h.reached with rfl | ⟨a, mem, eq⟩
    · exact Or.inl rfl
    · exact Or.inr ⟨a, List.mem_append_left _ mem, eq⟩

/-- **The next page goes on where the reader is.** The log may have grown since the page before,
and it may grow again. -/
theorem page (h : Reading key lo c log got) (ascending : Ascending key log) (n : ℕ) :
    Reading key lo (nextCursor key c (pageAfter key c n log)) log
      (got ++ pageAfter key c n log) := by
  cases last : (pageAfter key c n log).getLast? with
  | none =>
      rw [List.getLast?_eq_none_iff.mp last, List.append_nil]
      exact h
  | some z =>
      have z_mem := List.mem_of_getLast? last
      have onward : c ≤ key z := le_of_lt (lt_of_mem_pageAfter z_mem)
      rw [nextCursor_of_getLast last]
      refine ⟨?_, h.le.trans onward, Or.inr ⟨z, mem_of_mem_pageAfter z_mem, rfl⟩⟩
      rw [pageAfter_eq_between ascending last, h.got,
        between_append_between ascending h.le onward]

/-- A page of the log as it was some time ago goes on where the reader is, too. -/
theorem page_of_prefix {view : List α} (h : Reading key lo c log got)
    (ascending : Ascending key log) (early : view <+: log) (n : ℕ) :
    Reading key lo (nextCursor key c (pageAfter key c n view)) log
      (got ++ pageAfter key c n view) := by
  obtain ⟨m, same⟩ := pageAfter_of_prefix key c n early
  rw [same]
  exact h.page ascending m

/-- **What has been read ends at the cursor**, if it is anything. -/
theorem key_getLast (h : Reading key lo c log got) (ascending : Ascending key log) {z : α}
    (last : got.getLast? = some z) : key z = c := by
  have z_mem := List.mem_of_getLast? last
  rw [h.got] at z_mem
  obtain ⟨-, after, upto⟩ := mem_between.mp z_mem
  rcases h.reached with rfl | ⟨a, mem, rfl⟩
  · exact absurd upto (not_le.mpr after)
  · -- the entry at the cursor has been read, and nothing that has been read lies after it
    have read : a ∈ got := by
      rw [h.got]
      exact mem_between.mpr ⟨mem, after.trans_le upto, le_rfl⟩
    have own : Ascending key got := h.got ▸ (ascending.filter _).filter _
    exact le_antisymm upto (own.le_getLast read last)

/-- What has been read is a contiguous piece of the log. -/
theorem isInfix (h : Reading key lo c log got) (ascending : Ascending key log) :
    got <:+: log := by
  rw [h.got]
  exact between_isInfix ascending lo c

/-- **Where a page comes back short, the reader has everything from its start on.** -/
theorem all_of_short (h : Reading key lo c log got) (ascending : Ascending key log) {n : ℕ}
    (short : (pageAfter key c n log).length < n) :
    got ++ pageAfter key c n log = above key lo log := by
  have rest : between key lo c log ++ above key c (above key lo log) = above key lo log :=
    upto_append_above (ascending.filter _) c
  have beyond : above key c (above key lo log) = above key c log := by
    rw [above, above, above, List.filter_filter]
    refine List.filter_congr fun a _ => ?_
    rw [← Bool.decide_and, decide_eq_decide]
    exact ⟨And.left, fun past => ⟨past, h.le.trans_lt past⟩⟩
  rw [pageAfter_of_short short, h.got, ← beyond, rest]

end Reading

/-- A page leaves fewer entries after the cursor than there were, if there were any. -/
theorem above_lt_of_page {c : κ} {n : ℕ} (some_ : 1 ≤ n) {log : List α} {a : α}
    (mem : a ∈ above key c log) :
    (above key (nextCursor key c (pageAfter key c n log)) log).length
      < (above key c log).length := by
  have filled : pageAfter key c n log ≠ [] := by
    intro empty
    rcases List.take_eq_nil_iff.mp empty with zero | none
    · omega
    · rw [none] at mem
      exact absurd mem List.not_mem_nil
  obtain ⟨z, last⟩ := Option.isSome_iff_exists.mp (List.getLast?_isSome.mpr filled)
  have on_page : z ∈ pageAfter key c n log := List.mem_of_getLast? last
  have past : c < key z := lt_of_mem_pageAfter on_page
  rw [nextCursor_of_getLast last]
  have rest : above key (key z) log = (above key c log).filter fun b => key z < key b := by
    rw [above, above, List.filter_filter]
    refine List.filter_congr fun b _ => ?_
    rw [← Bool.decide_and, decide_eq_decide]
    exact ⟨fun later => ⟨later, past.trans later⟩, And.left⟩
  rw [rest]
  -- the page's own last entry is one that goes
  refine List.length_filter_lt_length_iff_exists.mpr ⟨z, ?_, ?_⟩
  · exact List.mem_of_mem_take on_page
  · simp

/-- **A reader passes every entry**, page by page.  A page has one entry at least, where there is
one, so the reader gets there in finitely many. -/
theorem passes {n : ℕ} (some_ : 1 ≤ n) {log : List α} {a : α} (mem : a ∈ log) {c : ℕ → κ}
    (pages : ∀ k, c (k + 1) = nextCursor key (c k) (pageAfter key (c k) n log)) :
    ∃ k, key a ≤ c k := by
  induction left : (above key (c 0) log).length using Nat.strong_induction_on generalizing c with
  | _ m ih =>
      by_cases passed : key a ≤ c 0
      · exact ⟨0, passed⟩
      · have fewer := above_lt_of_page some_ (mem_above.mpr ⟨mem, not_le.mp passed⟩)
        rw [← pages 0, left] at fewer
        obtain ⟨k, after⟩ := ih _ fewer (c := fun k => c (k + 1)) (fun k => pages (k + 1)) rfl
        exact ⟨k + 1, after⟩

/-- A reader that starts with the newest page started just before that page's first entry. -/
theorem Reading.newest {lo : κ} {log : List α} (ascending : Ascending key log) {n : ℕ} {f : α}
    (first : (pageNewest n log).head? = some f) (below : lo < key f)
    (before : ∀ a ∈ log, lo < key a ↔ key f ≤ key a) :
    Reading key lo (nextCursor key lo (pageNewest n log)) log (pageNewest n log) := by
  cases last : (pageNewest n log).getLast? with
  | none =>
      rw [List.getLast?_eq_none_iff.mp last] at first
      cases first
  | some z =>
      have z_mem := mem_of_mem_pageNewest (List.mem_of_getLast? last)
      rw [nextCursor_of_getLast last]
      have own : Ascending key (pageNewest n log) :=
        ascending.sublist (pageNewest_suffix n log).sublist
      have onward : lo ≤ key z :=
        below.le.trans (own.head_le (List.mem_of_getLast? last) first)
      exact ⟨pageNewest_eq_between ascending first last before, onward, Or.inr ⟨z, z_mem, rfl⟩⟩

/-! ### Towards the beginning -/

/-- What lies before an entry of an ascending log is what comes before it. -/
theorem below_of_split {early rest : List α} {f : α} (h : Ascending key (early ++ f :: rest)) :
    below key (key f) (early ++ f :: rest) = early := by
  obtain ⟨-, own, apart⟩ := List.pairwise_append.mp h
  have keep : below key (key f) early = early :=
    List.filter_eq_self.mpr fun a mem => decide_eq_true (apart a mem f List.mem_cons_self)
  have skip : below key (key f) (f :: rest) = [] := by
    refine List.filter_eq_nil_iff.mpr fun a mem => ?_
    rw [decide_eq_true_iff, not_lt]
    rcases List.mem_cons.mp mem with rfl | later
    · exact le_rfl
    · exact le_of_lt ((List.pairwise_cons.mp own).1 a later)
  rw [below, List.filter_append, ← below, ← below, keep, skip, List.append_nil]

/-- What lies after an entry of an ascending log is what comes after it. -/
theorem above_of_split {early rest : List α} {f : α} (h : Ascending key (early ++ f :: rest)) :
    above key (key f) (early ++ f :: rest) = rest := by
  obtain ⟨-, own, apart⟩ := List.pairwise_append.mp h
  have skip : above key (key f) early = [] := by
    refine List.filter_eq_nil_iff.mpr fun a mem => ?_
    rw [decide_eq_true_iff, not_lt]
    exact le_of_lt (apart a mem f List.mem_cons_self)
  have keep : above key (key f) (f :: rest) = rest := by
    rw [above, List.filter_cons_of_neg (by simp)]
    exact List.filter_eq_self.mpr fun a mem =>
      decide_eq_true ((List.pairwise_cons.mp own).1 a mem)
  rw [above, List.filter_append, ← above, ← above, skip, keep, List.nil_append]

/-- **A log is what lies before an entry, the entry, and what lies after it.** -/
theorem below_append_above {l : List α} (h : Ascending key l) {a : α} (mem : a ∈ l) :
    below key (key a) l ++ a :: above key (key a) l = l := by
  obtain ⟨early, rest, rfl⟩ := List.append_of_mem mem
  rw [below_of_split h, above_of_split h]

/-- **What a reader has in hand** that walks from the end of a log to its beginning: the log's
entries from one of them on. -/
def ReadingBack (log got : List α) : Prop := got <:+ log

namespace ReadingBack

variable {log log' got : List α} {f : α}

/-- The walk begins with the newest page. -/
theorem newest (n : ℕ) (log : List α) : ReadingBack log (pageNewest n log) :=
  pageNewest_suffix n log

/-- The page before the first entry in hand is taken from what the log held when the walk began,
whatever has been appended since. -/
theorem below_eq (h : ReadingBack log got) (first : got.head? = some f) (grows : log <+: log')
    (ascending : Ascending key log') : below key (key f) log' ++ got = log := by
  obtain ⟨more, rfl⟩ := grows
  obtain ⟨early, rfl⟩ := h
  obtain ⟨tail, rfl⟩ := List.head?_eq_some_iff.mp first
  rw [List.append_assoc, List.cons_append] at ascending ⊢
  rw [below_of_split ascending]

/-- **The page before the first entry in hand goes in front of it.** -/
theorem page (h : ReadingBack log got) (first : got.head? = some f) (grows : log <+: log')
    (ascending : Ascending key log') (n : ℕ) :
    ReadingBack log (pageBefore key (key f) n log' ++ got) := by
  obtain ⟨early, split⟩ : pageBefore key (key f) n log' <:+ below key (key f) log' :=
    pageNewest_suffix n _
  refine ⟨early, ?_⟩
  rw [← List.append_assoc, split, below_eq h first grows ascending]

/-- **Where a page comes back short, the reader has all that the log held when the walk
began.** -/
theorem all_of_short (h : ReadingBack log got) (first : got.head? = some f) (grows : log <+: log')
    (ascending : Ascending key log') {n : ℕ} (short : (pageBefore key (key f) n log').length < n) :
    pageBefore key (key f) n log' ++ got = log := by
  rw [pageBefore_eq_pageNewest] at short ⊢
  rw [pageNewest_of_short short, below_eq h first grows ascending]

end ReadingBack

/-! ### What a page leaves -/

/-- What is left behind a page that an ascending stretch begins with. -/
theorem filter_after_page {page rest : List α} (h : Ascending key (page ++ rest)) :
    (page ++ rest).filter (fun a => page.all fun b => key b < key a) = rest := by
  obtain ⟨-, -, apart⟩ := List.pairwise_append.mp h
  have shown : page.filter (fun a => page.all fun b => key b < key a) = [] := by
    refine List.filter_eq_nil_iff.mpr fun a mem after => ?_
    exact lt_irrefl (key a) (of_decide_eq_true (List.all_eq_true.mp after a mem))
  have left : rest.filter (fun a => page.all fun b => key b < key a) = rest := by
    refine List.filter_eq_self.mpr fun a mem => List.all_eq_true.mpr fun b on_page => ?_
    exact decide_eq_true (apart b on_page a mem)
  rw [List.filter_append, shown, left, List.nil_append]

/-- What is left in front of a page that an ascending stretch ends with. -/
theorem filter_before_page {page rest : List α} (h : Ascending key (rest ++ page)) :
    (rest ++ page).filter (fun a => page.all fun b => key a < key b) = rest := by
  obtain ⟨-, -, apart⟩ := List.pairwise_append.mp h
  have shown : page.filter (fun a => page.all fun b => key a < key b) = [] := by
    refine List.filter_eq_nil_iff.mpr fun a mem before => ?_
    exact lt_irrefl (key a) (of_decide_eq_true (List.all_eq_true.mp before a mem))
  have left : rest.filter (fun a => page.all fun b => key a < key b) = rest := by
    refine List.filter_eq_self.mpr fun a mem => List.all_eq_true.mpr fun b on_page => ?_
    exact decide_eq_true (apart a mem b on_page)
  rw [List.filter_append, shown, left, List.append_nil]

/-- The first page of an ascending stretch leaves what it did not take. -/
theorem filter_after_take {l : List α} (h : Ascending key l) (n : ℕ) :
    l.filter (fun a => (l.take n).all fun b => key b < key a) = l.drop n := by
  have cut := List.take_append_drop n l
  have split := filter_after_page
    (by rw [cut]; exact h : Ascending key (l.take n ++ l.drop n))
  rwa [cut] at split

/-- The last page of an ascending stretch leaves what it did not take. -/
theorem filter_before_rtake {l : List α} (h : Ascending key l) (n : ℕ) :
    l.filter (fun a => (l.rtake n).all fun b => key a < key b) = l.take (l.length - n) := by
  have cut := List.take_append_drop (l.length - n) l
  have split := filter_before_page
    (by rw [cut]; exact h : Ascending key (l.take (l.length - n) ++ l.drop (l.length - n)))
  rwa [cut] at split

end KeyedLog
