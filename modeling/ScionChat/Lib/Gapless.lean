import ScionChat.Lib.LogReader

/-!
# Parts of a log without gaps

A reader that may start over collects pages of a log out of order, and some entries twice.  What
it has is *gapless* when nothing of the log is missing between two entries that it has.

* `Gapless.isInfix` — in order, and each once, gapless entries are a contiguous piece of the log;
* `gapless_append_iff` — two gapless parts are gapless together if and only if they join up, that
  is, nothing of the log lies behind all of the one and ahead of all of the other;
* `joins_pageAfter` — a page joins up with the entry whose key it was asked for with;
* `joins_pageNewest_iff` — the newest page joins up with what was collected before if and only if
  as many entries as it may hold cover what has come since.

`Merged` is what a reader makes of the entries it has and a page: all of both, in order.

### What is load-bearing

That `Joins` is about the two parts and the log, and not about how they were come by.  A reader's
history may be as long as it likes: what matters of it is the set of entries it has, so an
invariant over a run needs nothing but `Gapless` of what is there now.
-/

namespace KeyedLog

universe u v

variable {α : Type u} {κ : Type v} [LinearOrder κ] {key : α → κ}

/-! ### Gapless parts -/

variable (key) in
/-- **Nothing of the log is missing** between two entries got.  The two need not be next to each
other in what was got, and anything may be missing before the first of them and after the last. -/
structure Gapless (log got : List α) : Prop where
  subset : ∀ a ∈ got, a ∈ log
  between : ∀ a ∈ got, ∀ b ∈ got, ∀ m ∈ log, key a < key m → key m < key b → m ∈ got

namespace Gapless

variable {log got : List α}

theorem nil (log : List α) : Gapless key log [] := ⟨nofun, nofun⟩

/-- It is a matter of what is got, not of its order. -/
theorem congr {other : List α} (h : Gapless key log got) (same : ∀ a, a ∈ other ↔ a ∈ got) :
    Gapless key log other where
  subset := fun a mem => h.subset a ((same a).mp mem)
  between := fun a ha b hb m mem after before =>
    (same m).mpr (h.between a ((same a).mp ha) b ((same b).mp hb) m mem after before)

/-- A log that grows at its end leaves it so. -/
theorem grow {log' : List α} (h : Gapless key log got) (grows : log <+: log')
    (ascending : Ascending key log') : Gapless key log' got where
  subset := fun a mem => grows.subset (h.subset a mem)
  between := by
    intro a ha b hb m mem after before
    obtain ⟨more, rfl⟩ := grows
    rcases List.mem_append.mp mem with early | late
    · exact h.between a ha b hb m early after before
    · have behind := (List.pairwise_append.mp ascending).2.2 b (h.subset b hb) m late
      exact absurd before behind.asymm

/-- **In order, and each once, gapless entries are a contiguous piece of the log.** It is the one
use that is made of gapless entries: to a reader they are a stretch of the log. -/
theorem isInfix (h : Gapless key log got) (ascending : Ascending key log)
    (sorted : Ascending key got) : got <:+: log := by
  cases got with
  | nil => exact List.nil_infix
  | cons f rest =>
      obtain ⟨least, sorted_rest⟩ := List.pairwise_cons.mp sorted
      obtain ⟨z, last⟩ : ∃ z, (f :: rest).getLast? = some z :=
        Option.ne_none_iff_exists'.mp (by simp)
      have z_mem : z ∈ f :: rest := List.mem_of_getLast? last
      -- what follows the first entry is the stretch up to the last
      have same : rest = KeyedLog.between key (key f) (key z) log := by
        refine List.Pairwise.eq_of_mem_iff (r := fun a b => key a < key b) sorted_rest
          ((ascending.filter _).filter _) fun m => ?_
        rw [mem_between]
        constructor
        · intro mem
          have later : m ∈ f :: rest := List.mem_cons_of_mem f mem
          exact ⟨h.subset m later, least m mem, sorted.le_getLast later last⟩
        · rintro ⟨mem, after, upto⟩
          have got : m ∈ f :: rest := by
            rcases upto.lt_or_eq with before | here
            · exact h.between f List.mem_cons_self z z_mem m mem after before
            · rw [ascending.eq_of_key_eq mem (h.subset z z_mem) here]
              exact z_mem
          rcases List.mem_cons.mp got with rfl | later
          · exact absurd after (lt_irrefl _)
          · exact later
      refine ⟨below key (key f) log, above key (key z) (above key (key f) log), ?_⟩
      have cut : rest ++ above key (key z) (above key (key f) log) = above key (key f) log := by
        rw [same]
        exact upto_append_above (ascending.filter _) _
      rw [List.append_assoc, List.cons_append, cut,
        below_append_above ascending (h.subset f List.mem_cons_self)]

end Gapless

/-! ### Parts that join up -/

variable (key) in
/-- Nothing of the log lies behind all of the one and ahead of all of the other. -/
def Reaches (log one other : List α) : Prop :=
  one ≠ [] → other ≠ [] → ∀ m ∈ log,
    ¬ ((∀ a ∈ one, key a < key m) ∧ ∀ b ∈ other, key m < key b)

variable (key) in
/-- **The two parts join up**, whichever comes first.  An entry of the log that lies behind all of
the one and ahead of all of the other would be missing between them. -/
def Joins (log one other : List α) : Prop :=
  Reaches key log one other ∧ Reaches key log other one

instance [DecidableEq α] (log one other : List α) : Decidable (Joins key log one other) :=
  inferInstanceAs (Decidable ((_ → _ → _) ∧ (_ → _ → _)))

section Parts

variable {log one other : List α}

theorem joins_nil_left (log other : List α) : Joins key log [] other :=
  ⟨fun some_ => absurd rfl some_, fun _ some_ => absurd rfl some_⟩

theorem joins_nil_right (log one : List α) : Joins key log one [] :=
  ⟨fun _ some_ => absurd rfl some_, fun some_ => absurd rfl some_⟩

/-- Where the one reaches the other, what is between an entry of each is in one of them. -/
theorem Gapless.of_reaches (ascending : Ascending key log) (first : Gapless key log one)
    (second : Gapless key log other) (reaches : Reaches key log one other) {a b m : α}
    (ha : a ∈ one) (hb : b ∈ other) (mem : m ∈ log) (after : key a < key m)
    (before : key m < key b) : m ∈ one ∨ m ∈ other := by
  by_contra missing
  obtain ⟨not_one, not_other⟩ := not_or.mp missing
  -- an entry that is missing lies behind all of the one and ahead of all of the other
  refine reaches (List.ne_nil_of_mem ha) (List.ne_nil_of_mem hb) m mem ⟨?_, ?_⟩
  · intro c hc
    rcases lt_trichotomy (key c) (key m) with lt | same | gt
    · exact lt
    · exact absurd (ascending.eq_of_key_eq mem (first.subset c hc) same.symm ▸ hc) not_one
    · exact absurd (first.between a ha c hc m mem after gt) not_one
  · intro c hc
    rcases lt_trichotomy (key m) (key c) with lt | same | gt
    · exact lt
    · exact absurd (ascending.eq_of_key_eq mem (second.subset c hc) same ▸ hc) not_other
    · exact absurd (second.between c hc b hb m mem gt before) not_other

/-- Where two parts are gapless together, the one reaches the other. -/
theorem Gapless.reaches (both : Gapless key log (one ++ other)) : Reaches key log one other := by
  rintro some_one some_other m mem ⟨behind, ahead⟩
  obtain ⟨a, ha⟩ := List.exists_mem_of_ne_nil one some_one
  obtain ⟨b, hb⟩ := List.exists_mem_of_ne_nil other some_other
  have got := both.between a (List.mem_append_left _ ha) b (List.mem_append_right _ hb) m mem
    (behind a ha) (ahead b hb)
  rcases List.mem_append.mp got with here | here
  · exact lt_irrefl _ (behind m here)
  · exact lt_irrefl _ (ahead m here)

/-- **Two gapless parts are gapless together if and only if they join up.** The equivalence makes
an invariant of it that is kept by exactly those steps which should keep it. -/
theorem gapless_append_iff (ascending : Ascending key log) (first : Gapless key log one)
    (second : Gapless key log other) :
    Gapless key log (one ++ other) ↔ Joins key log one other := by
  constructor
  · intro both
    have turned : Gapless key log (other ++ one) :=
      both.congr fun a => by rw [List.mem_append, List.mem_append, or_comm]
    exact ⟨both.reaches, turned.reaches⟩
  · rintro ⟨there, back⟩
    refine ⟨fun a mem => ?_, fun a ha b hb m mem after before => List.mem_append.mpr ?_⟩
    · rcases List.mem_append.mp mem with here | here
      · exact first.subset a here
      · exact second.subset a here
    · rcases List.mem_append.mp ha with a_one | a_other <;>
        rcases List.mem_append.mp hb with b_one | b_other
      · exact Or.inl (first.between a a_one b b_one m mem after before)
      · exact Gapless.of_reaches ascending first second there a_one b_other mem after before
      · exact (Gapless.of_reaches ascending second first back a_other b_one mem after before).symm
      · exact Or.inr (second.between a a_other b b_other m mem after before)

end Parts

/-! ### Pages -/

section Pages

variable {log view held : List α} {c : κ} {n : ℕ}

/-- A page after a cursor is gapless, also when it is of the log as it was some time ago. -/
theorem gapless_pageAfter (ascending : Ascending key log) (early : view <+: log) (c : κ) (n : ℕ) :
    Gapless key log (pageAfter key c n view) := by
  obtain ⟨m, same⟩ := pageAfter_of_prefix key c n early
  rw [same]
  refine ⟨fun a mem => mem_of_mem_pageAfter mem, fun a ha b hb x mem after before => ?_⟩
  obtain ⟨z, last⟩ : ∃ z, (pageAfter key c m log).getLast? = some z :=
    Option.ne_none_iff_exists'.mp (by simpa using List.ne_nil_of_mem ha)
  have upto : key b ≤ key z := by
    rw [pageAfter_eq_between ascending last] at hb
    exact (mem_between.mp hb).2.2
  exact mem_pageAfter_of_le ascending mem ((lt_of_mem_pageAfter ha).trans after) last
    (before.le.trans upto)

/-- A newest page has every entry from one of its own on. -/
theorem mem_pageNewest_of_lt (ascending : Ascending key log) {a b : α}
    (ha : a ∈ pageNewest n log) (mem : b ∈ log) (after : key a < key b) :
    b ∈ pageNewest n log := by
  obtain ⟨f, first⟩ : ∃ f, (pageNewest n log).head? = some f :=
    Option.ne_none_iff_exists'.mp (by simpa using List.ne_nil_of_mem ha)
  have own : Ascending key (pageNewest n log) :=
    ascending.sublist (pageNewest_suffix n log).sublist
  exact mem_pageNewest_of_le ascending mem first ((own.head_le ha first).trans after.le)

/-- It ends where the log does. -/
theorem le_pageNewest_getLast (ascending : Ascending key log) {a z : α} (mem : a ∈ log)
    (last : (pageNewest n log).getLast? = some z) : key a ≤ key z := by
  by_contra later
  have z_mem : z ∈ pageNewest n log := List.mem_of_getLast? last
  have own : Ascending key (pageNewest n log) :=
    ascending.sublist (pageNewest_suffix n log).sublist
  exact later (own.le_getLast (mem_pageNewest_of_lt ascending z_mem mem (not_le.mp later)) last)

/-- A newest page is gapless, also when it is of the log as it was some time ago. -/
theorem gapless_pageNewest (ascending : Ascending key log) (early : view <+: log) (n : ℕ) :
    Gapless key log (pageNewest n view) := by
  have then_ : Ascending key view := ascending.sublist early.sublist
  have at_once : Gapless key view (pageNewest n view) :=
    ⟨fun a mem => mem_of_mem_pageNewest mem,
      fun a ha _ _ m mem after _ => mem_pageNewest_of_lt then_ ha mem after⟩
  exact at_once.grow early ascending

/-- **A page joins up with what it was asked for with.** Nothing lies between the entry and the
page, since the page is the very next that the log had. -/
theorem joins_pageAfter (ascending : Ascending key log) (early : view <+: log)
    (asked : ∃ a ∈ held, key a = c) (n : ℕ) : Joins key log held (pageAfter key c n view) := by
  obtain ⟨m, same⟩ := pageAfter_of_prefix key c n early
  obtain ⟨h, h_mem, rfl⟩ := asked
  rw [same]
  constructor
  · rintro - some_ x mem ⟨behind, ahead⟩
    obtain ⟨z, last⟩ : ∃ z, (pageAfter key (key h) m log).getLast? = some z :=
      Option.ne_none_iff_exists'.mp (by simpa using some_)
    have upto := ahead z (List.mem_of_getLast? last)
    exact lt_irrefl _ (ahead x (mem_pageAfter_of_le ascending mem (behind h h_mem) last upto.le))
  · rintro some_ - x mem ⟨behind, ahead⟩
    obtain ⟨b, hb⟩ := List.exists_mem_of_ne_nil _ some_
    exact ((lt_of_mem_pageAfter hb).trans (behind b hb)).asymm (ahead h h_mem)

omit [LinearOrder κ] in
/-- What a log ends with is on its newest page, if it fits. -/
theorem suffix_pageNewest {l m : List α} (fits : m.length ≤ n) : m <:+ pageNewest n (l ++ m) := by
  have short : (l ++ m).length - n ≤ l.length := by
    rw [List.length_append]
    omega
  rw [pageNewest, List.rtake, List.drop_append_of_le_length short]
  exact List.suffix_append _ _

omit [LinearOrder κ] in
/-- If it does not, it alone makes the newest page. -/
theorem pageNewest_append {l m : List α} (long : n ≤ m.length) :
    pageNewest n (l ++ m) = pageNewest n m := by
  have skip : (l ++ m).length - n = l.length + (m.length - n) := by
    rw [List.length_append]
    omega
  rw [pageNewest, List.rtake, skip, List.drop_length_add_append]
  rfl

/-- **The newest page has all that has come since a cursor** if and only if that fits on it.  What
has come before the cursor does not matter, and neither does how long the log is. -/
theorem above_subset_pageNewest_iff (ascending : Ascending key log) :
    (∀ a ∈ above key c log, a ∈ pageNewest n log) ↔ (above key c log).length ≤ n := by
  have split := upto_append_above ascending c
  constructor
  · intro covered
    by_contra long
    obtain ⟨x, rest, cons⟩ : ∃ x rest, above key c log = x :: rest :=
      List.exists_cons_of_ne_nil (by rintro nil; rw [nil] at long; exact long (Nat.zero_le n))
    -- the first entry since the cursor is pushed off the page by those after it
    have page : pageNewest n log = pageNewest n rest := by
      rw [← split, cons, List.append_cons]
      refine pageNewest_append ?_
      rw [cons, List.length_cons] at long
      omega
    have sorted : Ascending key (x :: rest) := by
      rw [← cons]
      exact ascending.filter _
    have on_page := covered x (by rw [cons]; exact List.mem_cons_self)
    rw [page] at on_page
    exact lt_irrefl _ ((List.pairwise_cons.mp sorted).1 x (mem_of_mem_pageNewest on_page))
  · intro fits a mem
    have suffix : above key c log <:+ pageNewest n (upto key c log ++ above key c log) :=
      suffix_pageNewest fits
    rw [split] at suffix
    exact suffix.subset mem

/-- **The newest page joins up with what was collected before** if and only if what has come
since then fits on it. -/
theorem joins_pageNewest_iff (ascending : Ascending key log) (early : view <+: log)
    (seen : ∀ a ∈ held, a ∈ view) {h z : α} (h_mem : h ∈ held)
    (newest : ∀ a ∈ held, key a ≤ key h)
    (last : (pageNewest n view).getLast? = some z) :
    Joins key log held (pageNewest n view) ↔ (between key (key h) (key z) log).length ≤ n := by
  obtain ⟨more, rfl⟩ := early
  obtain ⟨sorted, -, apart⟩ := List.pairwise_append.mp ascending
  have then_ : Ascending key view := sorted
  have z_mem : z ∈ pageNewest n view := List.mem_of_getLast? last
  have end_ : ∀ a ∈ view, key a ≤ key z := fun a mem => le_pageNewest_getLast then_ mem last
  have since : between key (key h) (key z) (view ++ more) = above key (key h) view := by
    rw [between_append_of_lt fun a mem => apart z (mem_of_mem_pageNewest z_mem) a mem]
    exact List.filter_eq_self.mpr fun a mem => decide_eq_true (end_ a (mem_above.mp mem).1)
  rw [since, ← above_subset_pageNewest_iff then_]
  constructor
  · rintro ⟨reaches, -⟩ a mem
    obtain ⟨in_view, after⟩ := mem_above.mp mem
    by_contra missing
    refine reaches (List.ne_nil_of_mem h_mem) (List.ne_nil_of_mem z_mem) a
      (List.mem_append_left _ in_view)
        ⟨fun b old => (newest b old).trans_lt after, fun b here => ?_⟩
    by_contra ahead
    rcases (not_lt.mp ahead).lt_or_eq with before | same
    · exact missing (mem_pageNewest_of_lt then_ here in_view before)
    · rw [then_.eq_of_key_eq in_view (mem_of_mem_pageNewest here) same.symm] at missing
      exact missing here
  · intro covered
    constructor
    · rintro - - m mem ⟨behind, ahead⟩
      have here : m ∈ above key (key h) view := by
        rw [← since]
        exact mem_between.mpr ⟨mem, behind h h_mem, (ahead z z_mem).le⟩
      exact lt_irrefl _ (ahead m (covered m here))
    · rintro - - m mem ⟨behind, ahead⟩
      exact ((behind z z_mem).trans (ahead h h_mem)).not_ge (end_ h (seen h h_mem))

end Pages

/-! ### Merging a page -/

variable (key) in
/-- **What a reader makes of what it has and a page**: all of both, in order.  It says nothing of
how they are merged: sorting, inserting and dropping duplicates come to the same. -/
structure Merged (held page got : List α) : Prop where
  ascending : Ascending key got
  mem : ∀ a, a ∈ got ↔ a ∈ held ∨ a ∈ page

theorem Merged.gapless_iff {log held page got : List α} (merged : Merged key held page got)
    (ascending : Ascending key log) (first : Gapless key log held)
    (second : Gapless key log page) : Gapless key log got ↔ Joins key log held page := by
  rw [← gapless_append_iff ascending first second]
  have same : ∀ a, a ∈ got ↔ a ∈ held ++ page := fun a => by rw [merged.mem, List.mem_append]
  exact ⟨fun h => h.congr fun a => (same a).symm, fun h => h.congr same⟩

/-- Sorting entries with different keys puts them in order. -/
theorem ascending_insertionSort {l : List α} (differ : l.Pairwise fun a b => key a ≠ key b) :
    Ascending key (l.insertionSort fun a b => key a ≤ key b) := by
  have total : Std.Total fun a b : α => key a ≤ key b := ⟨fun a b => le_total (key a) (key b)⟩
  have trans : IsTrans α fun a b => key a ≤ key b := ⟨fun _ _ _ hab hbc => hab.trans hbc⟩
  have sorted : (l.insertionSort fun a b => key a ≤ key b).Pairwise fun a b => key a ≤ key b :=
    List.pairwise_insertionSort _ l
  have apart : (l.insertionSort fun a b => key a ≤ key b).Pairwise fun a b => key a ≠ key b :=
    (List.perm_insertionSort _ l).symm.pairwise differ fun ne => ne.symm
  exact sorted.imp₂ (fun _ _ le ne => lt_of_le_of_ne le ne) apart

end KeyedLog
