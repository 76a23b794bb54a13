import ScionChat.Lib.LogReader
import ScionChat.Server.Store.Log

/-!
# Walking a room page by page

The three page queries cut one log, so a caller can read a room by walking it: upwards from the
start, with the last position of each page as the next cursor, or downwards from the newest page,
with the first one.  Between two fetches anything may happen to the store.

`paging_agrees` says what each query answers, and what the two walks add up to.

### design decisions

* **A walk is fetches, each with a past.**  A `Fetch` brings along what is done to the store before
  it: calls of anybody, openings, failures.  So a walk is not a function of one state, and what it
  adds up to is said of the log at its end.
* **A limit for every fetch.**  Nothing asks a walk for the same limit throughout, and any limit of
  one and more will do.
* **Upwards chases the log, downwards does not.** What is posted during a walk upwards is still
  ahead of it, and is read.  A walk downwards has it behind its back, and adds up to the log as it
  was when the walk began.

### What is load-bearing

`walkAfter_reading`, `walkBefore_reading`: each keeps what has been read as a piece of the room's
log, without a gap and without an entry twice.  They are the log theory's rules for readers, at
this store's pages.
-/

namespace ScionChat

open Interleaving TransitionSystem Column Sql KeyedLog

/-- One fetch of a walk: what is done to the store before it, how much it asks for, and what
the outside contributes to it. -/
structure Fetch where
  meanwhile : List StoreCall
  limit : ℕ
  ω : ℕ → Moment

namespace StoreRun

variable (room : RoomId)

/-- A page query as a call, with the page it is answered with. -/
def fetch (s : StoreRun) (q : PageQuery) (ω : ℕ → Moment) : Option (StoreRun × List Message) := do
  let caps ← s.caps
  let t ← s.step (.call (q.op room) ω)
  match (s.answer caps (q.op room) ω).1 with
  | .ok (.page page) => some (t, page)
  | _ => none

/-- A walk upwards from a cursor: where it leaves the store and the cursor, and its pages. -/
def walkAfter : StoreRun → Seq → List Fetch → Option (StoreRun × Seq × List (List Message))
  | s, cursor, [] => some (s, cursor, [])
  | s, cursor, f :: fs => do
      let t ← run step s f.meanwhile
      let (u, page) ← t.fetch room (.after cursor f.limit) f.ω
      let (v, cursor, pages) ← walkAfter u (nextCursor Message.seq cursor page) fs
      return (v, cursor, page :: pages)

/-- A walk downwards from a cursor. -/
def walkBefore : StoreRun → Seq → List Fetch → Option (StoreRun × Seq × List (List Message))
  | s, cursor, [] => some (s, cursor, [])
  | s, cursor, f :: fs => do
      let t ← run step s f.meanwhile
      let (u, page) ← t.fetch room (.before cursor f.limit) f.ω
      let (v, cursor, pages) ← walkBefore u ((page.head?.map Message.seq).getD cursor) fs
      return (v, cursor, page :: pages)

/-- The last page of the walk has come back shorter than was asked for. -/
def EndsShort (fs : List Fetch) (pages : List (List Message)) : Prop :=
  ∃ f page, (fs.zip pages).getLast? = some (f, page) ∧ page.length < f.limit

/-- **The three ways of paging agree** on what the room holds.  The pages are those of one log, the
walks add up to it, and what is around a message makes up the rest of it. -/
structure PagingAgrees (s : StoreRun) : Prop where
  ascending : (s.db.log room).Pairwise fun a b => a.seq < b.seq
  newest : ∀ caps limit ω, s.caps = some caps → (ω 0).fails = false →
    (s.answer caps (.messagesNewest room limit) ω).1 = .ok (.page ((s.db.log room).rtake limit))
  after : ∀ caps (cursor : Seq) limit ω, s.caps = some caps → cursor.get ≤ i64Max →
    (ω 0).fails = false → (s.answer caps (.messagesAfter room cursor limit) ω).1
      = .ok (.page (((s.db.log room).filter fun m => cursor < m.seq).take limit))
  before : ∀ caps (cursor : Seq) limit ω, s.caps = some caps → cursor.get ≤ i64Max →
    (ω 0).fails = false → (s.answer caps (.messagesBefore room cursor limit) ω).1
      = .ok (.page (((s.db.log room).filter fun m => m.seq < cursor).rtake limit))
  /-- A walk upwards from the start has read the room's first messages, in order and each once;
  where a page comes back short, it has read all of them. -/
  upwards : ∀ fs t cursor pages, (∀ f ∈ fs, 1 ≤ f.limit) →
    walkAfter room s Seq.START fs = some (t, cursor, pages) →
      pages.flatten <+: t.db.log room ∧ (EndsShort fs pages → pages.flatten = t.db.log room) ∧
        ((t.db.log room).length < fs.length →
          ∃ f page, (f, page) ∈ fs.zip pages ∧ page.length < f.limit)
  /-- A walk downwards from the newest page has read, back to front, the last of the messages
  that the room held when the walk began; where a page comes back short, it has read all of
  them. -/
  downwards : ∀ limit ω t page fs u cursor pages, 1 ≤ limit → (∀ f ∈ fs, 1 ≤ f.limit) →
    s.fetch room (.newest limit) ω = some (t, page) →
      (page.length < limit → page = s.db.log room) ∧
      ∀ f ∈ page.head?, walkBefore room t f.seq fs = some (u, cursor, pages) →
        pages.reverse.flatten ++ page <:+ s.db.log room ∧
        (EndsShort fs pages → pages.reverse.flatten ++ page = s.db.log room) ∧
        ((s.db.log room).length < fs.length →
          ∃ f page, (f, page) ∈ fs.zip pages ∧ page.length < f.limit)
  /-- What is before a message, the message, and what is after it make up the room. -/
  around : ∀ m ∈ s.db.log room, ∀ caps ω ω', s.caps = some caps → (ω 0).fails = false →
    (ω' 0).fails = false → ∃ older newer,
      (s.answer caps (.messagesBefore room m.seq (s.db.log room).length) ω).1
          = .ok (.page older) ∧
        (s.answer caps (.messagesAfter room m.seq (s.db.log room).length) ω').1
          = .ok (.page newer) ∧
        older ++ m :: newer = s.db.log room

/-! ### One fetch -/

section

variable {room : RoomId} {s t : StoreRun} {q : PageQuery} {ω : ℕ → Moment} {page : List Message}

/-- **What one fetch does**: it reads a page of the room's log and leaves the log alone. -/
theorem fetch_spec (inv : s.Inv) (h : s.fetch room q ω = some (t, page)) :
    t.Inv ∧ t.db.log room = s.db.log room ∧ page = q.page (s.db.log room) := by
  unfold fetch at h
  obtain ⟨caps, isOpen, h⟩ := Option.bind_eq_some_iff.mp h
  obtain ⟨u, stepped, h⟩ := Option.bind_eq_some_iff.mp h
  split at h
  · rename_i answered
    obtain ⟨rfl, rfl⟩ := Prod.mk.inj (Option.some.inj h)
    have inv' := (inv.step stepped).1
    have silent : u.posted = s.posted := by
      rw [step, isOpen] at stepped
      dsimp only at stepped
      cases Option.some.inj stepped
      cases q <;> exact List.append_nil _
    refine ⟨inv', ?_, inv.page_eq isOpen answered⟩
    rw [inv'.log_eq room, silent, inv.log_eq room]
  · cases h

/-- A working database answers a page query of a room it has. -/
theorem answer_of_works (inv : s.Inv) {caps : Caps} (isOpen : s.caps = some caps)
    (fits : room.get ≤ i64Max) (cursor : q.Fits) (works : (ω 0).fails = false) :
    (s.answer caps (q.op room) ω).1 = .ok (.page (q.page (s.db.log room))) := by
  have dispatch : (q.op room).query caps = .page <$> q.query room := by cases q <;> rfl
  rw [inv.answer_eq isOpen, dispatch, exec_map_run,
    q.exec_of_works inv.valid fits cursor works]
  rfl

theorem log_of_run (room : RoomId) {ms : List StoreCall} (inv : s.Inv)
    (h : run step s ms = some t) :
    t.Inv ∧ s.db.log room <+: t.db.log room := by
  obtain ⟨inv', grows, -⟩ := run_grows inv h
  exact ⟨inv', Db.log_grows grows room⟩

end

/-! ### The walks -/

section

variable {room : RoomId}

/-- A walk whose pages are all full has read as many messages as it has made fetches. -/
theorem length_le_of_full {fs : List Fetch} (asks : ∀ f ∈ fs, 1 ≤ f.limit) :
    ∀ {pages : List (List Message)}, pages.length = fs.length →
      (∀ pair ∈ fs.zip pages, pair.1.limit ≤ pair.2.length) →
        fs.length ≤ pages.flatten.length := by
  induction fs with
  | nil => exact fun _ _ => Nat.zero_le _
  | cons f fs ih =>
      intro pages lengths full
      cases pages with
      | nil => cases lengths
      | cons page pages =>
          have one := asks f List.mem_cons_self
          have first := full (f, page) List.mem_cons_self
          have rest := ih (fun g mem => asks g (List.mem_cons_of_mem f mem))
            (Nat.succ.inj lengths) fun pair mem => full pair (List.mem_cons_of_mem _ mem)
          rw [List.flatten_cons, List.length_append, List.length_cons]
          dsimp only at first
          omega

/-- A walk that has made more fetches than there are messages had a short page. -/
theorem short_of_many {fs : List Fetch} {pages : List (List Message)} {log : List Message}
    (asks : ∀ f ∈ fs, 1 ≤ f.limit) (lengths : pages.length = fs.length)
    (within : pages.flatten.length ≤ log.length) (many : log.length < fs.length) :
    ∃ f page, (f, page) ∈ fs.zip pages ∧ page.length < f.limit := by
  by_contra none
  push Not at none
  have := length_le_of_full asks lengths fun pair mem => none pair.1 pair.2 mem
  omega

/-- The last page of a walk is its first one, when there is no other, or the last of the
others. -/
theorem endsShort_cons {f : Fetch} {fs : List Fetch} {page : List Message}
    {pages : List (List Message)} (h : EndsShort (f :: fs) (page :: pages)) :
    (fs.zip pages = [] ∧ page.length < f.limit) ∨ EndsShort fs pages := by
  obtain ⟨g, last, ends, short⟩ := h
  rw [List.zip_cons_cons] at ends
  cases rest : fs.zip pages with
  | nil =>
      rw [rest] at ends
      obtain ⟨rfl, rfl⟩ := Prod.mk.inj (Option.some.inj ends)
      exact Or.inl ⟨rfl, short⟩
  | cons pair pairs =>
      refine Or.inr ⟨g, last, ?_, short⟩
      rw [rest, List.getLast?_cons_cons] at ends
      rw [rest]
      exact ends

/-- **A walk upwards** goes on where it is, page by page.  Whatever is done to the store in between
can only add to what is still ahead. -/
theorem walkAfter_reading {fs : List Fetch} :
    ∀ {s t : StoreRun} {cursor cursor' : Seq} {got : List Message} {pages : List (List Message)},
      s.Inv → Reading Message.seq Seq.START cursor (s.db.log room) got →
        walkAfter room s cursor fs = some (t, cursor', pages) →
          t.Inv ∧ pages.length = fs.length ∧
            Reading Message.seq Seq.START cursor' (t.db.log room) (got ++ pages.flatten) ∧
            (EndsShort fs pages → got ++ pages.flatten
              = above Message.seq Seq.START (t.db.log room)) := by
  induction fs with
  | nil =>
      intro s t cursor cursor' got pages inv reading h
      cases h
      refine ⟨inv, rfl, ?_, ?_⟩
      · rw [List.flatten_nil, List.append_nil]
        exact reading
      · rintro ⟨f, page, last, -⟩
        cases last
  | cons f fs ih =>
      intro s t cursor cursor' got pages inv reading h
      unfold walkAfter at h
      obtain ⟨u, ran, h⟩ := Option.bind_eq_some_iff.mp h
      obtain ⟨⟨v, page⟩, fetched, h⟩ := Option.bind_eq_some_iff.mp h
      obtain ⟨⟨w, c, rest⟩, walked, h⟩ := Option.bind_eq_some_iff.mp h
      cases h
      -- the log has grown while others posted, and what has been read is still its beginning
      obtain ⟨invU, grows⟩ := log_of_run room inv ran
      obtain ⟨invV, same, eq⟩ := fetch_spec invU fetched
      have ascending := log_ascending invU.valid room
      have before := reading.grow grows ascending
      have onward := before.page ascending f.limit
      rw [PageQuery.page] at eq
      rw [← eq, ← same] at onward
      obtain ⟨invT, lengths, reading', short⟩ := ih invV onward walked
      rw [List.flatten_cons, ← List.append_assoc]
      refine ⟨invT, congrArg (· + 1) lengths, reading', fun last => ?_⟩
      rcases endsShort_cons last with ⟨only, few⟩ | later
      · have none : fs = [] := by
          rcases List.zip_eq_nil_iff.mp only with none | none
          · exact none
          · rw [none] at lengths
            exact List.length_eq_zero_iff.mp lengths.symm
        subst none
        cases walked
        rw [List.flatten_nil, List.append_nil, same, eq]
        -- the last page came back short, and nothing has been posted since it was read
        exact before.all_of_short ascending (eq ▸ few)
      · exact short later

/-- **A walk downwards** goes on in front of what it has, page by page.  What is done in between
cannot add anything before the page it has. -/
theorem walkBefore_reading {log : List Message} {fs : List Fetch} :
    ∀ {s t : StoreRun} {f : Message} {cursor' : Seq} {got : List Message}
      {pages : List (List Message)}, s.Inv → log <+: s.db.log room →
        ReadingBack log got → got.head? = some f →
          walkBefore room s f.seq fs = some (t, cursor', pages) →
            pages.length = fs.length ∧ ReadingBack log (pages.reverse.flatten ++ got) ∧
              (EndsShort fs pages → pages.reverse.flatten ++ got = log) := by
  induction fs with
  | nil =>
      intro s t f cursor' got pages inv grew reading first h
      cases h
      refine ⟨rfl, reading, ?_⟩
      rintro ⟨f, page, last, -⟩
      cases last
  | cons g fs ih =>
      intro s t f cursor' got pages inv grew reading first h
      unfold walkBefore at h
      obtain ⟨u, ran, h⟩ := Option.bind_eq_some_iff.mp h
      obtain ⟨⟨v, page⟩, fetched, h⟩ := Option.bind_eq_some_iff.mp h
      obtain ⟨⟨w, c, rest⟩, walked, h⟩ := Option.bind_eq_some_iff.mp h
      cases h
      obtain ⟨invU, grows⟩ := log_of_run room inv ran
      obtain ⟨invV, same, eq⟩ := fetch_spec invU fetched
      have ascending := log_ascending invU.valid room
      have grew' := grew.trans grows
      rw [PageQuery.page] at eq
      have onward := reading.page first grew' ascending g.limit
      -- the next page ends in front of the first message that the walk has by now
      have next : ∃ f', (page ++ got).head? = some f' ∧
          f'.seq = (page.head?.map Message.seq).getD f.seq := by
        cases page with
        | nil => exact ⟨f, first, rfl⟩
        | cons f' page => exact ⟨f', rfl, rfl⟩
      obtain ⟨f', first', cursor⟩ := next
      rw [← cursor] at walked
      rw [← eq] at onward
      obtain ⟨lengths, reading', short⟩ := ih invV (same ▸ grew') onward first' walked
      rw [List.reverse_cons, List.flatten_append, List.flatten_singleton, List.append_assoc]
      refine ⟨congrArg (· + 1) lengths, reading', fun last => ?_⟩
      rcases endsShort_cons last with ⟨only, few⟩ | later
      · have none : rest = [] := by
          rcases List.zip_eq_nil_iff.mp only with none | none
          · rw [none] at lengths
            exact List.length_eq_zero_iff.mp lengths
          · exact none
        rw [none, List.reverse_nil, List.flatten_nil, List.nil_append, eq]
        exact reading.all_of_short first grew' ascending (eq ▸ few)
      · exact short later

end

/-- Every message lies after the start. -/
theorem above_start {s : StoreRun} (inv : s.Inv) (room : RoomId) :
    above Message.seq Seq.START (s.db.log room) = s.db.log room := by
  refine List.filter_eq_self.mpr fun m mem => decide_eq_true ?_
  exact Nat.lt_of_lt_of_le Nat.zero_lt_one (log_seq_pos inv.valid mem)

theorem upwards {s t : StoreRun} {room : RoomId} {fs : List Fetch} {cursor : Seq}
    {pages : List (List Message)} (inv : s.Inv) (asks : ∀ f ∈ fs, 1 ≤ f.limit)
    (walked : walkAfter room s Seq.START fs = some (t, cursor, pages)) :
    pages.flatten <+: t.db.log room ∧ (EndsShort fs pages → pages.flatten = t.db.log room) ∧
      ((t.db.log room).length < fs.length →
        ∃ f page, (f, page) ∈ fs.zip pages ∧ page.length < f.limit) := by
  obtain ⟨invT, lengths, reading, short⟩ := walkAfter_reading inv (Reading.start _ _) walked
  rw [List.nil_append] at reading short
  have first : pages.flatten <+: t.db.log room := by
    rw [reading.got, between, above_start invT room]
    exact ⟨_, upto_append_above (log_ascending invT.valid room) cursor⟩
  refine ⟨first, fun ends => ?_, short_of_many asks lengths first.length_le⟩
  rw [short ends, above_start invT room]

theorem downwards {s t u : StoreRun} {room : RoomId} {fs : List Fetch} {limit : ℕ} {f : Message}
    {ω : ℕ → Moment} {cursor : Seq} {page : List Message} {pages : List (List Message)}
    (inv : s.Inv) (asks : ∀ f ∈ fs, 1 ≤ f.limit)
    (newest : s.fetch room (.newest limit) ω = some (t, page)) (first : page.head? = some f)
    (walked : walkBefore room t f.seq fs = some (u, cursor, pages)) :
    pages.reverse.flatten ++ page <:+ s.db.log room ∧
      (EndsShort fs pages → pages.reverse.flatten ++ page = s.db.log room) ∧
      ((s.db.log room).length < fs.length →
        ∃ f page, (f, page) ∈ fs.zip pages ∧ page.length < f.limit) := by
  obtain ⟨invT, same, rfl⟩ := fetch_spec inv newest
  obtain ⟨lengths, reading, short⟩ := walkBefore_reading invT (same ▸ List.prefix_rfl)
    (ReadingBack.newest limit (s.db.log room)) first walked
  refine ⟨reading, short, short_of_many asks lengths ?_⟩
  have within := List.IsSuffix.length_le reading
  rw [List.length_append, (List.reverse_perm pages).flatten.length_eq] at within
  omega

theorem around {s : StoreRun} {room : RoomId} (inv : s.Inv) (fits : room.get ≤ i64Max)
    {m : Message} (mem : m ∈ s.db.log room) {caps : Caps} (isOpen : s.caps = some caps)
    {ω ω' : ℕ → Moment} (works : (ω 0).fails = false) (works' : (ω' 0).fails = false) :
    ∃ older newer,
      (s.answer caps (.messagesBefore room m.seq (s.db.log room).length) ω).1
          = .ok (.page older) ∧
        (s.answer caps (.messagesAfter room m.seq (s.db.log room).length) ω').1
          = .ok (.page newer) ∧
        older ++ m :: newer = s.db.log room := by
  have cursor : m.seq.get ≤ i64Max := (log_seq_le inv.valid mem).trans inv.valid.messagesFit
  refine ⟨_, _, answer_of_works (q := .before m.seq _) inv isOpen fits cursor works,
    answer_of_works (q := .after m.seq _) inv isOpen fits cursor works', ?_⟩
  have all_below : (below Message.seq m.seq (s.db.log room)).length ≤ (s.db.log room).length :=
    List.length_filter_le _ _
  have all_above : (above Message.seq m.seq (s.db.log room)).length ≤ (s.db.log room).length :=
    List.length_filter_le _ _
  rw [PageQuery.page, PageQuery.page, pageAfter, List.take_of_length_le all_above, pageBefore,
    List.rtake, Nat.sub_eq_zero_of_le all_below, List.drop_zero]
  exact below_append_above (log_ascending inv.valid room) mem

/-- **The three ways of paging agree**, in any state of the store, on any room it has.  Other calls
may come between the fetches of a walk, and the limit may differ from one to the next. -/
theorem paging_agrees {ls : List StoreCall} {s : StoreRun} (ran : run step fresh ls = some s)
    {room : RoomId} (stored : ∃ row ∈ s.db.rooms, row.id = room.get) : PagingAgrees room s := by
  have inv := run_inv ran
  have fits : room.get ≤ i64Max := by
    obtain ⟨row, mem, id⟩ := stored
    have := inv.valid.id_le mem
    omega
  refine ⟨log_ascending inv.valid room, ?_, ?_, ?_, ?_, ?_, ?_⟩
  · intro caps limit ω isOpen works
    exact answer_of_works (q := .newest limit) inv isOpen fits trivial works
  · intro caps cursor limit ω isOpen cursor_fits works
    exact answer_of_works (q := .after cursor limit) inv isOpen fits cursor_fits works
  · intro caps cursor limit ω isOpen cursor_fits works
    exact answer_of_works (q := .before cursor limit) inv isOpen fits cursor_fits works
  · intro fs t cursor pages asks walked
    exact upwards inv asks walked
  · intro limit ω t page fs u cursor pages asked asks newest
    refine ⟨fun few => ?_, fun f first walked => downwards inv asks newest first walked⟩
    obtain ⟨-, -, rfl⟩ := fetch_spec inv newest
    exact pageNewest_of_short few
  · intro m mem caps ω ω' isOpen works works'
    exact around inv fits mem isOpen works works'

/-- An opening, and two posts to the lobby. -/
theorem paging_agrees_lobby :
    ∃ s : StoreRun, (s.db.log ⟨1⟩).map Message.body = ["hi", "ho"] ∧ PagingAgrees ⟨1⟩ s := by
  obtain ⟨s, ran, log, stored⟩ : ∃ s, run step fresh [.reopen ⟨1, 1⟩ fun _ => {},
      .call (.insertUser "alice" "phc") fun _ => {},
      .call (.postMessage ⟨1⟩ "alice" "hi") fun _ => {},
      .call (.postMessage ⟨1⟩ "alice" "ho") fun _ => {}] = some s ∧
      (s.db.log ⟨1⟩).map Message.body = ["hi", "ho"] ∧ ∃ row ∈ s.db.rooms, row.id = 1 :=
    ⟨_, rfl, rfl, _, List.mem_cons_self, rfl⟩
  exact ⟨s, log, paging_agrees ran stored⟩

end StoreRun

end ScionChat
