import ScionChat.Mobile.Room

/-!
# The open room on Android

`ChatViewModel.kt` collects `roomMessages` (`Feeds.kt`) in its `messagesJob`.  The flow is cold:
its cursor `newest` lives in the collector, and starts over whenever a failed flow is retried or
the job is started anew, as when the app returns to the foreground.  The messages in `UiState`
survive both, and what the flow brings is merged with them.

A job that has been cancelled hands nothing over any more: `emit` checks.  So the job in
`messagesJob` is the only one there is.

`no_holes_iff_covered` says when there is no hole between the messages held: as long as the first
page of a flow that has started over covers what has been posted since the newest of them.
`hole_after_retry` is a run where it does not.

### design decisions

* **Two cursors.**  The flow's own, which is lost with it, and what is held in `UiState`, which is
  not asked for anything.  The model keeps them in the two places where the source has them.
* **Suspended where it may be cancelled.**  `Suspended` has the points at which a collector waits:
  in a read, in the delay after one, in the delay before a retry.  Cancelling is an event between
  two steps, and a read that is cancelled is never taken.
* **The condition is on the page that arrives.**  `Covers` asks nothing of pages that go on from a
  message held, nor of rooms that are opened for the first time.

### What is load-bearing

`joins_iff`: a page joins up with the messages held if and only if it covers them, or goes on from
them.  With `Held.merged_iff` that makes every step an equivalence, and so the run.
-/

namespace ScionChat

open TransitionSystem KeyedLog Mobile

namespace Android

/-! ### The flow of a room's messages -/

/-- Where a collector of `roomMessages` is suspended. -/
inductive Suspended
  /-- In a read, with its page once the server has answered. -/
  | reading (reply : Option (List Message))
  /-- In the delay after an answer. -/
  | delayed
  /-- In the delay before a retry. -/
  | retrying
  deriving DecidableEq

/-- The `messagesJob`: the room it collects, and the flow's `newest`, which is `0` before its
first batch. -/
structure MessagesJob where
  room : RoomId
  newest : Seq
  suspended : Suspended
  deriving DecidableEq

namespace MessagesJob

/-- A flow that is collected from its beginning. -/
def collect (room : RoomId) : MessagesJob := ⟨room, Seq.START, .reading none⟩

variable (job : MessagesJob)

/-- What the flow reads after: nothing, if it has not had a batch. -/
def after : Option Seq :=
  if job.newest = Seq.START then none else some job.newest

/-- The flow has its batch, and goes on to its delay. -/
def received (batch : List Message) : MessagesJob :=
  match (batch.map Message.seq).max? with
  | some newest => { job with newest := newest, suspended := .delayed }
  | none => { job with suspended := .delayed }

/-- A delay is over.  A retry collects the flow from its beginning. -/
def resume : Option MessagesJob :=
  match job.suspended with
  | .reading _ => none
  | .delayed => some { job with suspended := .reading none }
  | .retrying => some (collect job.room)

end MessagesJob

/-! ### The view model -/

/-- What `UiState` holds of the open room. -/
structure UiState where
  openRoomId : Option RoomId
  messages : List Message
  deriving DecidableEq

/-- `distinctBy` the position: the first of each, other than those at the positions seen. -/
def distinctBySeq (seen : List Seq) : List Message → List Message
  | [] => []
  | message :: rest =>
      if message.seq ∈ seen then distinctBySeq seen rest
      else message :: distinctBySeq (message.seq :: seen) rest

/-- Held messages first, so a drawn row is not replaced. -/
def UiState.merge (state : UiState) (batch : List Message) : UiState :=
  { state with
    messages := (distinctBySeq [] (state.messages ++ batch)).insertionSort
      fun a b => a.seq ≤ b.seq }

/-- What the view model keeps of the open room, and whether it has a client. -/
structure ChatViewModel where
  client : Bool
  state : UiState
  messagesJob : Option MessagesJob
  deriving DecidableEq

namespace ChatViewModel

variable (model : ChatViewModel)

/-- Starts over with the open room. -/
def watchMessages : ChatViewModel :=
  { model with
    messagesJob := if model.client then model.state.openRoomId.map MessagesJob.collect else none }

/-- Called when the screen comes to the foreground. -/
def startPolling : ChatViewModel :=
  if model.client && model.messagesJob.isNone then model.watchMessages else model

def stopPolling : ChatViewModel := { model with messagesJob := none }

/-- `open`, once the server has proved to be there. -/
def opened : ChatViewModel := { model with client := true }

/-- `logIn`, once the rooms are listed. -/
def logIn (rooms : List Room) : ChatViewModel :=
  { model with state := ⟨rooms.head?.map Room.id, []⟩ }

def openRoom (room : Room) : ChatViewModel :=
  { model with state := ⟨some room.id, []⟩ }.watchMessages

/-- Sends the reader back to signing in. -/
def signedOut : ChatViewModel :=
  { model.stopPolling with state := { model.state with messages := [] } }

/-- Takes a batch, if it is of the open room. -/
def applyBatch (room : RoomId) (batch : List Message) : ChatViewModel :=
  if model.state.openRoomId = some room then { model with state := model.state.merge batch }
  else model

/-- The flow emits a batch, unless it is empty. -/
def emit (room : RoomId) (batch : List Message) : ChatViewModel :=
  if batch = [] then model else model.applyBatch room batch

end ChatViewModel

/-! ### The app and the server -/

/-- The server's log, and the app. -/
structure RoomRun where
  log : List (RoomId × Message)
  model : ChatViewModel
  deriving DecidableEq

/-- What happens next. -/
inductive RoomEvent
  /-- Somebody posts to some room. -/
  | post (room : RoomId) (message : Message)
  | opened
  | loggedIn (rooms : List Room)
  | openRoom (room : Room)
  | startPolling
  | stopPolling
  /-- The server answers the read that is out. -/
  | answer
  | arrive
  /-- The read that is out fails, perhaps because the session has ended. -/
  | fail (sessionExpired : Bool)
  /-- A delay is over. -/
  | resume
  /-- The session has ended for the other feed, or for a call the reader asked for. -/
  | signedOut
  deriving DecidableEq

namespace RoomRun

/-- The app before it has connected. -/
def fresh : RoomRun := ⟨[], ⟨false, ⟨none, []⟩, none⟩⟩

variable (s : RoomRun)

/-- The app goes on with its `messagesJob` in this state. -/
def suspend (job : MessagesJob) : RoomRun :=
  { s with model := { s.model with messagesJob := some job } }

/-- The `messagesJob` is given its page. -/
def arrived (job : MessagesJob) (page : List Message) : RoomRun :=
  { s with model := (s.suspend (job.received page)).model.emit job.room page }

/-- One step. -/
def step : RoomEvent → Option RoomRun
  | .post room message =>
      if Newest s.log message then some { s with log := s.log ++ [(room, message)] } else none
  | .opened => some { s with model := s.model.opened }
  | .loggedIn rooms =>
      if s.model.client then some { s with model := s.model.logIn rooms } else none
  | .openRoom room => some { s with model := s.model.openRoom room }
  | .startPolling => some { s with model := s.model.startPolling }
  | .stopPolling => some { s with model := s.model.stopPolling }
  | .answer =>
      s.model.messagesJob.bind fun job =>
        match job.suspended, pageOf s.log job.room job.after with
        | .reading none, .ok page => some (s.suspend { job with suspended := .reading (some page) })
        | _, _ => none
  | .arrive =>
      s.model.messagesJob.bind fun job =>
        match job.suspended with
        | .reading (some page) => some (s.arrived job page)
        | _ => none
  | .fail sessionExpired =>
      s.model.messagesJob.bind fun job =>
        match job.suspended with
        | .reading _ =>
            if sessionExpired then some { s with model := s.model.signedOut }
            else some (s.suspend { job with suspended := .retrying })
        | _ => none
  | .resume => (s.model.messagesJob.bind MessagesJob.resume).map s.suspend
  | .signedOut => some { s with model := s.model.signedOut }

/-- The first page of a flow that has started over, as it arrives in the open room. -/
def firstPage : Option (RoomId × List Message) :=
  s.model.messagesJob.bind fun job =>
    match job.suspended with
    | .reading (some page) =>
        if job.newest = Seq.START ∧ s.model.state.openRoomId = some job.room then
          some (job.room, page)
        else none
    | _ => none

/-- **The first page covers the messages held**: no more have been posted after the newest of
them, up to the newest on the page, than a page holds. -/
def Covered : Prop :=
  ∀ first ∈ s.firstPage, ∀ held ∈ s.model.state.messages.getLast?, ∀ newest ∈ first.2.getLast?,
    (between Message.seq held.seq newest.seq (roomLog first.1 s.log)).length ≤ PAGE

instance decidableCovered : Decidable s.Covered :=
  inferInstanceAs (Decidable (∀ _ ∈ _, ∀ _ ∈ _, ∀ _ ∈ _, _))

/-- A page arrives only where it covers the messages held, if it is the first of its flow. -/
def Covers (s : RoomRun) (event : RoomEvent) : Prop := event = .arrive → s.Covered

instance decidableCovers (event : RoomEvent) : Decidable (Covers s event) :=
  inferInstanceAs (Decidable (_ → _))

end RoomRun

/-! ### Merging -/

theorem distinctBySeq_differ (messages : List Message) : ∀ seen : List Seq,
    (distinctBySeq seen messages).Pairwise (fun a b => a.seq ≠ b.seq) ∧
      ∀ a ∈ distinctBySeq seen messages, a ∈ messages ∧ a.seq ∉ seen := by
  induction messages with
  | nil => exact fun seen => ⟨List.Pairwise.nil, nofun⟩
  | cons message rest ih =>
      intro seen
      unfold distinctBySeq
      split
      · obtain ⟨differ, from_⟩ := ih seen
        exact ⟨differ, fun a mem => ⟨List.mem_cons_of_mem _ (from_ a mem).1, (from_ a mem).2⟩⟩
      · rename_i fresh
        obtain ⟨differ, from_⟩ := ih (message.seq :: seen)
        refine ⟨List.pairwise_cons.mpr ⟨fun a mem same => ?_, differ⟩, fun a mem => ?_⟩
        · exact (from_ a mem).2 (same ▸ List.mem_cons_self)
        · rcases List.mem_cons.mp mem with rfl | later
          · exact ⟨List.mem_cons_self, fresh⟩
          · obtain ⟨inRest, unseen⟩ := from_ a later
            exact ⟨List.mem_cons_of_mem _ inRest, fun old => unseen (List.mem_cons_of_mem _ old)⟩

theorem exists_distinctBySeq {messages : List Message} {a : Message} (mem : a ∈ messages) :
    ∀ seen : List Seq, a.seq ∉ seen → ∃ b ∈ distinctBySeq seen messages, b.seq = a.seq := by
  induction messages with
  | nil => cases mem
  | cons message rest ih =>
      intro seen unseen
      unfold distinctBySeq
      rcases List.mem_cons.mp mem with rfl | later
      · rw [if_neg unseen]
        exact ⟨a, List.mem_cons_self, rfl⟩
      · split
        · exact ih later seen unseen
        · by_cases same : a.seq = message.seq
          · exact ⟨message, List.mem_cons_self, same.symm⟩
          · obtain ⟨b, kept, eq⟩ := ih later (message.seq :: seen)
              (by rw [List.mem_cons, not_or]; exact ⟨same, unseen⟩)
            exact ⟨b, List.mem_cons_of_mem _ kept, eq⟩

/-- **A merge has all of the messages held and of the batch, in order.** Of two with one position
the one that is held stays, which is the same message. -/
theorem UiState.merge_merged {log : List Message} (ascending : Ascending Message.seq log)
    {state : UiState} {batch : List Message} (held : ∀ a ∈ state.messages, a ∈ log)
    (posted : ∀ a ∈ batch, a ∈ log) :
    Merged Message.seq state.messages batch (state.merge batch).messages := by
  obtain ⟨differ, from_⟩ := distinctBySeq_differ (state.messages ++ batch) []
  have all : ∀ a ∈ state.messages ++ batch, a ∈ log := by
    intro a mem
    rcases List.mem_append.mp mem with old | new
    · exact held a old
    · exact posted a new
  refine ⟨ascending_insertionSort differ, fun a => ?_⟩
  rw [← List.mem_append, merge, List.mem_insertionSort]
  constructor
  · exact fun mem => (from_ a mem).1
  · intro mem
    obtain ⟨b, kept, same⟩ := exists_distinctBySeq mem [] List.not_mem_nil
    rwa [ascending.eq_of_key_eq (all a mem) (all b (from_ b kept).1) same.symm]

/-! ### What every run keeps -/

/-- **What a job has read**: the flow goes on from the newest of the messages held, and the page
that arrives is of the log as it was when they were all there. -/
structure Feeding (log : List (RoomId × Message)) (state : UiState) (job : MessagesJob) :
    Prop where
  newest : job.newest ≠ Seq.START → state.openRoomId = some job.room → state.messages ≠ [] →
    ∃ a ∈ state.messages, a.seq = job.newest
  reply : ∀ page, job.suspended = .reading (some page) → ∃ view, view <+: log ∧
    pageOf view job.room job.after = .ok page ∧
    (state.openRoomId = some job.room → ∀ a ∈ state.messages, a ∈ roomLog job.room view)

namespace Feeding

variable {log later : List (RoomId × Message)} {state : UiState} {job : MessagesJob}

theorem collect (log : List (RoomId × Message)) (state : UiState) (room : RoomId) :
    Feeding log state (.collect room) :=
  ⟨fun started => absurd rfl started, nofun⟩

theorem grow (feeding : Feeding log state job) (grows : log <+: later) :
    Feeding later state job where
  newest := feeding.newest
  reply := by
    intro page reading
    obtain ⟨view, early, answered, seen⟩ := feeding.reply page reading
    exact ⟨view, early.trans grows, answered, seen⟩

/-- Where the messages are reset, the flow has nothing to go on from. -/
theorem reset (feeding : Feeding log state job) (openRoomId : Option RoomId) :
    Feeding log ⟨openRoomId, []⟩ job where
  newest := fun _ _ some_ => absurd rfl some_
  reply := by
    intro page reading
    obtain ⟨view, early, answered, -⟩ := feeding.reply page reading
    exact ⟨view, early, answered, fun _ => nofun⟩

/-- Where no page is there yet, only the cursor counts. -/
theorem suspend (feeding : Feeding log state job) {suspended : Suspended}
    (waits : ∀ page, suspended ≠ .reading (some page)) :
    Feeding log state { job with suspended := suspended } :=
  ⟨feeding.newest, fun page reading => absurd reading (waits page)⟩

theorem resume (feeding : Feeding log state job) {next : MessagesJob}
    (resumed : job.resume = some next) : Feeding log state next := by
  unfold MessagesJob.resume at resumed
  split at resumed
  · cases resumed
  · cases resumed
    exact feeding.suspend nofun
  · cases resumed
    exact collect log state job.room

end Feeding

namespace RoomRun

/-- **The invariant of the app.** What everybody has posted is in order, the messages held have no
hole, and a job that is there goes on from them. -/
structure Inv (s : RoomRun) : Prop where
  posted : Posted s.log
  held : Held s.log s.model.state.openRoomId s.model.state.messages
  feeding : ∀ job, s.model.messagesJob = some job → Feeding s.log s.model.state job

variable {s t : RoomRun} {event : RoomEvent}

theorem inv_fresh : Inv fresh where
  posted := ⟨List.Pairwise.nil, nofun⟩
  held := Held.empty [] none
  feeding := nofun

namespace Inv

theorem post (inv : Inv s) {room : RoomId} {message : Message} (newest : Newest s.log message) :
    Inv { s with log := s.log ++ [(room, message)] } :=
  have grows : s.log <+: s.log ++ [(room, message)] := List.prefix_append _ _
  have posted := inv.posted.post newest
  ⟨posted, inv.held.grow grows posted, fun job here => (inv.feeding job here).grow grows⟩

theorem watchMessages (inv : Inv s) : Inv { s with model := s.model.watchMessages } where
  posted := inv.posted
  held := inv.held
  feeding := by
    intro job here
    unfold ChatViewModel.watchMessages at here
    split at here
    · obtain ⟨room, -, rfl⟩ := Option.map_eq_some_iff.mp here
      exact Feeding.collect s.log s.model.state room
    · cases here

theorem startPolling (inv : Inv s) : Inv { s with model := s.model.startPolling } := by
  unfold ChatViewModel.startPolling
  split
  · exact inv.watchMessages
  · exact inv

/-- The messages are reset, and the job goes on, if at all. -/
theorem reset (inv : Inv s) (openRoomId : Option RoomId) {job : Option MessagesJob}
    (goes : job = none ∨ job = s.model.messagesJob) :
    Inv { s with model := { s.model with state := ⟨openRoomId, []⟩, messagesJob := job } } where
  posted := inv.posted
  held := Held.empty s.log openRoomId
  feeding := by
    intro there here
    rcases goes with rfl | rfl
    · cases here
    · exact (inv.feeding there here).reset openRoomId

theorem suspend (inv : Inv s) {job : MessagesJob} (feeding : Feeding s.log s.model.state job) :
    Inv (s.suspend job) where
  posted := inv.posted
  held := inv.held
  feeding := by
    intro there here
    cases here
    exact feeding

/-- The read is answered, with the log as it is now. -/
theorem answer (inv : Inv s) {job : MessagesJob} (here : s.model.messagesJob = some job)
    {page : List Message} (answered : pageOf s.log job.room job.after = .ok page) :
    Inv (s.suspend { job with suspended := .reading (some page) }) := by
  refine inv.suspend ⟨(inv.feeding job here).newest, fun page' same => ?_⟩
  cases same
  exact ⟨s.log, List.prefix_rfl, answered, fun opened => (inv.held.gapless _ opened).subset⟩

/-! ### A page arrives -/

theorem replied (inv : Inv s) {job : MessagesJob} {page : List Message}
    (here : s.model.messagesJob = some job) (reading : job.suspended = .reading (some page)) :
    Replied s.log job.room job.after page := by
  obtain ⟨view, early, answered, -⟩ := (inv.feeding job here).reply page reading
  exact ⟨view, early, answered⟩

/-- **The page joins up with the messages held if and only if it covers them**, or goes on from
them.  In the second case nothing has to be covered, and the condition holds of itself. -/
theorem joins_iff (inv : Inv s) {job : MessagesJob} {page : List Message}
    (here : s.model.messagesJob = some job) (reading : job.suspended = .reading (some page))
    (opened : s.model.state.openRoomId = some job.room) :
    Joins Message.seq (roomLog job.room s.log) s.model.state.messages page ↔ s.Covered := by
  have feeding := inv.feeding job here
  have first : s.firstPage = if job.newest = Seq.START then some (job.room, page) else none := by
    simp only [firstPage, here, Option.bind_some, reading, opened, and_true]
  unfold Covered
  by_cases fresh : job.newest = Seq.START
  · -- the flow has started over: its page is the newest one, and may be far ahead
    rw [first, if_pos fresh]
    obtain ⟨view, early, answered, seen⟩ := feeding.reply page reading
    have newest : page = pageNewest PAGE (roomLog job.room view) := by
      rw [MessagesJob.after, if_pos fresh] at answered
      exact pageOf_newest answered
    cases last : s.model.state.messages.getLast? with
    | none =>
        rw [List.getLast?_eq_none_iff.mp last]
        exact ⟨fun _ _ _ _ held => (nomatch held), fun _ => joins_nil_left _ page⟩
    | some held =>
        cases end_ : page.getLast? with
        | none =>
            rw [List.getLast?_eq_none_iff.mp end_]
            refine ⟨fun _ there got _ _ z z_last => ?_, fun _ => joins_nil_right _ _⟩
            cases got
            cases z_last
        | some z =>
            rw [newest] at end_ ⊢
            rw [joins_pageNewest_iff (roomLog_sorted inv.posted _) (roomLog_grows early _)
              (seen opened) (List.mem_of_getLast? last)
              (fun a mem => inv.held.sorted.le_getLast mem last) end_]
            constructor
            · intro fits there got h h_last z' z'_last
              cases got
              cases h_last
              cases end_.symm.trans z'_last
              exact fits
            · intro covered
              exact covered _ rfl _ rfl z end_
  · -- the flow goes on from the newest message held, unless they have been reset
    rw [first, if_neg fresh]
    refine ⟨fun _ _ got => (nomatch got), fun _ => ?_⟩
    by_cases none_ : s.model.state.messages = []
    · rw [none_]
      exact joins_nil_left _ page
    · have replied := inv.replied here reading
      rw [MessagesJob.after, if_neg fresh] at replied
      exact replied.joins inv.posted (feeding.newest fresh opened none_)

/-- The flow goes on from its batch. -/
theorem received_of_ne_nil (job : MessagesJob) {page : List Message} (some_ : page ≠ []) :
    ∃ a ∈ page, job.received page = { job with newest := a.seq, suspended := .delayed } := by
  obtain ⟨newest, max⟩ : ∃ newest, (page.map Message.seq).max? = some newest :=
    Option.ne_none_iff_exists'.mp (by simpa using some_)
  have one : Std.MaxEqOr Seq := ⟨fun a b =>
    (le_total a b).elim (fun le => Or.inr (max_eq_right le)) (fun le => Or.inl (max_eq_left le))⟩
  obtain ⟨a, mem, rfl⟩ := List.mem_map.mp (List.max?_mem max)
  refine ⟨a, mem, ?_⟩
  simp only [MessagesJob.received, max]

/-- What a page leaves of the invariant, if it is merged. -/
theorem merged (inv : Inv s) {job : MessagesJob} {page : List Message}
    (here : s.model.messagesJob = some job) (reading : job.suspended = .reading (some page))
    (opened : s.model.state.openRoomId = some job.room) :
    Held s.log (some job.room) (s.model.state.merge page).messages ↔ s.Covered := by
  have held := inv.held
  rw [opened] at held
  have gapless := (inv.replied here reading).gapless inv.posted
  have merged := UiState.merge_merged (roomLog_sorted inv.posted job.room)
    (held.gapless job.room rfl).subset gapless.subset
  rw [held.merged_iff inv.posted gapless merged, inv.joins_iff here reading opened]

/-- **A page that arrives keeps the invariant** as long as it covers the messages held.  It may be
of a room that has been left by then, and is dropped. -/
theorem arrive (inv : Inv s) {job : MessagesJob} {page : List Message}
    (here : s.model.messagesJob = some job) (reading : job.suspended = .reading (some page))
    (covered : s.Covered) : Inv (s.arrived job page) := by
  have feeding := inv.feeding job here
  unfold arrived ChatViewModel.emit
  split
  · -- an empty page is not emitted
    rename_i nil
    have same : job.received page = { job with suspended := .delayed } := by
      rw [nil]
      rfl
    rw [same]
    exact inv.suspend (feeding.suspend nofun)
  · rename_i some_
    obtain ⟨a, mem, received⟩ := received_of_ne_nil job some_
    rw [received]
    unfold ChatViewModel.applyBatch
    split
    · rename_i opened
      have held := (inv.merged here reading opened).mpr covered
      have gapless := (inv.replied here reading).gapless inv.posted
      have all := UiState.merge_merged (roomLog_sorted inv.posted job.room)
        (inv.held.gapless job.room opened).subset gapless.subset
      refine ⟨inv.posted, ?_, fun there got => ?_⟩
      · rw [← opened] at held
        exact held
      · cases got
        exact ⟨fun _ _ _ => ⟨a, (all.mem a).mpr (Or.inr mem), rfl⟩, nofun⟩
    · -- the batch is dropped: the job watches a room that is not the open one
      rename_i elsewhere
      exact inv.suspend ⟨fun _ opened => absurd opened elsewhere, nofun⟩

/-- **And breaks it otherwise.** So the condition is not just enough: a hole is there as soon as it
fails. -/
theorem covered_of_arrived (inv : Inv s) {job : MessagesJob} {page : List Message}
    (here : s.model.messagesJob = some job) (reading : job.suspended = .reading (some page))
    (held : Held s.log (s.arrived job page).model.state.openRoomId
      (s.arrived job page).model.state.messages) : s.Covered := by
  by_cases opened : s.model.state.openRoomId = some job.room
  · by_cases nil : page = []
    · rw [← inv.joins_iff here reading opened, nil]
      exact joins_nil_right _ _
    · rw [← inv.merged here reading opened]
      have merged : (s.arrived job page).model.state = s.model.state.merge page := by
        unfold arrived ChatViewModel.emit
        rw [if_neg nil, ChatViewModel.applyBatch]
        exact congrArg ChatViewModel.state (if_pos opened)
      rw [merged] at held
      have same : (s.model.state.merge page).openRoomId = some job.room := opened
      rwa [same] at held
  · have first : s.firstPage = none := by
      simp only [firstPage, here, Option.bind_some, reading, opened, and_false, if_false]
    intro there got
    rw [first] at got
    cases got

end Inv

/-! ### Every run -/

/-- What a step does with the job, if it goes on with one. -/
theorem step_arrive (stepped : step s .arrive = some t) : ∃ job page,
    s.model.messagesJob = some job ∧ job.suspended = .reading (some page) ∧
      t = s.arrived job page := by
  simp only [step] at stepped
  obtain ⟨job, here, stepped⟩ := Option.bind_eq_some_iff.mp stepped
  split at stepped
  · rename_i page reading
    exact ⟨job, page, here, reading, (Option.some.inj stepped).symm⟩
  · cases stepped

/-- **One step keeps the invariant** as long as a page that arrives covers the messages held.  All
else leaves the messages held as they are, or empties them. -/
theorem inv_step (stepped : step s event = some t) (inv : Inv s) (covers : Covers s event) :
    Inv t := by
  cases event with
  | post room message =>
      simp only [step] at stepped
      split at stepped
      · rename_i newest
        cases stepped
        exact inv.post newest
      · cases stepped
  | opened =>
      cases stepped
      exact ⟨inv.posted, inv.held, inv.feeding⟩
  | loggedIn rooms =>
      simp only [step] at stepped
      split at stepped
      · cases stepped
        exact inv.reset _ (Or.inr rfl)
      · cases stepped
  | openRoom room =>
      cases stepped
      exact (inv.reset (some room.id) (Or.inr rfl)).watchMessages
  | startPolling =>
      cases stepped
      exact inv.startPolling
  | stopPolling =>
      cases stepped
      exact ⟨inv.posted, inv.held, nofun⟩
  | answer =>
      simp only [step] at stepped
      obtain ⟨job, here, stepped⟩ := Option.bind_eq_some_iff.mp stepped
      split at stepped
      · rename_i page reading answered
        cases stepped
        exact inv.answer here answered
      · cases stepped
  | arrive =>
      obtain ⟨job, page, here, reading, rfl⟩ := step_arrive stepped
      exact inv.arrive here reading (covers rfl)
  | fail sessionExpired =>
      simp only [step] at stepped
      obtain ⟨job, here, stepped⟩ := Option.bind_eq_some_iff.mp stepped
      split at stepped
      · split at stepped
        · cases stepped
          exact inv.reset _ (Or.inl rfl)
        · cases stepped
          exact inv.suspend ((inv.feeding job here).suspend nofun)
      · cases stepped
  | resume =>
      simp only [step] at stepped
      obtain ⟨next, resumed, rfl⟩ := Option.map_eq_some_iff.mp stepped
      obtain ⟨job, here, resumed⟩ := Option.bind_eq_some_iff.mp resumed
      exact inv.suspend ((inv.feeding job here).resume resumed)
  | signedOut =>
      cases stepped
      exact inv.reset _ (Or.inl rfl)

/-- A step after which there are no holes covered the messages held. -/
theorem covers_of_step (stepped : step s event = some t) (inv : Inv s)
    (shown : NoHoles t.log t.model.state.openRoomId t.model.state.messages) :
    Covers s event := by
  rintro rfl
  obtain ⟨job, page, here, reading, rfl⟩ := step_arrive stepped
  exact inv.covered_of_arrived here reading (Held.of_noHoles shown)

/-- **No holes, exactly as long as the first page of a flow that has started over covers the
messages held.**  In a run of the app, everybody's posts and everything else in any order, the
messages of the open room are without holes in every state if and only if every page that arrives
covers them. -/
theorem no_holes_iff_covered {events : List RoomEvent} (ran : run step fresh events = some s) :
    (∀ early reached, early <+: events → run step fresh early = some reached →
        NoHoles reached.log reached.model.state.openRoomId reached.model.state.messages) ↔
      Along step Covers fresh events :=
  along_iff_reached ran inv_fresh (fun _ inv => inv.held.noHoles inv.posted)
    (fun _ _ _ => inv_step) (fun _ _ _ => covers_of_step)

/-! ### Two runs -/

namespace Sample

/-- A message of the lobby. -/
def line (seq : ℕ) : Message := ⟨⟨seq⟩, "ada", "", ⟨0⟩⟩

/-- `n` messages are posted after the first `seq`. -/
def posts (seq n : ℕ) : List RoomEvent :=
  (List.range' (seq + 1) n).map fun seq => .post ⟨1⟩ (line seq)

/-- The first message is read, the next poll fails, and `n` messages are posted before the flow
has been retried. -/
def retried (n : ℕ) : List RoomEvent :=
  [.opened, .loggedIn [⟨⟨1⟩, "lobby", ⟨0⟩⟩], .startPolling] ++ posts 0 1
    ++ [.answer, .arrive, .resume, .fail false] ++ posts 1 n ++ [.resume, .answer, .arrive]

end Sample

/-- Fifty messages may be posted while a retry is due. -/
theorem no_holes_retried : ∃ s, run step fresh (Sample.retried 50) = some s ∧
    NoHoles s.log s.model.state.openRoomId s.model.state.messages := by
  obtain ⟨s, ran⟩ : ∃ s, run step fresh (Sample.retried 50) = some s :=
    Option.isSome_iff_exists.mp (by decide +kernel)
  have shown := (no_holes_iff_covered ran).mpr (by decide +kernel)
  exact ⟨s, ran, shown _ s List.prefix_rfl ran⟩

/-- **With the fifty-first the second message is never read.** Fifty-one messages are posted while
a flow is in its delay before a retry, and its first page has room for fifty. -/
theorem hole_after_retry : ¬ ∀ events s, run step fresh events = some s →
    NoHoles s.log s.model.state.openRoomId s.model.state.messages := by
  intro holds
  obtain ⟨s, ran⟩ : ∃ s, run step fresh (Sample.retried 51) = some s :=
    Option.isSome_iff_exists.mp (by decide +kernel)
  have reached : ∀ s ∈ run step fresh (Sample.retried 51),
      s.model.state.openRoomId = some ⟨1⟩ ∧ Sample.line 1 ∈ s.model.state.messages ∧
        Sample.line 3 ∈ s.model.state.messages ∧ Sample.line 2 ∈ roomLog ⟨1⟩ s.log ∧
        Sample.line 2 ∉ s.model.state.messages := by decide +kernel
  obtain ⟨opened, first, third, posted, missed⟩ := reached s ran
  have shown := holds _ s ran
  exact missed (shown.whole ⟨1⟩ opened _ first _ third _ posted (by decide) (by decide))

end RoomRun

end Android

end ScionChat
