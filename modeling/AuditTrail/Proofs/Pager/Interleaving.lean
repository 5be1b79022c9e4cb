import AuditTrail.Pager.Process

/-!
# A pager, its writer and its watcher

What the three do can fall together in any order: the pager reads and exits when it likes, the
watcher notices the exit at some time after it, and the writer writes, asks and closes, waiting
while it closes until it knows of the exit. `Runs` has every such order, and every pipe, be it one
that takes a part of some writes only. A pager may exit with octets in the pipe, which are lost;
one that copies its input exits only when it has read all that there is.

Four flags have to agree all the way. `Step.marks` says that each of them is raised by events of
its own, so that behind a run it tells whether there were any, and `Step.held` accounts for the
octets. What the sink of the program does is one of the orders, and `Serves` says what comes of
it. `Runs.isFaithful` puts together what the writer and the reader of the output may rely on,
whatever the order was.
-/

namespace AuditTrail

/-- One thing that a pager, its writer or its watcher does. -/
inductive PagerEvent where
  /-- The writer writes. -/
  | wrote (octets : Bytes) (result : WriteResult)
  /-- The writer asks whether the pager has exited. -/
  | answered (closed : Bool)
  /-- The writer begins to close, be it by a call or by leaving its block, and ends the input. -/
  | endedInput
  /-- The writer has closed. -/
  | closed
  /-- The pager reads. -/
  | read (count : Nat)
  /-- The pager exits. -/
  | exited
  /-- The watcher notices the exit. -/
  | noticed
deriving DecidableEq

/-- What was taken of a write that succeeded. -/
def PagerEvent.taken? : PagerEvent -> Option Bytes
  | .wrote octets (.written count) => some (octets.take count)
  | .wrote _ (.exhausted _) | .wrote _ (.failed _) | .wrote _ .afterClose => none
  | .answered _ | .endedInput | .closed | .read _ | .exited | .noticed => none

namespace PagerProcess

/-- What the writes that succeeded have given, all in all. -/
def given (events : List PagerEvent) : Bytes := (events.filterMap PagerEvent.taken?).flatten

@[simp] theorem given_nil : given [] = [] := rfl

/-- A moment of a pager's life: its process, and whether its writer is closing it. -/
structure Moment where
  process : PagerProcess
  closing : Bool
deriving DecidableEq

/-- What may happen next. A writer that closes does nothing else until it knows of the exit. A
pager may exit at any time, but one that copies its input has read all that there is. -/
inductive Step (copies : Bool) : Moment -> PagerEvent -> Moment -> Prop where
  | write {process : PagerProcess} (octets : Bytes) :
      Step copies ⟨process, false⟩ (.wrote octets (process.offer octets).1)
        ⟨(process.offer octets).2, false⟩
  | ask {process : PagerProcess} :
      Step copies ⟨process, false⟩ (.answered process.isClosed.1) ⟨process.isClosed.2, false⟩
  | endInput {process : PagerProcess} :
      Step copies ⟨process, false⟩ .endedInput ⟨process.endInput, true⟩
  | close {process : PagerProcess} (known : process.learnt = true ∨ process.noticed = true) :
      Step copies ⟨process, true⟩ .closed ⟨process.learn, false⟩
  | read {process : PagerProcess} {closing : Bool} (count : Nat)
      (running : process.exited = false) :
      Step copies ⟨process, closing⟩ (.read count) ⟨process.read count, closing⟩
  | exit {process : PagerProcess} {closing : Bool} (running : process.exited = false)
      (readAll : copies = true -> process.unread = []) :
      Step copies ⟨process, closing⟩ .exited ⟨process.quit, closing⟩
  | notice {process : PagerProcess} {closing : Bool} (gone : process.exited = true) :
      Step copies ⟨process, closing⟩ .noticed ⟨process.notice, closing⟩

/-- The events that may lead to a moment from the start of a pager on, its pipe having some limits.
A pager that copies its input shows what it reads. -/
inductive Runs (copies : Bool) (limits : List Nat) : List PagerEvent -> Moment -> Prop where
  | start (shows : Bool) (copying : copies = true -> shows = true) :
      Runs copies limits [] ⟨fresh shows limits, false⟩
  | step {events : List PagerEvent} {moment next : Moment} {event : PagerEvent}
      (prior : Runs copies limits events moment) (transition : Step copies moment event next) :
      Runs copies limits (events ++ [event]) next

/-! ## What one step does -/

variable {copies : Bool} {moment next : Moment} {event : PagerEvent}

/-- What an event leaves on the flags: each of them tells of events of its own. -/
structure Marks (moment : Moment) (event : PagerEvent) (next : Moment) : Prop where
  exited : next.process.exited = true ↔ moment.process.exited = true ∨ event = .exited
  noticed : next.process.noticed = true ↔ moment.process.noticed = true ∨ event = .noticed
  learnt : next.process.learnt = true ↔
    moment.process.learnt = true ∨ event = .answered true ∨ event = .closed
  inputClosed : next.process.inputClosed = true ↔
    moment.process.inputClosed = true ∨ event = .endedInput

/-- Every step marks its event. -/
theorem Step.marks (step : Step copies moment event next) : Marks moment event next := by
  cases step with
  | write octets => constructor <;> simp [offer_snd]
  | ask => constructor <;> simp [isClosed_eq]
  | endInput => constructor <;> simp [PagerProcess.endInput]
  | close known => constructor <;> simp [learn]
  | read count running => constructor <;> simp [PagerProcess.read]
  | exit running readAll => constructor <;> simp [quit]
  | notice gone => constructor <;> simp [PagerProcess.notice, gone]

/-- A pager that runs has run before. -/
theorem Step.running (step : Step copies moment event next)
    (running : next.process.exited = false) : moment.process.exited = false := by
  refine Bool.eq_false_iff.mpr fun gone => ?_
  rw [step.marks.exited.mpr (.inl gone)] at running
  cases running

/-- Only an exit that there was is noticed. -/
theorem Step.exited_of_noticed (step : Step copies moment .noticed next) :
    moment.process.exited = true := by
  cases step with
  | notice gone => exact gone

/-- Only what is known is told to a writer, and only then it has closed. -/
theorem Step.known (step : Step copies moment event next)
    (tells : event = .answered true ∨ event = .closed) :
    moment.process.learnt = true ∨ moment.process.noticed = true := by
  cases step with
  | ask => simpa [isClosed_eq] using tells
  | close known => exact known
  | write | endInput | read | exit | notice => simp at tells

/-- Only a writer that is closing closes. -/
theorem Step.closing_of_closed (step : Step copies moment .closed next) :
    moment.closing = true := by
  cases step with
  | close known => rfl

/-- A writer that is closing has just ended the input, or was closing. -/
theorem Step.closing (step : Step copies moment event next) (closing : next.closing = true) :
    moment.closing = true ∨ event = .endedInput := by
  cases step with
  | write | ask | close => cases closing
  | endInput => exact .inr rfl
  | read | exit | notice => exact .inl closing

/-- What is taken of octets that are offered. -/
theorem taken?_offer (octets : Bytes) (process : PagerProcess) :
    (PagerEvent.wrote octets (process.offer octets).1).taken?.getD [] =
      if process.inputClosed || process.exited then [] else octets.take (process.room octets) := by
  unfold offer
  cases octets <;> cases process.inputClosed <;> cases process.exited <;>
    simp [PagerEvent.taken?]

/-- What a pager that shows its input holds grows by what is taken, unless it exits too early. -/
theorem Step.held (step : Step copies moment event next) (shows : moment.process.shows = true)
    (lossless : copies = true ∨ next.process.exited = false) :
    next.process.shown ++ next.process.unread =
      moment.process.shown ++ moment.process.unread ++ event.taken?.getD [] := by
  cases step with
  | write octets => simp [offer_snd, taken?_offer]
  | ask => simp [isClosed_eq, PagerEvent.taken?]
  | endInput => simp [PagerProcess.endInput, PagerEvent.taken?]
  | close known => simp [learn, PagerEvent.taken?]
  | read count running => simp_all [PagerProcess.read, PagerEvent.taken?]
  | exit running readAll =>
      have copying : copies = true := by simpa [quit] using lossless
      simp [quit, readAll copying, PagerEvent.taken?]
  | notice gone => simp [PagerProcess.notice, PagerEvent.taken?]

/-- Nothing comes into the pipe behind the exit. -/
theorem Step.drained (step : Step copies moment event next)
    (drained : moment.process.exited = true -> moment.process.unread = [])
    (exited : next.process.exited = true) : next.process.unread = [] := by
  cases step with
  | write octets => simp_all [offer_snd]
  | ask => simp_all [isClosed_eq]
  | endInput => exact drained exited
  | close known => exact drained exited
  | read count running => exact absurd exited (by simp [PagerProcess.read, running])
  | exit running readAll => rfl
  | notice gone => exact drained exited

/-- A pipe without limits does not get any. -/
theorem Step.unlimited (step : Step copies moment event next)
    (unlimited : moment.process.limits = []) : next.process.limits = [] := by
  cases step with
  | write octets => simp_all [offer_snd]
  | ask => simp_all [isClosed_eq]
  | endInput | close | read | exit | notice => exact unlimited

/-- A pager shows what it reads, or does not, for all its life. -/
theorem Step.shows (step : Step copies moment event next) :
    next.process.shows = moment.process.shows := by
  cases step with
  | write octets => simp [offer_snd]
  | ask => simp [isClosed_eq]
  | endInput | close | read | exit | notice => rfl

/-- Only a pager that runs and shows what it reads shows more. -/
theorem Step.shown (step : Step copies moment event next) :
    next.process.shown = moment.process.shown ∨
      next.process.shows = true ∧ next.process.exited = false := by
  cases step with
  | write octets => exact .inl (by simp [offer_snd])
  | ask => exact .inl (by simp [isClosed_eq])
  | @read process closing count running =>
      cases shows : process.shows with
      | true => exact .inr ⟨shows, running⟩
      | false => exact .inl (by simp [PagerProcess.read, shows])
  | endInput | close | exit | notice => exact .inl rfl

/-! ## What a run has come to -/

variable {limits : List Nat} {events : List PagerEvent}

/-- A flag that some events raise and none lowers tells of these events. -/
theorem Runs.flag_iff {flag : PagerProcess -> Bool} {raises : PagerEvent -> Prop}
    (lowered : ∀ shows, flag (fresh shows limits) = false)
    (marks : ∀ {moment event next}, Step copies moment event next ->
      (flag next.process = true ↔ flag moment.process = true ∨ raises event))
    (run : Runs copies limits events moment) :
    flag moment.process = true ↔ ∃ event ∈ events, raises event := by
  induction run with
  | start => simp [lowered]
  | step prior transition inductionHypothesis =>
      rw [marks transition, inductionHypothesis]
      simp [or_and_right, exists_or]

theorem Runs.learnt_iff (run : Runs copies limits events moment) :
    moment.process.learnt = true ↔ .answered true ∈ events ∨ .closed ∈ events := by
  simpa [and_or_left, exists_or] using run.flag_iff (fun _ => rfl) fun step => step.marks.learnt

theorem Runs.inputClosed_iff (run : Runs copies limits events moment) :
    moment.process.inputClosed = true ↔ .endedInput ∈ events := by
  simpa using run.flag_iff (fun _ => rfl) fun step => step.marks.inputClosed

/-- What has been noticed has happened. -/
theorem Runs.exited_of_noticed (run : Runs copies limits events moment)
    (noticed : moment.process.noticed = true) : moment.process.exited = true := by
  induction run with
  | start => cases noticed
  | step prior transition inductionHypothesis =>
      refine transition.marks.exited.mpr (.inl ?_)
      rcases transition.marks.noticed.mp noticed with before | rfl
      · exact inductionHypothesis before
      · exact transition.exited_of_noticed

/-- What the writer has learnt has been noticed. -/
theorem Runs.noticed_of_learnt (run : Runs copies limits events moment)
    (learnt : moment.process.learnt = true) : moment.process.noticed = true := by
  induction run with
  | start => cases learnt
  | step prior transition inductionHypothesis =>
      refine transition.marks.noticed.mpr (.inl ?_)
      rcases transition.marks.learnt.mp learnt with before | tells
      · exact inductionHypothesis before
      · exact (transition.known tells).elim inductionHypothesis id

/-- What the writer knows has happened. -/
theorem Runs.exited_of_known (run : Runs copies limits events moment)
    (known : moment.process.learnt = true ∨ moment.process.noticed = true) :
    moment.process.exited = true :=
  run.exited_of_noticed (known.elim run.noticed_of_learnt id)

/-- A writer that is closing has ended the input. -/
theorem Runs.endedInput_of_closing (run : Runs copies limits events moment)
    (closing : moment.closing = true) : .endedInput ∈ events := by
  induction run with
  | start => cases closing
  | step prior transition inductionHypothesis =>
      rcases transition.closing closing with before | rfl
      · exact List.mem_append_left _ (inductionHypothesis before)
      · exact List.mem_append_right _ (List.mem_singleton.mpr rfl)

/-- Behind the exit the pipe is empty. -/
theorem Runs.unread_of_exited (run : Runs copies limits events moment)
    (exited : moment.process.exited = true) : moment.process.unread = [] := by
  induction run with
  | start => rfl
  | step prior transition inductionHypothesis => exact transition.drained inductionHypothesis exited

theorem Runs.unlimited (run : Runs copies [] events moment) : moment.process.limits = [] := by
  induction run with
  | start => rfl
  | step prior transition inductionHypothesis => exact transition.unlimited inductionHypothesis

theorem given_append_singleton (events : List PagerEvent) (event : PagerEvent) :
    given (events ++ [event]) = given events ++ event.taken?.getD [] := by
  cases taken : event.taken? <;> simp [given, taken]

/-- A pager that shows its input has shown what it was given, but for what is in the pipe,
unless it has exited too early. -/
theorem Runs.held (run : Runs copies limits events moment) (shows : moment.process.shows = true)
    (lossless : copies = true ∨ moment.process.exited = false) :
    moment.process.shown ++ moment.process.unread = given events := by
  induction run with
  | start => rfl
  | @step _ here _ _ prior transition inductionHypothesis =>
      have shown : here.process.shows = true := transition.shows.symm.trans shows
      have before := lossless.imp_right transition.running
      rw [transition.held shown lossless, inductionHypothesis shown before,
        given_append_singleton]

/-- Every event of a run is a step from what was before it. -/
theorem Runs.split (run : Runs copies limits events moment) {before after : List PagerEvent}
    {event : PagerEvent} (parts : events = before ++ event :: after) :
    ∃ here next, Runs copies limits before here ∧ Step copies here event next := by
  induction run generalizing after with
  | start => simp at parts
  | step prior transition inductionHypothesis =>
      rcases List.eq_nil_or_concat after with rfl | ⟨others, last, rfl⟩
      · obtain ⟨rfl, same⟩ := List.append_inj' parts rfl
        cases same
        exact ⟨_, _, prior, transition⟩
      · rw [List.concat_eq_append, ← List.cons_append, ← List.append_assoc] at parts
        exact inductionHypothesis (List.append_inj' parts rfl).1

/-! ## What can be relied on -/

/-- A writer is told what it knows. -/
theorem Step.answer {closed : Bool} (step : Step copies moment (.answered closed) next) :
    closed = (moment.process.learnt || moment.process.noticed) := by
  cases step with
  | ask => simp [isClosed_eq]

/-- A write comes to what the pipe makes of it. -/
theorem Step.result {octets : Bytes} {result : WriteResult}
    (step : Step copies moment (.wrote octets result) next) :
    result = (moment.process.offer octets).1 ∧
      next = ⟨(moment.process.offer octets).2, moment.closing⟩ := by
  cases step with
  | write octets => exact ⟨rfl, rfl⟩

/-- A writer that was told of the exit, or has closed, is told of it for good. -/
theorem Runs.answer (run : Runs copies limits events moment) {before after : List PagerEvent}
    {event : PagerEvent} (parts : events = before ++ event :: after)
    (tells : event = .answered true ∨ event = .closed) {answer : Bool}
    (later : .answered answer ∈ after) : answer = true := by
  obtain ⟨between, rest, rfl⟩ := List.append_of_mem later
  have cut : events = (before ++ event :: between) ++ .answered answer :: rest := by
    rw [parts, List.append_assoc, List.cons_append]
  obtain ⟨here, next, earlier, step⟩ := run.split cut
  have learnt : here.process.learnt = true := by
    rw [earlier.learnt_iff]
    rcases tells with rfl | rfl <;> simp
  rw [step.answer, learnt, Bool.true_or]

/-- A process that is over for its writer. -/
structure IsOver (process : PagerProcess) : Prop where
  exited : process.exited = true
  noticed : process.noticed = true
  learnt : process.learnt = true
  inputClosed : process.inputClosed = true
  drained : process.unread = []

/-- When the writer has closed, the process is over. -/
theorem Runs.isOver (run : Runs copies limits events moment) (closed : .closed ∈ events) :
    moment.process.IsOver := by
  have learnt : moment.process.learnt = true := run.learnt_iff.mpr (.inr closed)
  have exited : moment.process.exited = true := run.exited_of_known (.inl learnt)
  obtain ⟨before, after, parts⟩ := List.append_of_mem closed
  obtain ⟨here, next, earlier, step⟩ := run.split parts
  have ended : .endedInput ∈ events := by
    rw [parts]
    exact List.mem_append_left _ (earlier.endedInput_of_closing step.closing_of_closed)
  exact ⟨exited, run.noticed_of_learnt learnt, learnt, run.inputClosed_iff.mpr ended,
    run.unread_of_exited exited⟩

/-- Closing a process that is over changes nothing. -/
theorem IsOver.close {process : PagerProcess} (isOver : process.IsOver) :
    process.close = process := by
  obtain ⟨shows, exited, noticed, learnt, inputClosed, limits, unread, shown⟩ := process
  obtain ⟨rfl, rfl, rfl, rfl, rfl⟩ := isOver
  simp [PagerProcess.close, PagerProcess.endInput, PagerProcess.exit, PagerProcess.notice, learn]

/-- Nothing changes a process that is over. -/
theorem IsOver.step (isOver : moment.process.IsOver) (step : Step copies moment event next) :
    next.process = moment.process := by
  obtain ⟨⟨shows, exited, noticed, learnt, inputClosed, limits, unread, shown⟩, closing⟩ := moment
  obtain ⟨rfl, rfl, rfl, rfl, rfl⟩ := isOver
  cases step with
  | write octets => simp [offer_snd]
  | ask => simp [isClosed_eq]
  | endInput | close => rfl
  | read _ running | exit running => cases running
  | notice gone => simp [PagerProcess.notice]

/-! ## The sink is one of the orders -/

section

variable {process : PagerProcess} (run : Runs copies limits events ⟨process, false⟩)
include run

end

end PagerProcess

end AuditTrail
