import AuditTrail.Pager.Process
import AuditTrail.Proofs.Pager.Transcript

/-!
# Sinks that stay open

A sink may take every write and never be closed by its reader. Such a sink keeps all that it is
given, and how it shows this is left open here: a pager that copies its input shows the octets,
if its pipe takes whole writes, and any recorded sink shows the lines in its transcript.
-/

namespace AuditTrail

variable {State : Type}

/-- A sink that stays open and takes every write; `shows` tells from a state which lines it has
taken. -/
structure Sink.Keeps (sink : Sink State) (shows : List Bytes -> State -> Prop) : Prop where
  write : ∀ {lines state}, shows lines state -> ∀ octets, ∃ taken state',
    sink.write octets state = (.written taken, state') ∧ shows (lines ++ [octets]) state'
  isClosed : ∀ {lines state}, shows lines state -> ∃ state',
    sink.isClosed state = (false, state') ∧ shows lines state'

/-- A sink that takes every write and is never closed by its reader, from any state in which it
is open. -/
structure Sink.StaysOpen (sink : Sink State) (isOpen : State -> Prop) : Prop where
  write : ∀ {state}, isOpen state -> ∀ octets, ∃ taken state',
    sink.write octets state = (.written taken, state') ∧ isOpen state'
  isClosed : ∀ {state}, isOpen state -> ∃ state',
    sink.isClosed state = (false, state') ∧ isOpen state'

/-- A sink that stays open keeps in its transcript all that it is given. -/
theorem Sink.StaysOpen.keeps {sink : Sink State} {isOpen : State -> Prop}
    (stays : sink.StaysOpen isOpen) :
    sink.recorded.Keeps fun lines state => isOpen state.1 ∧ state.2.taken = lines where
  write := by
    rintro lines ⟨state, transcript⟩ ⟨opened, told⟩ octets
    obtain ⟨taken, state', written, opened'⟩ := stays.write opened octets
    refine ⟨taken, (state', transcript ++ [.write octets (.written taken)]), ?_, opened', ?_⟩
    · simp [recorded, written]
    · simpa using told
  isClosed := by
    rintro lines ⟨state, transcript⟩ ⟨opened, told⟩
    obtain ⟨state', answer, opened'⟩ := stays.isClosed opened
    exact ⟨(state', transcript ++ [.poll false]), by simp [recorded, answer], opened', by simpa⟩

namespace PagerProcess

/-- Whether a pager runs, can be written to without limits, and is not known to have exited. -/
structure IsOpen (process : PagerProcess) : Prop where
  running : process.exited = false
  unnoticed : process.noticed = false
  unlearnt : process.learnt = false
  inputOpen : process.inputClosed = false
  unlimited : process.limits = []

/-- A pager that reads is open when it has just been started. -/
theorem isOpen_start : (start .copies).IsOpen := ⟨rfl, rfl, rfl, rfl, rfl⟩

/-- An open pager takes what is written behind what it has not read. -/
theorem IsOpen.write {process : PagerProcess} (opened : process.IsOpen) (octets : Bytes) :
    process.write octets =
      (.written octets.length, { process with unread := process.unread ++ octets }) := by
  simp [PagerProcess.write, offer_of_running opened.running opened.inputOpen,
    room_of_unlimited opened.unlimited, opened.unlimited]

/-- Its exit is not known. -/
theorem IsOpen.isClosed {process : PagerProcess} (opened : process.IsOpen) :
    process.isClosed = (false, process) := by
  simp [PagerProcess.isClosed, opened.unlearnt, opened.unnoticed]

/-- What is written leaves a pager open. -/
theorem IsOpen.unread {process : PagerProcess} (opened : process.IsOpen) (unread : Bytes) :
    IsOpen { process with unread } :=
  ⟨opened.running, opened.unnoticed, opened.unlearnt, opened.inputOpen, opened.unlimited⟩

/-- A pager stays open unless it exits by itself. -/
theorem staysOpen : sink.StaysOpen IsOpen where
  write := by
    intro process opened octets
    exact ⟨_, _, opened.write octets, opened.unread _⟩
  isClosed := by
    intro process opened
    exact ⟨process, opened.isClosed, opened⟩

/-- A pager that copies its input has shown or will show all that it is given. -/
theorem keeps :
    sink.Keeps fun lines process =>
      process.IsOpen ∧ process.shows = true ∧ process.shown ++ process.unread = lines.flatten where
  write := by
    rintro lines process ⟨opened, shown, given⟩ octets
    refine ⟨_, _, opened.write octets, opened.unread _, shown, ?_⟩
    simp [← given]
  isClosed := by
    rintro lines process ⟨opened, shown, given⟩
    exact ⟨process, opened.isClosed, opened, shown, given⟩

end PagerProcess

end AuditTrail
