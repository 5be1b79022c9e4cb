import AuditTrail.Files.Store
import AuditTrail.Pager.Sink

/-!
# The pager process

A pager runs beside its writer and may exit at any time. Between them lies a pipe, from which
the pager reads when it likes. The pipe may take fewer octets than a write offers; the write
tells how many, and those behind them are not offered again. The exit of the pager comes first, a
watcher notices it later, and the writer learns of it when it asks or closes; what the writer has
learnt it does not forget. A write that finds the pager gone waits until the exit is noticed, and
closing the sink ends the pager's input, upon which the pager exits.
-/

namespace AuditTrail

/-- A pager process, the pipe to it, and what is known of its exit. -/
structure PagerProcess where
  /-- Whether the pager shows what it reads. -/
  shows : Bool
  /-- Whether it has exited. -/
  exited : Bool
  /-- Whether the watcher has noticed the exit. -/
  noticed : Bool
  /-- Whether the writer has learnt of the exit. -/
  learnt : Bool
  /-- Whether the writer has ended the input. -/
  inputClosed : Bool
  /-- How many octets the pipe takes at most of each write that is coming; of those behind the
  last of them it takes all. -/
  limits : List Nat
  /-- What was written and has not been read. -/
  unread : Bytes
  /-- What was shown. -/
  shown : Bytes
deriving DecidableEq, Repr

namespace PagerProcess

/-- A pager to which nothing has happened yet. -/
def fresh (shows : Bool) (limits : List Nat) : PagerProcess :=
  ⟨shows, false, false, false, false, limits, [], []⟩

/-- The pager reads octets from the pipe. -/
def read (count : Nat) (process : PagerProcess) : PagerProcess :=
  { process with
    unread := process.unread.drop count
    shown :=
      if process.shows then process.shown ++ process.unread.take count else process.shown }

/-- The pager exits when its input has ended; one that shows what it reads has read everything
by then. -/
def exit (process : PagerProcess) : PagerProcess :=
  { process with
    exited := true
    unread := []
    shown := if process.shows then process.shown ++ process.unread else process.shown }

/-- The pager exits by itself, and what it has not read is lost. -/
def quit (process : PagerProcess) : PagerProcess := { process with exited := true, unread := [] }

/-- The watcher notices the exit, if there was one. -/
def notice (process : PagerProcess) : PagerProcess :=
  { process with noticed := process.noticed || process.exited }

/-- A pager that has just been started; one that does not read has exited at once. -/
def start : Program -> PagerProcess
  | .copies => fresh true []
  | _ => (fresh false []).exit

/-- How many of some octets the pipe takes next. -/
def room (octets : Bytes) (process : PagerProcess) : Nat :=
  match process.limits with
  | [] => octets.length
  | limit :: _ => min limit octets.length

/-- Offers octets to the pipe. Without octets there is nothing to fail. -/
def offer (octets : Bytes) (process : PagerProcess) : WriteResult × PagerProcess :=
  if process.inputClosed then (.afterClose, process)
  else if process.exited && !octets.isEmpty then (.failed .pagerGone, process)
  else
    let count := process.room octets
    (.written count,
      { process with
        limits := process.limits.tail
        unread := process.unread ++ octets.take count })

/-- Writes into the pipe; when the pager is gone, the watcher is given time to notice it. -/
def write (octets : Bytes) (process : PagerProcess) : WriteResult × PagerProcess :=
  match process.offer octets with
  | (.failed fault, process) => (.failed fault, process.notice)
  | (result, process) => (result, process)

/-- The writer learns that the pager has exited. -/
def learn (process : PagerProcess) : PagerProcess := { process with learnt := true }

/-- Whether the writer knows that the pager has exited; it looks at what has been noticed. -/
def isClosed (process : PagerProcess) : Bool × PagerProcess :=
  if process.learnt then (true, process)
  else if process.noticed then (true, process.learn)
  else (false, process)

/-- The writer ends the input. -/
def endInput (process : PagerProcess) : PagerProcess := { process with inputClosed := true }

/-- Ends the input, upon which the pager exits, and waits until this has been noticed. A writer
that leaves its block closes in the same way. -/
def close (process : PagerProcess) : PagerProcess := process.endInput.exit.notice.learn

/-- What the pager has put out. -/
def output (process : PagerProcess) : Bytes := process.shown

/-- A pipe without limits takes everything. -/
theorem room_of_unlimited {process : PagerProcess} (unlimited : process.limits = [])
    (octets : Bytes) : process.room octets = octets.length := by
  simp [room, unlimited]

/-- What a pipe makes of octets for a pager that runs. -/
theorem offer_of_running {process : PagerProcess} (running : process.exited = false)
    (inputOpen : process.inputClosed = false) (octets : Bytes) :
    process.offer octets =
      (.written (process.room octets),
        { process with
          limits := process.limits.tail
          unread := process.unread ++ octets.take (process.room octets) }) := by
  simp [offer, running, inputOpen]

/-- Of a process only the pipe changes when octets are offered, and only if it can take them. -/
theorem offer_snd (octets : Bytes) (process : PagerProcess) :
    (process.offer octets).2 =
      { process with
        limits :=
          if process.inputClosed || process.exited && !octets.isEmpty then process.limits
          else process.limits.tail
        unread :=
          process.unread ++
            if process.inputClosed || process.exited then []
            else octets.take (process.room octets) } := by
  obtain ⟨shows, exited, noticed, learnt, inputClosed, limits, unread, shown⟩ := process
  cases octets <;> cases inputClosed <;> cases exited <;> simp [offer]

/-- The writer knows what it has learnt or what has been noticed, and learns it by asking. -/
theorem isClosed_eq (process : PagerProcess) :
    process.isClosed =
      (process.learnt || process.noticed,
        { process with learnt := process.learnt || process.noticed }) := by
  obtain ⟨shows, exited, noticed, learnt, inputClosed, limits, unread, shown⟩ := process
  cases learnt <;> cases noticed <;> simp [isClosed, learn]

/-- A pager as a sink. -/
def sink : Sink PagerProcess where
  write := write
  isClosed := isClosed
  close := close

end PagerProcess

end AuditTrail
