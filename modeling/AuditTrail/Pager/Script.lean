import AuditTrail.Pager.Sink

/-!
# Scripted sinks

A sink whose behaviour is laid down beforehand: its reader leaves after a number of writes,
and one of its writes may fail. It remembers what was done to it.
-/

namespace AuditTrail

/-- What a scripted sink is going to do. -/
structure Script where
  /-- The writes after which the reader leaves. -/
  leavesAfter : Option Nat
  /-- The write that fails, counted from one. -/
  failsAt : Option Nat
  /-- Whether the reader has left when that write fails. -/
  dies : Bool
  /-- What is said of that write. -/
  reason : Text
deriving DecidableEq, Repr

/-- What was done to a scripted sink. -/
structure Rehearsal where
  attempts : Nat
  writes : List Bytes
  dead : Bool
  closes : Nat
deriving DecidableEq, Repr

/-- Nothing was done yet. -/
def Rehearsal.fresh : Rehearsal := ⟨0, [], false, 0⟩

namespace Script

/-- Takes what is written unless it is the write that fails. -/
def write (script : Script) (octets : Bytes) (done : Rehearsal) : WriteResult × Rehearsal :=
  let attempts := done.attempts + 1
  if script.failsAt = some attempts then
    (.failed (.refused script.reason), { done with attempts, dead := done.dead || script.dies })
  else (.written octets.length, { done with attempts, writes := done.writes ++ [octets] })

/-- Whether the reader has left. -/
def isClosed (script : Script) (done : Rehearsal) : Bool :=
  done.dead || script.leavesAfter.any (· ≤ done.writes.length)

/-- A script as a sink. -/
def sink (script : Script) : Sink Rehearsal where
  write := script.write
  isClosed done := (script.isClosed done, done)
  close done := { done with closes := done.closes + 1 }

end Script

end AuditTrail
