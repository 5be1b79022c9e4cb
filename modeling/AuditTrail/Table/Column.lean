import AuditTrail.Text.Basic

/-!
# Columns

A column of a table has a name and may have a limit, a width that it only passes when every
other column has reached its own limit. A column without a limit grows freely, and a limit
of zero is none.
-/

namespace AuditTrail

/-- A column of a table. -/
structure Column where
  name : Text
  limit : Option Int
deriving DecidableEq, Repr

namespace Column

/-- The account that acted. -/
def author : Column := ⟨"AUTHOR", some 32⟩

/-- What it did. -/
def event : Column := ⟨"EVENT", some 22⟩

/-- What it did this to. -/
def subject : Column := ⟨"EVENT SUBJECT", none⟩

/-- The address from which it acted. -/
def address : Column := ⟨"IP ADDRESS", some 45⟩

/-- When it acted. -/
def date : Column := ⟨"DATE", some 22⟩

end Column

end AuditTrail
