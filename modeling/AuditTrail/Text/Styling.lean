import AuditTrail.Text.Basic

/-!
# Control sequences

A message that does not go to a terminal loses its control sequences. Such a sequence is an
escape and an opening bracket, then parameters, then intermediates, and one final code point
that ends it; the three kinds are ranges of ASCII that do not overlap. An escape that begins
no such sequence stays, and so does what follows it.
-/

namespace AuditTrail.Text

/-- What parameters are made of: digits and the marks from the colon to the question mark. -/
def isParameter (c : CodePoint) : Bool := 0x30 ≤ c.val && c.val ≤ 0x3F

/-- What may stand between the parameters and the final: the blank and the marks up to the
slash. -/
def isIntermediate (c : CodePoint) : Bool := 0x20 ≤ c.val && c.val ≤ 0x2F

/-- What ends a control sequence: the letters and the marks around them. -/
def isFinal (c : CodePoint) : Bool := 0x40 ≤ c.val && c.val ≤ 0x7E

/-- The number of code points of the control sequence that a text begins with. -/
def controlLength? : Text -> Option Nat
  | escape :: bracket :: rest =>
    if escape = CodePoint.ofChar '\x1b' ∧ bracket = CodePoint.ofChar '[' then
      let parameters := rest.takeWhile isParameter
      let behind := rest.drop parameters.length
      let intermediates := behind.takeWhile isIntermediate
      match behind.drop intermediates.length with
      | final :: _ =>
        if isFinal final then some (parameters.length + intermediates.length + 3) else none
      | [] => none
    else none
  | _ => none

/-- `t` without control sequences; `skip` more code points belong to one that has begun. -/
def unstyledFrom (skip : Nat) : Text -> Text
  | [] => []
  | c :: rest =>
    match skip with
    | more + 1 => unstyledFrom more rest
    | 0 =>
      match controlLength? (c :: rest) with
      | some length => unstyledFrom (length - 1) rest
      | none => c :: unstyledFrom 0 rest

/-- `t` without control sequences. -/
def unstyled (t : Text) : Text := unstyledFrom 0 t

end AuditTrail.Text
