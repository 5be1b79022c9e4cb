import AuditTrail.Json.Value
import AuditTrail.Number.Numeral
import AuditTrail.Text.DecimalDigit
import AuditTrail.Text.Line

/-!
# Reading JSON

The reader descends from left to right and stops at the first defect, which it reports by
the number of code points that are left there. It takes what the standard allows and
besides `NaN`, the two infinities, and unpaired surrogates in escapes. Numerals of more
than 4300 digits and nesting beyond a fixed depth are refused by faults of their own.
-/

namespace AuditTrail.Json

/-- The two kinds of value that hold others. -/
inductive Container where
  | array
  | object
deriving DecidableEq, Repr

/-- What is wrong at a place of a text that is no JSON. -/
inductive Defect where
  | byteOrderMark
  | value
  | name
  | colon
  | comma
  | extraData
  | unterminated
  | controlCharacter
  | escape
  | codeEscape
deriving DecidableEq, Repr

/-- The words for a defect. -/
def Defect.words : Defect -> Text
  | .byteOrderMark => "Unexpected UTF-8 BOM (decode using utf-8-sig)"
  | .value => "Expecting value"
  | .name => "Expecting property name enclosed in double quotes"
  | .colon => "Expecting ':' delimiter"
  | .comma => "Expecting ',' delimiter"
  | .extraData => "Extra data"
  | .unterminated => "Unterminated string starting at"
  | .controlCharacter => "Invalid control character at"
  | .escape => "Invalid \\escape"
  | .codeEscape => "Invalid \\uXXXX escape"

/-- Why a text cannot be read. -/
inductive ReadFault where
  /-- A defect with `left` code points from it to the end. -/
  | malformed (defect : Defect) (left : Nat)
  /-- A numeral with too many digits. -/
  | oversized (digits : Nat)
  /-- A container inside too many others. -/
  | tooDeep (container : Container)
deriving DecidableEq, Repr

/-- How many containers may lie inside each other. -/
def deepestNesting : Nat := 990

/-- What is said of a text that cannot be read. -/
def ReadFault.message (source : Text) : ReadFault -> Text
  | .malformed defect left =>
    let place := source.length - left
    let (line, column) := source.lineAndColumn place
    defect.words ++ ": line " ++ Text.ofNat line ++ " column " ++ Text.ofNat column
      ++ " (char " ++ Text.ofNat place ++ ")"
  | .oversized digits =>
    "Exceeds the limit (" ++ Text.ofNat mostDigits
      ++ " digits) for integer string conversion: value has " ++ Text.ofNat digits
      ++ " digits; use sys.set_int_max_str_digits() to increase the limit"
  | .tooDeep container =>
    "maximum recursion depth exceeded while decoding a JSON "
      ++ (match container with
          | .array => ("array" : Text)
          | .object => "object")
      ++ " from a unicode string"

/-- A value and the text behind it. -/
abbrev Step (α : Type) := Except ReadFault (α × Text)

/-- A defect at the beginning of `rest`. -/
def defectAt {α : Type} (defect : Defect) (rest : Text) : Except ReadFault α :=
  .error (.malformed defect rest.length)

/-- The white space between tokens. -/
def isSpacing (c : CodePoint) : Bool :=
  c.val = 0x20 || c.val = 0x09 || c.val = 0x0A || c.val = 0x0D

/-- The text behind the white space that it begins with. -/
def skipSpacing (t : Text) : Text := t.dropWhile isSpacing

/-- The code point that a letter behind a backslash stands for. -/
def simpleEscape? (c : CodePoint) : Option CodePoint :=
  if c = CodePoint.ofChar '"' ∨ c = CodePoint.ofChar '\\' ∨ c = CodePoint.ofChar '/' then some c
  else if c = CodePoint.ofChar 'b' then some (CodePoint.ofNat 0x08)
  else if c = CodePoint.ofChar 'f' then some (CodePoint.ofNat 0x0C)
  else if c = CodePoint.ofChar 'n' then some (CodePoint.ofNat 0x0A)
  else if c = CodePoint.ofChar 'r' then some (CodePoint.ofNat 0x0D)
  else if c = CodePoint.ofChar 't' then some (CodePoint.ofNat 0x09)
  else none

/-- The number that four hexadecimal digits denote. -/
def fourHexDigits? (a b c d : CodePoint) : Option CodePoint :=
  match a.hexDigit?, b.hexDigit?, c.hexDigit?, d.hexDigit? with
  | some first, some second, some third, some fourth =>
    some (CodePoint.ofNat (((first * 16 + second) * 16 + third) * 16 + fourth))
  | _, _, _, _ => none

/-- What an escaped number adds when the escape before it was the first half of a pair:
the code points to write, and the half that still waits for its other one. -/
def joinHalves (waiting : Option CodePoint) (unit : CodePoint) : Text × Option CodePoint :=
  match waiting with
  | some high =>
    if unit.isLowSurrogate then ([CodePoint.ofPair high unit], none)
    else if unit.isHighSurrogate then ([high], some unit)
    else ([high, unit], none)
  | none => if unit.isHighSurrogate then ([], some unit) else ([unit], none)

/-- Reads a text up to its closing quote. `opening` begins at the opening one, and
`waiting` is an escaped first half of a surrogate pair right before. -/
def readText (opening : Text) (waiting : Option CodePoint) : Text -> Step Text
  | [] => defectAt .unterminated opening
  | c :: rest =>
    if c = CodePoint.ofChar '"' then .ok (waiting.toList, rest)
    else if c = CodePoint.ofChar '\\' then
      match rest with
      | [] => defectAt .unterminated opening
      | letter :: afterLetter =>
        if letter = CodePoint.ofChar 'u' then
          match afterLetter with
          | first :: second :: third :: fourth :: next :: after =>
            match fourHexDigits? first second third fourth with
            | some unit =>
              match joinHalves waiting unit with
              | (written, waiting) =>
                match readText opening waiting (next :: after) with
                | .ok (t, rest) => .ok (written ++ t, rest)
                | .error fault => .error fault
            | none => defectAt .codeEscape rest
          | _ => defectAt .codeEscape rest
        else
          match simpleEscape? letter with
          | some meant =>
            match readText opening none afterLetter with
            | .ok (t, rest) => .ok (waiting.toList ++ meant :: t, rest)
            | .error fault => .error fault
          | none => defectAt .escape (c :: rest)
    else if c.val < 0x20 then defectAt .controlCharacter (c :: rest)
    else
      match readText opening none rest with
      | .ok (t, rest) => .ok (waiting.toList ++ c :: t, rest)
      | .error fault => .error fault

/-- The digits before the point: a zero alone, or digits that begin with another one. -/
def wholeDigits? : Text -> Option (Text × Text)
  | [] => none
  | c :: rest =>
    if c = CodePoint.ofChar '0' then some ([c], rest)
    else if c.isDigit then some (Numeral.spanDigits (c :: rest))
    else none

/-- The value of a numeral with the given whole digits and rest of the text. -/
def numeralValue (negative : Bool) (whole rest : Text) : Step Json :=
  match Numeral.fraction? rest with
  | some (fraction, rest) =>
    match Numeral.exponent? rest with
    | some (exponent, rest) =>
      .ok (.real (Numeral.Parts.value ⟨whole, fraction, exponent⟩ negative), rest)
    | none => .ok (.real (Numeral.Parts.value ⟨whole, fraction, 0⟩ negative), rest)
  | none =>
    match Numeral.exponent? rest with
    | some (exponent, rest) =>
      .ok (.real (Numeral.Parts.value ⟨whole, [], exponent⟩ negative), rest)
    | none =>
      if mostDigits < whole.length then .error (.oversized whole.length)
      else
        let magnitude : Int := (Text.digits? whole).getD 0
        .ok (.int (if negative then -magnitude else magnitude), rest)

/-- Reads a numeral: a fraction or an exponent makes it a fractional number. -/
def readNumeral (t : Text) : Step Json :=
  let negative := t.head? = some (CodePoint.ofChar '-')
  match wholeDigits? (if negative then t.tail else t) with
  | none => defectAt .value t
  | some (whole, rest) => numeralValue negative whole rest

/-- The values that have names. -/
def namedValues : List (Text × Json) :=
  [("null", .null), ("true", .bool true), ("false", .bool false), ("NaN", .real .nan),
    ("Infinity", .real (.infinite false)), ("-Infinity", .real (.infinite true))]

/-- Reads a value that holds no others. -/
def readScalar (t : Text) : Step Json :=
  match namedValues.find? fun named => Text.beginsWith named.1 t with
  | some named => .ok (named.2, t.drop named.1.length)
  | none => readNumeral t

mutual

/-- Reads a value; `depth` more containers may open inside each other. -/
def readValue : (fuel depth : Nat) -> Text -> Step Json
  | 0, _, t => defectAt .value t
  | _, _, [] => defectAt .value []
  | fuel + 1, depth, c :: rest =>
    if c = CodePoint.ofChar '"' then
      match readText (c :: rest) none rest with
      | .ok (t, rest) => .ok (.text t, rest)
      | .error fault => .error fault
    else if c = CodePoint.ofChar '[' then
      match depth with
      | 0 => .error (.tooDeep .array)
      | depth + 1 =>
        let inside := skipSpacing rest
        if inside.head? = some (CodePoint.ofChar ']') then .ok (.array [], inside.tail)
        else
          match readItems fuel depth inside with
          | .ok (items, rest) => .ok (.array items, rest)
          | .error fault => .error fault
    else if c = CodePoint.ofChar '\x7b' then
      match depth with
      | 0 => .error (.tooDeep .object)
      | depth + 1 =>
        let inside := skipSpacing rest
        if inside.head? = some (CodePoint.ofChar '\x7d') then .ok (.object [], inside.tail)
        else
          match readMembers fuel depth inside with
          | .ok (members, rest) => .ok (.object (Register.ofPairs members), rest)
          | .error fault => .error fault
    else readScalar (c :: rest)

/-- Reads the items of an array from the first one to behind the closing bracket. -/
def readItems : (fuel depth : Nat) -> Text -> Step (List Json)
  | 0, _, t => defectAt .value t
  | fuel + 1, depth, t =>
    match readValue fuel depth t with
    | .error fault => .error fault
    | .ok (item, rest) =>
      match skipSpacing rest with
      | [] => defectAt .comma []
      | c :: rest =>
        if c = CodePoint.ofChar ']' then .ok ([item], rest)
        else if c = CodePoint.ofChar ',' then
          match readItems fuel depth (skipSpacing rest) with
          | .ok (items, rest) => .ok (item :: items, rest)
          | .error fault => .error fault
        else defectAt .comma (c :: rest)

/-- Reads the members of an object from the first name to behind the closing brace. -/
def readMembers : (fuel depth : Nat) -> Text -> Step (List (Text × Json))
  | 0, _, t => defectAt .name t
  | _, _, [] => defectAt .name []
  | fuel + 1, depth, c :: rest =>
    if c ≠ CodePoint.ofChar '"' then defectAt .name (c :: rest)
    else
      match readText (c :: rest) none rest with
      | .error fault => .error fault
      | .ok (name, rest) =>
        match skipSpacing rest with
        | [] => defectAt .colon []
        | c :: rest =>
          if c ≠ CodePoint.ofChar ':' then defectAt .colon (c :: rest)
          else
            match readValue fuel depth (skipSpacing rest) with
            | .error fault => .error fault
            | .ok (value, rest) =>
              match skipSpacing rest with
              | [] => defectAt .comma []
              | c :: rest =>
                if c = CodePoint.ofChar '\x7d' then .ok ([(name, value)], rest)
                else if c = CodePoint.ofChar ',' then
                  match readMembers fuel depth (skipSpacing rest) with
                  | .ok (members, rest) => .ok ((name, value) :: members, rest)
                  | .error fault => .error fault
                else defectAt .comma (c :: rest)

end

/-- The value that a text spells. Every call of the descent but one in two takes a code
point, so twice the length bounds its depth. -/
def read (t : Text) : Except ReadFault Json :=
  if t.head? = some (CodePoint.ofNat 0xFEFF) then defectAt .byteOrderMark t
  else
    match readValue (2 * t.length + 2) deepestNesting (skipSpacing t) with
    | .error fault => .error fault
    | .ok (value, rest) =>
      match skipSpacing rest with
      | [] => .ok value
      | extra => defectAt .extraData extra

end AuditTrail.Json
