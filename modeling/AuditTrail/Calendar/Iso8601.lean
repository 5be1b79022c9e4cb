import AuditTrail.Calendar.Timestamp

/-!
# Reading timestamps

The shapes of ISO 8601 that are understood: a date as `YYYY-MM-DD`, `YYYYMMDD`, or by week
as `YYYY-Www`, `YYYYWww` with or without a day; behind it, any one code point and a time as
`HH`, `HH:MM`, `HH:MM:SS`, each also without colons, with a fraction of a second behind the
seconds; then `Z` or a signed offset of the same shapes. Dashes and colons are used
throughout or not at all. A time without an offset is universal time.
-/

namespace AuditTrail.Calendar.Iso8601

/-- Whether a text begins with a code point. -/
def startsWith (c : Char) (t : Text) : Bool := t.head? = some (CodePoint.ofChar c)

/-- The number in exactly the first `width` digits of a text, and the rest. -/
def leading? (width : Nat) (t : Text) : Option (Nat × Text) :=
  if t.length < width then none
  else (Text.digits? (t.take width)).map fun n => (n, t.drop width)

/-- The text behind a mark that has to be there exactly if `wanted`. -/
def mark? (c : Char) (wanted : Bool) (t : Text) : Option Text :=
  if startsWith c t = wanted then some (if wanted then t.tail else t) else none

/-- Where the date ends, as its beginning tells. A week with dashes and a digit two places
behind its number ends there, so that the dash behind it separates a time. -/
def dateLength? (t : Text) : Option Nat :=
  let isAt (c : Char) (place : Nat) : Bool := t[place]? = some (CodePoint.ofChar c)
  if t.length < 7 then none
  else if t.length = 7 then some 7
  else if isAt '-' 4 then
    if isAt 'W' 5 then
      if isAt '-' 8 then
        if t.length = 9 then none
        else if (t[10]?.map CodePoint.isDigit).getD false then some 8
        else some 10
      else some 8
    else some 10
  else if isAt 'W' 4 then
    let digitsEnd := 7 + ((t.drop 7).takeWhile CodePoint.isDigit).length
    if digitsEnd < 9 then some digitsEnd
    else if digitsEnd % 2 = 0 then some 7
    else some 8
  else some 8

/-- The day number of a date, of which `t` is all. -/
def dayNumber? (t : Text) : Option Nat := do
  let (year, rest) ← leading? 4 t
  let dashed := startsWith '-' rest
  let rest ← mark? '-' dashed rest
  if startsWith 'W' rest then
    let (week, rest) ← leading? 2 rest.tail
    if rest.isEmpty then weekDayNumber? year week 1
    else
      let rest ← mark? '-' dashed rest
      let (day, rest) ← leading? 1 rest
      if rest.isEmpty then weekDayNumber? year week day else none
  else
    let (month, rest) ← leading? 2 rest
    let rest ← mark? '-' dashed rest
    let (day, rest) ← leading? 2 rest
    let date : Date := ⟨year, month, day⟩
    if rest.isEmpty ∧ date.isValid then some date.dayNumber else none

/-- A time of day or an offset, each part as it is written. -/
structure Clock where
  hours : Nat
  minutes : Nat
  seconds : Nat
  micros : Nat
deriving DecidableEq, Repr

/-- The microseconds of the parts. -/
def Clock.total (clock : Clock) : Nat :=
  clock.hours * hour + clock.minutes * minute + clock.seconds * second + clock.micros

/-- Whether the parts are those of a time of day. -/
def Clock.isTimeOfDay (clock : Clock) : Bool :=
  clock.hours < 24 && clock.minutes < 60 && clock.seconds < 60

/-- The microseconds of a fraction of a second; digits behind the sixth are read and
dropped. -/
def micros? (t : Text) : Option Nat :=
  if t.all CodePoint.isDigit then
    (Text.digits? (t.take 6)).map fun n => n * Nat.pow 10 (6 - (t.take 6).length)
  else none

/-- A time, of which `t` is all. -/
def clock? (t : Text) : Option Clock := do
  let (hours, rest) ← leading? 2 t
  if rest.isEmpty then some ⟨hours, 0, 0, 0⟩
  else
    let colons := startsWith ':' rest
    let rest ← mark? ':' colons rest
    let (minutes, rest) ← leading? 2 rest
    if rest.isEmpty then some ⟨hours, minutes, 0, 0⟩
    else
      let rest ← if colons then mark? ':' true rest else some rest
      let (seconds, rest) ← leading? 2 rest
      if rest.isEmpty then some ⟨hours, minutes, seconds, 0⟩
      else if startsWith '.' rest || startsWith ',' rest then
        (micros? rest.tail).map fun micros => ⟨hours, minutes, seconds, micros⟩
      else none

/-- Whether the offset of a time begins at a code point. -/
def beginsOffset (c : CodePoint) : Bool :=
  c = CodePoint.ofChar '+' || c = CodePoint.ofChar '-' || c = CodePoint.ofChar 'Z'

/-- An offset, of which `t` is all; nothing is universal time, and so is less than a second. -/
def offset? (t : Text) : Option Offset :=
  match t with
  | [] => some Offset.utc
  | sign :: rest =>
    if sign = CodePoint.ofChar 'Z' then if rest.isEmpty then some Offset.utc else none
    else
      (clock? rest).bind fun clock =>
        let total : Int := if clock.total < second then 0 else clock.total
        Offset.ofMicroseconds? (if sign = CodePoint.ofChar '-' then -total else total)

/-- The timestamp that a text spells. -/
def timestamp? (t : Text) : Option Timestamp := do
  let length ← dateLength? t
  let days ← dayNumber? (t.take length)
  if t.length ≤ length then Timestamp.ofWall? (days * day : Nat) Offset.utc
  else
    let time := t.drop (length + 1)
    let reading := time.takeWhile fun c => !beginsOffset c
    let clock ← clock? reading
    let offset ← offset? (time.drop reading.length)
    if clock.isTimeOfDay then Timestamp.ofWall? (days * day + clock.total : Nat) offset
    else none

end AuditTrail.Calendar.Iso8601
