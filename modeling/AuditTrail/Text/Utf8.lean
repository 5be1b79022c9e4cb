import AuditTrail.Text.Basic

/-!
# UTF-8

Writing refuses surrogates and names the first run of them. Reading walks the octets
one by one and keeps the sequence that is under way; the second octet's range, chosen by
the first, rules out long forms, surrogates and numbers beyond the last code point. A
reader may stop at the first fault or put U+FFFD in its place. A file that is pulled is read
in chunks of 8192 octets; a sequence that the end of a chunk cuts off goes on in the next.
-/

namespace AuditTrail.Utf8

/-- The octets of a code point; surrogates get the three octets of their number. -/
def encodeCodePoint (c : CodePoint) : Bytes :=
  let n := c.val
  if n < 0x80 then [UInt8.ofNat n]
  else if n < 0x800 then [UInt8.ofNat (0xC0 + n / 0x40), UInt8.ofNat (0x80 + n % 0x40)]
  else if n < 0x10000 then
    [UInt8.ofNat (0xE0 + n / 0x1000), UInt8.ofNat (0x80 + n / 0x40 % 0x40),
      UInt8.ofNat (0x80 + n % 0x40)]
  else
    [UInt8.ofNat (0xF0 + n / 0x40000), UInt8.ofNat (0x80 + n / 0x1000 % 0x40),
      UInt8.ofNat (0x80 + n / 0x40 % 0x40), UInt8.ofNat (0x80 + n % 0x40)]

/-- The first run of surrogates in a text that was to be written. -/
structure Unwritable where
  position : Nat
  length : Nat
  first : CodePoint
deriving DecidableEq, Repr

/-- What is said of a text that cannot be written. -/
def Unwritable.message (fault : Unwritable) : Text :=
  if fault.length = 1 then
    "'utf-8' codec can't encode character '\\u" ++ Text.hexadecimal 4 fault.first.val
      ++ "' in position " ++ Text.ofNat fault.position ++ ": surrogates not allowed"
  else
    "'utf-8' codec can't encode characters in position " ++ Text.ofNat fault.position
      ++ "-" ++ Text.ofNat (fault.position + fault.length - 1) ++ ": surrogates not allowed"

/-- The first run of surrogates. -/
def firstUnwritable? (t : Text) : Option Unwritable :=
  let before := t.takeWhile fun c => !c.isSurrogate
  match t.drop before.length with
  | [] => none
  | first :: rest =>
    some ⟨before.length, ((first :: rest).takeWhile CodePoint.isSurrogate).length, first⟩

/-- The octets of a text without surrogates. -/
def encode? (t : Text) : Except Unwritable Bytes :=
  match firstUnwritable? t with
  | some fault => .error fault
  | none => .ok (t.flatMap encodeCodePoint)

/-- The octets of a text in which every surrogate is spelt out as an escape. -/
def encodeEscaping (t : Text) : Bytes :=
  t.flatMap fun c =>
    if c.isSurrogate then
      (("\\u" : Text) ++ Text.hexadecimal 4 c.val).flatMap encodeCodePoint
    else encodeCodePoint c

/-- Why octets are no text. -/
inductive Reason where
  | invalidStart
  | invalidContinuation
  | unexpectedEnd
deriving DecidableEq, Repr

/-- The words for a reason. -/
def Reason.words : Reason -> Text
  | .invalidStart => "invalid start byte"
  | .invalidContinuation => "invalid continuation byte"
  | .unexpectedEnd => "unexpected end of data"

/-- A sequence that is under way: its octets so far, the number that they spell, how many
octets are missing and the range of the next one. -/
structure Sequence where
  taken : Bytes
  bits : Nat
  missing : Nat
  low : Nat
  high : Nat
deriving DecidableEq, Repr

/-- What an octet starts. -/
inductive Start where
  | whole (c : CodePoint)
  | sequence (s : Sequence)
  | invalid
deriving DecidableEq, Repr

/-- What an octet starts at the beginning of a sequence. -/
def start (b : Byte) : Start :=
  let n := b.toNat
  if n < 0x80 then .whole (CodePoint.ofNat n)
  else if n < 0xC2 then .invalid
  else if n < 0xE0 then .sequence ⟨[b], n - 0xC0, 1, 0x80, 0xBF⟩
  else if n < 0xF0 then
    .sequence ⟨[b], n - 0xE0, 2, if n = 0xE0 then 0xA0 else 0x80, if n = 0xED then 0x9F else 0xBF⟩
  else if n < 0xF5 then
    .sequence ⟨[b], n - 0xF0, 3, if n = 0xF0 then 0x90 else 0x80, if n = 0xF4 then 0x8F else 0xBF⟩
  else .invalid

/-- Whether an octet continues the sequence. -/
def Sequence.admits (s : Sequence) (b : Byte) : Bool := s.low ≤ b.toNat && b.toNat ≤ s.high

/-- The number after one more octet. -/
def Sequence.bitsWith (s : Sequence) (b : Byte) : Nat := s.bits * 0x40 + (b.toNat - 0x80)

/-- The sequence after one more octet, when more are to follow. -/
def Sequence.extend (s : Sequence) (b : Byte) : Sequence :=
  ⟨s.taken ++ [b], s.bitsWith b, s.missing - 1, 0x80, 0xBF⟩

/-- The items that octets are read as: code points and the faults between them. -/
inductive Item where
  | codePoint (c : CodePoint)
  | fault (reason : Reason) (octets : Bytes)
deriving DecidableEq, Repr

/-- Reads octets as items, `pending` being the sequence under way. An octet that does not
continue the sequence ends it with a fault and is read afresh. -/
def items (pending : Option Sequence) : Bytes -> List Item
  | [] =>
    match pending with
    | none => []
    | some s => [.fault .unexpectedEnd s.taken]
  | b :: rest =>
    match pending with
    | some s =>
      if s.admits b then
        if s.missing ≤ 1 then .codePoint (CodePoint.ofNat (s.bitsWith b)) :: items none rest
        else items (some (s.extend b)) rest
      else
        .fault .invalidContinuation s.taken ::
          match start b with
          | .whole c => .codePoint c :: items none rest
          | .sequence next => items (some next) rest
          | .invalid => .fault .invalidStart [b] :: items none rest
    | none =>
      match start b with
      | .whole c => .codePoint c :: items none rest
      | .sequence next => items (some next) rest
      | .invalid => .fault .invalidStart [b] :: items none rest

/-- The text of octets, U+FFFD in the place of every fault. -/
def decodeLossy (octets : Bytes) : Text :=
  (items none octets).map fun
    | .codePoint c => c
    | .fault _ _ => CodePoint.ofNat 0xFFFD

/-- A fault and the number of octets before it. -/
structure Unreadable where
  reason : Reason
  position : Nat
  octets : Bytes
deriving DecidableEq, Repr

/-- What is said of octets that are no text. -/
def Unreadable.message (fault : Unreadable) : Text :=
  match fault.octets with
  | [octet] =>
    "'utf-8' codec can't decode byte 0x" ++ Text.hexadecimal 2 octet.toNat ++ " in position "
      ++ Text.ofNat fault.position ++ ": " ++ fault.reason.words
  | octets =>
    "'utf-8' codec can't decode bytes in position " ++ Text.ofNat fault.position ++ "-"
      ++ Text.ofNat (fault.position + octets.length - 1) ++ ": " ++ fault.reason.words

/-- The code points before the first fault, and the fault; `position` octets stand in front. -/
def untilFault (position : Nat) : List Item -> Text × Option Unreadable
  | [] => ([], none)
  | .codePoint c :: rest =>
    match untilFault (position + (encodeCodePoint c).length) rest with
    | (t, fault) => (c :: t, fault)
  | .fault reason octets :: _ => ([], some ⟨reason, position, octets⟩)

/-- The text of octets, or the first fault. -/
def decode? (octets : Bytes) : Except Unreadable Text :=
  match untilFault 0 (items none octets) with
  | (t, none) => .ok t
  | (_, some fault) => .error fault

/-- Whether the octets from `position` on are the beginning of the three octets of a
surrogate: the third might still have come, so the fault is not known yet. -/
def isCutSurrogate (octets : Bytes) (position : Nat) : Bool :=
  match octets.drop position with
  | [first, second] => first = 0xED && 0xA0 ≤ second.toNat && second.toNat ≤ 0xBF
  | _ => false

/-- The text of octets behind which others may stand, and those at their end that begin a
sequence; or the first fault. -/
def decodePart? (octets : Bytes) : Except Unreadable (Text × Bytes) :=
  match untilFault 0 (items none octets) with
  | (t, none) => .ok (t, [])
  | (t, some fault) =>
    if fault.reason = .unexpectedEnd ∨ isCutSurrogate octets fault.position then
      .ok (t, octets.drop fault.position)
    else .error fault

/-- How a file reads: the text in front of its first fault, and that fault. -/
structure Reading where
  text : Text
  fault? : Option Unreadable
deriving DecidableEq, Repr

/-- Reads the chunks of a file, `pending` being what the chunk before has left over. A fault
counts from there, and nothing is read of the chunk that it is in. -/
def readChunks (pending : Bytes) : List Bytes -> Reading
  | [] =>
    match decode? pending with
    | .ok t => ⟨t, none⟩
    | .error fault => ⟨[], some fault⟩
  | chunk :: rest =>
    match decodePart? (pending ++ chunk) with
    | .ok (t, left) =>
      let reading := readChunks left rest
      { reading with text := t ++ reading.text }
    | .error fault => ⟨[], some fault⟩

/-- How many octets of a file are read at once. -/
def chunkSize : Nat := 8192

/-- The chunks of a file, all full but the last. -/
def chunks (octets : Bytes) : List Bytes :=
  if octets = [] then [] else octets.take chunkSize :: chunks (octets.drop chunkSize)
termination_by octets.length
decreasing_by
  have some := List.length_pos_iff.mpr ‹_›
  simp only [List.length_drop, chunkSize]
  omega

/-- Reads a file whose faults come to light as it is pulled. -/
def read (octets : Bytes) : Reading := readChunks [] (chunks octets)

end AuditTrail.Utf8
