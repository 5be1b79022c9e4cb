import AuditTrail.Text.Utf8

/-!
# Paths

A path names a file by the folders that lead to it. Its normal form drops empty components
and single dots and keeps double dots; the path without components is a single dot.
-/

namespace AuditTrail.Path

/-- The mark between components. -/
def slash : CodePoint := CodePoint.ofChar '/'

/-- The components of a path, empty ones included. -/
def components : Text -> List Text
  | [] => [[]]
  | c :: rest =>
    if c = slash then [] :: components rest
    else
      match components rest with
      | [] => [[c]]
      | first :: others => (c :: first) :: others

/-- What a path begins with: exactly two slashes are kept, more count as one. -/
def root (path : Text) : Text :=
  let slashes := path.takeWhile (· = slash)
  if slashes.length = 2 then slashes else slashes.take 1

/-- The normal form of a path. -/
def normal (path : Text) : Text :=
  let named := (components path).filter fun part => part ≠ [] && part ≠ ("." : Text)
  let shown := root path ++ Text.join [slash] named
  if shown.isEmpty then "." else shown

/-- A surrogate that stands for an octet which is not part of any text. -/
def isLooseOctet (c : CodePoint) : Bool := 0xDC80 ≤ c.val && c.val ≤ 0xDCFF

/-- The octets by which the system knows a path; `position` code points stand in front. -/
def octets? (position : Nat) : Text -> Except Utf8.Unwritable Bytes
  | [] => .ok []
  | c :: rest =>
    if isLooseOctet c then
      (octets? (position + 1) rest).map (UInt8.ofNat (c.val % 0x100) :: ·)
    else if c.isSurrogate then
      .error ⟨position, ((c :: rest).takeWhile CodePoint.isSurrogate).length, c⟩
    else (octets? (position + 1) rest).map (Utf8.encodeCodePoint c ++ ·)

/-- The number of octets of a path that the system can know. -/
def octetCount (path : Text) : Nat :=
  match octets? 0 path with
  | .ok octets => octets.length
  | .error _ => 0

end AuditTrail.Path
