import AuditTrail.Text.Basic

/-!
# Similar names

A mistyped name is answered with the known names that resemble it. Two texts resemble
each other when twice the length of their matching blocks is at least three fifths of
their joint length; the blocks are a longest common run and, recursively, those to its
left and to its right.
-/

namespace AuditTrail.Text

/-- A common run: where it begins in either text, and its length. -/
structure CommonRun where
  left : Nat
  right : Nat
  length : Nat
deriving DecidableEq, Repr

/-- The length of the longest run that both texts begin with. -/
def commonOpening : Text -> Text -> Nat
  | a :: left, b :: right => if a = b then commonOpening left right + 1 else 0
  | _, _ => 0

/-- The longest run that the left text, which begins at the place `i`, opens with and that
lies anywhere in the right text, which begins at `j`; or the best run so far if none is longer. -/
def longestOpening (i j : Nat) (left : Text) (best : CommonRun) : (right : Text) -> CommonRun
  | [] => best
  | b :: right =>
    let length := commonOpening left (b :: right)
    longestOpening i (j + 1) left (if best.length < length then ⟨i, j, length⟩ else best) right

/-- The longest common run of the left text, which begins at the place `i`, and the right one;
or the best run so far if none is longer. -/
def longestRunFrom (i : Nat) (right : Text) (best : CommonRun) : (left : Text) -> CommonRun
  | [] => best
  | a :: left =>
    longestRunFrom (i + 1) right (longestOpening i 0 (a :: left) best right) left

/-- The longest common run, and among several the one that begins first in the left text
and then first in the right one. -/
def longestCommonRun (left right : Text) : CommonRun := longestRunFrom 0 right ⟨0, 0, 0⟩ left

/-- The joint length of the matching blocks; `fuel` bounds the depth of the recursion. -/
def matchingWithin : Nat -> Text -> Text -> Nat
  | 0, _, _ => 0
  | fuel + 1, left, right =>
    let run := longestCommonRun left right
    if run.length = 0 then 0
    else
      matchingWithin fuel (left.take run.left) (right.take run.right) + run.length
        + matchingWithin fuel (left.drop (run.left + run.length))
            (right.drop (run.right + run.length))

/-- The joint length of the matching blocks of two texts. -/
def matching (left right : Text) : Nat := matchingWithin left.length left right

/-- Whether a joint length of matching blocks makes two texts resemble each other. -/
def isEnough (left right : Text) (matched : Nat) : Bool :=
  3 * (left.length + right.length) ≤ 10 * matched

/-- Whether two texts resemble each other. The blocks fit into the shorter text, so that a text
which is much longer need not be looked through. -/
def resembles (left right : Text) : Bool :=
  isEnough left right (min left.length right.length) && isEnough left right (matching left right)

/-- Whether the first name resembles `word` more than the second; the later name in
code-point order goes first when they are equal. -/
def closerTo (word left right : Text) : Bool :=
  let ahead := matching left word * (right.length + word.length)
  let behind := matching right word * (left.length + word.length)
  behind < ahead || (ahead = behind && precedes right left)

/-- The three names that resemble `word` most, in code-point order. -/
def similar (word : Text) (names : List Text) : List Text :=
  (((names.filter (resembles · word)).mergeSort (closerTo word)).take 3).mergeSort precedes

end AuditTrail.Text
