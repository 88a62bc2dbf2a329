/-!
# Character ranges

A property of characters written down as ranges of code points in ascending order, and the test
that reads such a table. The order lets the test stop at the first range that begins past the
character.
-/

namespace GridPattern.Text

/-- Code points from `first` to `last`, both included. -/
structure CodeRange where
  first : Nat
  last : Nat
deriving DecidableEq, Repr

/-- Whether a code point lies in one of the ranges, which stand in ascending order. -/
def inRanges (point : Nat) : List CodeRange → Bool
  | [] => false
  | r :: more =>
    if point < r.first then false
    else if point ≤ r.last then true
    else inRanges point more

end GridPattern.Text
