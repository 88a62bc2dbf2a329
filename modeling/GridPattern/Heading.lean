/-!
# Headings and turns

A heading is the step that a cursor takes: east is `(1, 0)` and south is `(0, 1)`. A bend is a change
of heading as the cursor itself sees it: so far to the left, so far ahead. Bends of single steps take
the eight compass headings to one another; longer bends make longer strides.

A turn is what the letters of a direction ask for: one bend, a choice of bends, or a heading for
every other cell of the grid.
-/

namespace GridPattern

/-- The change of position in one step. -/
structure Heading where
  dx : Int
  dy : Int
deriving DecidableEq, Repr

/-- A change of heading, in the frame of the one who turns; right and back are negative. -/
structure Bend where
  left : Int
  ahead : Int
deriving DecidableEq, Repr

/-- What the letters of a direction ask for. -/
inductive Turn
  /-- Bend once. -/
  | relative (bend : Bend)
  /-- Go on in several ways, one for each bend. -/
  | branch (bends : List Bend)
  /-- Go on towards every other cell. -/
  | everywhere
deriving DecidableEq, Repr

namespace Heading

/-- To the right on the grid. -/
def east : Heading := ⟨1, 0⟩

/-- A heading that goes nowhere. -/
def isStalled (h : Heading) : Bool := h.dx == 0 && h.dy == 0

/-- One step in the same direction in each coordinate. -/
def unit (h : Heading) : Heading := ⟨h.dx.sign, h.dy.sign⟩

/-- The heading that a bend of `left` and `ahead` leads to, by the compass octant of the old heading.
Where the old heading is diagonal, or longer than one step, only its octant counts. -/
def bent (h : Heading) (left ahead : Int) : Heading :=
  match compare h.dx 0, compare h.dy 0 with
  | .eq, .lt => ⟨-left, -ahead⟩
  | .eq, _ => ⟨left, ahead⟩
  | .lt, .eq => ⟨-ahead, left⟩
  | .gt, .eq => ⟨ahead, -left⟩
  | .lt, .lt => ⟨-left - ahead, left - ahead⟩
  | .lt, .gt => ⟨left - ahead, left + ahead⟩
  | .gt, .lt => ⟨ahead - left, -left - ahead⟩
  | .gt, .gt => ⟨left + ahead, ahead - left⟩

/-- The heading after a bend. The bend of nothing keeps any heading as it is; a bend of single steps
leads to a heading of single steps. -/
def turn (h : Heading) (b : Bend) : Heading :=
  if b.left = 0 ∧ b.ahead = 0 then h
  else
    let bent := h.bent b.left b.ahead
    if b.left.natAbs ≤ 1 ∧ b.ahead.natAbs ≤ 1 then bent.unit else bent

end Heading

namespace Bend

/-- No change of heading. -/
def zero : Bend := ⟨0, 0⟩

/-- One bend upon another. -/
def add (a b : Bend) : Bend := ⟨a.left + b.left, a.ahead + b.ahead⟩

/-- The bend of one letter: left, right, forward or back. -/
def ofLetter? : Char → Option Bend
  | 'L' => some ⟨1, 0⟩
  | 'R' => some ⟨-1, 0⟩
  | 'F' => some ⟨0, 1⟩
  | 'B' => some ⟨0, -1⟩
  | _ => none

/-- To all eight neighbours. -/
def allEight : List Bend :=
  [⟨-1, -1⟩, ⟨-1, 0⟩, ⟨-1, 1⟩, ⟨0, -1⟩, ⟨0, 1⟩, ⟨1, -1⟩, ⟨1, 0⟩, ⟨1, 1⟩]

/-- To the four neighbours along the axes. -/
def orthogonal : List Bend := [⟨1, 0⟩, ⟨-1, 0⟩, ⟨0, 1⟩, ⟨0, -1⟩]

/-- To the four neighbours along the diagonals. -/
def diagonal : List Bend := [⟨-1, -1⟩, ⟨-1, 1⟩, ⟨1, -1⟩, ⟨1, 1⟩]

/-- To either side. -/
def sideways : List Bend := [⟨1, 0⟩, ⟨-1, 0⟩]

/-- Ahead or to either side. -/
def onward : List Bend := [⟨0, 1⟩, ⟨1, 0⟩, ⟨-1, 0⟩]

end Bend

namespace Turn

/-- The turn that letters ask for. Each of six letters is a turn only by itself; all others add up
to one bend, and no letters at all are the bend of nothing. -/
def ofLetters? (letters : List Char) : Option Turn :=
  match letters with
  | ['!'] => some everywhere
  | ['*'] => some (branch Bend.allEight)
  | ['+'] => some (branch Bend.orthogonal)
  | ['X'] => some (branch Bend.diagonal)
  | ['T'] => some (branch Bend.sideways)
  | ['P'] => some (branch Bend.onward)
  | letters => (letters.mapM Bend.ofLetter?).map fun bends => relative (bends.foldl .add .zero)

end Turn

end GridPattern
