import GridPattern.Text.Split

/-!
# Grids

Text laid out in rows and addressed by signed coordinates: `x` grows to the right and `y` downwards,
and `(0, 0)` is the first character. Rows may differ in length and may be empty, but there is always
a row. A coordinate off the grid is no error: it has no character.
-/

namespace GridPattern

/-- A position on the plane that the grid is part of. -/
structure Cell where
  x : Int
  y : Int
deriving DecidableEq, Repr, Inhabited

/-- Consecutive integers, from `first` to `last` inclusive. -/
structure Span where
  first : Int
  last : Int
deriving DecidableEq, Repr

/-- The integers of a span in ascending order. -/
def Span.toList (s : Span) : List Int :=
  (List.range (s.last + 1 - s.first).toNat).map fun n : Nat => s.first + n

/-- Rows of characters, at least one row. -/
structure Grid where
  rows : Array (Array Char)
  rows_pos : 0 < rows.size
deriving DecidableEq, Repr

namespace Grid

/-- A no-break space reads as a plain space; any other character reads as itself. -/
def shownAs (c : Char) : Char := if c = '\u00a0' then ' ' else c

/-- The grid of a text: its lines, split at every line feed, so one more than it has line feeds. -/
def ofText (text : String) : Grid where
  rows := ((Text.split '\n' (text.toList.map shownAs)).toList.map List.toArray).toArray
  rows_pos := by simp [Text.Pieces.toList]

/-- The number of rows. -/
def height (g : Grid) : Nat := g.rows.size

/-- Row `y`, if there is one. -/
def row? (g : Grid) (y : Int) : Option (Array Char) :=
  if y < 0 then none else g.rows[y.toNat]?

/-- The length of row `y`, if there is one. -/
def width? (g : Grid) (y : Int) : Option Nat := (g.row? y).map Array.size

/-- The character at a cell, unless the cell is off the grid. -/
def char? (g : Grid) (c : Cell) : Option Char :=
  (g.row? c.y).bind fun row => if c.x < 0 then none else row[c.x.toNat]?

/-- All cells that have a character, row by row. -/
def cells (g : Grid) : List Cell :=
  (List.range g.height).flatMap fun y : Nat =>
    (List.range ((g.width? y).getD 0)).map fun x : Nat => ⟨x, y⟩

/-- The rows that a search starts in: those of the grid, and one more above and below. -/
def startRows (g : Grid) : Span := ⟨-1, g.height⟩

/-- The columns that a search starts in on row `y`: those of the row, and one more at either end. A
row off the grid has the columns of the nearest row. -/
def startColumns (g : Grid) (y : Int) : Span :=
  let nearest := max 0 (min y (g.height - 1))
  ⟨-1, (g.width? nearest).getD 0⟩

/-- All cells that a search starts from, row by row. -/
def startCells (g : Grid) : List Cell :=
  g.startRows.toList.flatMap fun y => (g.startColumns y).toList.map fun x => ⟨x, y⟩

end Grid

end GridPattern
