import GridPattern.Search

/-!
# Drawings

A match drawn over its grid, one line for each row. A plain drawing sets every character between two
columns of its own, which hold brackets where the cell is marked and blanks elsewhere, so every cell is
three characters wide. A styled drawing uses terminal attributes instead: marked cells are black on
green, and the origin is bold and italic. How a terminal is told so is left to the caller.
-/

namespace GridPattern

/-- How a cell is drawn. -/
inductive CellStyle
  | plain
  | marked
  | origin
  | markedOrigin
deriving DecidableEq, Repr

/-- How a match has a cell drawn. -/
def Match.styleOf (m : Match) (cell : Cell) : CellStyle :=
  match m.isMarked cell, m.origin == cell with
  | false, false => .plain
  | true, false => .marked
  | false, true => .origin
  | true, true => .markedOrigin

namespace Drawing

/-- What a terminal can do to a character. -/
inductive Attribute
  | black
  | onGreen
  | bold
  | italic
deriving DecidableEq, Repr

/-- How a terminal is told to show a character with attributes. -/
structure Styling where
  text : List Attribute → Char → List Char
  /-- Without attributes a character is its own text. -/
  bare : ∀ c, text [] c = [c]

/-- A character in the style of its cell. -/
def styledCell (styling : Styling) (c : Char) : CellStyle → List Char
  | .plain => [c]
  | .marked => styling.text [.black, .onGreen] c
  | .origin => styling.text [.bold, .italic] c
  | .markedOrigin => styling.text [.black, .onGreen, .bold, .italic] c

/-- A character without attributes, in brackets if its cell is marked. -/
def plainCell (marked : Bool) (c : Char) : List Char :=
  if marked then ['[', c, ']'] else [' ', c, ' ']

/-- A grid with each character drawn by `cell`, each row ended by a line feed. -/
def draw (grid : Grid) (cell : Cell → Char → List Char) : List Char :=
  grid.rows.toList.zipIdx.flatMap fun (row, y) =>
    (row.toList.zipIdx.flatMap fun (c, x) => cell ⟨x, y⟩ c) ++ ['\n']

/-- The drawing of a match with brackets. -/
def plain (grid : Grid) (m : Match) : List Char :=
  draw grid fun cell => plainCell (m.isMarked cell)

/-- The drawing of a match with terminal attributes. -/
def styled (styling : Styling) (grid : Grid) (m : Match) : List Char :=
  draw grid fun cell c => styledCell styling c (m.styleOf cell)

/-- The line above the drawing of the match at `index`, counted from zero. -/
def header (m : Match) (index total : Nat) : String :=
  s!"match {index + 1}/{total} from ({m.origin.x}, {m.origin.y})"

end Drawing

end GridPattern
