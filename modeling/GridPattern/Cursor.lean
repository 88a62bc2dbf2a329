import GridPattern.Grid
import GridPattern.Heading
import GridPattern.Pattern
import GridPattern.Text.Casing

/-!
# Cursors

A cursor stands on a cell, on the grid or off it, and remembers what it has matched: the cells that it
marked, in the order in which it marked them first. Cursors are values; where a pattern can go on in
several ways each way has its own cursor, and none sees the marks of another.

Cells are marked when they are left. The rules about marked cells are applied then too, and only once
the cursor has a mark, so that a cursor can always begin.
-/

namespace GridPattern

/-- The number of groups. A group number counts modulo it. -/
def groupCount : Nat := 10

/-- The state of one way of following a program. -/
structure Cursor where
  cell : Cell
  heading : Heading := .east
  /-- Steps since the innermost call began. -/
  age : Nat := 0
  marks : List Cell := []
  switches : Switches := {}
  /-- The last step went past an edge and came in at the other. -/
  wrapped : Bool := false
  /-- For each group the age that the calls in it must have, once it is settled. -/
  groupAges : Vector (Option Nat) groupCount := .replicate groupCount none
deriving DecidableEq, Repr

namespace Cursor

/-- Whether the cursor has marked the cell. -/
def isMarked (c : Cursor) (cell : Cell) : Bool := c.marks.contains cell

/-- Marks the cell that the cursor stands on, unless it is marked or marking is off. -/
def markHere (c : Cursor) : Cursor :=
  if c.switches.noMark || c.isMarked c.cell then c else { c with marks := c.marks ++ [c.cell] }

/-- Whether the cursor may leave its cell. Without a mark it always may; else the rule for retracing
goes before the rule against crossing the own path. -/
def mayLeave (c : Cursor) : Bool :=
  c.marks.isEmpty
    || if c.switches.onlyMarked then c.isMarked c.cell
      else !(c.switches.exclusive && c.isMarked c.cell)

/-- The coordinate after wrapping at a line of `size` cells, and whether it changed sides: before the
first cell comes the last, at `size - 1`, and after the last comes the first. -/
def wrapIn (size : Nat) (coordinate : Int) : Int × Bool :=
  if coordinate < 0 then (size - 1, true)
  else if size ≤ coordinate then (0, true)
  else (coordinate, false)

/-- The row that a step leads to, and whether it wrapped. -/
def nextRow (c : Cursor) (grid : Grid) : Int × Bool :=
  let y := c.cell.y + c.heading.dy
  if c.switches.wrapY then wrapIn grid.height y else (y, false)

/-- The column that a step into row `y` leads to, and whether it wrapped. A row off the grid has no
columns to wrap in. -/
def nextColumn (c : Cursor) (grid : Grid) (y : Int) : Int × Bool :=
  let x := c.cell.x + c.heading.dx
  match c.switches.wrapX, grid.width? y with
  | true, some width => wrapIn width x
  | _, _ => (x, false)

/-- The cursor at its next position. The row is settled first, and the column wraps in that row. -/
def moved (c : Cursor) (grid : Grid) : Cursor :=
  let row := c.nextRow grid
  let column := c.nextColumn grid row.1
  { c with cell := ⟨column.1, row.1⟩, wrapped := row.2 || column.2, age := c.age + 1 }

/-- One step along the heading, if the cell may be left. With `marking` the cell is marked first. -/
def step? (c : Cursor) (grid : Grid) (marking : Bool) : Option Cursor :=
  if c.mayLeave then some ((if marking then c.markHere else c).moved grid) else none

/-- The character under the cursor, if it stands on the grid. -/
def char? (c : Cursor) (grid : Grid) : Option Char := grid.char? c.cell

/-- Whether a character on the grid answers to one in a pattern. -/
def charMatches (insensitive : Bool) (target char : Char) : Bool :=
  char == target || (insensitive && Text.sameUpToCase char target)

/-- Whether a character on the grid belongs to a class. -/
def classMatches (insensitive : Bool) (chars : List Char) (negated : Bool) (char : Char) : Bool :=
  (chars.any fun target => charMatches insensitive target char) != negated

/-- The slot of a group. -/
def groupSlot (group : Nat) : Fin groupCount := ⟨group % groupCount, Nat.mod_lt _ (by decide)⟩

/-- Holds the cursor to its group: the first age to come settles the group, and no other age may
follow. -/
def agree? (c : Cursor) (group : Nat) : Option Cursor :=
  match c.groupAges[groupSlot group] with
  | none => some { c with groupAges := c.groupAges.set (groupSlot group) (some c.age) }
  | some age => if age = c.age then some c else none

/-- The cursor back from a call. Marks and settled groups stay; switches, age and the wrap sign are
the caller's again, and so are cell and heading, unless the call was piggyback. -/
def returnTo (c caller : Cursor) (piggyback : Bool) : Cursor :=
  { c with
    cell := if piggyback then c.cell else caller.cell
    heading := if piggyback then c.heading else caller.heading
    switches := caller.switches
    age := caller.age
    wrapped := caller.wrapped }

/-- The cursor after one bend. -/
def bend (c : Cursor) (b : Bend) : Cursor := { c with heading := c.heading.turn b }

/-- The cursor headed so that one step takes it to a cell. -/
def aimAt (c : Cursor) (target : Cell) : Cursor :=
  { c with heading := ⟨target.x - c.cell.x, target.y - c.cell.y⟩ }

end Cursor

/-- The coordinates of cells in one list. -/
def Cell.flatten (cells : List Cell) : List Int := cells.flatMap fun c => [c.x, c.y]

end GridPattern
