import GridPattern.Pattern.Parser
import GridPattern.Token.Scan
import GridPattern.Walk

/-!
# Searching a grid

A search follows a program from every cell of the grid and from one cell past every edge, row by row,
and reports what survives, each match once.

**The law.** Two matches are duplicates when they mark the same cells, in whatever order, and, unless
the origin is of no interest, start from the same cell. A match is reported if it has no duplicate
before it.
-/

namespace GridPattern

/-- What a search reports: where a match starts, and the cells that it covers. -/
structure Match where
  /-- The cell that the cursor started from. -/
  origin : Cell
  /-- The cells matched, in the order in which they were marked first. -/
  marks : List Cell
deriving DecidableEq, Repr

/-- A cursor at the end of a program, and the cell that it started from. -/
structure Finding where
  origin : Cell
  cursor : Cursor
deriving DecidableEq, Repr

/-- The match that a cursor found. -/
def Finding.toMatch (f : Finding) : Match := ⟨f.origin, f.cursor.marks⟩

/-- Whether two matches tell the same. -/
def Match.isDuplicate (originInsensitive : Bool) (a b : Match) : Bool :=
  (originInsensitive || a.origin == b.origin) && a.marks.isPerm b.marks

/-- Whether the match marks the cell. -/
def Match.isMarked (m : Match) (cell : Cell) : Bool := m.marks.contains cell

/-- The number of steps for each start cell, unless another is asked for. -/
def defaultStepBudget : Nat := 250000

/-- What a search is asked for. -/
structure Options where
  /-- Matches of the same cells are duplicates wherever they start. -/
  originInsensitive : Bool := false
  /-- The number of steps for each start cell. Without it a search may have no end. -/
  stepBudget : Option Nat := some defaultStepBudget
deriving DecidableEq, Repr

namespace Search

/-- What survives from one start cell. -/
def findingsFrom (s : Setting) (patience : Nat) (origin : Cell) : Except Stop (List Finding) :=
  ((Walk.run s (Walk.depthFor s.budget patience) { cell := origin }).runFrom 0).1.map fun found =>
    found.toList.map (⟨origin, ·⟩)

/-- What survives from all start cells in order. The first stop ends the search. -/
def findings (s : Setting) (patience : Nat) : Except Stop (List Finding) :=
  List.flatten <$> s.grid.startCells.mapM (findingsFrom s patience)

/-- The matches without those that are duplicates of an earlier one. -/
def distinct (originInsensitive : Bool) (found : List Finding) : List Finding :=
  found.eraseDupsBy fun a b => a.toMatch.isDuplicate originInsensitive b.toMatch

/-- All matches of a program in a grid. Only a search without a budget can be unfinished, and then
only because its patience was too short. -/
def find (program : Program) (grid : Grid) (options : Options) (patience : Nat) :
    Except Stop (List Finding) :=
  distinct options.originInsensitive <$> findings ⟨program, grid, options.stepBudget⟩ patience

end Search

/-- Why there is no answer. -/
inductive Refusal
  | errors (all : List Error)
  | unfinished
deriving DecidableEq, Repr

namespace Search

/-- What a stopped search is reported as. -/
def refusalOfStop : Stop → Refusal
  | .fault cause => .errors [.walk cause]
  | .unfinished => .unfinished

/-- The tokens of code. -/
def tokensOf (code : String) : Except Refusal (List Token) :=
  (Token.scan code).mapError fun faults => .errors (faults.map .scan)

/-- The program of tokens. -/
def programOf (tokens : List Token) : Except Refusal Program :=
  (Program.ofTokens tokens).mapError fun faults => .errors (faults.map .parse)

/-- All matches of a program in the grid that a text stands for. -/
def withProgram (program : Program) (text : String) (options : Options) (patience : Nat) :
    Except Refusal (List Finding) :=
  (find program (.ofText text) options patience).mapError refusalOfStop

/-- All matches of the program that tokens stand for. -/
def withTokens (tokens : List Token) (text : String) (options : Options) (patience : Nat) :
    Except Refusal (List Finding) := do
  withProgram (← programOf tokens) text options patience

/-- All matches of the program that code stands for. -/
def withCode (code text : String) (options : Options) (patience : Nat) :
    Except Refusal (List Finding) := do
  withTokens (← tokensOf code) text options patience

end Search

end GridPattern
