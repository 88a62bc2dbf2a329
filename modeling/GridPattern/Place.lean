/-!
# Places in code

Lines and columns count from one, and a column is a number of characters. A line feed ends its line:
the character after it stands in column one of the next.
-/

namespace GridPattern

/-- A line and a column of the code. -/
structure Place where
  line : Nat
  col : Nat
deriving DecidableEq, Repr, Inhabited

namespace Place

/-- Where code begins. -/
def start : Place := ⟨1, 1⟩

/-- The place just past a character that stands at `p`. -/
def after (p : Place) (c : Char) : Place :=
  if c = '\n' then ⟨p.line + 1, 1⟩ else ⟨p.line, p.col + 1⟩

/-- The place just past a text that begins at `p`. -/
def afterAll (p : Place) (text : List Char) : Place := text.foldl after p

end Place

end GridPattern
