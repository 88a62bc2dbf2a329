/-!
# Patterns

A program is a list of named patterns. A pattern is a tree over the cells that a cursor reads one
after the other, the turns that it takes on the way, and calls to patterns of the program. Trees are
not restricted to those that code can be read as: every tree has a meaning.
-/

namespace GridPattern

/-- The switches that stay on while a pattern is followed. -/
structure Switches where
  /-- Leaving a cell does not mark it. -/
  noMark : Bool := false
  /-- Past the end of a row comes its other end. -/
  wrapX : Bool := false
  /-- Past the last row comes the first, and the other way round. -/
  wrapY : Bool := false
  /-- A marked cell may not be left. -/
  exclusive : Bool := false
  /-- Upper and lower case are the same. -/
  insensitive : Bool := false
  /-- A cell may be left only if it is marked. -/
  onlyMarked : Bool := false
deriving DecidableEq, Repr, Inhabited

/-- The switches that are on in `a` or in `b`. -/
def Switches.or (a b : Switches) : Switches where
  noMark := a.noMark || b.noMark
  wrapX := a.wrapX || b.wrapX
  wrapY := a.wrapY || b.wrapY
  exclusive := a.exclusive || b.exclusive
  insensitive := a.insensitive || b.insensitive
  onlyMarked := a.onlyMarked || b.onlyMarked

/-- What a call, or a declaration, asks of the pattern called. -/
structure Params where
  switches : Switches := {}
  /-- The caller goes on from where the pattern ends. -/
  piggyback : Bool := false
  /-- The caller takes one step after the call. -/
  advance : Bool := false
  /-- All calls of one group have the same length. -/
  group : Option Nat := none
deriving DecidableEq, Repr, Inhabited

/-- The params in force in a call: all that either side asks for, in the group of the call if it has
one. -/
def Params.merged (call declared : Params) : Params where
  switches := call.switches.or declared.switches
  piggyback := call.piggyback || declared.piggyback
  advance := call.advance || declared.advance
  group := call.group <|> declared.group

/-- Letters for a turn, taken from the heading of the cursor or, if absolute, from east. -/
structure Direction where
  turns : List Char
  absolute : Bool
deriving DecidableEq, Repr

/-- Straight on. -/
def Direction.forward : Direction := ⟨['F'], false⟩

/-- How often something may be repeated; without a lower bound from zero, without an upper bound
without end. -/
structure Bounds where
  min : Option Nat := none
  max : Option Nat := none
deriving DecidableEq, Repr

/-- The ways to write a repetition. -/
inductive Repeat
  /-- Any number of times. -/
  | star
  /-- At least once. -/
  | plus
  /-- At most once. -/
  | option
  | bounded (bounds : Bounds)
deriving DecidableEq, Repr

namespace Repeat

/-- The least number of repetitions. -/
def least : Repeat → Nat
  | star => 0
  | plus => 1
  | option => 0
  | bounded b => b.min.getD 0

/-- The greatest number of repetitions, if there is one. -/
def most? : Repeat → Option Nat
  | star => none
  | plus => none
  | option => some 1
  | bounded b => b.max

end Repeat

/-- The ways to look around. -/
inductive Look
  /-- The pattern does not match here; nothing moves. -/
  | absent
  /-- The pattern matches without marking. -/
  | unmarked
  /-- The pattern matches over marked cells. -/
  | retraced
deriving DecidableEq, Repr

/-- A call of a pattern of the program. -/
structure Call where
  name : String
  direction : Direction
  params : Params
deriving DecidableEq, Repr

/-- A pattern. -/
inductive Node
  /-- These characters, one cell each. -/
  | literal (text : List Char)
  /-- One cell with any of these characters or, if negated, with any other. -/
  | oneOf (chars : List Char) (negated : Bool)
  /-- One after the other. -/
  | sequence (parts : List Node)
  /-- Any of these. -/
  | choice (options : List Node)
  | repeated (inner : Node) (count : Repeat)
  | call (target : Call)
  /-- A change of heading. -/
  | direction (way : Direction)
  /-- One cell of the grid. -/
  | inside
  /-- One cell off the grid. -/
  | outside
  | look (kind : Look) (inner : Node)
deriving Repr

/-- A pattern with a name. -/
structure Declaration where
  name : String
  params : Params
  body : Node
deriving Repr

/-- The declarations of a program; the first is where following it begins. -/
structure Program where
  declarations : List Declaration
deriving Repr

namespace Program

/-- The declaration of that name; of several the first. -/
def declaration? (p : Program) (name : String) : Option Declaration :=
  p.declarations.find? (·.name == name)

/-- Where following the program begins. -/
def entry? (p : Program) : Option Declaration := p.declarations.head?

end Program

end GridPattern
