import GridPattern.Place
import GridPattern.Text.Escaped

/-!
# Errors

What can be wrong with a program, by cause. Code is refused by the scanner or by the parser, which
name the place of the fault; a program that was read can still fail while it is followed over a
grid, which has no place in the code. The wording of every message is here and nowhere else. Errors of
all stages are handled alike; the stage that one was raised in is told from its kind.
-/

namespace GridPattern

/-- Why code cannot be cut into tokens. -/
inductive ScanFault
  /-- A backslash stands before characters that it gives no meaning to. -/
  | invalidEscape (text : List Char)
  | rangeWithoutStart
  | rangeWithoutEnd
deriving DecidableEq, Repr

/-- What the parser was looking for. -/
inductive Expectation
  | token
  | label
  | string
  | statement
  | integer
  | bounds
  /-- The special character `c`. -/
  | mark (c : Char)
deriving DecidableEq, Repr

/-- What the parser met instead. -/
inductive Found
  | token (text : List Char)
  | endOfCode
deriving DecidableEq, Repr

/-- Why tokens are not a program. -/
inductive ParseFault
  | expected (what : Expectation) (found : Found)
  | tooFewBounds
  | tooManyBounds
  | unknownParam (letter : Char)
deriving DecidableEq, Repr

/-- Why a program cannot be followed any further. -/
inductive WalkFault
  | noDeclarations
  | undeclared (name : String)
  | unknownTurns (turns : List Char)
  | stalled
  | budgetExhausted (budget : Nat)
deriving DecidableEq, Repr

/-- A fault and the place in the code that it is reported at. -/
structure Located (F : Type) where
  place : Place
  fault : F
deriving DecidableEq, Repr

/-- Any fault, with the stage that found it. -/
inductive Error
  | scan (fault : Located ScanFault)
  | parse (fault : Located ParseFault)
  | walk (fault : WalkFault)
deriving DecidableEq, Repr

/-- The wording of a scan fault. -/
def ScanFault.message : ScanFault → String
  | invalidEscape text => s!"Invalid escape code '{String.ofList text}'."
  | rangeWithoutStart => "range must be preceded by a string."
  | rangeWithoutEnd => "range must be followed by a string."

/-- The name of what was looked for. A special character is quoted, but for the end of a line. -/
def Expectation.word : Expectation → String
  | token => "token"
  | label => "label"
  | string => "string"
  | statement => "statement"
  | integer => "integer"
  | bounds => "number or ','"
  | mark '\n' => "newline"
  | mark c => s!"'{c}'"

/-- How a message shows what was met. -/
def Found.word : Found → String
  | token text => String.ofList (Text.escaped text)
  | endOfCode => "end of code"

/-- The wording of a parse fault. -/
def ParseFault.message : ParseFault → String
  | expected what found => s!"expected {what.word}, got '{found.word}'."
  | tooFewBounds => "not enough values in bounds."
  | tooManyBounds => "too many values in bounds."
  | unknownParam letter => s!"Unrecognized parameter '{letter}'."

/-- The wording of a fault met on the grid. -/
def WalkFault.message : WalkFault → String
  | noDeclarations => "No declarations."
  | undeclared name => s!"Could not find declaration '{name}'."
  | unknownTurns turns => s!"Couldn't understand direction '{String.ofList turns}'."
  | stalled => "Implementation error: snake stalled."
  | budgetExhausted budget =>
    s!"Step budget of {budget} exhausted; a repetition may be matching nothing forever."

/-- A message with the place that it is about. -/
def Place.message (p : Place) (text : String) : String := s!"(ln {p.line}, col {p.col}) {text}"

/-- The line that reports an error. -/
def Error.message : Error → String
  | scan f => f.place.message f.fault.message
  | parse f => f.place.message f.fault.message
  | walk f => f.message

/-- The stages that an error can be raised in. -/
inductive Stage
  | scan
  | parse
  | walk
deriving DecidableEq, Repr

/-- What an error is about, whichever part of the program raised it. -/
inductive Error.Kind
  | invalidEscape
  | rangeWithoutStart
  | rangeWithoutEnd
  | expected
  | tooFewBounds
  | tooManyBounds
  | unknownParam
  | noDeclarations
  | undeclared
  | unknownTurns
  | stalled
  | budgetExhausted
deriving DecidableEq, Repr

/-- The stage whose errors are of this kind. -/
def Error.Kind.stage : Kind → Stage
  | invalidEscape | rangeWithoutStart | rangeWithoutEnd => .scan
  | noDeclarations | undeclared | unknownTurns | stalled | budgetExhausted => .walk
  | _ => .parse

/-- The kind of a scan fault. -/
def ScanFault.kind : ScanFault → Error.Kind
  | invalidEscape _ => .invalidEscape
  | rangeWithoutStart => .rangeWithoutStart
  | rangeWithoutEnd => .rangeWithoutEnd

/-- The kind of a parse fault. -/
def ParseFault.kind : ParseFault → Error.Kind
  | expected _ _ => .expected
  | tooFewBounds => .tooFewBounds
  | tooManyBounds => .tooManyBounds
  | unknownParam _ => .unknownParam

/-- The kind of a fault met on the grid. -/
def WalkFault.kind : WalkFault → Error.Kind
  | noDeclarations => .noDeclarations
  | undeclared _ => .undeclared
  | unknownTurns _ => .unknownTurns
  | stalled => .stalled
  | budgetExhausted _ => .budgetExhausted

/-- What an error is about. -/
def Error.kind : Error → Kind
  | scan f => f.fault.kind
  | parse f => f.fault.kind
  | walk f => f.kind

/-- The stage that an error was raised in, told from its kind. -/
def Error.stage (e : Error) : Stage := e.kind.stage

end GridPattern
