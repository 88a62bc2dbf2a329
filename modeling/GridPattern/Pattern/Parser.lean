import GridPattern.Pattern.Letters
import GridPattern.Pattern.Reader

/-!
# Parsing

Tokens become a program by recursive descent with one token of look-ahead:

- a program is declarations, each `name:list` or `name{params}:list` up to the end of the line;
- a list is `^` and a string, or statements up to a closing character;
- a statement is a string, `(list)`, `[list]`, `<direction>`, `{name<direction>params}`, `$`, `.`, or
  one of the look-around characters and a statement; any number of repetition suffixes follow.

A suffix that follows a string belongs to its last character and a look-around before one to its
first, and inside brackets each character is an alternative by itself. These three rules are applied
once a list is complete. The first declaration with a fault, noted or not, is the last to be read.

The functions that call one another take a depth, which bounds how far they nest; every token that is
taken pays for three levels, so a depth of three for each token and three to start with is never
used up.
-/

namespace GridPattern.Parser

open Reader

/-- The characters that end a list. -/
def closers : List Char := [')', '}', ']', '>', '\n']

/-- The letters of turns. -/
def turnLetters : List Char := ['R', 'L', 'F', 'B', 'P', 'T', 'X']

/-- The special characters that are turns. -/
def turnMarks : List Char := ['*', '+', '!']

/-- Reads a direction through its `>`, on top of what was read of it. -/
def directionOver (way : Direction) (s : Source) : List Token → Reply Direction
  | [] => failAtEnd .token s
  | t :: tokens =>
    if t.isString && t.text.all turnLetters.contains then
      directionOver { way with turns := way.turns ++ t.text } s tokens
    else if t.isSpecial '.' then directionOver { way with absolute := true } s tokens
    else if turnMarks.any t.isSpecial then
      directionOver { way with turns := way.turns ++ t.text } s tokens
    else if t.isSpecial '>' then .read way { s with tokens := tokens }
    else failAt t (.mark '>') s

/-- A direction through its `>`; without letters it is straight on. -/
def direction : Reader Direction := do
  let way ← fun s => directionOver ⟨[], false⟩ s s.tokens
  pure (if way.turns.isEmpty then { way with turns := ['F'] } else way)

/-- The letters of params, whatever token they stand in. -/
def params : Reader Params := do
  let t ← next .token
  let letters := Params.ofLetters t.text
  note t (letters.2.map .unknownParam)
  pure letters.1

/-- A call through its `}`. -/
def call : Reader Call := do
  let name ← string .label
  mark '<'
  let way ← direction
  let params ← if ← nextIs Token.isString then params else pure {}
  mark '}'
  pure ⟨String.ofList name, way, params⟩

/-- The fault that a flaw of written bounds is reported as. -/
def boundsFault (text : List Char) : Bounds.Flaw → ParseFault
  | .notANumber => .expected .integer (.token text)
  | .tooFew => .tooFewBounds
  | .tooMany => .tooManyBounds

/-- Bounds in braces. -/
def bounds : Reader Bounds := do
  mark '{'
  let t ← require .bounds Token.isString
  let written := Bounds.ofText t.text
  note t (written.2.map (boundsFault t.text))
  mark '}'
  pure written.1

/-- The repetition that a suffix asks for, if the next token begins one. -/
def suffix? : Reader (Option Repeat) := do
  if ← nextIs (·.isSpecial '*') then let _ ← next .token; pure (some .star)
  else if ← nextIs (·.isSpecial '+') then let _ ← next .token; pure (some .plus)
  else if ← nextIs (·.isSpecial '?') then let _ ← next .token; pure (some .option)
  else if ← nextIs (·.isSpecial '%') then
    let _ ← next .token
    let b ← bounds
    pure (some (.bounded b))
  else pure none

/-- Wraps a statement in all suffixes that follow it, the first innermost. -/
def suffixes : Nat → Node → Reader Node
  | 0, _ => failAtEnd .token
  | depth + 1, node => do
    match ← suffix? with
    | some count => suffixes depth (.repeated node count)
    | none => pure node

/-- What the statements of a list are to one another. -/
inductive ListKind
  /-- One after the other. -/
  | all
  /-- Alternatives. -/
  | any
deriving DecidableEq, Repr

/-- A string of several characters as one alternative for each. -/
def splitLiteral : Node → List Node
  | .literal (c :: d :: text) => (c :: d :: text).map fun c => .literal [c]
  | node => [node]

/-- A repetition of a string as the string without its last character and the repetition of that; a
look-around at a string as a look-around at its first character and the string without it. -/
def detachOperand : Node → List Node
  | .repeated (.literal (c :: d :: text)) count =>
    [.literal (c :: d :: text).dropLast, .repeated (.literal [(d :: text).getLastD d]) count]
  | .look kind (.literal (c :: d :: text)) => [.look kind (.literal [c]), .literal (d :: text)]
  | node => [node]

/-- The pattern of a complete list. -/
def ListKind.node : ListKind → List Node → Node
  | all, parts => .sequence (parts.flatMap detachOperand)
  | any, parts => .choice ((parts.flatMap splitLiteral).flatMap detachOperand)

/-- Whether a list ends here. -/
def listEnds : Reader Bool := fun s =>
  .read (s.tokens.head?.all fun t => closers.any t.isSpecial) s

/-- A negated class: `^` and a string. -/
def negatedClass : Reader Node := do
  let _ ← next .token
  let chars ← string .string
  pure (.oneOf chars true)

mutual
/-- A list up to its closing character, which is left alone. -/
def list : Nat → ListKind → Reader Node
  | 0, _ => failAtEnd .token
  | depth + 1, kind => do
    if ← nextIs (·.isSpecial '^') then negatedClass
    else
      let parts ← statements depth []
      pure (kind.node parts)
/-- Statements up to the end of their list, after those read before, the latest first. -/
def statements : Nat → List Node → Reader (List Node)
  | 0, _ => failAtEnd .token
  | depth + 1, before => do
    if ← listEnds then pure before.reverse
    else
      let node ← statement depth
      statements depth (node :: before)
/-- A statement with its suffixes. -/
def statement : Nat → Reader Node
  | 0 => failAtEnd .token
  | depth + 1 => do
    let t ← next .token
    let node ← match t.kind, t.text with
      | .string, text => pure (.literal text)
      | .special, ['('] => do let node ← list depth .all; mark ')'; pure node
      | .special, ['['] => do let node ← list depth .any; mark ']'; pure node
      | .special, ['<'] => do pure (.direction (← direction))
      | .special, ['{'] => do pure (.call (← call))
      | .special, ['$'] => pure .outside
      | .special, ['.'] => pure .inside
      | .special, ['!'] => do pure (.look .absent (← statement depth))
      | .special, ['~'] => do pure (.look .unmarked (← statement depth))
      | .special, ['\x60'] => do pure (.look .retraced (← statement depth))
      | _, _ => failAt t .statement
    suffixes depth node
end

/-- A declaration through the end of its line. -/
def declaration (depth : Nat) : Reader Declaration := do
  let name ← string .label
  let params ← if ← nextIs (·.isSpecial '{') then do
      let _ ← next .token
      let params ← params
      mark '}'
      pure params
    else pure {}
  mark ':'
  let body ← list depth .all
  mark '\n'
  pure ⟨String.ofList name, params, body⟩

/-- Enough depth for every list of `n` tokens. -/
def depthFor (n : Nat) : Nat := 3 * n + 3

/-- Declarations to the end of the code, after those read before, the latest first. Stops at the end
of a declaration with faults; `left` bounds how many there can be. -/
def declarations :
    Nat → List Declaration → Source → Except (List (Located ParseFault)) (List Declaration)
  | left, before, s =>
    if s.tokens.isEmpty then .ok before.reverse
    else
      match left, declaration (depthFor s.tokens.length) s with
      | left + 1, .read d s =>
        if s.notes.isEmpty then declarations left (d :: before) s else .error s.notes
      | 0, .read _ s => .error (s.notes ++ [⟨s.finish, .expected .token .endOfCode⟩])
      | _, .failed fault notes => .error (notes ++ [fault])

end GridPattern.Parser

namespace GridPattern

/-- The program that a token list stands for, or all faults of its first faulty declaration. The list
may be any, also one that no code is scanned to. -/
def Program.ofTokens (tokens : List Token) : Except (List (Located ParseFault)) Program :=
  (Parser.declarations tokens.length [] (.ofTokens tokens)).map Program.mk

end GridPattern
