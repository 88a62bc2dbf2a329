import GridPattern.Drawing

/-!
# The command line

What a call of the program asks for, and what it answers: an exit code, standard output and standard
error. The answer is a function of the arguments and of the texts that they name; how these are read,
how a failed read is put into words and how a terminal is told to show a character are left to the
surroundings. The program is read before the input, and the input only if there is a program.

- A text that cannot be read, and a program with errors, have exit code 1, their messages on standard
  error, one on each line, and an empty standard output.
- Otherwise the exit code is 0 and standard output has the number of matches, or for each match its
  header and drawing, with an empty line between matches.
-/

namespace GridPattern.CommandLine

open Drawing (Styling)

/-- The arguments of a call. -/
structure Args where
  /-- The file that holds the program, or the program itself. -/
  program : String
  /-- The file that holds the input; without it the input is standard input. -/
  input : Option String := none
  /-- The program is the argument itself. -/
  expr : Bool := false
  /-- The origin of a match is of no interest. -/
  originInsensitive : Bool := false
  /-- The number of steps for each start cell, zero for any number. -/
  stepBudget : Nat := defaultStepBudget
  /-- Only the number of matches is wanted. -/
  count : Bool := false
  /-- Drawings have no terminal attributes. -/
  plain : Bool := false
  /-- The tokens are listed on standard error. -/
  dumpTokens : Bool := false
deriving DecidableEq, Repr

/-- What a search is asked for. -/
def Args.options (a : Args) : Options where
  originInsensitive := a.originInsensitive
  stepBudget := if 0 < a.stepBudget then some a.stepBudget else none

/-- What the program is run in. -/
structure Surroundings (m : Type → Type) where
  /-- The text of a file, or the reason why it cannot be read. -/
  file : (name : String) → m (Except String String)
  /-- The text of standard input, or the reason why it cannot be read. -/
  standardInput : m (Except String String)
  /-- A message that says what failed and why. -/
  explain : (failed reason : String) → String
  styling : Styling

/-! ## Texts -/

section Texts

variable {m : Type → Type} [Monad m]

/-- The text of the program, or the message that it cannot be read. -/
def programText (s : Surroundings m) (a : Args) : m (Except String String) :=
  if a.expr then pure (.ok a.program)
  else return (← s.file a.program).mapError (s.explain s!"Failed to read program {a.program}")

/-- The text of the input, or the message that it cannot be read. -/
def inputText (s : Surroundings m) (a : Args) : m (Except String String) :=
  match a.input with
  | some name => return (← s.file name).mapError (s.explain s!"Failed to read input {name}")
  | none => return (← s.standardInput).mapError (s.explain "Failed to read stdin")

end Texts

/-! ## Answers -/

/-- What a call of the program comes to. -/
structure Response where
  exitCode : Nat
  out : String
  err : String
deriving DecidableEq, Repr

/-- Lines of text, each ended by a line feed. -/
def lines (texts : List String) : String := String.join (texts.map (· ++ "\n"))

/-- A failed call: no output, and lines on standard error. -/
def failure (messages : List String) : Response := ⟨1, "", lines messages⟩

/-- One line for each token: its place, its kind and its text. -/
def tokenLine (t : Token) : String :=
  s!"({t.place.line},{t.place.col} {t.kind.word} '{String.ofList (Text.escaped t.text)}')"

/-- The messages of a refusal. -/
def refusalMessages : Refusal → List String
  | .errors all => all.map Error.message
  | .unfinished => ["The search was not finished."]

/-- The text without the line feed that ends it, if one does: the end of a file is not the beginning
of a row. -/
def withoutFinalNewline (text : String) : String :=
  if text.toList.getLast? = some '\n' then String.ofList text.toList.dropLast else text

/-- The header and the drawing of every match, with empty lines between matches. -/
def matchReport (styling : Styling) (plain : Bool) (grid : Grid) (found : List Finding) : String :=
  let one (m : Match) (index : Nat) : String :=
    Drawing.header m index found.length ++ "\n"
      ++ String.ofList (if plain then Drawing.plain grid m else Drawing.styled styling grid m)
  "\n".intercalate (found.zipIdx.map fun (f, index) => one f.toMatch index)

/-- Standard output of a successful search. -/
def report (styling : Styling) (a : Args) (grid : Grid) (found : List Finding) : String :=
  if a.count then lines [toString found.length] else matchReport styling a.plain grid found

/-- The answer once both texts are there. Listed tokens come before any message. -/
def answerTexts (styling : Styling) (a : Args) (code input : String) (patience : Nat) : Response :=
  let text := withoutFinalNewline input
  match Search.tokensOf code with
  | .error refusal => failure (refusalMessages refusal)
  | .ok tokens =>
    let listing := if a.dumpTokens then tokens.map tokenLine else []
    match Search.withTokens tokens text a.options patience with
    | .error refusal => failure (listing ++ refusalMessages refusal)
    | .ok found => ⟨0, report styling a (.ofText text) found, lines listing⟩

/-- The answer to a call. -/
def answer {m : Type → Type} [Monad m] (s : Surroundings m) (a : Args) (patience : Nat) : m Response := do
  match ← programText s a with
  | .error message => pure (failure [message])
  | .ok code =>
    match ← inputText s a with
    | .error message => pure (failure [message])
    | .ok input => pure (answerTexts s.styling a code input patience)

end GridPattern.CommandLine
