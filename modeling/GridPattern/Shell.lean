import GridPattern.CommandLine
import GridPattern.Text.Number

/-!
# The shell

The outermost layer of the program: how a list of arguments is sorted into the arguments of a call, in
which words a failed read is reported, and which control sequences a terminal understands. None of it is
part of what a call answers, which is the same whatever stands here; others may call the library with
words and sequences of their own.
-/

namespace GridPattern.Shell

open CommandLine Drawing

/-! ## Arguments -/

/-- The options that are on or off. -/
inductive Flag
  | expr
  | originInsensitive
  | count
  | plain
  | dumpTokens
deriving DecidableEq, Repr

namespace Flag

/-- The flag of a long option. -/
def ofName? (name : List Char) : Option Flag :=
  if name = "expr".toList then some expr
  else if name = "origin-insensitive".toList then some originInsensitive
  else if name = "count".toList then some count
  else if name = "plain".toList then some plain
  else if name = "dump-tokens".toList then some dumpTokens
  else none

/-- The flag of a short option. -/
def ofLetter? : Char → Option Flag
  | 'e' => some expr
  | 'o' => some originInsensitive
  | _ => none

end Flag

/-- Arguments sorted into flags, the step budget and operands. -/
structure Sorted where
  flags : List Flag := []
  budget : Option Nat := none
  operands : List String := []
deriving DecidableEq, Repr

namespace Sorted

/-- Adds a flag; none may be given twice. -/
def addFlag? (s : Sorted) (f : Flag) : Option Sorted :=
  if f ∈ s.flags then none else some { s with flags := f :: s.flags }

/-- Adds the step budget, which may be given once and must be a number. -/
def addBudget? (s : Sorted) (value : List Char) : Option Sorted :=
  match s.budget, Text.number? value with
  | none, some n => some { s with budget := some n }
  | _, _ => none

/-- Adds operands after those there are. -/
def addOperands (s : Sorted) (operands : List String) : Sorted :=
  { s with operands := s.operands ++ operands }

/-- Sorts arguments in order. Short options may be joined, the step budget may follow an equals sign,
after `--` everything is an operand, and `-` by itself is one anywhere. -/
def add? (s : Sorted) : List String → Option Sorted
  | [] => some s
  | arg :: args =>
    match arg.toList with
    | ['-', '-'] => some (s.addOperands args)
    | '-' :: '-' :: name =>
      if name = "step-budget".toList then
        match args with
        | [] => none
        | value :: args => (s.addBudget? value.toList).bind (add? · args)
      else if "step-budget=".toList.isPrefixOf name then
        (s.addBudget? (name.drop "step-budget=".length)).bind (add? · args)
      else ((Flag.ofName? name).bind s.addFlag?).bind (add? · args)
    | '-' :: letter :: letters =>
      ((letter :: letters).foldlM
        (fun s letter => (Flag.ofLetter? letter).bind s.addFlag?) s).bind (add? · args)
    | _ => add? (s.addOperands [arg]) args

/-- The arguments of a call with this program and this input. -/
def toArgs (s : Sorted) (program : String) (input : Option String) : Args where
  program
  input
  expr := .expr ∈ s.flags
  originInsensitive := .originInsensitive ∈ s.flags
  stepBudget := s.budget.getD defaultStepBudget
  count := .count ∈ s.flags
  plain := .plain ∈ s.flags
  dumpTokens := .dumpTokens ∈ s.flags

end Sorted

/-- The arguments of a call, unless they are wrong: they name a program and at most one input. -/
def args? (args : List String) : Option Args :=
  (Sorted.add? {} args).bind fun s =>
    match s.operands with
    | [program] => some (s.toArgs program none)
    | [program, input] => some (s.toArgs program (some input))
    | _ => none

/-! ## Words -/

/-- The reason for a failed read, where there is no such file. -/
def notFound : String := "No such file or directory (os error 2)"

/-- The reason for a failed read, where a directory has the name. -/
def isDirectory : String := "Is a directory (os error 21)"

/-- The reason for a failed read of bytes that are no text. -/
def notUtf8 : String := "stream did not contain valid UTF-8"

/-- What failed, and why, on one line. -/
def explain (failed reason : String) : String := s!"{failed}: {reason}"

/-- Bytes as text. -/
def textOfBytes (bytes : ByteArray) : Except String String :=
  match String.fromUTF8? bytes with
  | some text => .ok text
  | none => .error notUtf8

/-! ## Terminals -/

/-- A control sequence that sets attributes. -/
def control (code : List Char) : List Char := '\x1b' :: '[' :: code ++ ['m']

/-- Sets the background. -/
def background (attributes : List Attribute) : List Char :=
  if .onGreen ∈ attributes then control ['4', '8', ';', '5', ';', '1', '0'] else []

/-- Sets the foreground. -/
def foreground (attributes : List Attribute) : List Char :=
  if .black ∈ attributes then control ['3', '8', ';', '5', ';', '0'] else []

/-- Sets the font. -/
def font (attributes : List Attribute) : List Char :=
  (if .bold ∈ attributes then control ['1'] else []) ++ if .italic ∈ attributes then control ['3'] else []

/-- Sets everything back that was set. A font cannot be set back by itself. -/
def back (attributes : List Attribute) : List Char :=
  if .bold ∈ attributes ∨ .italic ∈ attributes then control ['0']
  else (if .onGreen ∈ attributes then control ['4', '9'] else []) ++
    if .black ∈ attributes then control ['3', '9'] else []

/-- The control sequences of a terminal that has colours. -/
def colours : Styling where
  text attributes c := background attributes ++ foreground attributes ++ font attributes ++ c :: back attributes
  bare _ := rfl

end GridPattern.Shell
