import GridPattern.Pattern
import GridPattern.Text.Blank
import GridPattern.Text.Number
import GridPattern.Text.Split

/-!
# Short forms

The parts of a program that are written letter by letter inside one string: params such as `WA1`,
and bounds such as `2,5`. What is wrong with such a string does not stop the reading of the program:
the good letters are kept and the rest is reported.
-/

namespace GridPattern

namespace Params

/-- Adds what one letter asks for, if it is the letter of a param. A later group replaces an earlier
one. -/
def addLetter? (p : Params) : Char → Option Params
  | 'P' => some { p with piggyback := true }
  | 'H' => some { p with switches.wrapX := true }
  | 'V' => some { p with switches.wrapY := true }
  | 'W' => some { p with switches.wrapX := true, switches.wrapY := true }
  | 'E' => some { p with switches.exclusive := true }
  | 'I' => some { p with switches.insensitive := true }
  | 'A' => some { p with advance := true }
  | 'S' => some { p with switches.noMark := true }
  | 'L' => some { p with switches.onlyMarked := true }
  | c => (Text.digit? c).map fun n => { p with group := some n }

/-- The params that letters ask for on top of `p`, and the letters that are none. -/
def addLetters (p : Params) : List Char → Params × List Char
  | [] => (p, [])
  | c :: letters =>
    match p.addLetter? c with
    | some p => p.addLetters letters
    | none =>
      let later := p.addLetters letters
      (later.1, c :: later.2)

/-- The params that letters ask for, and the letters that are none. -/
def ofLetters (letters : List Char) : Params × List Char := addLetters {} letters

end Params

namespace Bounds

/-- What can be wrong with written bounds. -/
inductive Flaw
  | notANumber
  | tooFew
  | tooMany
deriving DecidableEq, Repr

/-- One bound, with blanks around it allowed. -/
def readBound (text : List Char) : Option Nat × List Flaw :=
  match Text.number? (Text.trim text) with
  | some n => (some n, [])
  | none => (none, [.notANumber])

/-- One bound of two, which may be left out. -/
def readSide (text : List Char) : Option Nat × List Flaw :=
  if text.isEmpty then (none, []) else readBound text

/-- The bounds that a text stands for, and its flaws: a number by itself is both bounds, and of two
parts with a comma between them one may be empty. -/
def ofText (text : List Char) : Bounds × List Flaw :=
  match (Text.split ',' text).toList with
  | [single] =>
    let both := readBound single
    (⟨both.1, both.1⟩, both.2)
  | [[], []] => ({}, [.tooFew])
  | [left, right] =>
    let min := readSide left
    let max := readSide right
    (⟨min.1, max.1⟩, min.2 ++ max.2)
  | _ => ({}, [.tooMany])

end Bounds

end GridPattern
