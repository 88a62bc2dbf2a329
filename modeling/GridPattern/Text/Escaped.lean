import GridPattern.Text.Unprintable
import GridPattern.Text.Ignorable
import GridPattern.Text.Combining

/-!
# Escaped text

How a message shows a piece of code: on one line and with nothing invisible in it. NUL, tab, line
feed, carriage return, the two quotes and the backslash are written with a backslash; every other
invisible character, unprintable or ignorable, is written as its code point in braces. A combining
character is written that way only at the start of the text, where it would attach to the quote
before it.
-/

namespace GridPattern.Text

/-- The code point in lower-case hexadecimal, without leading zeros, between `\u` and braces. -/
def codePointEscape (c : Char) : List Char :=
  ['\\', 'u', '{'] ++ Nat.toDigits 16 c.toNat ++ ['}']

/-- Whether a code point leaves nothing to see: it has no picture, or is ignored by default. -/
def isInvisible (point : Nat) : Bool :=
  inRanges point unprintable || inRanges point ignorable

/-- A character inside a shown text. -/
def escapedChar (c : Char) : List Char :=
  match c with
  | '\x00' => ['\\', '0']
  | '\t' => ['\\', 't']
  | '\n' => ['\\', 'n']
  | '\r' => ['\\', 'r']
  | '\x22' => ['\\', '\x22']
  | '\x27' => ['\\', '\x27']
  | '\\' => ['\\', '\\']
  | c => if isInvisible c.toNat then codePointEscape c else [c]

/-- A whole text as a message shows it. -/
def escaped : List Char → List Char
  | [] => []
  | c :: rest =>
    (if inRanges c.toNat combining then codePointEscape c else escapedChar c)
      ++ rest.flatMap escapedChar

end GridPattern.Text
