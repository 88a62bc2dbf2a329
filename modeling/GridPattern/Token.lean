import GridPattern.Place

/-!
# Tokens

The pieces that code is read in. A special character is a token by itself; other characters form
strings, which may also hold special characters that were escaped in the code.
-/

namespace GridPattern

/-- The characters that mean something by themselves. -/
def specialChars : List Char :=
  [':', '+', '*', '?', '~', '%', '<', '>', '(', ')', '[', ']', '{', '}', '!', '.', '$', '-', '^',
    '\n', '\\', '\x60']

/-- Whether a character means something by itself. -/
def isSpecialChar (c : Char) : Bool := specialChars.contains c

namespace Token

/-- What a token is. Escapes are gone once code is scanned. -/
inductive Kind
  /-- Characters that stand for themselves. -/
  | string
  /-- One special character. -/
  | special
  /-- A backslash whose meaning is still to be settled. -/
  | escape
deriving DecidableEq, Repr

/-- The word for a kind in a listing of tokens. -/
def Kind.word : Kind → String
  | string => "String"
  | special => "Special"
  | escape => "Escape"

end Token

/-- A piece of code and where it begins. -/
structure Token where
  text : List Char
  kind : Token.Kind
  place : Place
deriving DecidableEq, Repr

namespace Token

/-- Whether the token is a string. -/
def isString (t : Token) : Bool := t.kind == .string

/-- Whether the token is the special character `c`. -/
def isSpecial (t : Token) (c : Char) : Bool := t.kind == .special && t.text == [c]

/-- Whether the token ends a line. -/
def isNewline (t : Token) : Bool := t.isSpecial '\n'

end Token

end GridPattern
