/-!
# Numbers in text

A written number is an optional `+` and at least one ASCII digit; leading zeros do not matter. Only
numbers that fit a 64-bit word are read, so every number that a program or an option can name is
below `wordBound`.
-/

namespace GridPattern.Text

/-- One more than the largest number that can be written. -/
def wordBound : Nat := Nat.pow 2 64

/-- The value of a decimal digit. -/
def digit? (c : Char) : Option Nat :=
  if '0' ≤ c ∧ c ≤ '9' then some (c.toNat - '0'.toNat) else none

/-- The number that a run of decimal digits stands for; the empty run stands for zero. -/
def digits? (text : List Char) : Option Nat :=
  text.foldlM (fun n c => (digit? c).map (10 * n + ·)) 0

/-- The text without one leading `+`. -/
def withoutPlus : List Char → List Char
  | '+' :: rest => rest
  | text => text

/-- The number written in the text, if it is a number below `wordBound`. -/
def number? (text : List Char) : Option Nat :=
  let digits := withoutPlus text
  if digits.isEmpty then none else (digits? digits).filter (· < wordBound)

end GridPattern.Text
