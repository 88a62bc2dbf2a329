import GridPattern.Token.Scan

/-!
# A lexer in one pass

Code read one character at a time, left to right, with no token list in between. A character becomes an
item, which is literal or special, as soon as it is read:

- a newline right after a newline is skipped;
- a backslash is dropped and makes the character after it literal, a special one as it stands, and one of
  `n`, `t` and `r` as the control character that it names; before any other it is at fault;
- any other special character is special, and any other character literal.

Of the items that are done only the latest counts. A special dash takes it away if it is literal, and opens
a range. If the next item is literal, both give way to the literals from the one to the other, or to an
empty item if there are none. Otherwise the range is at fault and the dash stays.

At the end every longest run of literal and empty items is one string, which begins where its first item
does. `Token.scan_eq_lex` says that the scanner does the same in five passes.
-/

namespace GridPattern.Lexer

/-- What characters are read as, each at a place of the code. -/
inductive Item
  | literal (c : Char) (place : Place)
  | special (c : Char) (place : Place)
  /-- A range without characters. -/
  | empty (place : Place)
deriving DecidableEq, Repr

/-- A range that still has to end: its first character, where that stood, and where the dash stands. -/
structure Range where
  first : Char
  place : Place
  dash : Place
deriving DecidableEq, Repr

/-- Items done, the latest first, and the range open after them. -/
structure Items where
  done : List Item
  range : Option Range
  faults : List (Located ScanFault)
deriving DecidableEq, Repr

/-- The items that a range stands for, all of them at the dash. -/
def rangeItems (first last : Char) (dash : Place) : List Item :=
  if last < first then [.empty dash] else (first...=last).toList.map (.literal · dash)

namespace Items

/-- A range that cannot end is at fault. Its first character and its dash stay. -/
def giveUp (items : Items) : Items :=
  match items.range with
  | none => items
  | some r => ⟨.special '-' r.dash :: .literal r.first r.place :: items.done, none,
      items.faults ++ [⟨r.dash, .rangeWithoutEnd⟩]⟩

/-- A literal character ends the range that is open. -/
def literal (items : Items) (c : Char) (place : Place) : Items :=
  match items.range with
  | none => { items with done := .literal c place :: items.done }
  | some r => { items with done := (rangeItems r.first c r.dash).reverse ++ items.done, range := none }

/-- A dash opens a range from the literal character just before it. -/
def dash (items : Items) (place : Place) : Items :=
  match items.done with
  | .literal first start :: done => { items with done := done, range := some ⟨first, start, place⟩ }
  | done => { items with
      done := .special '-' place :: done, faults := items.faults ++ [⟨place, .rangeWithoutStart⟩] }

/-- A special character, which no range can end at. -/
def special (items : Items) (c : Char) (place : Place) : Items :=
  if c = '-' then items.giveUp.dash place
  else { items.giveUp with done := .special c place :: items.giveUp.done }

end Items

/-- How far the code is read. -/
structure State where
  here : Place
  afterNewline : Bool
  escaping : Bool
  items : Items
  faults : List (Located ScanFault)
deriving DecidableEq, Repr

/-- Before the first character. -/
def State.start : State := ⟨.start, false, false, ⟨[], none, []⟩, []⟩

/-- What a character after a backslash stands for, if it may stand there. -/
def escaped? (c : Char) : Option Char :=
  if isSpecialChar c then some c
  else
    match c with
    | 'n' => some '\n'
    | 't' => some '\t'
    | 'r' => some '\r'
    | _ => none

/-- Reads the character after a backslash. A message shows all ordinary characters that begin there. -/
def State.escaped (s : State) (c : Char) (later : List Char) : State :=
  match escaped? c with
  | some d => { s with items := s.items.literal d s.here }
  | none => { s with
      items := s.items.literal c s.here
      faults := s.faults ++ [⟨s.here, .invalidEscape (c :: later.takeWhile (!isSpecialChar ·))⟩] }

/-- Reads a character that is neither skipped nor after a backslash. -/
def State.plain (s : State) (c : Char) : State :=
  if isSpecialChar c then { s with items := s.items.special c s.here }
  else { s with items := s.items.literal c s.here }

/-- Reads one character; `later` are those after it. -/
def State.step (s : State) (c : Char) (later : List Char) : State :=
  let s' :=
    if s.escaping then { s.escaped c later with escaping := false }
    else if c = '\n' ∧ s.afterNewline then s
    else if c = '\\' then { s with escaping := true }
    else s.plain c
  { s' with here := s.here.after c, afterNewline := c == '\n' }

/-- Reads all characters. -/
def read (s : State) : List Char → State
  | [] => s
  | c :: later => read (s.step c later) later

/-- Puts an item in front of tokens. One that is not special goes on with a string that stands there. -/
def consItem : Item → List Token → List Token
  | .special c place, tokens => ⟨[c], .special, place⟩ :: tokens
  | .literal c place, ⟨text, .string, _⟩ :: tokens => ⟨c :: text, .string, place⟩ :: tokens
  | .literal c place, tokens => ⟨[c], .string, place⟩ :: tokens
  | .empty place, ⟨text, .string, _⟩ :: tokens => ⟨text, .string, place⟩ :: tokens
  | .empty place, tokens => ⟨[], .string, place⟩ :: tokens

/-- One string for each longest run of items that are not special, and one token for each that is. -/
def runs (items : List Item) : List Token := items.foldr consItem []

/-- The tokens of all items, the latest first. The last line is ended at `finish` if it is not ended. -/
def tokens (finish : Place) : List Item → List Token
  | .special '\n' place :: done => runs (Item.special '\n' place :: done).reverse
  | done => runs (.special '\n' finish :: done).reverse

/-- The tokens of code, or its faulty escapes and then its faulty ranges. -/
def lex (code : List Char) : Except (List (Located ScanFault)) (List Token) :=
  let s := read .start code
  match s.faults ++ s.items.giveUp.faults with
  | [] => .ok (tokens s.here s.items.giveUp.done)
  | faults => .error faults

end GridPattern.Lexer
