import GridPattern.Error
import GridPattern.Token

/-!
# Scanning

Code becomes tokens in five passes, each a function on token lists: cut at every special character,
drop blank lines, settle escapes, spell out ranges, join neighbouring strings. Only escapes and
ranges can be at fault; all their faults are reported together, escapes first. A scanned list always
ends with the end of a line.
-/

namespace GridPattern.Token

/-- Cuts code that begins at `here`: each special character by itself, and the longest runs of other
characters between them. -/
def cut (here : Place) : List Char → List Token
  | [] => []
  | c :: code =>
    let later := cut (here.after c) code
    if c = '\\' then ⟨[c], .escape, here⟩ :: later
    else if isSpecialChar c then ⟨[c], .special, here⟩ :: later
    else
      match later with
      | ⟨text, .string, _⟩ :: more => ⟨c :: text, .string, here⟩ :: more
      | more => ⟨[c], .string, here⟩ :: more

/-- Drops every line end that follows a line end; `atLineStart` says that the token before was
one. -/
def dropBlankLines (atLineStart : Bool) : List Token → List Token
  | [] => []
  | t :: tokens =>
    if t.isNewline then
      if atLineStart then dropBlankLines true tokens else t :: dropBlankLines true tokens
    else t :: dropBlankLines false tokens

/-- The control character that a letter stands for after a backslash. -/
def control? : Char → Option Char
  | 'n' => some '\n'
  | 't' => some '\t'
  | 'r' => some '\r'
  | _ => none

/-- A token that follows a backslash: a special character stands for itself, and a string must begin
with a letter for a control character. -/
def afterBackslash (t : Token) : Except (Located ScanFault) Token :=
  match t.kind, t.text with
  | .string, c :: text =>
    match control? c with
    | some c => .ok { t with text := c :: text }
    | none => .error ⟨t.place, .invalidEscape t.text⟩
  | .string, [] => .error ⟨t.place, .invalidEscape []⟩
  | _, _ => .ok { t with kind := .string }

/-- Applies every backslash to the token after it; a backslash at the very end does nothing. A token
with a faulty escape stays as it is. -/
def settleEscapes : List Token → List Token × List (Located ScanFault)
  | [] => ([], [])
  | t :: tokens =>
    if t.kind = .escape then
      match tokens with
      | [] => ([], [])
      | u :: tokens =>
        let later := settleEscapes tokens
        match u.afterBackslash with
        | .ok u => (u :: later.1, later.2)
        | .error fault => (u :: later.1, fault :: later.2)
    else
      let later := settleEscapes tokens
      (t :: later.1, later.2)

/-- All characters from `first` to `last` in order of code points; none if `last` comes before. -/
def charsBetween (first last : Char) : List Char :=
  (List.range' first.toNat (last.toNat + 1 - first.toNat)).filterMap fun point =>
    if point.isValidChar then some (Char.ofNat point) else none

/-- Puts a string in front of a list, unless nothing is left of its text. -/
def consUnlessEmpty (t : Token) (tokens : List Token) : List Token :=
  if t.text.isEmpty then tokens else t :: tokens

/-- Takes the last character off the string that a reversed list begins with. -/
def takeLast? : List Token → Option (Char × List Token)
  | [] => none
  | t :: before =>
    if t.isString then
      t.text.getLast?.map fun c => (c, consUnlessEmpty { t with text := t.text.dropLast } before)
    else none

/-- Spells out every range: a dash between two strings becomes a string of all characters from the
last one before it to the first one after it, and these two leave their strings. The tokens done
with come in `before`, the latest first, so a range may begin with a character that an earlier one
produced. -/
def spellRanges (before : List Token) : List Token → List Token × List (Located ScanFault)
  | [] => (before.reverse, [])
  | t :: tokens =>
    if t.isSpecial '-' then
      match takeLast? before with
      | none =>
        let later := spellRanges (t :: before) tokens
        (later.1, ⟨t.place, .rangeWithoutStart⟩ :: later.2)
      | some (first, before') =>
        match tokens with
        | ⟨last :: text, .string, place⟩ :: tokens =>
          let range : Token := ⟨charsBetween first last, .string, t.place⟩
          spellRanges (consUnlessEmpty ⟨text, .string, place⟩ (range :: before')) tokens
        | tokens =>
          let later := spellRanges (t :: before) tokens
          (later.1, ⟨t.place, .rangeWithoutEnd⟩ :: later.2)
    else spellRanges (t :: before) tokens

/-- Puts a token in front of a list; two strings become one, which begins where the first does. -/
def consJoined (t : Token) : List Token → List Token
  | [] => [t]
  | u :: tokens =>
    if t.isString && u.isString then { t with text := t.text ++ u.text } :: tokens
    else t :: u :: tokens

/-- Makes one string of every run of neighbouring strings. -/
def joinStrings (tokens : List Token) : List Token := tokens.foldr consJoined []

/-- Ends the last line at `finish`, unless it is ended. -/
def endLastLine (finish : Place) (tokens : List Token) : List Token :=
  if tokens.getLast?.any isNewline then tokens
  else tokens ++ [⟨['\n'], .special, finish⟩]

/-- Cuts characters into tokens, or reports all faulty escapes and then all faulty ranges. -/
def scanChars (code : List Char) : Except (List (Located ScanFault)) (List Token) :=
  let settled := settleEscapes (dropBlankLines false (cut .start code))
  let spelled := spellRanges [] settled.1
  match settled.2 ++ spelled.2 with
  | [] => .ok (endLastLine (Place.start.afterAll code) (joinStrings spelled.1))
  | faults => .error faults

/-- The tokens of code, or its faults. -/
def scan (code : String) : Except (List (Located ScanFault)) (List Token) := scanChars code.toList

end GridPattern.Token
