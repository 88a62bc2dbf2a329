import GridPattern.Error
import GridPattern.Token

/-!
# Reading tokens

The steps that the parser is made of. A reader takes tokens off the front of a source. It either
reads a value or fails at a token that cannot stand there, and on the way it may note faults that do
not stop it.
-/

namespace GridPattern

/-- Tokens still to be read, the place to name when they run out, and the faults noted so far. -/
structure Source where
  tokens : List Token
  finish : Place
  notes : List (Located ParseFault)
deriving Repr

namespace Source

/-- The source of a token list; its end is where the last token stands. -/
def ofTokens (tokens : List Token) : Source :=
  ⟨tokens, (tokens.getLast?.map Token.place).getD .start, []⟩

end Source

/-- What a reader comes to: a value and the source after it, or the fault that it stopped at and the
faults noted before. -/
inductive Reply (α : Type)
  | read (value : α) (source : Source)
  | failed (fault : Located ParseFault) (notes : List (Located ParseFault))
deriving Repr

/-- A step of the parser. -/
def Reader (α : Type) : Type := Source → Reply α

namespace Reader

instance : Monad Reader where
  pure a := fun s => .read a s
  bind r f := fun s =>
    match r s with
    | .read a s => f a s
    | .failed fault notes => .failed fault notes

@[simp] theorem pure_apply {α : Type} (a : α) (s : Source) : (pure a : Reader α) s = .read a s := rfl

theorem bind_apply {α β : Type} (r : Reader α) (f : α → Reader β) (s : Source) :
    (r >>= f) s =
      match r s with
      | .read a s => f a s
      | .failed fault notes => .failed fault notes := rfl

/-- Fails at a token. -/
def failAt {α : Type} (t : Token) (what : Expectation) : Reader α :=
  fun s => .failed ⟨t.place, .expected what (.token t.text)⟩ s.notes

/-- Fails because nothing is left to read. -/
def failAtEnd {α : Type} (what : Expectation) : Reader α :=
  fun s => .failed ⟨s.finish, .expected what .endOfCode⟩ s.notes

/-- Notes faults at a token and goes on. -/
def note (t : Token) (faults : List ParseFault) : Reader Unit :=
  fun s => .read () { s with notes := s.notes ++ faults.map (⟨t.place, ·⟩) }

/-- The next token, whatever it is. -/
def next (what : Expectation) : Reader Token := fun s =>
  match s.tokens with
  | [] => failAtEnd what s
  | t :: tokens => .read t { s with tokens := tokens }

/-- Whether the next token is there and passes a test; nothing is taken. -/
def nextIs (test : Token → Bool) : Reader Bool :=
  fun s => .read (s.tokens.head?.any test) s

/-- A token that passes a test. At the end of code the message asks for any token. -/
def require (what : Expectation) (test : Token → Bool) : Reader Token := do
  let t ← next .token
  if test t then pure t else failAt t what

/-- The special character `c`. -/
def mark (c : Char) : Reader Unit := do
  let t ← next (.mark c)
  if t.isSpecial c then pure () else failAt t (.mark c)

/-- A string that stands for the thing named. -/
def string (what : Expectation) : Reader (List Char) := do
  let t ← require what Token.isString
  pure t.text

end Reader

end GridPattern
