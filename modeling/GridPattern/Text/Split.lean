/-!
# Splitting at a separator

A text with `n` separators has `n + 1` pieces, so there is always a first piece, empty or not. The
result keeps the first piece apart from the others for that reason.
-/

namespace GridPattern.Text

/-- The first piece of a split text and the pieces after it. -/
structure Pieces where
  first : List Char
  others : List (List Char)
deriving DecidableEq, Repr

/-- All pieces in order. -/
def Pieces.toList (p : Pieces) : List (List Char) := p.first :: p.others

/-- Cuts the text at every `separator`, which belongs to no piece. -/
def split (separator : Char) (text : List Char) : Pieces :=
  text.foldr
    (fun c p => if c = separator then ⟨[], p.toList⟩ else { p with first := c :: p.first })
    ⟨[], []⟩

@[simp] theorem split_nil (separator : Char) : split separator [] = ⟨[], []⟩ := rfl

theorem split_cons (separator c : Char) (text : List Char) :
    split separator (c :: text) =
      if c = separator then ⟨[], (split separator text).toList⟩
      else { split separator text with first := c :: (split separator text).first } := rfl

end GridPattern.Text
