import GridPattern.Text.CaseTable

/-!
# Upper case and caseless comparison

The upper case of a character is a list: most characters have one upper-case character, a few have
two or three (`ß` has `SS`), and a character that the tables leave out is its own upper case. Two
characters are the same up to case when these lists are equal, so a comparison looks at nothing but
upper cases: `ſ` and `s` agree, `İ` and `i` do not.
-/

namespace GridPattern.Text

/-- The single upper-case code point of `point`, by the first run that reaches it. -/
def findCaseRun (point : Nat) : List CaseRun → Option Nat
  | [] => none
  | r :: more =>
    if point < r.first then none
    else if point ≤ r.last then
      if (point - r.first) % r.stride = 0 then some (r.upper + (point - r.first)) else none
    else findCaseRun point more

/-- The upper-case code points of `point`, if it has more than one. -/
def findCaseExpansion (point : Nat) : List CaseExpansion → Option (List Nat)
  | [] => none
  | e :: more =>
    if point < e.point then none
    else if point = e.point then some e.upper
    else findCaseExpansion point more

/-- The full upper-case mapping of a character. -/
def upperCase (c : Char) : List Char :=
  match findCaseExpansion c.toNat caseExpansions with
  | some points => points.map Char.ofNat
  | none =>
    match findCaseRun c.toNat caseRuns with
    | some point => [Char.ofNat point]
    | none => [c]

/-- Whether two characters have the same upper case. -/
def sameUpToCase (a b : Char) : Bool := upperCase a == upperCase b

theorem sameUpToCase_refl (a : Char) : sameUpToCase a a = true := by simp [sameUpToCase]

theorem sameUpToCase_comm (a b : Char) : sameUpToCase a b = sameUpToCase b a := BEq.comm

end GridPattern.Text
