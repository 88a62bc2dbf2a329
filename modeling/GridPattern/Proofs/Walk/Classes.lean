import GridPattern.Proofs.Pattern.Completeness
import GridPattern.Proofs.Walk.Chains
import GridPattern.Proofs.Walk.Frame
import GridPattern.Proofs.Walk.Unbudgeted
import GridPattern.Token.Scan

/-!
# Classes and their negations

A string in brackets is read as an alternative for each of its characters, and with `^` before it as one
class of characters with a test of its own. On a cell of the grid that may be left the two are complementary.

**The law** (`brackets_complementary`). One has survivors where a character of the string matches the cell, the
other where none does, and each survivor is one step further.

**What it does not establish.** Anything about brackets around an empty string. Only strings of several
characters are taken apart, and the empty one stays as it is and matches without a step: both have a survivor
there (`brackets_around_nothing`).
-/

namespace GridPattern

open GridPattern.Parser Grammar

/-! ## Reading them -/

/-- **A string in brackets**, and the token that negates it. -/
structure Bracketed (o hat chars close : Token) : Prop where
  opens : o.isSpecial '[' = true
  negates : hat.isSpecial '^' = true
  isString : chars.isString = true
  closes : close.isSpecial ']' = true

namespace Bracketed

variable {o hat chars close : Token} {rest : List Token} {depth : Nat}

theorem takes (h : Bracketed o hat chars close) (hd : 12 ≤ depth) (hrest : Unsuffixed rest) :
    (statement depth).Takes [o, chars, close] (ListKind.any.node [.literal chars.text]) rest := by
  have isList : IsList .any [chars] (ListKind.any.node [.literal chars.text]) :=
    .statements (.cons (.atom (.string h.isString) .none) .nil) (builds_iff.mpr rfl)
  have isStatement : IsStatement [o, chars, close] (ListKind.any.node [.literal chars.text]) :=
    .atom (.choice h.opens isList h.closes) .none
  exact (readable depth).ofStatement isStatement (Nat.le_trans (Nat.le_add_left 9 3) hd) hrest

theorem takes_negated (h : Bracketed o hat chars close) (hd : 12 ≤ depth) (hrest : Unsuffixed rest) :
    (statement depth).Takes [o, hat, chars, close] (.oneOf chars.text true) rest := by
  have isStatement : IsStatement [o, hat, chars, close] (.oneOf chars.text true) :=
    .atom (.choice h.opens (.negated h.negates h.isString) h.closes) .none
  exact (readable depth).ofStatement isStatement hd hrest

end Bracketed

/-- Where there are characters, each is an alternative. -/
theorem Parser.any_node_literal {text : List Char} (h : text ≠ []) :
    ListKind.any.node [.literal text] = .choice (text.map fun target => .literal [target]) := by
  have hsplit : splitLiteral (.literal text) = text.map fun target => .literal [target] := by
    match text, h with
    | [_], _ => rfl
    | _ :: _ :: _, _ => rfl
  rw [ListKind.node, List.flatMap_singleton, hsplit, List.flatMap_map]
  exact congrArg Node.choice List.map_eq_flatMap.symm

/-! ## Following them -/

namespace Walk

variable {program : Program} {grid : Grid} {c : Cursor}

/-- A cursor that may leave its cell takes the step that a test allows. -/
theorem stepIf?_of_mayLeave (h : c.mayLeave = true) (test : Bool) :
    c.stepIf? grid test = if test then some (c.markHere.moved grid) else none := by
  rw [Cursor.stepIf?, Cursor.step?, if_pos h]
  rfl

/-- A string of one character is a test and a step. -/
theorem spell?_singleton (target : Char) : c.spell? grid [target] =
    c.stepIf? grid ((c.char? grid).any (Cursor.charMatches c.switches.insensitive target)) :=
  Option.bind_fun_some _

variable {text : List Char} {char : Char}

/-- The survivors of alternatives, of which each has the same one or none. -/
theorem flatMap_ite_eq_replicate {α β : Type} (test : α → Bool) (b : β) (as : List α) :
    as.flatMap (fun a => if test a then [b] else []) = .replicate (as.countP test) b := by
  induction as with
  | nil => rfl
  | cons a as ih =>
    rw [List.flatMap_cons, ih, List.countP_cons]
    cases test a <;> rfl

/-- A string in brackets has a survivor for each of its characters that match. -/
theorem eval_brackets (hne : text ≠ []) (hs : c.heading.isStalled = false)
    (hchar : c.char? grid = some char) (hleave : c.mayLeave = true) :
    eval program grid (ListKind.any.node [.literal text]) c = some (.ok (.replicate
      (text.countP (Cursor.charMatches c.switches.insensitive · char)) (c.markHere.moved grid))) := by
  rw [any_node_literal hne, eval_choice _ hs, evalEach, List.mapM_map, ← flatMap_ite_eq_replicate]
  refine evalEach_eq_flatMap fun target _ => ?_
  rw [Function.comp_apply, eval_literal [target] hs, spell?_singleton, hchar, stepIf?_of_mayLeave hleave,
    Option.any_some]
  split <;> rfl

/-- A negated class has a survivor if no character of it matches. -/
theorem eval_negated (hs : c.heading.isStalled = false) (hchar : c.char? grid = some char)
    (hleave : c.mayLeave = true) :
    eval program grid (.oneOf text true) c = some (.ok
      (if text.any (Cursor.charMatches c.switches.insensitive · char) then []
        else [c.markHere.moved grid])) := by
  rw [eval_oneOf text true hs, hchar, stepIf?_of_mayLeave hleave, Option.any_some, Cursor.classMatches]
  cases text.any (Cursor.charMatches c.switches.insensitive · char) <;> rfl

/-- **A string in brackets and its negation are complementary**, wherever they are read: on a cell of the grid
that the cursor may leave, one has survivors if some character of the string matches the cell, the other if
none does, and all have taken one step. -/
theorem brackets_complementary {o hat chars close : Token} (h : Bracketed o hat chars close)
    (hne : chars.text ≠ []) : ∃ listed unlisted : Node,
      (∀ depth ≥ 12, ∀ rest, Unsuffixed rest →
        (statement depth).Takes [o, chars, close] listed rest ∧
          (statement depth).Takes [o, hat, chars, close] unlisted rest) ∧
      ∀ (program : Program) (grid : Grid) (c : Cursor) (char : Char), c.heading.isStalled = false →
        c.char? grid = some char → c.mayLeave = true →
        ∃ ts us, EndsWith program grid listed c ts ∧ EndsWith program grid unlisted c us ∧
          (ts ≠ [] ↔ ∃ target ∈ chars.text, Cursor.charMatches c.switches.insensitive target char = true) ∧
          (us ≠ [] ↔ ∀ target ∈ chars.text, Cursor.charMatches c.switches.insensitive target char = false) ∧
          (ts ≠ [] ↔ us = []) ∧ ∀ t ∈ ts ++ us, c.step? grid true = some t ∧ t.age = c.age + 1 := by
  refine ⟨_, _, fun depth hd rest hrest => ⟨h.takes hd hrest, h.takes_negated hd hrest⟩, ?_⟩
  intro program grid c char hs hchar hleave
  have hstep : c.step? grid true = some (c.markHere.moved grid) := if_pos hleave
  have step : ∀ t, t = c.markHere.moved grid → c.step? grid true = some t ∧ t.age = c.age + 1 := by
    rintro t rfl
    exact ⟨hstep, Cursor.age_of_step hstep⟩
  refine ⟨_, _, endsWith_iff.mpr (eval_brackets hne hs hchar hleave),
    endsWith_iff.mpr (eval_negated hs hchar hleave), ?_, ?_, ?_, ?_⟩
  · simp [List.replicate_eq_nil_iff, List.countP_eq_zero]
  · simp
  · simp [List.replicate_eq_nil_iff, List.countP_eq_zero]
  · intro t mem
    rcases List.mem_append.mp mem with mem | mem
    · exact step t (List.eq_of_mem_replicate mem)
    · split at mem
      · cases mem
      · exact step t (List.mem_singleton.mp mem)

/-- Where case does not count, `B` is in `[a-c]` and not in its negation. -/
theorem brackets_complementary_capital :
    let special (c : Char) : Token := ⟨[c], .special, .start⟩
    let chars : Token := ⟨['a', 'b', 'c'], .string, .start⟩
    let grid : Grid := .ofText "B"
    let start : Cursor := { cell := ⟨0, 0⟩, switches := { insensitive := true } }
    ∃ listed unlisted : Node,
      (statement 12).Takes [special '[', chars, special ']'] listed [] ∧
      (statement 12).Takes [special '[', special '^', chars, special ']'] unlisted [] ∧
      ∃ ts, ts ≠ [] ∧ EndsWith ⟨[]⟩ grid listed start ts ∧ EndsWith ⟨[]⟩ grid unlisted start [] := by
  intro special chars grid start
  have bracketed : Bracketed (special '[') (special '^') chars (special ']') := ⟨rfl, rfl, rfl, rfl⟩
  obtain ⟨listed, unlisted, htakes, h⟩ := brackets_complementary bracketed (by decide)
  obtain ⟨ts, us, hts, hus, hlisted, _, hone, _⟩ := h ⟨[]⟩ grid start 'B' rfl rfl rfl
  have hne : ts ≠ [] := hlisted.mpr ⟨'b', by decide, by decide +kernel⟩
  rw [hone.mp hne] at hus
  obtain ⟨hfirst, hsecond⟩ := htakes 12 (Nat.le_refl 12) [] nofun
  exact ⟨listed, unlisted, hfirst, hsecond, ts, hne, hts, hus⟩

/-- A range that goes backwards spells no character. The brackets around it are survived without a step, and
so is what should be their negation with one. -/
theorem brackets_around_nothing :
    let grid : Grid := .ofText "a"
    let start : Cursor := { cell := ⟨0, 0⟩ }
    let listed : Node := .choice [.literal []]
    let unlisted : Node := .oneOf [] true
    (Token.scanChars ['m', ':', '[', 'z', '-', 'a', ']']).toOption.map Program.ofTokens =
        some (.ok ⟨[⟨"m", {}, .sequence [listed]⟩]⟩) ∧
      (Token.scanChars ['m', ':', '[', '^', 'z', '-', 'a', ']']).toOption.map Program.ofTokens =
        some (.ok ⟨[⟨"m", {}, .sequence [unlisted]⟩]⟩) ∧
      EndsWith ⟨[]⟩ grid listed start [start] ∧
      ∃ t, start.step? grid true = some t ∧ EndsWith ⟨[]⟩ grid unlisted start [t] := by
  intro grid start listed unlisted
  refine ⟨rfl, rfl, endsWith_iff.mpr ?_, _, rfl, endsWith_iff.mpr ?_⟩
  · rw [eval_choice _ rfl, evalEach_singleton, eval_literal _ rfl]
    rfl
  · exact eval_negated rfl rfl rfl

end Walk

end GridPattern
