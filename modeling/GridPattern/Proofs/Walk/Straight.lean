import GridPattern.Proofs.Walk.Frame
import GridPattern.Proofs.Walk.Marks

/-!
# Straight ahead

A cursor that has no switch on and is not turned goes along a line. Nothing keeps it from leaving a cell, so
where it is after some steps, what it has marked and how old it is are known without following it.

**The law** (`Cursor.Plain.stepIf`, `Cursor.Plain.spell`). A step is one cell along the heading, and a text is
spelled if the cells of the line show it, one after the other.
-/

namespace GridPattern

/-! ## Cursors that go straight -/

namespace Cursor

/-- **A plain cursor**: no switch is on, and the last step went past no edge. -/
structure Plain (c : Cursor) : Prop where
  switches : c.switches = {}
  wrapped : c.wrapped = false

/-- The cursor so many steps further, each cell marked that it left. -/
def ahead (c : Cursor) (n : Nat) : Cursor :=
  { c with
    cell := c.cell.along c.heading n
    age := c.age + n
    marks := markAll c.marks (c.cell.line c.heading n) }

theorem ahead_ahead (c : Cursor) (m n : Nat) : (c.ahead m).ahead n = c.ahead (m + n) := by
  unfold ahead
  simp only [Cell.along_along, Cell.line_add, markAll_append, Nat.add_assoc]

namespace Plain

variable {c : Cursor} (h : c.Plain)
include h

theorem ahead (n : Nat) : (c.ahead n).Plain := ⟨h.switches, h.wrapped⟩

theorem mayLeave : c.mayLeave = true := by
  refine mayLeave_of_free ?_ ?_ <;> rw [h.switches]

theorem moved (grid : Grid) :
    c.moved grid = { c with cell := c.cell.along c.heading 1, age := c.age + 1 } := by
  have hwraps : c.switches.wraps = false := by rw [h.switches]; rfl
  rw [moved_eq grid hwraps, Cell.along_one, ← h.wrapped]

/-- A step that marks nothing. -/
theorem step_unmarked (grid : Grid) :
    c.step? grid false = some { c with cell := c.cell.along c.heading 1, age := c.age + 1 } := by
  rw [step?, if_pos h.mayLeave, if_neg Bool.false_ne_true, h.moved]

theorem step (grid : Grid) : c.step? grid true = some (c.ahead 1) := by
  have hmarked : c.markHere = { c with marks := addMark c.marks c.cell } := by
    rw [markHere_eq, h.switches]
    rfl
  have hplain : c.markHere.Plain := by
    rw [hmarked]
    exact ⟨h.switches, h.wrapped⟩
  rw [step?, if_pos h.mayLeave, if_pos rfl, hplain.moved, hmarked]
  simp [Cursor.ahead, Cell.line, markAll]

/-- **A step along the line**, if the test holds. -/
theorem stepIf (grid : Grid) (test : Bool) : c.stepIf? grid test = if test then some (c.ahead 1) else none := by
  unfold stepIf?
  rw [h.step]

/-- **A text is spelled where the line shows it.** -/
theorem spell (grid : Grid) (text : List Char) :
    c.spell? grid text = if grid.Shows text c.cell c.heading then some (c.ahead text.length) else none := by
  induction text generalizing c with
  | nil =>
    rw [if_pos nofun]
    simp [spell?, Cursor.ahead, Cell.line, markAll]
  | cons char text ih =>
    have htest : (c.char? grid).any (charMatches c.switches.insensitive char) =
        decide (grid.char? c.cell = some char) := by
      unfold Cursor.char? charMatches
      rw [h.switches]
      cases grid.char? c.cell with
      | none => rfl
      | some shown => simp [beq_eq_decide]
    rw [spell?, htest, h.stepIf]
    by_cases hfirst : grid.char? c.cell = some char
    · rw [decide_eq_true hfirst, if_pos rfl, Option.bind_eq_bind, Option.bind_some, ih (h.ahead 1),
        ahead_ahead, List.length_cons, Nat.add_comm 1]
      refine if_congr ?_ rfl rfl
      rw [Grid.shows_cons]
      exact (and_iff_right hfirst).symm
    · rw [decide_eq_false hfirst, if_neg Bool.false_ne_true,
        if_neg fun hshows => hfirst (Grid.shows_cons.mp hshows).1]
      rfl

end Plain

end Cursor

end GridPattern
