import GridPattern.Proofs.Walk.Frame
import GridPattern.Proofs.Walk.Marks
import GridPattern.Proofs.Walk.Results

/-!
# Everywhere else

The direction everywhere heads for each other cell of the grid, however far off. The cells are those that have a
character, row by row, and whoever goes is there after one step. A step onto the grid crosses no edge, so it is all
one what wraps and where the cursor stands.

**The law** (`everywhere_reaches_others`). A branch for every other cell in reading order, and each arrives
(`Cursor.step_of_isSome`).

**What it does not establish.** That a cursor that goes nowhere can ask for it. It would be given new headings, but is
refused before it is asked what it wants (`everywhere_refuses_stalled`).
-/

namespace GridPattern

namespace Cursor

variable {grid : Grid} {c : Cursor} {target : Cell}

/-- **Who may leave every cell steps onto the grid wherever it is headed**, and wraps nowhere. -/
theorem step_of_isSome (hexclusive : c.switches.exclusive = false) (honly : c.switches.onlyMarked = false)
    (hx : c.cell.x + c.heading.dx = target.x) (hy : c.cell.y + c.heading.dy = target.y)
    (h : (grid.char? target).isSome = true) (marking : Bool) :
    c.step? grid marking = some { c with
      cell := target
      wrapped := false
      age := c.age + 1
      marks := if marking && !c.switches.noMark then addMark c.marks c.cell else c.marks } := by
  rw [step?, if_pos (mayLeave_of_free hexclusive honly)]
  cases marking with
  | false => exact congrArg some (moved_of_isSome hx hy h)
  | true =>
    have hmoved : c.markHere.moved grid =
        { c.markHere with cell := target, wrapped := false, age := c.age + 1 } := by
      rw [markHere_eq]
      exact moved_of_isSome hx hy h
    rw [if_pos rfl, hmoved, markHere_eq]
    cases c.switches.noMark <;> rfl

/-- The cursor after one step towards the cell that it was aimed at. -/
def arrivedAt (c : Cursor) (marking : Bool) (target : Cell) : Cursor :=
  { c.aimAt target with
    cell := target
    wrapped := false
    age := c.age + 1
    marks := if marking && !c.switches.noMark then addMark c.marks c.cell else c.marks }

theorem step_aimAt (hexclusive : c.switches.exclusive = false) (honly : c.switches.onlyMarked = false)
    (h : (grid.char? target).isSome = true) (marking : Bool) :
    (c.aimAt target).step? grid marking = some (c.arrivedAt marking target) :=
  step_of_isSome (c := c.aimAt target) hexclusive honly (add_sub_cancel _ _) (add_sub_cancel _ _) h marking

end Cursor

namespace Walk

variable {program : Program} {grid : Grid} {absolute : Bool} {c : Cursor}

/-- The other cells of a grid, row by row. -/
def others (grid : Grid) (c : Cursor) : List Cell := grid.cells.filter (· != c.cell)

theorem mem_others {cell : Cell} : cell ∈ others grid c ↔ (grid.char? cell).isSome = true ∧ cell ≠ c.cell := by
  unfold others
  rw [List.mem_filter, Grid.mem_cells, bne_iff_ne]

theorem pairwise_others (grid : Grid) (c : Cursor) : (others grid c).Pairwise RowMajor := grid.pairwise_cells.filter _

/-- The heading that there was has no part in the turn. -/
theorem turn_everywhere (budget : Option Nat) :
    turn ⟨program, grid, budget⟩ ⟨['!'], absolute⟩ c = pure (.ofList ((others grid c).map c.aimAt)) := by
  cases absolute <;> rfl

/-- But a walk needs one to come to the turn. -/
theorem outcomeAt_everywhere : outcomeAt program grid 1 (.direction ⟨['!'], absolute⟩) c =
    if c.heading.isStalled then .error (.fault .stalled) else .ok ((others grid c).map c.aimAt) := by
  cases hs : c.heading.isStalled with
  | true => exact outcomeAt_stalled hs
  | false =>
    refine outcomeAt_of_always hs ?_
    change (Survivors.toList <$> turn ⟨program, grid, none⟩ ⟨['!'], absolute⟩ c).Always _
    rw [turn_everywhere, map_pure, Survivors.toList_ofList]
    exact .pure _

/-- All branches take one step together, each to its cell. -/
theorem mapM_step_others (hexclusive : c.switches.exclusive = false) (honly : c.switches.onlyMarked = false)
    (marking : Bool) : ((others grid c).map c.aimAt).mapM (·.step? grid marking) =
      some ((others grid c).map (c.arrivedAt marking)) := by
  refine mapM_eq_some_iff.mpr (List.forall₂_map_left_iff.mpr (List.forall₂_map_right_iff.mpr ?_))
  apply List.forall₂_same.mpr
  intro target mem
  exact Cursor.step_aimAt hexclusive honly (mem_others.mp mem).1 marking

/-- **Everywhere is every other cell of the grid, one step away.** There is a branch for each in reading order, which
differs from the cursor in its heading only; and it takes one step, which wraps nowhere, to be there. Only a cursor
that goes nowhere is refused. -/
theorem everywhere_reaches_others (program : Program) (grid : Grid) (absolute : Bool) (c : Cursor)
    (hexclusive : c.switches.exclusive = false) (honly : c.switches.onlyMarked = false) :
    ∃ branches,
      (∀ budget, turn ⟨program, grid, budget⟩ ⟨['!'], absolute⟩ c = pure (.ofList branches)) ∧
      ResultsIn program grid (.direction ⟨['!'], absolute⟩) c
        (if c.heading.isStalled then .error .stalled else .ok branches) ∧
      (∀ t ∈ branches, t = { c with heading := t.heading }) ∧
      ∀ marking, ∃ arrived, branches.mapM (·.step? grid marking) = some arrived ∧
        (∀ t ∈ arrived, t.wrapped = false) ∧
        (arrived.map Cursor.cell).Pairwise RowMajor ∧ (arrived.map Cursor.cell).Nodup ∧
        ∀ cell, cell ∈ arrived.map Cursor.cell ↔ (grid.char? cell).isSome = true ∧ cell ≠ c.cell := by
  refine ⟨(others grid c).map c.aimAt, turn_everywhere, ?_, ?_, fun marking => ?_⟩
  · refine resultsIn_of_outcomeAt (outcomeAt_everywhere.trans ?_)
    split <;> rfl
  · exact List.forall_mem_map.mpr fun _ _ => rfl
  · have hcells : ((others grid c).map (c.arrivedAt marking)).map Cursor.cell = others grid c := by
      rw [List.map_map]
      exact List.map_id _
    refine ⟨_, mapM_step_others hexclusive honly marking, List.forall_mem_map.mpr fun _ _ => rfl, ?_⟩
    rw [hcells]
    exact ⟨pairwise_others grid c, (pairwise_others grid c).imp RowMajor.ne, fun _ => mem_others⟩

/-- From beside a ragged text with an empty row, on a heading that the turn has no use for. -/
theorem everywhere_reaches_others_ragged :
    let grid : Grid := .ofText "ab\n\nc"
    let c : Cursor := {
      cell := ⟨1, 2⟩, heading := ⟨0, 5⟩, marks := [⟨0, 0⟩], switches := { wrapX := true, wrapY := true } }
    let branches : List Cursor :=
      [{ c with heading := ⟨-1, -2⟩ }, { c with heading := ⟨0, -2⟩ }, { c with heading := ⟨-1, 0⟩ }]
    EndsWith ⟨[]⟩ grid (.direction ⟨['!'], false⟩) c branches ∧
      ∃ arrived, branches.mapM (·.step? grid true) = some arrived ∧
        arrived.map Cursor.cell = [⟨0, 0⟩, ⟨1, 0⟩, ⟨0, 2⟩] ∧ (∀ t ∈ arrived, t.wrapped = false) ∧
        (arrived.map Cursor.cell).Pairwise RowMajor := by
  intro grid c branches
  obtain ⟨ends, _, hends, _, hsteps⟩ := everywhere_reaches_others ⟨[]⟩ grid false c rfl rfl
  have hrun : ((followAll ⟨⟨[]⟩, grid, none⟩ 1 (.direction ⟨['!'], false⟩) (.one c)).runFrom 0).1 =
      .ok (.ofList branches) := by decide +kernel
  have hturned : EndsWith ⟨[]⟩ grid (.direction ⟨['!'], false⟩) c branches := endsWith_of_runFrom hrun
  cases (resultsIn_ok_iff.mp hends).eq hturned
  obtain ⟨arrived, harrived, hwrapped, hordered, _, _⟩ := hsteps true
  have hcells : Option.map (List.map Cursor.cell) (branches.mapM fun t : Cursor => t.step? grid true) =
      some [⟨0, 0⟩, ⟨1, 0⟩, ⟨0, 2⟩] := by decide +kernel
  rw [harrived] at hcells
  exact ⟨hturned, arrived, harrived, Option.some.inj hcells, hwrapped, hordered⟩

/-- **A cursor that goes nowhere is refused**, and has no branches, though the turn alone would head it for the other
cell. -/
theorem everywhere_refuses_stalled :
    let grid : Grid := .ofText "ab"
    let c : Cursor := { cell := ⟨0, 0⟩, heading := ⟨0, 0⟩ }
    ResultsIn ⟨[]⟩ grid (.direction ⟨['!'], false⟩) c (.error .stalled) ∧
      (¬∃ branches, EndsWith ⟨[]⟩ grid (.direction ⟨['!'], false⟩) c branches) ∧
      turn ⟨⟨[]⟩, grid, none⟩ ⟨['!'], false⟩ c = pure (.one { c with heading := ⟨1, 0⟩ }) := by
  intro grid c
  have hrefused : ResultsIn ⟨[]⟩ grid (.direction ⟨['!'], false⟩) c (.error .stalled) :=
    resultsIn_of_outcomeAt outcomeAt_everywhere
  refine ⟨hrefused, ?_, rfl⟩
  rintro ⟨branches, least, hends⟩
  obtain ⟨enough, hstops⟩ := hrefused
  cases (hstops _ (Nat.le_max_left enough least) 0).symm.trans (hends _ (Nat.le_max_right enough least) 0)

end Walk

end GridPattern
