import GridPattern.Proofs.Compass
import GridPattern.Proofs.Walk.Motion

/-!
# Quarter turns

Directions are seen from the cursor, so a program cannot tell a grid from the same grid turned by a quarter,
if the cursor is turned with it. Who names a direction of the grid, or comes to the end of a row and in at
the other, can tell: rows and columns are not the same to these.

**The law** (`followAll_rotated`). On a rectangle turned clockwise, a cursor turned with it has the survivors
that it would have had, turned, in the same order; or it meets the same fault, after as many steps.

**What it does not establish.** Anything about grids that are no rectangles: a quarter turn would put the
ends of short rows off the grid, where there are other rows.
-/

namespace GridPattern

/-! ## Cells and headings -/

/-- The cell that a quarter turn, clockwise, of a grid of that height takes a cell to. -/
def Cell.rotated (height : Int) (c : Cell) : Cell := ⟨height - 1 - c.y, c.x⟩

theorem Cell.rotated_injective (height : Int) : (Cell.rotated height).Injective := by
  rintro ⟨x, y⟩ ⟨x', y'⟩ h
  simp only [rotated, Cell.mk.injEq] at h ⊢
  omega

namespace Heading

/-- The heading after a quarter turn of the grid, clockwise. -/
def rotated (h : Heading) : Heading := ⟨-h.dy, h.dx⟩

@[simp] theorem isStalled_rotated (h : Heading) : h.rotated.isStalled = h.isStalled := by
  rw [Bool.eq_iff_iff]
  simp only [isStalled, rotated, Bool.and_eq_true, beq_iff_eq]
  omega

theorem unit_rotated (h : Heading) : h.rotated.unit = h.unit.rotated := by
  simp only [unit, rotated, Int.sign_neg]

theorem bent_rotated {h : Heading} (hgoing : h.isStalled = false) (left ahead : Int) :
    h.rotated.bent left ahead = (h.bent left ahead).rotated := by
  rw [bent_eq hgoing, bent_eq (h.isStalled_rotated.trans hgoing)]
  simp only [rotated, Int.sign_neg, mk.injEq]
  constructor <;> ring

/-- **Bends do not see where the grid is turned to.** -/
theorem turn_rotated {h : Heading} (hgoing : h.isStalled = false) (b : Bend) :
    h.rotated.turn b = (h.turn b).rotated := by
  unfold turn
  dsimp only
  rw [bent_rotated hgoing, unit_rotated]
  split_ifs <;> rfl

end Heading

/-- **A quarter turn**, clockwise, of a grid of that height. -/
def Motion.quarterTurn (height : Int) : Motion where
  cell := Cell.rotated height
  heading := Heading.rotated
  injective := Cell.rotated_injective height
  step c h := by
    simp only [Cell.rotated, Heading.rotated, Cell.mk.injEq, and_true]
    omega
  turn := Heading.turn_rotated

/-! ## Grids -/

/-- **A grid of rows of one length**, which has a cell. -/
structure Rectangle where
  grid : Grid
  width : Nat
  width_pos : 0 < width
  row_size : ∀ row ∈ grid.rows, row.size = width

namespace Rectangle

/-- The character of a cell. -/
def charAt (r : Rectangle) (x : Fin r.width) (y : Fin r.grid.height) : Char :=
  have hrow : y < r.grid.rows.size := y.isLt
  have hchar : x < r.grid.rows[y].size := (r.row_size _ (Array.getElem_mem hrow)).symm ▸ x.isLt
  r.grid.rows[y][x]

/-- The rectangle after a quarter turn, clockwise: its rows are the columns, from the bottom up. -/
def rotated (r : Rectangle) : Rectangle where
  grid := ⟨.ofFn fun y => .ofFn fun x => r.charAt y x.rev, by simpa using r.width_pos⟩
  width := r.grid.height
  width_pos := r.grid.rows_pos
  row_size row mem := by
    obtain ⟨y, rfl⟩ := Array.mem_ofFn.mp mem
    exact Array.size_ofFn

/-- On the rectangle each cell has its character. -/
theorem char?_eq_some (r : Rectangle) (x : Fin r.width) (y : Fin r.grid.height) :
    r.grid.char? ⟨x, y⟩ = some (r.charAt x y) := by
  have hrow : y < r.grid.rows.size := y.isLt
  have hchar : x < r.grid.rows[y].size := (r.row_size _ (Array.getElem_mem hrow)).symm ▸ x.isLt
  rw [Grid.char?_natCast, Array.getElem?_eq_getElem hrow]
  exact Array.getElem?_eq_getElem hchar

/-- Off the rectangle there is none. -/
theorem char?_eq_none (r : Rectangle) {c : Cell}
    (h : ¬(0 ≤ c.x ∧ c.x < r.width ∧ 0 ≤ c.y ∧ c.y < r.grid.height)) : r.grid.char? c = none := by
  by_cases hneg : c.x < 0 ∨ c.y < 0
  · exact Grid.char?_of_neg hneg
  · obtain ⟨hx, hy⟩ := not_or.mp hneg
    obtain ⟨x, y, rfl⟩ := Cell.exists_eq_natCast (Int.not_lt.mp hx) (Int.not_lt.mp hy)
    rw [Grid.char?_natCast, Option.bind_eq_none_iff]
    intro row hrow
    obtain ⟨hlt, rfl⟩ := Array.getElem?_eq_some_iff.mp hrow
    rw [Array.getElem?_eq_none_iff, r.row_size _ (Array.getElem_mem hlt)]
    have hheight : y < r.grid.height := hlt
    dsimp only at h
    omega

theorem height_rotated (r : Rectangle) : r.rotated.grid.height = r.width := Array.size_ofFn

/-- **A quarter turn takes each character with its cell.** -/
theorem char?_rotated (r : Rectangle) (c : Cell) :
    r.rotated.grid.char? (c.rotated r.grid.height) = r.grid.char? c := by
  by_cases h : 0 ≤ c.x ∧ c.x < r.width ∧ 0 ≤ c.y ∧ c.y < r.grid.height
  · obtain ⟨hx, hwidth, hy, hheight⟩ := h
    obtain ⟨x, y, rfl⟩ := Cell.exists_eq_natCast hx hy
    have hx : x < r.width := Int.ofNat_lt.mp hwidth
    have hy : y < r.grid.height := Int.ofNat_lt.mp hheight
    have hcell : Cell.rotated r.grid.height ⟨x, y⟩ = ⟨(Fin.rev ⟨y, hy⟩ : Fin r.grid.height), x⟩ := by
      simp only [Cell.rotated, Fin.val_rev, Cell.mk.injEq, and_true]
      omega
    have hold : r.grid.char? ⟨x, y⟩ = some (r.charAt ⟨x, hx⟩ ⟨y, hy⟩) := r.char?_eq_some ⟨x, hx⟩ ⟨y, hy⟩
    refine Eq.trans ?_ hold.symm
    rw [hcell, Grid.char?_natCast]
    unfold rotated
    dsimp only
    rw [Array.getElem?_ofFn, dif_pos hx, Option.bind_some, Array.getElem?_ofFn, dif_pos (Fin.isLt _)]
    rw [Fin.eta, Fin.rev_rev]
  · rw [char?_eq_none r h, char?_eq_none]
    have hwidth : r.rotated.width = r.grid.height := rfl
    rw [height_rotated, hwidth]
    unfold Cell.rotated
    dsimp only
    omega

end Rectangle

/-! ## Cursors -/

namespace Cursor

/-- The cursor after a quarter turn of a grid of that height, clockwise. -/
def rotated (height : Int) (c : Cursor) : Cursor :=
  { c with
    cell := c.cell.rotated height
    heading := c.heading.rotated
    marks := c.marks.map (·.rotated height) }

end Cursor

/-! ## The walk -/

namespace Walk

/-- The part of the language in which all directions are seen from the cursor, and the grid ends at its
ends. -/
def unaligned : Fragment where
  params p := !p.switches.wraps
  way d := !d.absolute && d.turns != ['!']

variable (r : Rectangle)

/-- **Each move on the turned rectangle is the move turned.** -/
theorem rotated_simulates :
    Walker.Simulates unaligned (Walker.cursor r.grid) (Walker.cursor r.rotated.grid)
      fun c c' => c' = c.rotated r.grid.height ∧ c.switches.wraps = false := by
  refine (Motion.quarterTurn r.grid.height).simulates (fun p hp => ?_) r.char?_rotated fun way hway => ?_
  · simpa [unaligned] using hp
  · simp only [unaligned, Bool.and_eq_true, Bool.not_eq_true', bne_iff_ne, ne_eq] at hway
    exact ⟨fun habsolute => absurd habsolute (Bool.eq_false_iff.mp hway.1), fun hall => absurd hall hway.2⟩

/-- **Walks are equivariant under quarter turns.** -/
theorem followAll_rotated (program : Program) (hprogram : unaligned.allowsProgram program = true)
    (node : Node) (hnode : unaligned.allows node = true) (c : Cursor) (hc : c.switches.wraps = false)
    (budget : Option Nat) (depth count : Nat) :
    (followAll ⟨program, r.rotated.grid, budget⟩ depth node (.one (c.rotated r.grid.height))).runFrom count =
      Counted.mapEnd (Cursor.rotated r.grid.height)
        ((followAll ⟨program, r.grid, budget⟩ depth node (.one c)).runFrom count) := by
  have h := (rotated_simulates r).followAll (Fragment.closed_of_allowsProgram hprogram) budget depth
    hnode ⟨rfl, hc⟩
  exact h.runFrom_eq (fun _ _ h => h.1) count

/-- Two rows of three. -/
def tile : Rectangle where
  grid := ⟨#[#['a', 'b', 'c'], #['d', 'e', 'f']], by decide⟩
  width := 3
  width_pos := by decide
  row_size := by decide

/-- Over an `a`, one step further in any direction, and from there off on a knight's move. -/
def leaps : Node :=
  .sequence [.literal ['a'], .direction ⟨['*'], false⟩, .inside,
    .call ⟨"leap", ⟨['L', 'F', 'F'], false⟩, { piggyback := true, group := some 3 }⟩]

/-- The four ways that stay on the tile, and the same four on the turned tile: from its upper right corner
down, for there the `a` is now. -/
theorem followAll_rotated_leaps :
    let program : Program := ⟨[⟨"leap", { switches := { exclusive := true } }, .inside⟩]⟩
    let start : Cursor := { cell := ⟨0, 0⟩ }
    let walk (grid : Grid) (c : Cursor) : Except Stop (Survivors Cursor) × Nat :=
      (followAll ⟨program, grid, none⟩ 9 leaps (.one c)).runFrom 0
    let places (found : Survivors Cursor) : List (Cell × Heading) :=
      found.toList.map fun t => (t.cell, t.heading)
    (start.rotated 2).cell = ⟨1, 0⟩ ∧ (start.rotated 2).heading = ⟨0, 1⟩ ∧
      ∃ found, (walk tile.grid start).1 = .ok found ∧
        places found = [(⟨-1, 4⟩, ⟨-1, 3⟩), (⟨2, 3⟩, ⟨1, 2⟩), (⟨5, 2⟩, ⟨3, 1⟩), (⟨4, -1⟩, ⟨2, -1⟩)] ∧
        places (found.map (Cursor.rotated 2)) =
          [(⟨-3, -1⟩, ⟨-3, -1⟩), (⟨-2, 2⟩, ⟨-2, 1⟩), (⟨-1, 5⟩, ⟨-1, 3⟩), (⟨2, 4⟩, ⟨1, 2⟩)] ∧
        walk tile.rotated.grid (start.rotated 2) =
          (.ok (found.map (Cursor.rotated 2)), (walk tile.grid start).2) := by
  intro program start walk places
  have walked : (fun found => (places found, places (found.map (Cursor.rotated 2)))) <$>
      (walk tile.grid start).1 =
        .ok ([(⟨-1, 4⟩, ⟨-1, 3⟩), (⟨2, 3⟩, ⟨1, 2⟩), (⟨5, 2⟩, ⟨3, 1⟩), (⟨4, -1⟩, ⟨2, -1⟩)],
          [(⟨-3, -1⟩, ⟨-3, -1⟩), (⟨-2, 2⟩, ⟨-2, 1⟩), (⟨-1, 5⟩, ⟨-1, 3⟩), (⟨2, 4⟩, ⟨1, 2⟩)]) := by
    decide +kernel
  obtain ⟨found, hfound, hplaces⟩ := map_eq_ok_iff.mp walked
  obtain ⟨hplaces, hrotated⟩ := Prod.mk.inj hplaces
  have hturned := followAll_rotated tile program (by decide) leaps (by decide) start rfl none 9 0
  refine ⟨rfl, rfl, found, hfound, hplaces, hrotated, hturned.trans ?_⟩
  exact congrArg (fun r => (Except.map (Survivors.map (Cursor.rotated 2)) r, (walk tile.grid start).2)) hfound

end Walk

end GridPattern
