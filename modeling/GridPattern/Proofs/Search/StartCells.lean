import GridPattern.Proofs.Search.Report

/-!
# Where a search starts

A search starts from the columns of each row and one more at either end of it, whatever the rows beside it are
like. That takes in all that touches the grid, but for one thing: next to the end of a longer row there are
cells that lie further past the end of their own.

**The law** (`startCells_past_edges`). Of the cells that touch a cell of the grid those are start cells that do
not lie two or more columns past the end of their row. Above and below the grid these are all.

**What it does not establish.** What a search comes to from there. Start cells that touch no cell of the grid,
such as those beside an empty row, are not counted.
-/

namespace GridPattern

/-- **Cells that touch**: beside each other, one above the other, or corner to corner. -/
structure Cell.Touches (a b : Cell) : Prop where
  ne : a ≠ b
  columns : (a.x - b.x).natAbs ≤ 1
  rows : (a.y - b.y).natAbs ≤ 1

instance (a b : Cell) : Decidable (a.Touches b) :=
  decidable_of_iff (a ≠ b ∧ (a.x - b.x).natAbs ≤ 1 ∧ (a.y - b.y).natAbs ≤ 1)
    ⟨fun h => ⟨h.1, h.2.1, h.2.2⟩, fun h => ⟨h.ne, h.columns, h.rows⟩⟩

namespace Grid

variable {g : Grid} {c : Cell}

/-- **Two or more columns past the end of its row.** A cell above the grid or below it is in no row. -/
def IsFarPast (g : Grid) (c : Cell) : Prop := ∃ width, g.width? c.y = some width ∧ (width : Int) < c.x

/-- Rows off the grid have no width. -/
theorem width?_eq_none (h : c.y < 0 ∨ (g.height : Int) ≤ c.y) : g.width? c.y = none := by
  unfold width? row?
  obtain hneg | hbelow := h
  · rw [if_pos hneg]
    rfl
  · have hrow : g.rows[c.y.toNat]? = none := Array.getElem?_eq_none (show g.height ≤ c.y.toNat by omega)
    rw [if_neg (by omega), hrow]
    rfl

/-- **What touches the grid is a start cell**, unless it is too far past the end of its row. -/
theorem mem_startCells_of_touches {d : Cell} (hd : (g.char? d).isSome = true) (touches : c.Touches d) :
    c ∈ g.startCells ↔ ¬g.IsFarPast c := by
  obtain ⟨x, y, rfl, row, hrow, hx⟩ := isSome_char?_iff.mp hd
  have hcolumns := touches.columns
  have hrows := touches.rows
  have hy : y < g.height := (Array.getElem?_eq_some_iff.mp hrow).1
  dsimp only at hcolumns hrows
  -- all bounds but that on the right hold whatever the rows are like
  have hstart : c ∈ g.startCells ↔ c.x ≤ ((g.width? (max 0 (min c.y (g.height - 1)))).getD 0 : Nat) := by
    rw [mem_startCells]
    unfold startRows startColumns
    dsimp only
    omega
  rw [hstart]
  by_cases hin : 0 ≤ c.y ∧ c.y < g.height
  · have hnearest : max 0 (min c.y ((g.height : Int) - 1)) = c.y := by omega
    obtain ⟨row', hrow'⟩ : ∃ row', g.rows[c.y.toNat]? = some row' :=
      ⟨_, Array.getElem?_eq_getElem (show c.y.toNat < g.height by omega)⟩
    have hwidth : g.width? c.y = some row'.size := by
      rw [← Int.toNat_of_nonneg hin.1, width?_natCast, hrow']
      rfl
    rw [hnearest, hwidth, Option.getD_some]
    constructor
    · rintro hle ⟨width, hw, hlt⟩
      rw [hwidth] at hw
      cases hw
      omega
    · intro hnot
      by_contra hlt
      exact hnot ⟨row'.size, hwidth, by omega⟩
  · -- the nearest row is the one that is touched
    have hnearest : max 0 (min c.y ((g.height : Int) - 1)) = y := by omega
    rw [hnearest, width?_natCast, hrow, Option.map_some, Option.getD_some]
    refine iff_of_true (by omega) ?_
    rintro ⟨width, hw, _⟩
    rw [width?_eq_none (by omega)] at hw
    cases hw

/-- **Where a search starts**: from cells that differ, row by row; from every cell of the grid; and from all
cells that touch one of these, but for those that lie two or more columns past the end of their row. -/
theorem startCells_past_edges (g : Grid) :
    g.startCells.Nodup ∧ g.startCells.Pairwise RowMajor ∧
      (∀ c, (g.char? c).isSome = true → c ∈ g.startCells) ∧
        ∀ c d, (g.char? d).isSome = true → c.Touches d → (c ∈ g.startCells ↔ ¬g.IsFarPast c) := by
  refine ⟨g.nodup_startCells, g.pairwise_startCells, fun c hc => ?_, fun c d => mem_startCells_of_touches⟩
  obtain ⟨char, hchar⟩ := Option.isSome_iff_exists.mp hc
  exact mem_startCells_of_char? hchar

/-- Under `b`, the cell past the end of the lower row is a start cell. -/
theorem startCells_past_edges_under_b :
    let g : Grid := .ofText "abc\nd"
    g.char? ⟨1, 0⟩ = some 'b' ∧ g.char? ⟨1, 1⟩ = none ∧ (⟨1, 1⟩ : Cell) ∈ g.startCells := by
  intro g
  obtain ⟨_, _, _, htouches⟩ := startCells_past_edges g
  have hb : g.char? ⟨1, 0⟩ = some 'b' := by decide +kernel
  have hwidth : g.width? 1 = some 1 := by decide +kernel
  refine ⟨hb, by decide +kernel, (htouches ⟨1, 1⟩ ⟨1, 0⟩ (by rw [hb]; rfl) (by decide)).mpr ?_⟩
  rintro ⟨width, hw, hlt⟩
  cases hwidth.symm.trans hw
  exact absurd hlt (by decide)

/-- Under `c` the lower row has ended a column before: the cell there touches the grid and is no start cell. -/
theorem startCells_under_longer_row :
    let g : Grid := .ofText "abc\nd"
    g.char? ⟨2, 0⟩ = some 'c' ∧ g.char? ⟨2, 1⟩ = none ∧ Cell.Touches ⟨2, 1⟩ ⟨2, 0⟩ ∧
      (⟨2, 1⟩ : Cell) ∉ g.startCells := by
  decide +kernel

end Grid

end GridPattern
