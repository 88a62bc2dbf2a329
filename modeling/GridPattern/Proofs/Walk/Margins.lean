import GridPattern.Proofs.Walk.Motion

/-!
# Margins

Empty rows above a grid and below it have no cell. Nobody can read there, so they are like what is past the edge
of every grid, unless someone wraps and comes in where the grid begins or ends.

**The law** (`followAll_lowered`). Empty lines before a text and after it lower what a cursor finds, by as many
rows as there are lines before, and change nothing else: the survivors come in the same order, or the same fault
after as many steps. Directions of the grid and turns towards every other cell are no exception.
-/

namespace GridPattern

/-! ## Cells -/

/-- The cell so many rows further down. -/
def Cell.lowered (rows : Int) (c : Cell) : Cell := ⟨c.x, c.y + rows⟩

/-- **The way down**, by so many rows. Headings stay what they are. -/
def Motion.lowering (rows : Int) : Motion where
  cell := Cell.lowered rows
  heading := id
  injective := by
    rintro ⟨x, y⟩ ⟨x', y'⟩ h
    simp only [Cell.lowered, Cell.mk.injEq] at h ⊢
    omega
  step c h := by
    simp only [Cell.lowered, id, Cell.mk.injEq, true_and]
    omega
  turn _ _ := rfl

/-! ## Grids -/

namespace Grid

/-- The characters of a row, none where there is no row. -/
def rowAt (g : Grid) (y : Nat) : Array Char := g.rows[y]?.getD #[]

variable (g : Grid)

theorem char?_eq_rowAt (x y : Nat) : g.char? ⟨x, y⟩ = (g.rowAt y)[x]? := by
  rw [char?_natCast, rowAt]
  cases g.rows[y]? <;> rfl

theorem rowAt_of_height_le {y : Nat} (h : g.height ≤ y) : g.rowAt y = #[] := by
  rw [rowAt, Array.getElem?_eq_none h, Option.getD_none]

/-- The cells of a row. -/
def cellsAt (g : Grid) (y : Nat) : List Cell := (List.range (g.rowAt y).size).map fun x : Nat => ⟨x, y⟩

theorem cells_eq_cellsAt : g.cells = (List.range g.height).flatMap g.cellsAt := by
  refine List.flatMap_congr fun y _ => ?_
  have hwidth : (g.width? y).getD 0 = (g.rowAt y).size := by
    change ((g.rows[y]?).map Array.size).getD 0 = _
    rw [rowAt]
    cases g.rows[y]? <;> rfl
  rw [hwidth]
  rfl

/-- The grid with empty rows above and below. -/
def withMargins (g : Grid) (above below : Nat) : Grid where
  rows := Array.replicate above #[] ++ g.rows ++ Array.replicate below #[]
  rows_pos := by
    have hpos := g.rows_pos
    simp only [Array.size_append, Array.size_replicate]
    omega

variable (above below : Nat)

theorem rows_withMargins : (g.withMargins above below).rows =
    Array.replicate above #[] ++ (g.rows ++ Array.replicate below #[]) := Array.append_assoc

theorem height_withMargins : (g.withMargins above below).height = above + (g.height + below) := by
  rw [height, rows_withMargins, Array.size_append, Array.size_append, Array.size_replicate, Array.size_replicate]
  rfl

theorem rowAt_above {y : Nat} (h : y < above) : (g.withMargins above below).rowAt y = #[] := by
  have hlt : y < (Array.replicate above (#[] : Array Char)).size := by rwa [Array.size_replicate]
  rw [rowAt, rows_withMargins, Array.getElem?_append_left hlt, Array.getElem?_replicate, if_pos h]
  rfl

/-- Row by row the grid is further down, past its end too. -/
theorem rowAt_withMargins (y : Nat) : (g.withMargins above below).rowAt (above + y) = g.rowAt y := by
  have hge : (Array.replicate above (#[] : Array Char)).size ≤ above + y := by
    rw [Array.size_replicate]
    exact Nat.le_add_right _ _
  rw [rowAt, rowAt, rows_withMargins, Array.getElem?_append_right hge, Array.size_replicate,
    Nat.add_sub_cancel_left]
  by_cases h : y < g.rows.size
  · rw [Array.getElem?_append_left h]
  · rw [Array.getElem?_append_right (Nat.le_of_not_lt h), Array.getElem?_eq_none (Nat.le_of_not_lt h),
      Array.getElem?_replicate]
    split <;> rfl

/-- **Empty rows take the characters down**, each with its cell. -/
theorem char?_withMargins (c : Cell) : (g.withMargins above below).char? (c.lowered above) = g.char? c := by
  by_cases hneg : c.x < 0 ∨ c.y < 0
  · rw [char?_of_neg hneg]
    by_cases hneg' : c.x < 0 ∨ c.y + above < 0
    · exact char?_of_neg hneg'
    · -- in the margin above
      obtain ⟨x, y, heq⟩ := Cell.exists_eq_natCast (c := c.lowered above) (by simp only [Cell.lowered]; omega)
        (by simp only [Cell.lowered]; omega)
      have hy : y < above := by
        simp only [Cell.lowered, Cell.mk.injEq] at heq
        omega
      rw [heq, char?_eq_rowAt, rowAt_above g above below hy]
      rfl
  · obtain ⟨hx, hy⟩ := not_or.mp hneg
    obtain ⟨x, y, rfl⟩ := Cell.exists_eq_natCast (Int.not_lt.mp hx) (Int.not_lt.mp hy)
    have hcell : Cell.lowered above ⟨x, y⟩ = ⟨x, (above + y : Nat)⟩ := by
      simp only [Cell.lowered, Cell.mk.injEq, true_and]
      omega
    rw [hcell, char?_eq_rowAt, char?_eq_rowAt, rowAt_withMargins]

theorem cellsAt_of_empty {y : Nat} (h : g.rowAt y = #[]) : g.cellsAt y = [] := by
  rw [cellsAt, h]
  rfl

/-- **Empty rows take the cells down**, in their order. -/
theorem cells_withMargins : (g.withMargins above below).cells = g.cells.map (·.lowered above) := by
  have habove : (List.range above).flatMap (g.withMargins above below).cellsAt = [] := by
    refine List.flatMap_eq_nil_iff.mpr fun y hy => cellsAt_of_empty _ ?_
    exact rowAt_above g above below (List.mem_range.mp hy)
  have hrow : ∀ y, (g.withMargins above below).cellsAt (above + y) = (g.cellsAt y).map (·.lowered above) := by
    intro y
    rw [cellsAt, cellsAt, rowAt_withMargins, List.map_map]
    refine List.map_congr_left fun x _ => ?_
    simp only [Function.comp, Cell.lowered, Cell.mk.injEq, true_and]
    omega
  have hbelow : (List.range below).flatMap (fun y => g.cellsAt (g.height + y)) = [] := by
    refine List.flatMap_eq_nil_iff.mpr fun y _ => cellsAt_of_empty g ?_
    exact g.rowAt_of_height_le (Nat.le_add_right _ _)
  have hall : (List.range (g.height + below)).flatMap g.cellsAt = g.cells := by
    rw [cells_eq_cellsAt, List.range_add, List.flatMap_append, List.flatMap_map, hbelow, List.append_nil]
  rw [cells_eq_cellsAt, height_withMargins, List.range_add, List.flatMap_append, habove, List.nil_append,
    List.flatMap_map, ← hall, List.map_flatMap]
  exact List.flatMap_congr fun y _ => hrow y

end Grid

/-! ## Texts -/

namespace Text

variable (separator : Char) (n : Nat)

/-- Separators in front are empty pieces in front. -/
theorem toList_split_before (text : List Char) :
    (split separator (List.replicate n separator ++ text)).toList =
      List.replicate n [] ++ (split separator text).toList := by
  induction n with
  | zero => rfl
  | succ n ih =>
    rw [List.replicate_succ, List.cons_append, split_cons, if_pos rfl, Pieces.toList, ih]
    rfl

/-- Separators at the end are empty pieces at the end. -/
theorem toList_split_after (text : List Char) :
    (split separator (text ++ List.replicate n separator)).toList =
      (split separator text).toList ++ List.replicate n [] := by
  induction text with
  | nil =>
    have hbefore := toList_split_before separator n []
    rw [List.append_nil] at hbefore
    rw [List.nil_append, hbefore]
    exact List.replicate_succ'.symm.trans List.replicate_succ
  | cons c text ih =>
    obtain ⟨hfirst, hothers⟩ := List.cons.inj ih
    rw [List.cons_append, split_cons, split_cons]
    by_cases hc : c = separator
    · rw [if_pos hc, if_pos hc, Pieces.toList, ih]
      rfl
    · rw [if_neg hc, if_neg hc, Pieces.toList, Pieces.toList, hfirst, hothers]
      rfl

end Text

/-- So many empty lines. -/
def emptyLines (n : Nat) : String := String.ofList (List.replicate n '\n')

theorem map_shownAs_emptyLines (n : Nat) : (emptyLines n).toList.map Grid.shownAs = List.replicate n '\n' := by
  rw [emptyLines, String.toList_ofList, List.map_replicate]
  rfl

/-- **Empty lines of a text are the margins of its grid.** -/
theorem Grid.ofText_emptyLines (above below : Nat) (text : String) :
    ofText (emptyLines above ++ text ++ emptyLines below) = (ofText text).withMargins above below := by
  have hpieces : (Text.split '\n' ((emptyLines above ++ text ++ emptyLines below).toList.map shownAs)).toList =
      List.replicate above [] ++ (Text.split '\n' (text.toList.map shownAs)).toList ++ List.replicate below [] := by
    rw [String.toList_append, String.toList_append, List.map_append, List.map_append, map_shownAs_emptyLines,
      map_shownAs_emptyLines, Text.toList_split_after, Text.toList_split_before]
  unfold withMargins ofText
  rw [Grid.mk.injEq, hpieces]
  simp

/-! ## The walk -/

/-- The cursor so many rows further down, its marks with it. -/
def Cursor.lowered (rows : Int) (c : Cursor) : Cursor :=
  { c with cell := c.cell.lowered rows, marks := c.marks.map (·.lowered rows) }

namespace Walk

/-- The part of the language in which nobody wraps. -/
def unwrapped : Fragment where
  params p := !p.switches.wraps

/-- **Each move under a margin is the move further down.** -/
theorem lowered_simulates (grid : Grid) (above below : Nat) :
    Walker.Simulates unwrapped (Walker.cursor grid) (Walker.cursor (grid.withMargins above below))
      fun c c' => c' = c.lowered above ∧ c.switches.wraps = false := by
  refine (Motion.lowering above).simulates (fun p hp => ?_) (grid.char?_withMargins above below) fun _ _ => ?_
  · simpa [unwrapped] using hp
  · exact ⟨fun _ => rfl, fun _ => grid.cells_withMargins above below⟩

/-- **Walks are equivariant under empty lines**: those before a text lower the survivors, or the fault comes
after as many steps, and those after it do nothing. -/
theorem followAll_lowered (program : Program) (hprogram : unwrapped.allowsProgram program = true)
    (text : String) (above below : Nat) (node : Node) (hnode : unwrapped.allows node = true)
    (c : Cursor) (hc : c.switches.wraps = false) (budget : Option Nat) (depth count : Nat) :
    (followAll ⟨program, .ofText (emptyLines above ++ text ++ emptyLines below), budget⟩ depth node
        (.one (c.lowered above))).runFrom count =
      Counted.mapEnd (Cursor.lowered above)
        ((followAll ⟨program, .ofText text, budget⟩ depth node (.one c)).runFrom count) := by
  have h := (lowered_simulates (.ofText text) above below).followAll
    (Fragment.closed_of_allowsProgram hprogram) budget depth hnode ⟨rfl, hc⟩
  rw [Grid.ofText_emptyLines]
  exact h.runFrom_eq (fun _ _ h => h.1) count

/-- A step, one to every other cell from there, and a fall straight down. -/
def fallen : Node :=
  .sequence [.inside, .direction ⟨['!'], false⟩, .inside, .direction ⟨['R'], true⟩,
    .call ⟨"fall", .forward, { piggyback := true, group := some 1 }⟩]

/-- Two cells to fall from, and the same two under two empty lines: with marks of their own, and with the one
that the cursor began with. -/
theorem followAll_lowered_fallen :
    let program : Program := ⟨[⟨"fall", { switches := { insensitive := true } }, .choice [.inside, .outside]⟩]⟩
    let start : Cursor := { cell := ⟨0, 0⟩, marks := [⟨3, -1⟩] }
    let walk (text : String) (c : Cursor) : Except Stop (Survivors Cursor) × Nat :=
      (followAll ⟨program, .ofText text, some 50⟩ 9 fallen (.one c)).runFrom 0
    let places (found : Survivors Cursor) : List (Cell × List Cell) :=
      found.toList.map fun t => (t.cell, t.marks)
    unwrapped.allowsProgram program = true ∧ unwrapped.allows fallen = true ∧ start.switches.wraps = false ∧
      ∃ found, (walk "ab\nc" start).1 = .ok found ∧
        places found = [(⟨0, 1⟩, [⟨3, -1⟩, ⟨0, 0⟩, ⟨1, 0⟩]), (⟨0, 2⟩, [⟨3, -1⟩, ⟨0, 0⟩, ⟨1, 0⟩, ⟨0, 1⟩])] ∧
        places (found.map (Cursor.lowered 2)) =
          [(⟨0, 3⟩, [⟨3, 1⟩, ⟨0, 2⟩, ⟨1, 2⟩]), (⟨0, 4⟩, [⟨3, 1⟩, ⟨0, 2⟩, ⟨1, 2⟩, ⟨0, 3⟩])] ∧
        walk (emptyLines 2 ++ "ab\nc" ++ emptyLines 1) (start.lowered 2) =
          (.ok (found.map (Cursor.lowered 2)), (walk "ab\nc" start).2) := by
  intro program start walk places
  have walked : (fun found => (places found, places (found.map (Cursor.lowered 2)))) <$> (walk "ab\nc" start).1 =
      .ok ([(⟨0, 1⟩, [⟨3, -1⟩, ⟨0, 0⟩, ⟨1, 0⟩]), (⟨0, 2⟩, [⟨3, -1⟩, ⟨0, 0⟩, ⟨1, 0⟩, ⟨0, 1⟩])],
        [(⟨0, 3⟩, [⟨3, 1⟩, ⟨0, 2⟩, ⟨1, 2⟩]), (⟨0, 4⟩, [⟨3, 1⟩, ⟨0, 2⟩, ⟨1, 2⟩, ⟨0, 3⟩])]) := by
    decide +kernel
  obtain ⟨found, hfound, hplaces⟩ := map_eq_ok_iff.mp walked
  obtain ⟨hplaces, hlowered⟩ := Prod.mk.inj hplaces
  have hwalk := followAll_lowered program (by decide) "ab\nc" 2 1 fallen (by decide) start rfl (some 50) 9 0
  refine ⟨by decide, by decide, rfl, found, hfound, hplaces, hlowered, hwalk.trans ?_⟩
  exact congrArg (fun r => (Except.map (Survivors.map (Cursor.lowered 2)) r, (walk "ab\nc" start).2)) hfound

end Walk

end GridPattern
