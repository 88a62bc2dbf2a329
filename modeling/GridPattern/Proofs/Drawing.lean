import GridPattern.Drawing
import GridPattern.Proofs.Grid
import Mathlib.Data.List.Basic

/-!
# Reading drawings back

A plain drawing sets brackets and blanks among characters that may be brackets and blanks themselves. Which are which
is told by the place alone: lines end at line feeds, which no row has, and three characters of a line are one cell.

**The law** (`plain_reads_back`). So a drawing tells the grid and which cells of the grid are marked, and tells nothing
else: neither the order of the marks, nor how often a cell is marked, nor marks off the grid, nor the origin.

Any drawing, with brackets or with terminal attributes, shows the cells that can be looked up (`draw_eq`).
-/

namespace GridPattern.Drawing

variable {grid grid' : Grid} {m m' : Match}

/-! ## Cell by cell -/

/-- The entries of a list with their numbers, looked up by number. -/
theorem flatMap_zipIdx {α β : Type} (as : List α) (f : α × Nat → List β) :
    as.zipIdx.flatMap f = (List.range as.length).flatMap fun i => (as[i]?).elim [] fun a => f (a, i) := by
  have hentries : as.zipIdx.map f = (List.range as.length).map fun i => (as[i]?).elim [] fun a => f (a, i) := by
    refine List.ext_getElem (by simp) fun i hi _ => ?_
    have hlt : i < as.length := by simpa using hi
    simp [List.getElem?_eq_getElem hlt]
  rw [List.flatMap_def, hentries, List.flatMap_def]

/-- Each cell of a grid is looked up and drawn: rows from the top, each from the left and ended by a line feed. -/
def cellByCell (grid : Grid) (cell : Cell → Char → List Char) : List Char :=
  (List.range grid.height).flatMap fun y : Nat =>
    ((List.range ((grid.width? y).getD 0)).flatMap fun x : Nat => (grid.char? ⟨x, y⟩).elim [] (cell ⟨x, y⟩)) ++ ['\n']

theorem draw_eq (grid : Grid) (cell : Cell → Char → List Char) : draw grid cell = cellByCell grid cell := by
  unfold draw cellByCell
  rw [flatMap_zipIdx, Array.length_toList]
  refine List.flatMap_congr fun y mem => ?_
  obtain ⟨row, hrow⟩ : ∃ row, grid.rows[y]? = some row := ⟨_, Array.getElem?_eq_getElem (List.mem_range.mp mem)⟩
  simp only [Grid.width?_natCast, Grid.char?_natCast, Array.getElem?_toList, hrow, Option.elim_some, flatMap_zipIdx,
    Array.length_toList, Option.map_some, Option.getD_some, Option.bind_some]

/-! ## Lines that end at line feeds -/

/-- Cut at the line feeds, a text is its lines, and nothing after the last. -/
theorem splitOn_lines {lines : List (List Char)} (h : ∀ line ∈ lines, '\n' ∉ line) :
    (lines.flatMap (· ++ ['\n'])).splitOn '\n' = lines ++ [[]] := by
  induction lines with
  | nil => rfl
  | cons line lines ih =>
    obtain ⟨hline, hlines⟩ := List.forall_mem_cons.mp h
    rw [List.flatMap_cons, List.append_assoc, List.singleton_append,
      List.splitOn_append_cons_self_of_not_mem hline, ih hlines, List.cons_append]

theorem lines_injective {lines lines' : List (List Char)} (h : ∀ line ∈ lines, '\n' ∉ line)
    (h' : ∀ line ∈ lines', '\n' ∉ line) (heq : lines.flatMap (· ++ ['\n']) = lines'.flatMap (· ++ ['\n'])) :
    lines = lines' := by
  have hcut := congrArg (List.splitOn '\n') heq
  rw [splitOn_lines h, splitOn_lines h'] at hcut
  exact List.append_cancel_right hcut

/-! ## Pieces of one length -/

section Pieces

variable {α β : Type} {f : α → List β} {k : Nat}

theorem length_flatMap_of_length (hf : ∀ a, (f a).length = k) (as : List α) :
    (as.flatMap f).length = k * as.length := by
  simp [List.length_flatMap, hf, Nat.mul_comm]

/-- The pieces stand one after the other, so each is found by its number. -/
theorem take_drop_flatMap (hf : ∀ a, (f a).length = k) {as : List α} {i : Nat} {a : α} (h : as[i]? = some a) :
    ((as.flatMap f).drop (k * i)).take k = f a := by
  induction as generalizing i with
  | nil => cases h
  | cons b as ih =>
    rw [List.flatMap_cons]
    cases i with
    | zero =>
      cases h
      exact List.take_left' (hf a)
    | succ i =>
      rw [Nat.mul_succ, Nat.add_comm, ← hf b, List.drop_length_add_append, hf b]
      exact ih h

end Pieces

/-! ## Lines of drawings -/

theorem length_plainCell (marked : Bool) (c : Char) : (plainCell marked c).length = 3 := by
  cases marked <;> rfl

theorem not_mem_plainCell {marked : Bool} {c : Char} (h : c ≠ '\n') : '\n' ∉ plainCell marked c := by
  cases marked <;> simp [plainCell, h.symm]

/-- The line that a row is drawn in. -/
def lineOf (m : Match) (y : Nat) (row : Array Char) : List Char :=
  row.toList.zipIdx.flatMap fun entry => plainCell (m.isMarked ⟨entry.2, y⟩) entry.1

/-- The lines of a plain drawing. -/
def linesOf (grid : Grid) (m : Match) : List (List Char) :=
  grid.rows.toList.zipIdx.map fun entry => lineOf m entry.2 entry.1

theorem plain_eq (grid : Grid) (m : Match) : plain grid m = (linesOf grid m).flatMap (· ++ ['\n']) := by
  rw [linesOf, List.flatMap_map]
  rfl

theorem getElem?_linesOf (grid : Grid) (m : Match) (y : Nat) :
    (linesOf grid m)[y]? = (grid.rows[y]?).map (lineOf m y) := by
  rw [linesOf, List.getElem?_map, List.getElem?_zipIdx, Array.getElem?_toList, Option.map_map, Nat.zero_add]
  rfl

theorem length_linesOf (grid : Grid) (m : Match) : (linesOf grid m).length = grid.height := by
  rw [linesOf, List.length_map, List.length_zipIdx, Array.length_toList]
  rfl

/-- **A line that shows a row**: three characters for each cell, the middle one that of the cell, in brackets if the
cell is marked and between blanks if it is not. -/
structure ShowsRow (grid : Grid) (m : Match) (y : Nat) (line : List Char) : Prop where
  unbroken : '\n' ∉ line
  length : ∃ width, grid.width? y = some width ∧ line.length = 3 * width
  cell : ∀ (x : Nat) (c : Char), grid.char? ⟨x, y⟩ = some c →
    (line.drop (3 * x)).take 3 = if ⟨x, y⟩ ∈ m.marks then ['[', c, ']'] else [' ', c, ' ']

theorem showsRow_lineOf {y : Nat} {row : Array Char} (hrow : grid.rows[y]? = some row) (hunbroken : '\n' ∉ row.toList) :
    ShowsRow grid m y (lineOf m y row) where
  unbroken := by
    rw [lineOf, List.mem_flatMap]
    rintro ⟨entry, mem, hbreak⟩
    have hchar : entry.1 ∈ row.toList := List.mem_of_getElem? (List.mem_zipIdx_iff_getElem?.mp mem)
    exact not_mem_plainCell (ne_of_mem_of_not_mem hchar hunbroken) hbreak
  length := by
    refine ⟨row.size, ?_, ?_⟩
    · rw [Grid.width?_natCast, hrow]
      rfl
    · rw [lineOf, length_flatMap_of_length fun _ => length_plainCell _ _, List.length_zipIdx, Array.length_toList]
  cell := by
    intro x c hc
    rw [Grid.char?_natCast, hrow, Option.bind_some] at hc
    have hentry : row.toList.zipIdx[x]? = some (c, x) := by
      rw [List.getElem?_zipIdx, Array.getElem?_toList, hc, Nat.zero_add]
      rfl
    rw [lineOf, take_drop_flatMap (fun _ => length_plainCell _ _) hentry, plainCell]
    exact if_congr List.contains_iff_mem rfl rfl

theorem forall_showsRow (m : Match) (hunbroken : ∀ row ∈ grid.rows, '\n' ∉ row.toList) {y : Nat} {line : List Char}
    (h : (linesOf grid m)[y]? = some line) : ShowsRow grid m y line := by
  rw [getElem?_linesOf] at h
  obtain ⟨row, hrow, rfl⟩ := Option.map_eq_some_iff.mp h
  exact showsRow_lineOf hrow (hunbroken row (Array.mem_of_getElem? hrow))

theorem forall_mem_linesOf (m : Match) (hunbroken : ∀ row ∈ grid.rows, '\n' ∉ row.toList) :
    ∀ line ∈ linesOf grid m, '\n' ∉ line := by
  intro line mem
  obtain ⟨y, hline⟩ := List.mem_iff_getElem?.mp mem
  exact (forall_showsRow m hunbroken hline).unbroken

/-! ## Reading a line -/

/-- Brackets and blanks do not look alike, whatever is between them. -/
theorem bracketed_inj {p q : Prop} [Decidable p] [Decidable q] {c d : Char}
    (h : (if p then ['[', c, ']'] else [' ', c, ' ']) = if q then ['[', d, ']'] else [' ', d, ' ']) :
    c = d ∧ (p ↔ q) := by
  split at h <;> split at h <;> simp_all

namespace ShowsRow

variable {x y : Nat} {line : List Char}

theorem isSome_char?_iff (h : ShowsRow grid m y line) : (grid.char? ⟨x, y⟩).isSome = true ↔ 3 * x < line.length := by
  obtain ⟨width, hwidth, hlength⟩ := h.length
  rw [Grid.width?_natCast] at hwidth
  obtain ⟨row, hrow, rfl⟩ := Option.map_eq_some_iff.mp hwidth
  have hinside : (row[x]?).isSome = true ↔ x < row.size := by simp
  rw [Grid.char?_natCast, hrow, Option.bind_some, hinside, hlength]
  omega

/-- **A line shows one row** and one set of marks on it. -/
theorem agree (h : ShowsRow grid m y line) (h' : ShowsRow grid' m' y line) :
    grid.char? ⟨x, y⟩ = grid'.char? ⟨x, y⟩ ∧
      ((grid.char? ⟨x, y⟩).isSome = true → (⟨x, y⟩ ∈ m.marks ↔ ⟨x, y⟩ ∈ m'.marks)) := by
  cases hc : grid.char? ⟨x, y⟩ with
  | none =>
    have hoff : ¬(grid'.char? ⟨x, y⟩).isSome = true := by
      rw [h'.isSome_char?_iff, ← h.isSome_char?_iff, hc]
      decide
    exact ⟨(Option.not_isSome_iff_eq_none.mp hoff).symm, nofun⟩
  | some c =>
    have hon : (grid'.char? ⟨x, y⟩).isSome = true := by
      rw [h'.isSome_char?_iff, ← h.isSome_char?_iff, hc]
      rfl
    obtain ⟨c', hc'⟩ := Option.isSome_iff_exists.mp hon
    obtain ⟨rfl, hmarks⟩ := bracketed_inj ((h.cell x c hc).symm.trans (h'.cell x c' hc'))
    exact ⟨hc'.symm, fun _ => hmarks⟩

end ShowsRow

/-! ## Reading a drawing -/

/-- What is marked off the grid, or again, is not drawn. -/
theorem plain_congr (h : ∀ cell, (grid.char? cell).isSome = true → (cell ∈ m.marks ↔ cell ∈ m'.marks)) :
    plain grid m = plain grid m' := by
  rw [plain_eq, plain_eq]
  refine congrArg _ (List.map_congr_left fun entry mem => List.flatMap_congr fun char hchar => ?_)
  have hcell : (grid.char? ⟨char.2, entry.2⟩).isSome = true := by
    rw [List.mem_zipIdx_iff_getElem?, Array.getElem?_toList] at mem hchar
    rw [Grid.char?_natCast, mem, Option.bind_some, hchar]
    rfl
  have hmarked : m.isMarked ⟨char.2, entry.2⟩ = m'.isMarked ⟨char.2, entry.2⟩ := by
    rw [Bool.eq_iff_iff]
    exact List.contains_iff_mem.trans ((h _ hcell).trans List.contains_iff_mem.symm)
  rw [hmarked]

/-- **Where no row has a line feed, a drawing tells the grid** and which of its cells are marked. -/
theorem plain_injective (hunbroken : ∀ row ∈ grid.rows, '\n' ∉ row.toList)
    (hunbroken' : ∀ row ∈ grid'.rows, '\n' ∉ row.toList) (heq : plain grid m = plain grid' m') :
    grid = grid' ∧ ∀ cell, (grid.char? cell).isSome = true → (cell ∈ m.marks ↔ cell ∈ m'.marks) := by
  rw [plain_eq, plain_eq] at heq
  have hlines := lines_injective (forall_mem_linesOf m hunbroken) (forall_mem_linesOf m' hunbroken') heq
  have hagree : ∀ x y : Nat, grid.char? ⟨x, y⟩ = grid'.char? ⟨x, y⟩ ∧
      ((grid.char? ⟨x, y⟩).isSome = true → (⟨x, y⟩ ∈ m.marks ↔ ⟨x, y⟩ ∈ m'.marks)) := by
    intro x y
    cases hline : (linesOf grid m)[y]? with
    | some line => exact (forall_showsRow m hunbroken hline).agree (forall_showsRow m' hunbroken' (hlines ▸ hline))
    | none =>
      -- below the last line there is no row in either grid
      have hrow : grid.rows[y]? = none := by rwa [getElem?_linesOf, Option.map_eq_none_iff] at hline
      have hrow' : grid'.rows[y]? = none := by rwa [hlines, getElem?_linesOf, Option.map_eq_none_iff] at hline
      rw [Grid.char?_natCast, Grid.char?_natCast, hrow, hrow']
      exact ⟨rfl, nofun⟩
  have hheight : grid.height = grid'.height := by
    rw [← length_linesOf grid m, hlines, length_linesOf]
  refine ⟨Grid.eq_of_char?_eq hheight fun x y => (hagree x y).1, fun cell hcell => ?_⟩
  obtain ⟨x, y, rfl, _⟩ := Grid.isSome_char?_iff.mp hcell
  exact (hagree x y).2 hcell

/-- **Plain drawings can be read back.** A drawing is one line for each row of the grid, each ended by a line feed, and
shows the row there. So two drawings are the same if and only if their grids are and the same cells of the grid are
marked. -/
theorem plain_reads_back (text text' : String) (m m' : Match) :
    let grid : Grid := .ofText text
    let grid' : Grid := .ofText text'
    (∃ lines : List (List Char), plain grid m = lines.flatMap (· ++ ['\n']) ∧ lines.length = grid.height ∧
      ∀ y line, lines[y]? = some line → ShowsRow grid m y line) ∧
    (plain grid m = plain grid' m' ↔
      grid = grid' ∧ ∀ cell, (grid.char? cell).isSome = true → (cell ∈ m.marks ↔ cell ∈ m'.marks)) := by
  intro grid grid'
  have hunbroken : ∀ row ∈ grid.rows, '\n' ∉ row.toList := Grid.forall_mem_rows_ofText text
  have hunbroken' : ∀ row ∈ grid'.rows, '\n' ∉ row.toList := Grid.forall_mem_rows_ofText text'
  refine ⟨⟨linesOf grid m, plain_eq grid m, length_linesOf grid m, fun y line => forall_showsRow m hunbroken⟩, ?_⟩
  constructor
  · exact plain_injective hunbroken hunbroken'
  · rintro ⟨hgrid, hmarks⟩
    rw [plain_congr hmarks, hgrid]

/-- Two texts for one grid, with an empty row and a bracket in either corner. It is all one where a match starts, in
which order it marks the brackets and what it marks off the grid, but not whether it marks the second. -/
theorem plain_reads_back_brackets :
    let grid : Grid := .ofText "a\u00a0]\n\n["
    let m : Match := ⟨⟨-1, 0⟩, [⟨2, 0⟩, ⟨0, 2⟩, ⟨0, 1⟩, ⟨2, 0⟩]⟩
    plain grid m = plain (.ofText "a ]\n\n[") ⟨⟨0, 0⟩, [⟨0, 2⟩, ⟨2, 0⟩]⟩ ∧
      plain grid m ≠ plain (.ofText "a ]\n\n[") ⟨⟨-1, 0⟩, [⟨2, 0⟩]⟩ := by
  intro grid m
  obtain ⟨_, hsame⟩ := plain_reads_back "a\u00a0]\n\n[" "a ]\n\n[" m ⟨⟨0, 0⟩, [⟨0, 2⟩, ⟨2, 0⟩]⟩
  obtain ⟨_, hother⟩ := plain_reads_back "a\u00a0]\n\n[" "a ]\n\n[" m ⟨⟨-1, 0⟩, [⟨2, 0⟩]⟩
  have hgrid : grid = .ofText "a ]\n\n[" := by decide +kernel
  have hmarks : ∀ cell ∈ grid.cells, cell ∈ m.marks ↔ cell ∈ [⟨0, 2⟩, ⟨2, 0⟩] := by decide +kernel
  have hon : (grid.char? ⟨0, 2⟩).isSome = true := by decide +kernel
  refine ⟨hsame.mpr ⟨hgrid, fun cell hcell => hmarks cell (Grid.mem_cells.mpr hcell)⟩, fun heq => ?_⟩
  exact absurd (((hother.mp heq).2 ⟨0, 2⟩ hon).mp (by decide)) (by decide)

example : plain (.ofText "abc\nde") ⟨⟨1, 0⟩, [⟨1, 0⟩, ⟨2, 0⟩]⟩ = " a [b][c]\n d  e \n".toList := by decide +kernel

end GridPattern.Drawing
