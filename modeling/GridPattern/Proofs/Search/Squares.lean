import GridPattern.Proofs.Search.Meaning
import GridPattern.Proofs.Walk.Runs
import Mathlib.Data.List.Permutation

/-!
# Squares

The program that looks for squares of text, from its code to what is reported. It goes round the text on the
outside: down the left side it measures each row, along the upper side each column, and both times it counts
what it measured. All those lengths and numbers are of one group.

**The law** (`square_detector`). Of a text without empty lines the program has one match, at the corner, if all
lines have as many characters as there are lines, and else none; and it needs no budget to come to an end.

**What it does not establish.** Anything about texts with empty lines, which leave gaps in the first column.
-/

namespace GridPattern

open Walk

/-- Down on the grid. -/
def Heading.south : Heading := ⟨0, 1⟩

theorem Cell.along_east (c : Cell) (n : Nat) : c.along .east n = ⟨c.x + n, c.y⟩ := by
  simp [along, Heading.east]

theorem Cell.along_south (c : Cell) (n : Nat) : c.along .south n = ⟨c.x, c.y + n⟩ := by
  simp [along, Heading.south]

/-! ## Square grids -/

namespace Grid

variable {g : Grid} {p : Cell}

/-- **The outside of a square**: from there as many runs go down as each is long, and as many go across. -/
def Squares (g : Grid) (p : Cell) : Prop := ∃ w, g.Stacks p .south .east w ∧ g.Stacks p .east .south w

/-- A row that is not empty is a run. -/
theorem spans_row {y : Nat} (hy : y < g.rows.size) (hpos : 0 < g.rows[y].size) :
    g.Spans ⟨-1, y⟩ .east g.rows[y].size := by
  have hcell : ∀ n : Nat, (⟨-1, y⟩ : Cell).along .east (n + 1) = ⟨n, y⟩ := by simp [Cell.along_east]
  refine ⟨hpos, char?_of_neg (.inl (by simp)), fun i hi => ?_, ?_⟩
  · rw [hcell, Option.isSome_iff_ne_none, ne_eq, char?_natCast_eq_none_iff hy]
    omega
  · rw [hcell, char?_natCast_eq_none_iff hy]

section Nonempty

variable (hrows : ∀ row ∈ g.rows, 0 < row.size)
include hrows

/-- Where no row is empty the first column is a run. -/
theorem spans_first : g.Spans ⟨0, -1⟩ .south g.rows.size := by
  have hcell : ∀ n : Nat, (⟨0, -1⟩ : Cell).along .south (n + 1) = ⟨0, n⟩ := by simp [Cell.along_south]
  refine ⟨g.rows_pos, char?_of_neg (.inr (by simp)), fun i hi => ?_, ?_⟩
  · rw [hcell, Option.isSome_iff_ne_none, ne_eq, char?_first_eq_none_iff hrows]
    omega
  · rw [hcell, char?_first_eq_none_iff hrows]

/-- A cell without a cell to its left and without one above is the first of the grid. -/
theorem eq_first {c : Cell} (hcell : (g.char? c).isSome = true) (hleft : g.char? ⟨c.x - 1, c.y⟩ = none)
    (habove : g.char? ⟨c.x, c.y - 1⟩ = none) : c = ⟨0, 0⟩ := by
  obtain ⟨x, y, rfl, row, hrow, hx⟩ := isSome_char?_iff.mp hcell
  obtain ⟨hy, rfl⟩ := Array.getElem?_eq_some_iff.mp hrow
  obtain rfl : x = 0 := by
    by_contra hne
    rw [← Nat.cast_pred (by omega), char?_natCast_eq_none_iff hy] at hleft
    omega
  obtain rfl : y = 0 := by
    by_contra hne
    rw [← Nat.cast_pred (by omega), Nat.cast_zero, char?_first_eq_none_iff hrows] at habove
    omega
  rfl

/-- From the outside of a square the grid begins at the next cell. -/
theorem eq_corner {w : Nat} (hdown : g.Stacks p .south .east w) (hacross : g.Stacks p .east .south w) :
    p = ⟨-1, -1⟩ := by
  have hrow := hdown.runs 0 hdown.pos
  have hcell := hrow.cells 0 hdown.pos
  have hleft := hrow.before
  have habove := (hacross.runs 0 hdown.pos).before
  simp only [Cell.along_south, Cell.along_east, Nat.zero_add, Nat.cast_one] at hcell hleft habove
  have hfirst : (⟨p.x + 1, p.y + 1⟩ : Cell) = ⟨0, 0⟩ := by
    refine eq_first hrows hcell ?_ ?_
    · rwa [add_sub_cancel_right]
    · rwa [add_sub_cancel_right]
  obtain ⟨x, y⟩ := p
  simp only [Cell.mk.injEq] at hfirst ⊢
  omega

end Nonempty

/-- Of a grid as wide as it is high the cells are known. -/
theorem char?_eq_none_iff_of_square (hsquare : ∀ row ∈ g.rows, row.size = g.rows.size) {c : Cell} :
    g.char? c = none ↔ ¬((0 ≤ c.x ∧ c.x < g.rows.size) ∧ 0 ≤ c.y ∧ c.y < g.rows.size) := by
  rw [← not_iff_not, not_not, ← ne_eq, ← Option.isSome_iff_ne_none, isSome_char?_iff]
  constructor
  · rintro ⟨x, y, rfl, row, hrow, hx⟩
    rw [hsquare row (Array.mem_of_getElem? hrow)] at hx
    have hy := (Array.getElem?_eq_some_iff.mp hrow).1
    exact ⟨⟨Int.natCast_nonneg x, Int.ofNat_lt.mpr hx⟩, Int.natCast_nonneg y, Int.ofNat_lt.mpr hy⟩
  · rintro ⟨⟨hx, hx'⟩, hy, hy'⟩
    obtain ⟨x, y, rfl⟩ := Cell.exists_eq_natCast hx hy
    have hlt : y < g.rows.size := Int.ofNat_lt.mp hy'
    refine ⟨x, y, rfl, g.rows[y], Array.getElem?_eq_getElem hlt, ?_⟩
    rw [hsquare _ (Array.getElem_mem hlt)]
    exact Int.ofNat_lt.mp hx'

/-- The columns of a grid as wide as it is high are runs. -/
theorem spans_column (hsquare : ∀ row ∈ g.rows, row.size = g.rows.size) {x : Nat} (hx : x < g.rows.size) :
    g.Spans ⟨x, -1⟩ .south g.rows.size := by
  refine ⟨g.rows_pos, char?_of_neg (.inr (by simp)), fun i hi => ?_, ?_⟩
  all_goals
    simp only [Option.isSome_iff_ne_none, ne_eq, char?_eq_none_iff_of_square hsquare, Cell.along_south]
    omega

theorem squares_of_square (hsquare : ∀ row ∈ g.rows, row.size = g.rows.size) : g.Squares ⟨-1, -1⟩ := by
  have hpos := g.rows_pos
  have hcorner : g.char? ⟨-1, -1⟩ = none := char?_of_neg (.inl (by decide))
  refine ⟨g.rows.size, ⟨hpos, hcorner, fun y hy => ?_, ?_⟩, ⟨hpos, hcorner, fun x hx => ?_, ?_⟩⟩
  · have hrow := hsquare _ (Array.getElem_mem hy)
    have hspans := spans_row hy (hrow ▸ hpos)
    rw [hrow] at hspans
    simpa [Cell.along_south] using hspans
  · exact char?_of_neg (.inl (by simp [Cell.along_south]))
  · simpa [Cell.along_east] using spans_column hsquare hx
  · exact char?_of_neg (.inr (by simp [Cell.along_east]))

/-- **A square is known from the outside**: where no row is empty, from the corner of a grid that is as wide as
it is high, and from nowhere else. -/
theorem squares_iff (hrows : ∀ row ∈ g.rows, 0 < row.size) :
    g.Squares p ↔ p = ⟨-1, -1⟩ ∧ ∀ row ∈ g.rows, row.size = g.rows.size := by
  constructor
  · rintro ⟨w, hdown, hacross⟩
    obtain rfl := eq_corner hrows hdown hacross
    have hheight : g.rows.size = w := by
      have hcolumn := hacross.runs 0 hdown.pos
      exact (spans_first hrows).eq (by simpa [Cell.along_east] using hcolumn)
    refine ⟨rfl, fun row mem => ?_⟩
    obtain ⟨y, hy, rfl⟩ := Array.mem_iff_getElem.mp mem
    have hrow := hdown.runs y (hheight ▸ hy)
    rw [hheight]
    exact (spans_row hy (hrows _ mem)).eq (by simpa [Cell.along_south] using hrow)
  · rintro ⟨rfl, hsquare⟩
    exact squares_of_square hsquare

end Grid

namespace Search

/-! ## The program -/

/-- The code of the program for squares. -/
def squareCode : String := "m:\x7bv<R>1\x7d\x7bh<>1\x7d\nv:$\x7bc<L>A1\x7d+$\nh:$\x7bc<R>A1\x7d+$\nc:$.+$"

/-- A call of a pattern for stacks. -/
def stackCall (name : String) (way : Direction) : Node := .call ⟨name, way, { group := some 1 }⟩

/-- **A stack of rows and then one of columns**, with their lengths and numbers in one group. -/
def squareParts : List Node := [stackCall "v" ⟨['R'], false⟩, stackCall "h" .forward]

/-- The program for squares. -/
def squareProgram : Program where
  declarations := [
    ⟨"m", {}, .sequence squareParts⟩,
    ⟨"v", {}, stackOfRuns "c" ⟨['L'], false⟩ 1⟩,
    ⟨"h", {}, stackOfRuns "c" ⟨['R'], false⟩ 1⟩,
    ⟨"c", {}, runOfCells⟩]

theorem read_squareCode :
    ∃ tokens, Token.scan squareCode = .ok tokens ∧ Program.ofTokens tokens = .ok squareProgram := by
  have hread : (Token.scan squareCode).toOption.bind (fun tokens => (Program.ofTokens tokens).toOption) =
      some squareProgram := by cbv
  cases hscan : Token.scan squareCode with
  | error faults =>
    rw [hscan] at hread
    cases hread
  | ok tokens =>
    rw [hscan] at hread
    refine ⟨tokens, rfl, ?_⟩
    cases hparse : Program.ofTokens tokens with
    | error faults => simp [hparse, Except.toOption] at hread
    | ok program => simpa [hparse, Except.toOption] using hread

/-! ## From one cell -/

section Walking

variable (grid : Grid) {t : Cursor}

theorem measures_rows (ht : t.Plain) (heast : t.heading = .east) :
    MeasuresStack squareProgram grid (stackCall "v" ⟨['R'], false⟩) 1 t .south .east := by
  have hgoing : t.heading.isStalled = false := by rw [heast]; rfl
  have hright : t.heading.turn ⟨-1, 0⟩ = .south := by rw [heast]; rfl
  have hway : ∀ c, headings? grid ⟨['R'], false⟩ c = some [c.bend ⟨-1, 0⟩] := fun _ => rfl
  have hway' : ∀ c, headings? grid ⟨['L'], false⟩ c = some [c.bend ⟨1, 0⟩] := fun _ => rfl
  exact measures_stack ht hgoing hright hway rfl rfl hway' rfl

theorem measures_columns (ht : t.Plain) (heast : t.heading = .east) :
    MeasuresStack squareProgram grid (stackCall "h" .forward) 1 t .east .south := by
  have hgoing : t.heading.isStalled = false := by rw [heast]; rfl
  have hahead : t.heading.turn ⟨0, 1⟩ = .east := by rw [heast]; rfl
  have hway' : ∀ c, headings? grid ⟨['R'], false⟩ c = some [c.bend ⟨-1, 0⟩] := fun _ => rfl
  exact measures_stack ht hgoing hahead (headings_forward grid) rfl rfl hway' rfl

/-- Where nothing is settled the two calls have a survivor on the outside of a square, and else none. -/
theorem evalParts_square (ht : t.Plain) (heast : t.heading = .east) (hopen : ∀ age, t.Allows 1 age) :
    ∃ ts, evalParts squareProgram grid squareParts t = some (.ok ts) ∧
      (grid.Squares t.cell → ∃ u, ts = [u]) ∧ (¬grid.Squares t.cell → ts = []) := by
  cases measures_rows grid ht heast with
  | missed hnot hrows =>
    refine ⟨[], evalParts_of_none _ hrows, ?_, fun _ => rfl⟩
    rintro ⟨w, hdown, _⟩
    exact absurd (hopen _) (hnot w hdown)
  | @found w u hdown _ hu hrows =>
    -- the rows settled the group, and it allows the columns no other number
    unfold squareParts
    rw [evalParts_of_one _ hrows]
    cases measures_columns grid (hu.plain ht) (hu.heading.trans heast) with
    | missed hnot hcolumns =>
      refine ⟨[], evalParts_of_none _ hcolumns, ?_, fun _ => rfl⟩
      rintro ⟨w', hdown', hacross⟩
      obtain rfl : w = w' := (hdown.runs 0 hdown.pos).eq (hdown'.runs 0 hdown'.pos)
      rw [hu.cell] at hnot
      exact absurd ((Cursor.allows_iff_of_settled hu.settled).mpr rfl) (hnot w hacross)
    | @found w' u' hacross hallows _ hcolumns =>
      refine ⟨[u'], evalParts_singleton hcolumns, fun _ => ⟨u', rfl⟩, fun hnot => ?_⟩
      obtain rfl : w = w' := Nat.add_right_cancel ((Cursor.allows_iff_of_settled hu.settled).mp hallows)
      rw [hu.cell] at hacross
      exact absurd ⟨w, hdown, hacross⟩ hnot

/-- **What the program means**: one survivor from the corner of a square, and none from anywhere else. -/
theorem evalProgram_square (hrows : ∀ row ∈ grid.rows, 0 < row.size) (origin : Cell) :
    ∃ ts, evalProgram squareProgram grid { cell := origin } = some (.ok ts) ∧
      ts.length = if origin = ⟨-1, -1⟩ ∧ ∀ row ∈ grid.rows, row.size = grid.rows.size then 1 else 0 := by
  let c : Cursor := { cell := origin }
  have hplain : (beginning {} c).Plain := ⟨rfl, rfl⟩
  have hopen : ∀ age, (beginning {} c).Allows 1 age := by
    intro age settled hsettled
    cases hsettled
  obtain ⟨ts, hts, hfound, hnone⟩ := evalParts_square grid hplain rfl hopen
  have hbody : eval squareProgram grid (.sequence squareParts) (beginning {} c) = some (.ok ts) :=
    (eval_sequence _ rfl).trans hts
  have hprogram : evalProgram squareProgram grid c = (eval squareProgram grid (.sequence squareParts)
      (beginning {} c)).map (Except.map (handBack grid {} c)) := rfl
  refine ⟨handBack grid {} c ts, ?_, ?_⟩
  · rw [hprogram, hbody]
    rfl
  · have hiff := grid.squares_iff (p := origin) hrows
    split
    · next hcorner =>
      obtain ⟨u, rfl⟩ := hfound (hiff.mpr hcorner)
      rfl
    · next hother =>
      rw [hnone (mt hiff.mp hother)]
      rfl

end Walking

/-! ## What is reported -/

section Reporting

variable {grid : Grid}

theorem corner_mem_startCells (grid : Grid) : (⟨-1, -1⟩ : Cell) ∈ grid.startCells := by
  rw [Grid.mem_startCells]
  unfold Grid.startRows Grid.startColumns
  dsimp only
  omega

/-- Of one finding from the corner, or of none at all, everything is reported. -/
theorem origins_firsts (originInsensitive : Bool) {square : Prop} [Decidable square] {ts : Cell → List Cursor}
    (hts : ∀ origin, (ts origin).length = if origin = ⟨-1, -1⟩ ∧ square then 1 else 0) :
    (firsts (Duplicates originInsensitive) (entries grid fun origin => .ofList (ts origin))).map
      Finding.origin = if square then [⟨-1, -1⟩] else [] := by
  have hnone : ∀ origin, ¬(origin = ⟨-1, -1⟩ ∧ square) → ts origin = [] := by
    intro origin hnot
    rw [← List.length_eq_zero_iff, hts, if_neg hnot]
  unfold entries
  simp only [Survivors.toList_ofList]
  by_cases hsquare : square
  · obtain ⟨t, ht⟩ : ∃ t, ts ⟨-1, -1⟩ = [t] := by
      rw [← List.length_eq_one_iff, hts, if_pos ⟨rfl, hsquare⟩]
    have hothers : ∀ origin ∈ grid.startCells, origin ≠ ⟨-1, -1⟩ →
        (ts origin).map (Finding.mk origin) = [] := by
      intro origin _ hne
      rw [hnone origin fun h => hne h.1, List.map_nil]
    rw [flatMap_eq_of_mem grid.nodup_startCells (corner_mem_startCells grid) hothers, ht, if_pos hsquare,
      List.map_singleton, firsts_cons]
    rfl
  · have hall : grid.startCells.flatMap (fun origin => (ts origin).map (Finding.mk origin)) = [] := by
      refine List.flatMap_eq_nil_iff.mpr fun origin _ => ?_
      rw [hnone origin fun h => hsquare h.2, List.map_nil]
    rw [hall, if_neg hsquare]
    rfl

/-- **The program for squares tells squares from other texts.** For every text without empty lines a search
without a budget has an end; there is one match, from the corner, if all lines have as many characters as there
are lines, and none otherwise. -/
theorem square_detector (text : String) (hlines : ∀ line ∈ text.toList.splitOn '\n', line ≠ [])
    (originInsensitive : Bool) :
    let lines := text.toList.splitOn '\n'
    ∃ least, ∀ patience ≥ least, ∃ found,
      withCode squareCode text ⟨originInsensitive, none⟩ patience = .ok found ∧
      found.map Finding.origin = if ∀ line ∈ lines, line.length = lines.length then [⟨-1, -1⟩] else [] := by
  intro lines
  let grid := Grid.ofText text
  have hrows : ∀ row ∈ grid.rows, 0 < row.size := by
    refine (Grid.forall_size_ofText text (0 < ·)).mpr fun line mem => ?_
    exact List.length_pos_iff.mpr (hlines line mem)
  have hsquare : (∀ row ∈ grid.rows, row.size = grid.rows.size) ↔
      ∀ line ∈ lines, line.length = lines.length := by
    rw [Grid.forall_size_ofText text (· = grid.rows.size), Grid.size_ofText]
  choose ts hts hlength using evalProgram_square grid hrows
  obtain ⟨tokens, hscan, hparse⟩ := read_squareCode
  obtain ⟨least, hleast⟩ := find_of_evalProgram originInsensitive fun origin _ => hts origin
  refine ⟨least, fun patience hp => ⟨_, withCode_of_find hscan hparse (hleast patience hp), ?_⟩⟩
  rw [origins_firsts originInsensitive hlength]
  exact if_congr hsquare rfl rfl

/-- Two lines of two characters are a square, and three lines of which one is shorter are not. -/
theorem square_detector_samples :
    ((∀ line ∈ "ab\ncd".toList.splitOn '\n', line ≠ []) ∧ ∃ least, ∀ patience ≥ least, ∃ found,
      withCode squareCode "ab\ncd" ⟨false, none⟩ patience = .ok found ∧
        found.map Finding.origin = [⟨-1, -1⟩]) ∧
    ((∀ line ∈ "abc\nde\nfgh".toList.splitOn '\n', line ≠ []) ∧ ∃ least, ∀ patience ≥ least, ∃ found,
      withCode squareCode "abc\nde\nfgh" ⟨true, none⟩ patience = .ok found ∧
        found.map Finding.origin = []) := by
  have htwo : ∀ line ∈ "ab\ncd".toList.splitOn '\n', line ≠ [] := by decide
  have hragged : ∀ line ∈ "abc\nde\nfgh".toList.splitOn '\n', line ≠ [] := by decide
  refine ⟨⟨htwo, ?_⟩, hragged, ?_⟩
  · exact square_detector "ab\ncd" htwo false
  · exact square_detector "abc\nde\nfgh" hragged true

end Reporting

end Search

end GridPattern
