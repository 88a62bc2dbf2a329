import GridPattern.Grid
import GridPattern.Heading
import Mathlib.Data.Fintype.EquivFin
import Mathlib.Data.List.Nodup
import Mathlib.Data.Set.Finite.List
import Mathlib.Tactic.Ring

/-!
# Cells and lines

Which cells a grid has, in which order they are read, and what can be seen along a line of cells.

**The law** (`Grid.exists_char?_eq_none`). Every line that goes somewhere comes to a cell off the grid. A run
of cells is therefore as long as it is, and no line has two lengths (`Grid.Spans.eq`).
-/

namespace GridPattern

/-! ## Cells of a grid -/

theorem Cell.exists_eq_natCast {c : Cell} (hx : 0 ≤ c.x) (hy : 0 ≤ c.y) :
    ∃ x y : Nat, c = ⟨x, y⟩ := by
  refine ⟨c.x.toNat, c.y.toNat, ?_⟩
  rw [Int.toNat_of_nonneg hx, Int.toNat_of_nonneg hy]

namespace Grid

variable {g : Grid} {c : Cell}

theorem char?_natCast (g : Grid) (x y : Nat) : g.char? ⟨x, y⟩ = g.rows[y]?.bind (·[x]?) := rfl

theorem width?_natCast (g : Grid) (y : Nat) : g.width? y = (g.rows[y]?).map Array.size := rfl

theorem char?_of_neg {g : Grid} {c : Cell} (h : c.x < 0 ∨ c.y < 0) : g.char? c = none := by
  unfold char? row?
  by_cases hy : c.y < 0
  · rw [if_pos hy]
    rfl
  · simp only [if_pos (h.resolve_right hy), Option.bind_fun_none]

/-- The cells of a grid are those in its rows. -/
theorem isSome_char?_iff : (g.char? c).isSome = true ↔
    ∃ x y : Nat, c = ⟨x, y⟩ ∧ ∃ row, g.rows[y]? = some row ∧ x < row.size := by
  constructor
  · intro h
    have hx : 0 ≤ c.x ∧ 0 ≤ c.y := by
      by_contra hneg
      rw [char?_of_neg (by omega)] at h
      cases h
    obtain ⟨x, y, rfl⟩ := Cell.exists_eq_natCast hx.1 hx.2
    rw [char?_natCast, Option.isSome_bind] at h
    obtain ⟨row, hrow, hlt⟩ := (Option.any_eq_true _ _).mp h
    exact ⟨x, y, rfl, row, hrow, by simpa using hlt⟩
  · rintro ⟨x, y, rfl, row, hrow, hlt⟩
    rw [char?_natCast, hrow]
    simpa using hlt

/-- The cells listed are those that have a character. -/
theorem mem_cells : c ∈ g.cells ↔ (g.char? c).isSome = true := by
  rw [isSome_char?_iff]
  unfold cells
  simp only [List.mem_flatMap, List.mem_map, List.mem_range, width?_natCast]
  constructor
  · rintro ⟨y, hy, x, hx, rfl⟩
    have hrow : g.rows[y]? = some g.rows[y] := Array.getElem?_eq_getElem hy
    rw [hrow] at hx
    exact ⟨x, y, rfl, _, hrow, hx⟩
  · rintro ⟨x, y, rfl, row, hrow, hx⟩
    refine ⟨y, (Array.getElem?_eq_some_iff.mp hrow).1, x, ?_, rfl⟩
    rw [hrow]
    exact hx

/-- A grid is told by its height and its characters. -/
theorem eq_of_char?_eq {g g' : Grid} (hheight : g.height = g'.height)
    (h : ∀ x y : Nat, g.char? ⟨x, y⟩ = g'.char? ⟨x, y⟩) : g = g' := by
  have hrows : g.rows = g'.rows := by
    refine Array.ext hheight fun y hy hy' => Array.ext_getElem? fun x => ?_
    have hcell := h x y
    rwa [char?_natCast, char?_natCast, Array.getElem?_eq_getElem hy, Array.getElem?_eq_getElem hy'] at hcell
  cases g
  cases g'
  exact (Grid.mk.injEq ..).mpr hrows

end Grid

section Rows

variable {x y : Nat}

theorem Grid.char?_natCast_eq_none_iff {g : Grid} (hy : y < g.rows.size) :
    g.char? ⟨x, y⟩ = none ↔ g.rows[y].size ≤ x := by
  rw [char?_natCast, Array.getElem?_eq_getElem hy, Option.bind_some]
  exact Array.getElem?_eq_none_iff

/-- Where no row is empty the first column is as high as the grid. -/
theorem Grid.char?_first_eq_none_iff {g : Grid} (hrows : ∀ row ∈ g.rows, 0 < row.size) :
    g.char? ⟨0, y⟩ = none ↔ g.rows.size ≤ y := by
  constructor
  · intro hnone
    by_contra hlt
    have hy : y < g.rows.size := by omega
    have hrow := hrows _ (Array.getElem_mem hy)
    rw [← Nat.cast_zero, char?_natCast_eq_none_iff hy] at hnone
    omega
  · intro hle
    have hrow : g.rows[y]? = none := Array.getElem?_eq_none hle
    rw [← Nat.cast_zero, char?_natCast, hrow]
    rfl

end Rows

/-! ## Lines of a text -/

theorem Text.toList_split (separator : Char) (text : List Char) :
    (Text.split separator text).toList = text.splitOn separator := by
  induction text with
  | nil => rfl
  | cons c text ih =>
    rw [List.splitOn_cons_eq_if_modifyHead, split_cons, ← ih]
    by_cases hc : c = separator
    · rw [if_pos hc, if_pos (beq_iff_eq.mpr hc)]
      rfl
    · rw [if_neg hc, if_neg (mt beq_iff_eq.mp hc)]
      rfl

/-- No piece holds what a text is cut at. -/
theorem Text.forall_mem_split (separator : Char) (text : List Char) :
    ∀ piece ∈ (split separator text).toList, separator ∉ piece := by
  induction text with
  | nil => exact List.forall_mem_singleton.mpr List.not_mem_nil
  | cons c text ih =>
    rw [split_cons]
    obtain ⟨hfirst, hothers⟩ := List.forall_mem_cons.mp ih
    split
    · exact List.forall_mem_cons.mpr ⟨List.not_mem_nil, ih⟩
    · next hc => exact List.forall_mem_cons.mpr ⟨List.not_mem_cons_of_ne_of_not_mem (Ne.symm hc) hfirst, hothers⟩

theorem Grid.forall_mem_rows_ofText (text : String) : ∀ row ∈ (ofText text).rows, '\n' ∉ row.toList := by
  have hrows : (ofText text).rows.toList = (Text.split '\n' (text.toList.map shownAs)).toList.map List.toArray := rfl
  intro row mem
  rw [← Array.mem_toList_iff, hrows] at mem
  obtain ⟨line, hline, rfl⟩ := List.mem_map.mp mem
  exact Text.forall_mem_split _ _ line hline

/-- A line feed and no other character is shown as a line feed. -/
theorem Grid.shownAs_beq (c : Char) : (shownAs c == '\n') = (c == '\n') := by
  unfold shownAs
  split
  · next hc => rw [hc]; rfl
  · rfl

theorem Grid.splitOn_map_shownAs (text : List Char) :
    (text.map shownAs).splitOn '\n' = (text.splitOn '\n').map (List.map shownAs) := by
  induction text with
  | nil => rfl
  | cons c text ih =>
    rw [List.map_cons, List.splitOn_cons_eq_if_modifyHead, List.splitOn_cons_eq_if_modifyHead, shownAs_beq, ih]
    split
    · rfl
    · cases text.splitOn '\n' <;> rfl

theorem Grid.map_size_ofText (text : String) :
    (ofText text).rows.toList.map Array.size = (text.toList.splitOn '\n').map List.length := by
  have hrows : (ofText text).rows.toList =
      (Text.split '\n' (text.toList.map shownAs)).toList.map List.toArray := rfl
  rw [hrows, Text.toList_split, splitOn_map_shownAs, List.map_map, List.map_map]
  refine List.map_congr_left fun line _ => ?_
  exact List.length_map shownAs

/-- There are as many rows as lines. -/
theorem Grid.size_ofText (text : String) : (ofText text).rows.size = (text.toList.splitOn '\n').length := by
  simpa using congrArg List.length (map_size_ofText text)

/-- The rows are as long as the lines. -/
theorem Grid.forall_size_ofText (text : String) (p : Nat → Prop) :
    (∀ row ∈ (ofText text).rows, p row.size) ↔ ∀ line ∈ text.toList.splitOn '\n', p line.length := by
  have hlengths : (∀ n ∈ (ofText text).rows.toList.map Array.size, p n) ↔
      ∀ n ∈ (text.toList.splitOn '\n').map List.length, p n := by rw [map_size_ofText]
  simpa only [List.forall_mem_map, Array.mem_toList_iff] using hlengths

/-! ## Reading order -/

/-- One cell comes before another when rows are read one after the other. -/
def RowMajor (a b : Cell) : Prop := a.y < b.y ∨ a.y = b.y ∧ a.x < b.x

theorem RowMajor.asymm {a b : Cell} (h : RowMajor a b) : ¬RowMajor b a := by
  unfold RowMajor at h ⊢
  omega

theorem RowMajor.ne {a b : Cell} (h : RowMajor a b) : a ≠ b := by
  rintro rfl
  exact h.asymm h

/-- Rows one below the other, each from left to right. -/
theorem RowMajor.pairwise_flatMap {ι : Type} {rows : List ι} {row : ι → List Cell} (line : ι → Int)
    (hrows : rows.Pairwise fun i j => line i < line j) (hline : ∀ i, ∀ c ∈ row i, c.y = line i)
    (hrow : ∀ i, (row i).Pairwise fun a b => a.x < b.x) : (rows.flatMap row).Pairwise RowMajor := by
  refine List.pairwise_flatMap.mpr ⟨fun i _ => ?_, hrows.imp fun {i j} h a ha b hb => ?_⟩
  · exact (hrow i).imp_of_mem fun ha hb h => .inr ⟨(hline i _ ha).trans (hline i _ hb).symm, h⟩
  · rw [← hline i a ha, ← hline j b hb] at h
    exact .inl h

theorem Grid.pairwise_cells (g : Grid) : g.cells.Pairwise RowMajor := by
  refine RowMajor.pairwise_flatMap (fun y : Nat => (y : Int)) ?_ (fun y => ?_) (fun y => ?_)
  · exact List.pairwise_lt_range.imp Int.ofNat_lt.mpr
  · exact List.forall_mem_map.mpr fun _ _ => rfl
  · exact List.pairwise_map.mpr (List.pairwise_lt_range.imp Int.ofNat_lt.mpr)

/-! ## Start cells -/

theorem Span.mem_toList {s : Span} {n : Int} : n ∈ s.toList ↔ s.first ≤ n ∧ n ≤ s.last := by
  unfold toList
  rw [List.mem_map]
  constructor
  · rintro ⟨i, hi, rfl⟩
    rw [List.mem_range] at hi
    omega
  · intro h
    exact ⟨(n - s.first).toNat, List.mem_range.mpr (by omega), by omega⟩

theorem Grid.mem_startCells {g : Grid} {c : Cell} : c ∈ g.startCells ↔
    (g.startRows.first ≤ c.y ∧ c.y ≤ g.startRows.last) ∧
      (g.startColumns c.y).first ≤ c.x ∧ c.x ≤ (g.startColumns c.y).last := by
  unfold startCells
  simp only [List.mem_flatMap, List.mem_map, Span.mem_toList]
  constructor
  · rintro ⟨y, hy, x, hx, rfl⟩
    exact ⟨hy, hx⟩
  · rintro ⟨hy, hx⟩
    exact ⟨c.y, hy, c.x, hx, rfl⟩

/-- A search starts from every cell of the grid. -/
theorem Grid.mem_startCells_of_char? {g : Grid} {c : Cell} {char : Char} (h : g.char? c = some char) :
    c ∈ g.startCells := by
  have hsome : (g.char? c).isSome = true := by
    rw [h]
    rfl
  obtain ⟨x, y, rfl, row, hrow, hx⟩ := isSome_char?_iff.mp hsome
  have hy : y < g.height := (Array.getElem?_eq_some_iff.mp hrow).1
  have hnearest : max 0 (min (y : Int) (g.height - 1)) = y := by omega
  have hwidth : g.width? y = some row.size := congrArg (Option.map Array.size) hrow
  rw [mem_startCells]
  unfold startRows startColumns
  simp only [hnearest, hwidth, Option.getD_some]
  omega

theorem Span.pairwise_toList (s : Span) : s.toList.Pairwise (· < ·) := by
  unfold Span.toList
  apply List.pairwise_map.mpr
  apply List.pairwise_lt_range.imp
  intro m n h
  omega

theorem Grid.pairwise_startCells (g : Grid) : g.startCells.Pairwise RowMajor := by
  refine RowMajor.pairwise_flatMap id (Span.pairwise_toList _) (fun y => ?_) (fun y => ?_)
  · exact List.forall_mem_map.mpr fun _ _ => rfl
  · exact List.pairwise_map.mpr (Span.pairwise_toList _)

theorem Grid.nodup_startCells (g : Grid) : g.startCells.Nodup := g.pairwise_startCells.imp RowMajor.ne

/-! ## Lines -/

theorem Heading.isStalled_eq_false_iff {h : Heading} : h.isStalled = false ↔ h.dx ≠ 0 ∨ h.dy ≠ 0 := by
  unfold isStalled
  simp only [Bool.and_eq_false_iff, beq_eq_false_iff_ne]

/-- **A heading of single steps**: one of the eight unit vectors. -/
def Heading.IsSingle (h : Heading) : Prop := h.isStalled = false ∧ h.dx.natAbs ≤ 1 ∧ h.dy.natAbs ≤ 1

namespace Cell

variable {h : Heading}

/-- The cell so many steps along a heading. -/
def along (c : Cell) (h : Heading) (n : Nat) : Cell := ⟨c.x + n * h.dx, c.y + n * h.dy⟩

/-- So many cells along a heading, from the first on. -/
def line (c : Cell) (h : Heading) (n : Nat) : List Cell := (List.range n).map (c.along h)

@[simp] theorem along_zero (c : Cell) (h : Heading) : c.along h 0 = c := by simp [along]

theorem along_one (c : Cell) (h : Heading) : c.along h 1 = ⟨c.x + h.dx, c.y + h.dy⟩ := by simp [along]

theorem along_along (c : Cell) (h : Heading) (m n : Nat) : (c.along h m).along h n = c.along h (m + n) := by
  unfold along
  push_cast
  rw [Cell.mk.injEq]
  constructor <;> ring

theorem along_comm (c : Cell) (h h' : Heading) (m n : Nat) :
    (c.along h m).along h' n = (c.along h' n).along h m := by
  unfold along
  rw [Cell.mk.injEq]
  constructor <;> ring

/-- A line that goes somewhere never comes back. -/
theorem along_injective (hgoing : h.isStalled = false) (c : Cell) : (c.along h).Injective := by
  intro m n heq
  simp only [along, Cell.mk.injEq, add_right_inj, mul_eq_mul_right_iff, Nat.cast_inj] at heq
  rw [Heading.isStalled_eq_false_iff] at hgoing
  tauto

theorem nodup_line (hgoing : h.isStalled = false) (c : Cell) (n : Nat) : (c.line h n).Nodup :=
  List.nodup_range.map (along_injective hgoing c)

theorem line_add (c : Cell) (h : Heading) (m n : Nat) :
    c.line h (m + n) = c.line h m ++ (c.along h m).line h n := by
  unfold line
  rw [List.range_add, List.map_append, List.map_map]
  refine congrArg (c.line h m ++ ·) (List.map_congr_left fun i _ => ?_)
  exact (along_along c h m i).symm

end Cell

/-- The cells of a line show a text, one character each. -/
def Grid.Shows (g : Grid) (text : List Char) (c : Cell) (h : Heading) : Prop :=
  ∀ i (hi : i < text.length), g.char? (c.along h i) = some text[i]

instance (g : Grid) (text : List Char) (c : Cell) (h : Heading) : Decidable (g.Shows text c h) :=
  inferInstanceAs (Decidable (∀ i (hi : i < text.length), g.char? (c.along h i) = some text[i]))

theorem Grid.shows_cons {g : Grid} {char : Char} {text : List Char} {c : Cell} {h : Heading} :
    g.Shows (char :: text) c h ↔ g.char? c = some char ∧ g.Shows text (c.along h 1) h := by
  unfold Shows
  constructor
  · intro hall
    refine ⟨by simpa using hall 0 (Nat.succ_pos _), fun i hi => ?_⟩
    rw [Cell.along_along, Nat.add_comm]
    exact hall (i + 1) (Nat.succ_lt_succ hi)
  · rintro ⟨hfirst, hrest⟩ i hi
    cases i with
    | zero => simpa using hfirst
    | succ i =>
      have hi' := hrest i (Nat.lt_of_succ_lt_succ hi)
      rwa [Cell.along_along, Nat.add_comm] at hi'

/-! ## Runs of cells -/

namespace Grid

variable {g : Grid} {p : Cell} {h : Heading} {m n : Nat}

/-- **Every line leaves the grid.** -/
theorem exists_char?_eq_none (hgoing : h.isStalled = false) (g : Grid) (p : Cell) :
    ∃ n, g.char? (p.along h n) = none := by
  by_contra hall
  rw [not_exists] at hall
  have hstart : ∀ n, p.along h n ∈ {c | c ∈ g.startCells} := by
    intro n
    obtain ⟨char, hchar⟩ := Option.ne_none_iff_exists'.mp (hall n)
    exact mem_startCells_of_char? hchar
  -- the cells of a line differ, and those of the grid are finitely many
  exact Set.infinite_of_injective_forall_mem (Cell.along_injective hgoing p) hstart
    (List.finite_toSet g.startCells)

/-- **A run of cells** of that length, between two cells off the grid and seen from the first of these. -/
structure Spans (g : Grid) (p : Cell) (h : Heading) (n : Nat) : Prop where
  pos : 0 < n
  before : g.char? p = none
  cells : ∀ i < n, (g.char? (p.along h (i + 1))).isSome = true
  after : g.char? (p.along h (n + 1)) = none

/-- A run has one length. -/
theorem Spans.eq (hm : g.Spans p h m) (hn : g.Spans p h n) : m = n := by
  by_contra hne
  obtain hlt | hlt := Nat.lt_or_gt_of_ne hne
  · have hcell := hn.cells m hlt
    rw [hm.after] at hcell
    cases hcell
  · have hcell := hm.cells n hlt
    rw [hn.after] at hcell
    cases hcell

/-- The cells that come next along a line, up to the first one off the grid. -/
theorem exists_run (hgoing : h.isStalled = false) (g : Grid) (p : Cell) :
    ∃ n, (∀ i < n, (g.char? (p.along h (i + 1))).isSome = true) ∧ g.char? (p.along h (n + 1)) = none := by
  have hex : ∃ n, g.char? (p.along h (n + 1)) = none := by
    obtain ⟨n, hn⟩ := exists_char?_eq_none hgoing g (p.along h 1)
    rw [Cell.along_along, Nat.add_comm] at hn
    exact ⟨n, hn⟩
  refine ⟨Nat.find hex, fun i hi => ?_, Nat.find_spec hex⟩
  exact Option.isSome_iff_ne_none.mpr (Nat.find_min hex hi)

/-- **A stack of runs**, as many as each is long, between two cells off the grid and seen from the first of
these: one way go the runs, and the other way each. -/
structure Stacks (g : Grid) (p : Cell) (h h' : Heading) (n : Nat) : Prop where
  pos : 0 < n
  before : g.char? p = none
  runs : ∀ i < n, g.Spans (p.along h (i + 1)) h' n
  after : g.char? (p.along h (n + 1)) = none

/-- The runs of one length that come next, up to the first cell that has none. -/
theorem exists_stack (hgoing : h.isStalled = false) (g : Grid) (p : Cell) (h' : Heading) (w : Nat) :
    ∃ n, (∀ i < n, g.Spans (p.along h (i + 1)) h' w) ∧ ¬g.Spans (p.along h (n + 1)) h' w := by
  classical
  -- the first cells of the runs are on a line of their own, and that leaves the grid
  have hex : ∃ n, ¬g.Spans (p.along h (n + 1)) h' w := by
    obtain ⟨n, hn⟩ := exists_char?_eq_none hgoing g ((p.along h' 1).along h 1)
    refine ⟨n, fun hspans => ?_⟩
    have hcell := hspans.cells 0 hspans.pos
    rw [Nat.zero_add, Cell.along_comm, Nat.add_comm n, ← Cell.along_along, hn] at hcell
    cases hcell
  exact ⟨Nat.find hex, fun i hi => not_not.mp (Nat.find_min hex hi), Nat.find_spec hex⟩

end Grid

end GridPattern
