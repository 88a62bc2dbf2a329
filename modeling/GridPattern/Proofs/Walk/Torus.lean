import GridPattern.Proofs.Walk.Marks
import GridPattern.Proofs.Walk.Rotation

/-!
# Rectangles whose ends meet

A cursor that wraps in rows and columns goes round a rectangle as round a torus: past each edge comes the other, and
where it is after some steps is a matter of remainders. What it has marked and how old it is goes on as on the plane.

**The law** (`Circles.steps_around`), by induction on the steps. One step is `Circles.step`: single steps reach at most
one cell past an edge, and there to wrap to the other edge is to take the remainder (`wrapIn_eq`).

**What it does not establish.** Anything about longer steps. These wrap to the edge itself, however far past the other
edge they reach; nor have the rows of other grids one length to go round in.
-/

namespace GridPattern

namespace Rectangle

variable (r : Rectangle)

/-- The cell of the rectangle that a cell of the plane is, where rectangles are laid side by side. -/
def around (c : Cell) : Cell := ⟨c.x % r.width, c.y % r.grid.height⟩

theorem isSome_char?_iff {c : Cell} : (r.grid.char? c).isSome = true ↔
    (0 ≤ c.x ∧ c.x < r.width) ∧ 0 ≤ c.y ∧ c.y < r.grid.height := by
  constructor
  · intro h
    by_contra hout
    rw [char?_eq_none r fun hin => hout ⟨⟨hin.1, hin.2.1⟩, hin.2.2⟩] at h
    cases h
  · rintro ⟨⟨hx, hwidth⟩, hy, hheight⟩
    obtain ⟨x, y, rfl⟩ := Cell.exists_eq_natCast hx hy
    have hchar := r.char?_eq_some ⟨x, Int.ofNat_lt.mp hwidth⟩ ⟨y, Int.ofNat_lt.mp hheight⟩
    exact Option.isSome_iff_exists.mpr ⟨_, hchar⟩

/-- All rows are of one width. -/
theorem width?_eq {y : Int} (h : 0 ≤ y ∧ y < r.grid.height) : r.grid.width? y = some r.width := by
  obtain ⟨y, rfl⟩ := Int.eq_ofNat_of_zero_le h.1
  have hy : y < r.grid.rows.size := Int.ofNat_lt.mp h.2
  rw [← r.row_size _ (Array.getElem_mem hy)]
  exact congrArg (Option.map Array.size) (Array.getElem?_eq_getElem hy)

theorem isSome_char?_around (c : Cell) : (r.grid.char? (r.around c)).isSome = true := by
  have hwidth : (0 : Int) < r.width := Int.natCast_pos.mpr r.width_pos
  have hheight : (0 : Int) < r.grid.height := Int.natCast_pos.mpr r.grid.rows_pos
  exact r.isSome_char?_iff.mpr ⟨⟨Int.emod_nonneg _ hwidth.ne', Int.emod_lt_of_pos _ hwidth⟩,
    Int.emod_nonneg _ hheight.ne', Int.emod_lt_of_pos _ hheight⟩

/-- A cell of the rectangle is itself. -/
theorem around_of_char? {c : Cell} (h : (r.grid.char? c).isSome = true) : r.around c = c := by
  obtain ⟨⟨hx, hwidth⟩, hy, hheight⟩ := r.isSome_char?_iff.mp h
  rw [around, Int.emod_eq_of_lt hx hwidth, Int.emod_eq_of_lt hy hheight]

/-- To go on from there is to have gone on on the plane. -/
theorem around_along (c : Cell) (h : Heading) (n : Nat) :
    r.around ((r.around c).along h n) = r.around (c.along h n) := by
  unfold around Cell.along
  simp only [Int.emod_add_emod]

end Rectangle

namespace Cursor

variable {r : Rectangle} {c : Cursor}

/-- **One cell past an edge, to wrap is to take the remainder.** -/
theorem wrapIn_eq {size : Nat} {n d : Int} (hn : 0 ≤ n) (hlt : n < size) (hd : d.natAbs ≤ 1) :
    wrapIn size (n + d) = ((n + d) % size, decide ¬(0 ≤ n + d ∧ n + d < size)) := by
  by_cases hin : 0 ≤ n + d ∧ n + d < size
  · rw [wrapIn_of_mem hin, Int.emod_eq_of_lt hin.1 hin.2]
    simp [hin]
  · -- whichever the edge, the step reaches the first cell past it and no further
    obtain hbefore | hpast : n + d = size - 1 - size ∨ n + d = size := by omega
    · have hlast : (n + d) % size = size - 1 := by
        rw [hbefore, Int.sub_emod_right]
        exact Int.emod_eq_of_lt (by omega) (by omega)
      rw [hlast, wrapIn, if_pos (by omega)]
      simp [hin]
    · rw [hpast, Int.emod_self]
      simp [wrapIn]

/-- **A cursor that circles a rectangle**: it is there, wraps at all edges, goes by single steps or not at all, and
may leave every cell. -/
structure Circles (r : Rectangle) (c : Cursor) : Prop where
  inside : (r.grid.char? c.cell).isSome = true
  dx : c.heading.dx.natAbs ≤ 1
  dy : c.heading.dy.natAbs ≤ 1
  wrapX : c.switches.wrapX = true
  wrapY : c.switches.wrapY = true
  exclusive : c.switches.exclusive = false
  onlyMarked : c.switches.onlyMarked = false

/-- So many marking steps, one after the other. -/
def steps? (c : Cursor) (grid : Grid) : Nat → Option Cursor
  | 0 => some c
  | n + 1 => (c.steps? grid n).bind (·.step? grid true)

/-- The marks after so many steps round the rectangle. -/
def marksAround (r : Rectangle) (c : Cursor) (n : Nat) : List Cell :=
  if c.switches.noMark then c.marks
  else markAll c.marks ((List.range n).map fun i => r.around (c.cell.along c.heading i))

theorem marksAround_succ (n : Nat) : c.marksAround r (n + 1) =
    if c.switches.noMark then c.marksAround r n
    else addMark (c.marksAround r n) (r.around (c.cell.along c.heading n)) := by
  unfold marksAround
  rw [List.range_succ, List.map_append, markAll_append]
  cases c.switches.noMark <;> rfl

/-- The cursor so many steps round the rectangle, the last of which has wrapped or not. -/
def circled (r : Rectangle) (c : Cursor) (n : Nat) (wrapped : Bool) : Cursor :=
  { c with cell := r.around (c.cell.along c.heading n), wrapped, age := c.age + n, marks := c.marksAround r n }

namespace Circles

theorem moved (h : c.Circles r) : c.moved r.grid = { c with
    cell := r.around (c.cell.along c.heading 1)
    wrapped := (r.grid.char? (c.cell.along c.heading 1)).isNone
    age := c.age + 1 } := by
  obtain ⟨⟨hx, hwidth⟩, hy, hheight⟩ := r.isSome_char?_iff.mp h.inside
  rw [Cell.along_one]
  generalize hnext : (⟨c.cell.x + c.heading.dx, c.cell.y + c.heading.dy⟩ : Cell) = next
  have hrow : c.nextRow r.grid = ((r.around next).y, decide ¬(0 ≤ next.y ∧ next.y < r.grid.height)) := by
    rw [← hnext]
    unfold nextRow
    rw [h.wrapY]
    exact wrapIn_eq hy hheight h.dy
  have hcolumn : c.nextColumn r.grid (r.around next).y =
      ((r.around next).x, decide ¬(0 ≤ next.x ∧ next.x < r.width)) := by
    unfold nextColumn
    rw [h.wrapX, r.width?_eq (r.isSome_char?_iff.mp (r.isSome_char?_around next)).2, ← hnext]
    exact wrapIn_eq hx hwidth h.dx
  have hwrapped : (r.grid.char? next).isNone =
      (decide ¬(0 ≤ next.y ∧ next.y < r.grid.height) || decide ¬(0 ≤ next.x ∧ next.x < r.width)) := by
    rw [Bool.eq_iff_iff, Option.isNone_iff_eq_none, ← Option.not_isSome_iff_eq_none, r.isSome_char?_iff]
    simp only [Bool.or_eq_true, decide_eq_true_eq]
    tauto
  unfold Cursor.moved
  simp only [hrow, hcolumn, hwrapped]

/-- **One step round the rectangle.** -/
theorem step (h : c.Circles r) : c.step? r.grid true = some { c with
    cell := r.around (c.cell.along c.heading 1)
    wrapped := (r.grid.char? (c.cell.along c.heading 1)).isNone
    age := c.age + 1
    marks := if c.switches.noMark then c.marks else addMark c.marks c.cell } := by
  have hcircles : c.markHere.Circles r := by
    rw [markHere_eq]
    exact ⟨h.inside, h.dx, h.dy, h.wrapX, h.wrapY, h.exclusive, h.onlyMarked⟩
  rw [step?, if_pos (mayLeave_of_free h.exclusive h.onlyMarked), if_pos rfl, hcircles.moved, markHere_eq]

/-- **One step more round the rectangle**, from where any number of them have led. -/
theorem step_circled (h : c.Circles r) (n : Nat) (wrapped : Bool) :
    (c.circled r n wrapped).step? r.grid true = some (c.circled r (n + 1)
      (r.grid.char? ((r.around (c.cell.along c.heading n)).along c.heading 1)).isNone) := by
  generalize ht : c.circled r n wrapped = t
  have hcircles : t.Circles r := by
    rw [← ht]
    exact ⟨r.isSome_char?_around _, h.dx, h.dy, h.wrapX, h.wrapY, h.exclusive, h.onlyMarked⟩
  have hcell : r.around (t.cell.along t.heading 1) = r.around (c.cell.along c.heading (n + 1)) := by
    rw [← Cell.along_along, ← r.around_along (c.cell.along c.heading n), ← ht]
    rfl
  have hmarks : (if t.switches.noMark then t.marks else addMark t.marks t.cell) = c.marksAround r (n + 1) := by
    rw [marksAround_succ, ← ht]
    rfl
  rw [hcircles.step, hcell, hmarks, ← ht]
  rfl

/-- After any number of steps all is known of the cursor but whether the last of them wrapped. -/
theorem exists_steps (h : c.Circles r) (n : Nat) : ∃ wrapped, c.steps? r.grid n = some (c.circled r n wrapped) := by
  induction n with
  | zero =>
    refine ⟨c.wrapped, congrArg some ?_⟩
    simp [circled, marksAround, r.around_of_char? h.inside, markAll]
  | succ n ih =>
    obtain ⟨wrapped, hsteps⟩ := ih
    exact ⟨_, by rw [steps?, hsteps, Option.bind_some, h.step_circled]⟩

/-- **Round a rectangle as round a torus.** So many marking steps all succeed. They lead along the heading by
remainders, and take the age on by their number; the last has wrapped if it leads off the rectangle; and unless
marking is off, the cells that were left are marked after the others, each that is new where it was left first. -/
theorem steps_around (h : c.Circles r) (n : Nat) : c.steps? r.grid (n + 1) = some { c with
    cell := ⟨(c.cell.x + (n + 1 : Nat) * c.heading.dx) % r.width,
      (c.cell.y + (n + 1 : Nat) * c.heading.dy) % r.grid.height⟩
    age := c.age + (n + 1)
    wrapped := (r.grid.char? ((r.around (c.cell.along c.heading n)).along c.heading 1)).isNone
    marks :=
      if c.switches.noMark then c.marks
      else c.marks ++
        ((List.range (n + 1)).map fun i => r.around (c.cell.along c.heading i)).eraseDups.filter (· ∉ c.marks) } := by
  obtain ⟨wrapped, hsteps⟩ := h.exists_steps n
  rw [steps?, hsteps, Option.bind_some, h.step_circled, ← markAll_eq]
  rfl

/-- Diagonally over all six cells of a tile and one step more, with one cell marked before. -/
theorem steps_around_tile :
    let c : Cursor := {
      cell := ⟨0, 0⟩, heading := ⟨-1, 1⟩, age := 3, marks := [⟨1, 0⟩], switches := { wrapX := true, wrapY := true } }
    c.Circles Walk.tile ∧ c.steps? Walk.tile.grid 7 = some { c with
      cell := ⟨2, 1⟩
      age := 10
      wrapped := true
      marks := [⟨1, 0⟩, ⟨0, 0⟩, ⟨2, 1⟩, ⟨0, 1⟩, ⟨2, 0⟩, ⟨1, 1⟩] } := by
  intro c
  have hcircles : c.Circles Walk.tile := ⟨rfl, by decide, by decide, rfl, rfl, rfl, rfl⟩
  exact ⟨hcircles, (hcircles.steps_around 6).trans (by decide +kernel)⟩

end Circles

end Cursor

end GridPattern
