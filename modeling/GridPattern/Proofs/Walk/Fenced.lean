import GridPattern.Proofs.Walk.Simulation
import GridPattern.Proofs.Walk.Unbudgeted

/-!
# Cursors that stay on the grid

A cursor that wraps in rows and columns is always on the grid, if it begins there and no row is empty: whatever
leads past an edge leads to the other, in the row that the step came to, however long the step is. Calls give
back the switches of the caller, and a cell of the grid.

**The law** (`fenced_walks_stay`). The walk is one of cursors that each have a character underneath and wrap, at
every moment of it: in calls, in levels of a repetition, in looks, and in what is given up on the way. None of
them passes where a cell off the grid is asked for.

**What it does not establish.** Anything about grids with an empty row, in which there is nowhere to wrap to.
-/

namespace GridPattern

namespace Cursor

variable {grid : Grid} {c t : Cursor}

/-- **On the grid, and wrapping at all its edges.** -/
structure Fenced (grid : Grid) (c : Cursor) : Prop where
  inside : (grid.char? c.cell).isSome = true
  wrapX : c.switches.wrapX = true
  wrapY : c.switches.wrapY = true

/-- What is wrapped in a line is in it. -/
theorem wrapIn_mem {size : Nat} (hpos : 0 < size) (n : Int) :
    ∃ k < size, (wrapIn size n).1 = (k : Int) := by
  unfold wrapIn
  split
  · exact ⟨size - 1, by omega, by simp only; omega⟩
  · split
    · exact ⟨0, hpos, rfl⟩
    · exact ⟨n.toNat, by omega, by simp only; omega⟩

/-- The row is one of the grid after wrapping, and then the column is one of that row. -/
theorem Fenced.moved (hrows : ∀ row ∈ grid.rows, 0 < row.size) (h : c.Fenced grid) :
    (c.moved grid).Fenced grid := by
  refine ⟨?_, h.wrapX, h.wrapY⟩
  obtain ⟨y, hy, hrow⟩ := wrapIn_mem grid.rows_pos (c.cell.y + c.heading.dy)
  have hnextRow : (c.nextRow grid).1 = y := by
    unfold nextRow
    rw [h.wrapY]
    exact hrow
  have hwidth : grid.width? y = some grid.rows[y].size :=
    congrArg (Option.map Array.size) (Array.getElem?_eq_getElem hy)
  obtain ⟨x, hx, hcolumn⟩ := wrapIn_mem (hrows _ (Array.getElem_mem hy)) (c.cell.x + c.heading.dx)
  have hnextColumn : (c.nextColumn grid y).1 = x := by
    unfold nextColumn
    rw [h.wrapX, hwidth]
    exact hcolumn
  refine Grid.isSome_char?_iff.mpr ⟨x, y, ?_, grid.rows[y], Array.getElem?_eq_getElem hy, hx⟩
  unfold Cursor.moved
  simp only [hnextRow, hnextColumn]

theorem Fenced.step (hrows : ∀ row ∈ grid.rows, 0 < row.size) (h : c.Fenced grid) {marking : Bool}
    (hstep : c.step? grid marking = some t) : t.Fenced grid := by
  have hmark : c.markHere.Fenced grid := by
    unfold markHere
    split
    · exact h
    · exact ⟨h.inside, h.wrapX, h.wrapY⟩
  unfold step? at hstep
  split at hstep
  · cases hstep
    cases marking with
    | true => exact hmark.moved hrows
    | false => exact h.moved hrows
  · cases hstep

/-- Back at a caller that is fenced. -/
theorem Fenced.returnTo {caller : Cursor} (h : c.Fenced grid) (hcaller : caller.Fenced grid) (piggyback : Bool) :
    (c.returnTo caller piggyback).Fenced grid := by
  refine ⟨?_, hcaller.wrapX, hcaller.wrapY⟩
  cases piggyback with
  | true => exact h.inside
  | false => exact hcaller.inside

end Cursor

namespace Walk

open Walker

variable {grid : Grid}

/-- **Every move of a fenced cursor keeps it fenced.** -/
theorem fenced_invariant (hrows : ∀ row ∈ grid.rows, 0 < row.size) :
    Invariant {} (cursor grid) (Cursor.Fenced grid) where
  step h hstep := h.step hrows hstep
  headings := by
    intro way c headed _ h hheaded t mem
    obtain ⟨heading, rfl, _⟩ := eq_of_headings hheaded mem
    exact ⟨h.inside, h.wrapX, h.wrapY⟩
  callee {call declared c} _ _ h :=
    ⟨h.inside, congrArg (· || (call.merged declared).switches.wrapX) h.wrapX,
      congrArg (· || (call.merged declared).switches.wrapY) h.wrapY⟩
  going := rfl
  back := by
    intro call declared caller c t _ _ hcaller h hback
    obtain ⟨u, hreturn, hlast⟩ := Option.bind_eq_some_iff.mp hback
    have hu : u.Fenced grid := by
      rw [eq_of_returned hreturn]
      refine Cursor.Fenced.returnTo ?_ hcaller _
      exact ⟨h.inside, h.wrapX, h.wrapY⟩
    unfold stepOn? at hlast
    split at hlast
    · exact hu.step hrows hlast
    · cases hlast
      exact hu
  lookFrom {kind c} _ h := by cases kind <;> exact ⟨h.inside, h.wrapX, h.wrapY⟩
  lookBack {kind c t} _ _ h := by cases kind <;> exact ⟨h.inside, h.wrapX, h.wrapY⟩

/-- **The walk of fenced cursors.** There are none others in it. -/
def followFenced (s : Setting) (hrows : ∀ row ∈ s.grid.rows, 0 < row.size) (depth : Nat) (node : Node)
    (c : {c : Cursor // c.Fenced s.grid}) : Counted (Survivors {c : Cursor // c.Fenced s.grid}) :=
  (fenced_invariant hrows).restrict.followAll s.program s.budget depth node (.one c)

/-- Nobody passes a cell off the grid from a cell of the grid. -/
theorem eval_outside_of_fenced {p : Program} {c : Cursor} (hc : c.Fenced grid)
    (hgoing : c.heading.isStalled = false) : eval p grid .outside c = some (.ok []) := by
  have hinside : (c.char? grid).isNone = false := Option.isNone_eq_false_iff.mpr hc.inside
  rw [eval_outside hgoing, hinside]
  rfl

/-- **A cursor that wraps never leaves the grid.** Its walk is one of fenced cursors only, and none of these has
a survivor past a cell off the grid. -/
theorem fenced_walks_stay (s : Setting) (hrows : ∀ row ∈ s.grid.rows, 0 < row.size) (node : Node) (c : Cursor)
    (hc : c.Fenced s.grid) (depth count : Nat) :
    (followAll s depth node (.one c)).runFrom count =
        Counted.mapEnd Subtype.val ((followFenced s hrows depth node ⟨c, hc⟩).runFrom count) ∧
      (∀ found, ((followAll s depth node (.one c)).runFrom count).1 = .ok found →
        ∀ t ∈ found.toList, t.Fenced s.grid) ∧
      ∀ (d : {d : Cursor // d.Fenced s.grid}) (depth count : Nat) (found : Survivors Cursor),
        ((followAll s depth .outside (.one d.val)).runFrom count).1 = .ok found → found.toList = [] := by
  refine ⟨?_, fun found hfound t mem => ?_, fun d depth count found hfound => ?_⟩
  · have hwalk := (fenced_invariant hrows).restrict_simulates.followAll (Fragment.closed_whole s.program)
      s.budget depth (Fragment.allows_whole node) (a := ⟨c, hc⟩) rfl
    exact hwalk.runFrom_eq (fun _ _ h => h) count
  · have hwalk := (fenced_invariant hrows).simulates.followAll (Fragment.closed_whole s.program)
      s.budget depth (Fragment.allows_whole node) (a := c) ⟨rfl, hc⟩
    obtain ⟨_, _, ht⟩ := exists_related hwalk hfound t mem
    exact ht
  · have heval := eval_of_runFrom hfound
    cases hgoing : d.val.heading.isStalled with
    | true =>
      rw [eval_stalled _ hgoing] at heval
      cases heval
    | false =>
      rw [eval_outside_of_fenced d.property hgoing] at heval
      injection heval with hok
      injection hok with hnone
      exact hnone.symm

/-- One cell on or off the grid. -/
def anywhere : Node := .choice [.inside, .outside]

/-- Long steps over three rows of different lengths, some of them in a call and one after each call. -/
theorem fenced_walks_stay_ragged :
    let s : Setting := ⟨⟨[⟨"leap", { piggyback := true }, anywhere⟩]⟩,
      ⟨#[#['a', 'b', 'c'], #['d'], #['e', 'f']], by decide⟩, some 100⟩
    let leaps : Node := .sequence
      [.repeated (.call ⟨"leap", ⟨[], false⟩, { advance := true }⟩) (.bounded ⟨some 1, some 3⟩), anywhere]
    let c : Cursor := { cell := ⟨2, 0⟩, heading := ⟨-2, 1⟩, switches := { wrapX := true, wrapY := true } }
    ∃ (hrows : ∀ row ∈ s.grid.rows, 0 < row.size) (hc : c.Fenced s.grid) (found : Survivors Cursor),
      (followAll s 20 leaps (.one c)).runFrom 0 =
          Counted.mapEnd Subtype.val ((followFenced s hrows 20 leaps ⟨c, hc⟩).runFrom 0) ∧
        ((followAll s 20 leaps (.one c)).runFrom 0).1 = .ok found ∧
        found.toList.map Cursor.cell = [⟨2, 0⟩, ⟨1, 2⟩, ⟨0, 1⟩] ∧ ∀ t ∈ found.toList, t.Fenced s.grid := by
  intro s leaps c
  have hrows : ∀ row ∈ s.grid.rows, 0 < row.size := by decide
  have hc : c.Fenced s.grid := ⟨rfl, rfl, rfl⟩
  have hwalk : (fun found : Survivors Cursor => found.toList.map Cursor.cell) <$>
      ((followAll s 20 leaps (.one c)).runFrom 0).1 = .ok [⟨2, 0⟩, ⟨1, 2⟩, ⟨0, 1⟩] := by decide +kernel
  obtain ⟨found, hfound, hcells⟩ := map_eq_ok_iff.mp hwalk
  obtain ⟨hfenced, hstay, _⟩ := fenced_walks_stay s hrows leaps c hc 20 0
  exact ⟨hrows, hc, found, hfenced, hfound, hcells, hstay found hfound⟩

end Walk

end GridPattern
