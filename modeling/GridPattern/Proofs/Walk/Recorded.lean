import GridPattern.Proofs.Walk.History
import GridPattern.Proofs.Walk.Simulation

/-!
# Walks that keep a record

A cursor with a record walks as it would without, and writes down what the walk itself forgets: the cells
that it left by marking steps, marked or not, and the calls of groups that came to their end, with the age
that they had there. A record goes with its cursor: where a pattern can go on in several ways each way has
a copy, what is dropped takes its record with it, and a look for something absent leaves none.

**The law** (`runFrom_followAll_eq`, `runFrom_run_eq`). To keep a record is only to look on. Without the
records the survivors are those of the walk, in order, and the faults and the count are the walk's.
-/

namespace GridPattern

/-- **A cursor with a record** of what happened on its way. -/
structure Recorded where
  cursor : Cursor
  /-- The cells that marking steps left, in order. -/
  left : List Cell := []
  /-- The calls of groups that came to their end, in order: the group, and the age at the end. -/
  ended : List (Nat × Nat) := []
deriving DecidableEq, Repr

namespace Walk

namespace Walker

/-- **Cursors with a record walk.** -/
def recorder (grid : Grid) : Walker Recorded where
  isStalled r := r.cursor.heading.isStalled
  char? r := r.cursor.char? grid
  insensitive r := r.cursor.switches.insensitive
  step? r := (r.cursor.step? grid true).map fun t =>
    { r with cursor := t, left := r.left ++ [r.cursor.cell] }
  headings? way r := (Walk.headings? grid way r.cursor).map (List.map fun t => { r with cursor := t })
  callee params r := { r with cursor := Walk.callee params r.cursor }
  back? params caller r :=
    ((returned? params caller.cursor r.cursor).bind (stepOn? grid params)).map fun t =>
      { r with cursor := t, ended := r.ended ++ params.group.toList.map (·, r.cursor.age) }
  lookFrom kind r := { r with cursor := Walk.lookFrom kind r.cursor }
  lookBack kind start r := { r with cursor := switchBack kind start.cursor r.cursor }

theorem optionRel_headings {grid : Grid} {way : Direction} (r : Recorded) :
    Option.Rel (List.Forall₂ fun (r : Recorded) c => c = r.cursor) ((recorder grid).headings? way r)
      ((cursor grid).headings? way r.cursor) := by
  refine optionRel_map_left fun headed _ => ?_
  exact (List.forall₂_map_left_iff (R := fun (r : Recorded) c => c = r.cursor)).mpr
    (List.forall₂_same.mpr fun _ _ => rfl)

/-! ## What moves write down -/

section Moves

variable {grid : Grid} {r t : Recorded}

/-- A step writes down the cell that it leaves. -/
theorem eq_of_recorder_step (h : (recorder grid).step? r = some t) :
    ∃ next, r.cursor.step? grid true = some next ∧
      t = { r with cursor := next, left := r.left ++ [r.cursor.cell] } := by
  obtain ⟨next, hnext, heq⟩ := Option.map_eq_some_iff.mp h
  exact ⟨next, hnext, heq.symm⟩

/-- A direction changes the heading and nothing else. -/
theorem eq_of_recorder_headings {way : Direction} {headed : List Recorded}
    (h : (recorder grid).headings? way r = some headed) (mem : t ∈ headed) :
    ∃ heading : Heading, t = { r with cursor := { r.cursor with heading } } := by
  obtain ⟨cursors, hcursors, rfl⟩ := Option.map_eq_some_iff.mp h
  obtain ⟨c, hc, rfl⟩ := List.mem_map.mp mem
  obtain ⟨heading, rfl, _⟩ := eq_of_headings hcursors hc
  exact ⟨heading, rfl⟩

/-- A call gives back the caller's switches and the marks of the pattern called, and leaves no cell by a
marking step. -/
theorem eq_of_recorder_back {params : Params} {caller : Recorded}
    (h : (recorder grid).back? params caller r = some t) :
    t.left = r.left ∧ t.cursor.marks = r.cursor.marks ∧ t.cursor.switches = caller.cursor.switches := by
  obtain ⟨next, hnext, rfl⟩ := Option.map_eq_some_iff.mp h
  obtain ⟨u, hreturn, hlast⟩ := Option.bind_eq_some_iff.mp hnext
  refine ⟨rfl, (eq_of_advance hlast).1.trans ?_, switches_of_back hnext⟩
  rw [eq_of_returned hreturn]
  rfl

end Moves

/-! ## The record does not matter -/

/-- To keep a record is only to look on. -/
theorem recorder_simulates (grid : Grid) :
    Simulates {} (recorder grid) (cursor grid) fun r c => c = r.cursor where
  stalled := by
    rintro r _ rfl
    rfl
  char := by
    rintro r _ rfl
    rfl
  insensitive := by
    rintro r _ rfl
    rfl
  step := by
    rintro r _ rfl
    exact optionRel_map_left (R := fun (r : Recorded) c => c = r.cursor) fun _ _ => rfl
  headings := by
    rintro way r _ _ _ rfl
    exact optionRel_headings r
  callee := by
    rintro call declared r _ _ _ rfl
    rfl
  going := rfl
  back := by
    rintro call declared caller _ r _ _ _ rfl rfl
    exact optionRel_map_left (R := fun (r : Recorded) c => c = r.cursor) fun _ _ => rfl
  lookFrom := by
    rintro kind r _ _ rfl
    rfl
  lookBack := by
    rintro kind start _ r _ _ rfl rfl
    rfl

end Walker

open Walker

/-- The walk along a pattern with a record that begins with the cursor. -/
def followRecorded (s : Setting) (depth : Nat) (node : Node) (c : Cursor) : Counted (Survivors Recorded) :=
  (recorder s.grid).followAll s.program s.budget depth node (.one { cursor := c })

/-- The walk of a whole program with a record that begins with the cursor. -/
def runRecorded (s : Setting) (depth : Nat) (c : Cursor) : Counted (Survivors Recorded) :=
  (recorder s.grid).run s.program s.budget depth { cursor := c }

variable (s : Setting) (depth count : Nat) (c : Cursor)

/-- **The walk along a pattern is the one with a record**, without the record. -/
theorem runFrom_followAll_eq (node : Node) :
    (followAll s depth node (.one c)).runFrom count =
      Counted.mapEnd Recorded.cursor ((followRecorded s depth node c).runFrom count) := by
  have h := (recorder_simulates s.grid).followAll (Fragment.closed_whole s.program)
    s.budget depth (Fragment.allows_whole node) (a := { cursor := c }) rfl
  exact h.runFrom_eq (fun _ _ h => h) count

/-- **The walk of a program is the one with a record**, without the record. -/
theorem runFrom_run_eq :
    (run s depth c).runFrom count =
      Counted.mapEnd Recorded.cursor ((runRecorded s depth c).runFrom count) := by
  have hturn : ∀ params, Counted.Alongside (Survivors.Alike fun (r : Recorded) c => c = r.cursor)
      ((recorder s.grid).turn .forward ((recorder s.grid).callee params { cursor := c }))
      ((cursor s.grid).turn .forward ((cursor s.grid).callee params c)) :=
    fun params => alongside_turn (optionRel_headings _)
  have h := (recorder_simulates s.grid).run (Fragment.closed_whole s.program) rfl
    s.budget depth (a := { cursor := c }) rfl hturn
  exact h.runFrom_eq (fun _ _ h => h) count

end Walk

end GridPattern
