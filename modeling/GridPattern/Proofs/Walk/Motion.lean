import GridPattern.Proofs.Walk.Frame
import GridPattern.Proofs.Walk.Simulation

/-!
# Motions of the plane

A program sees a grid from where a cursor stands and the way that it goes. Who moves the grid, and the cursor
with its marks along with it, changes nothing that the program can see, as long as steps and bends are moved in
the same way. Only wrapping is another matter, for the ends of a grid are not where they were.

**The law** (`Motion.simulates`). A cursor that is carried along does what it would have done, carried along, if
the characters of the grid are. Two things can tell where the grid lies, and ask more of it: a direction of the
grid that it leaves east where it is, and a turn towards every other cell that the cells come in the same order.
-/

namespace GridPattern

/-- **A motion of the plane**: steps and bends are moved with the cells. -/
structure Motion where
  cell : Cell → Cell
  heading : Heading → Heading
  injective : cell.Injective
  step : ∀ (c : Cell) (h : Heading),
    cell ⟨c.x + h.dx, c.y + h.dy⟩ = ⟨(cell c).x + (heading h).dx, (cell c).y + (heading h).dy⟩
  turn : ∀ {h : Heading}, h.isStalled = false → ∀ b, (heading h).turn b = heading (h.turn b)

namespace Motion

variable (m : Motion)

/-- Who goes nowhere still goes nowhere, and nobody else does. -/
theorem isStalled_heading (h : Heading) : (m.heading h).isStalled = h.isStalled := by
  have hstep := m.step ⟨0, 0⟩ h
  rw [Bool.eq_iff_iff]
  simp only [Heading.isStalled, Bool.and_eq_true, beq_iff_eq]
  constructor
  · rintro ⟨hx, hy⟩
    rw [hx, hy, add_zero, add_zero] at hstep
    simpa using m.injective hstep
  · rintro ⟨hx, hy⟩
    rw [hx, hy] at hstep
    have hdx := congrArg Cell.x hstep
    have hdy := congrArg Cell.y hstep
    simp only [add_zero] at hdx hdy
    omega

/-- The heading from one cell to another is moved with them. -/
theorem heading_between (c target : Cell) :
    m.heading ⟨target.x - c.x, target.y - c.y⟩ =
      ⟨(m.cell target).x - (m.cell c).x, (m.cell target).y - (m.cell c).y⟩ := by
  have hstep := m.step c ⟨target.x - c.x, target.y - c.y⟩
  rw [add_sub_cancel, add_sub_cancel] at hstep
  rw [hstep, add_sub_cancel_left, add_sub_cancel_left]

end Motion

/-! ## Cursors -/

namespace Cursor

/-- The cursor after a motion, its marks with it. -/
def carried (m : Motion) (c : Cursor) : Cursor :=
  { c with cell := m.cell c.cell, heading := m.heading c.heading, marks := c.marks.map m.cell }

variable {c : Cursor} (m : Motion)

theorem isMarked_carried : (c.carried m).isMarked (c.carried m).cell = c.isMarked c.cell := by
  rw [Bool.eq_iff_iff]
  unfold isMarked carried
  rw [List.contains_iff_mem, List.contains_iff_mem, List.mem_map_of_injective m.injective]

theorem markHere_carried : (c.carried m).markHere = c.markHere.carried m := by
  unfold markHere
  rw [isMarked_carried, apply_ite (carried m)]
  refine if_congr Iff.rfl rfl ?_
  unfold carried
  rw [List.map_append]
  rfl

theorem mayLeave_carried : (c.carried m).mayLeave = c.mayLeave := by
  have hempty : (c.carried m).marks.isEmpty = c.marks.isEmpty := List.isEmpty_map
  unfold mayLeave
  rw [isMarked_carried, hempty]
  rfl

theorem moved_carried (grid grid' : Grid) (h : c.switches.wraps = false) :
    (c.carried m).moved grid' = (c.moved grid).carried m := by
  have hcarried : (c.carried m).switches.wraps = false := h
  rw [moved_eq grid h, moved_eq grid' hcarried]
  unfold carried
  rw [m.step]

/-- **Where nobody wraps a step is moved with the cursor.** -/
theorem step_carried (grid grid' : Grid) (h : c.switches.wraps = false) (marking : Bool) :
    (c.carried m).step? grid' marking = (c.step? grid marking).map (carried m) := by
  have hmark : (if marking then (c.carried m).markHere else c.carried m) =
      (if marking then c.markHere else c).carried m := by
    rw [markHere_carried, apply_ite (carried m)]
  have hwraps : (if marking then c.markHere else c).switches.wraps = false := by
    split
    · rw [(advances_markHere c).switches]
      exact h
    · exact h
  unfold step?
  rw [mayLeave_carried, hmark, moved_carried m grid grid' hwraps]
  split <;> rfl

theorem bend_carried (hgoing : c.heading.isStalled = false) (b : Bend) :
    (c.carried m).bend b = (c.bend b).carried m := by
  unfold bend carried
  rw [m.turn hgoing]

theorem aimAt_carried (target : Cell) : (c.carried m).aimAt (m.cell target) = (c.aimAt target).carried m := by
  unfold aimAt carried
  rw [m.heading_between]

theorem returnTo_carried (caller : Cursor) (piggyback : Bool) :
    (c.carried m).returnTo (caller.carried m) piggyback = (c.returnTo caller piggyback).carried m := by
  cases piggyback <;> rfl

end Cursor

/-- Only one spelling is a turn towards every other cell. -/
theorem Turn.eq_of_everywhere {letters : List Char} (h : ofLetters? letters = some .everywhere) :
    letters = ['!'] := by
  unfold ofLetters? at h
  split at h
  case h_1 => rfl
  case h_7 => cases hbends : letters.mapM Bend.ofLetter? <;> rw [hbends] at h <;> cases h
  all_goals cases h

/-! ## The walk -/

namespace Walk

theorem wraps_or {s : Switches} {call declared : Params} (hs : s.wraps = false)
    (hcall : call.switches.wraps = false) (hdeclared : declared.switches.wraps = false) :
    (s.or (call.merged declared).switches).wraps = false := by
  simp only [Switches.wraps, Switches.or, Params.merged, Bool.or_eq_false_iff] at *
  exact ⟨⟨hs.1, hcall.1, hdeclared.1⟩, hs.2, hcall.2, hdeclared.2⟩

/-- **What a direction asks of a motion** from one grid to another. -/
structure Suits (m : Motion) (grid grid' : Grid) (way : Direction) : Prop where
  east : way.absolute = true → m.heading .east = .east
  cells : way.turns = ['!'] → grid'.cells = grid.cells.map m.cell

section Moves

variable {c : Cursor} {m : Motion} {grid grid' : Grid}

theorem headings_carried {way : Direction} (hsuits : Suits m grid grid' way)
    (hgoing : c.heading.isStalled = false) :
    headings? grid' way (c.carried m) = (headings? grid way c).map (List.map (Cursor.carried m)) := by
  -- an absolute turn is one from east, which is where it was
  obtain ⟨d, hd, hd', hgoing'⟩ : ∃ d : Cursor,
      (if way.absolute then { c with heading := .east } else c) = d ∧
        (if way.absolute then { c.carried m with heading := .east } else c.carried m) = d.carried m ∧
          d.heading.isStalled = false := by
    by_cases habsolute : way.absolute = true
    · refine ⟨{ c with heading := .east }, if_pos habsolute, ?_, rfl⟩
      rw [if_pos habsolute]
      unfold Cursor.carried
      rw [hsuits.east habsolute]
    · exact ⟨c, if_neg habsolute, if_neg habsolute, hgoing⟩
  unfold headings?
  simp only [hd, hd']
  cases hturn : Turn.ofLetters? way.turns with
  | none => rfl
  | some turn =>
    cases turn with
    | relative b => exact congrArg (some [·]) (Cursor.bend_carried m hgoing' b)
    | branch bends =>
      refine congrArg some ?_
      rw [List.map_map]
      exact List.map_congr_left fun b _ => Cursor.bend_carried m hgoing' b
    | everywhere =>
      have hother : (· != (d.carried m).cell) ∘ m.cell = (· != d.cell) := funext fun target =>
        congrArg not m.injective.beq_eq
      have haim : (d.carried m).aimAt ∘ m.cell = Cursor.carried m ∘ d.aimAt := funext fun target =>
        Cursor.aimAt_carried m target
      refine congrArg some ?_
      dsimp only
      rw [hsuits.cells (Turn.eq_of_everywhere hturn), List.filter_map, List.map_map, List.map_map, hother, haim]

theorem returned_carried (params : Params) (caller : Cursor) :
    returned? params (caller.carried m) (c.carried m) = (returned? params caller c).map (Cursor.carried m) :=
  returned_map (Cursor.agree_map rfl rfl fun _ => rfl) fun _ => Cursor.returnTo_carried m caller params.piggyback

theorem back_carried (params : Params) {caller : Cursor} (h : caller.switches.wraps = false) :
    (Walker.cursor grid').back? params (caller.carried m) (c.carried m) =
      ((Walker.cursor grid).back? params caller c).map (Cursor.carried m) := by
  change (returned? params _ _).bind _ = ((returned? params caller c).bind _).map _
  rw [returned_carried]
  cases hreturn : returned? params caller c with
  | none => rfl
  | some u =>
    have hu : u.switches.wraps = false := by
      rw [eq_of_returned hreturn]
      exact h
    change Walker.stepOn? grid' params (u.carried m) = (Walker.stepOn? grid params u).map _
    unfold Walker.stepOn?
    rw [Cursor.step_carried m grid grid' hu]
    split <;> rfl

end Moves

end Walk

open Walk in
/-- **Each move of a cursor that is carried along is the move carried along.** -/
theorem Motion.simulates (m : Motion) {f : Fragment} {grid grid' : Grid}
    (hparams : ∀ p, f.params p = true → p.switches.wraps = false)
    (hchar : ∀ c, grid'.char? (m.cell c) = grid.char? c)
    (hsuits : ∀ way, f.way way = true → Suits m grid grid' way) :
    Walker.Simulates f (Walker.cursor grid) (Walker.cursor grid')
      fun c c' => c' = c.carried m ∧ c.switches.wraps = false where
  stalled := by
    rintro c _ ⟨rfl, _⟩
    exact (m.isStalled_heading c.heading).symm
  char := by
    rintro c _ ⟨rfl, _⟩
    exact (hchar c.cell).symm
  insensitive := by
    rintro c _ ⟨rfl, _⟩
    rfl
  step := by
    rintro c _ ⟨rfl, hwraps⟩
    change Option.Rel _ _ ((c.carried m).step? grid' true)
    rw [Cursor.step_carried m grid grid' hwraps]
    refine Walker.optionRel_map_right fun t ht => ⟨rfl, ?_⟩
    rw [(Cursor.advances_step ht).switches]
    exact hwraps
  headings := by
    rintro way c _ hway hgoing ⟨rfl, hwraps⟩
    change Option.Rel _ _ (headings? grid' way (c.carried m))
    rw [headings_carried (hsuits way hway) hgoing]
    refine Walker.optionRel_map_right fun headed hheaded => ?_
    refine List.forall₂_map_right_iff.mpr (List.forall₂_same.mpr fun t mem => ⟨rfl, ?_⟩)
    obtain ⟨heading, rfl, _⟩ := eq_of_headings hheaded mem
    exact hwraps
  callee := by
    rintro call declared c _ hcall hdeclared ⟨rfl, hwraps⟩
    exact ⟨rfl, wraps_or hwraps (hparams call hcall) (hparams declared hdeclared)⟩
  going := rfl
  back := by
    rintro call declared caller _ c _ _ _ ⟨rfl, hcaller⟩ ⟨rfl, _⟩
    rw [back_carried _ hcaller]
    refine Walker.optionRel_map_right fun t ht => ⟨rfl, ?_⟩
    rw [Walker.switches_of_back ht]
    exact hcaller
  lookFrom := by
    rintro kind c _ _ ⟨rfl, hwraps⟩
    cases kind <;> exact ⟨rfl, hwraps⟩
  lookBack := by
    rintro kind start _ c _ _ ⟨rfl, _⟩ ⟨rfl, hwraps⟩
    cases kind <;> exact ⟨rfl, hwraps⟩

end GridPattern
