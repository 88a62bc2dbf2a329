import GridPattern.Proofs.Grid
import GridPattern.Proofs.Walk.Paths

/-!
# What a path leaves alone

A pattern moves a cursor, turns it, marks cells and settles groups. What else a cursor has is not the
pattern's to change: switches are put back where they were turned on, age only grows, and a cursor that
goes somewhere never comes to go nowhere.

**The law** (`Reaches.keeps`), by induction on the path. A step keeps more than a path does, for it
also keeps the heading (`Cursor.Advances`); what a call gives back is the caller itself but for marks and
settled groups, unless the caller goes on from where the pattern ends or takes a step after it
(`Reaches.eq_caller`).
-/

namespace GridPattern

/-- The name of the first declaration is that declaration's. -/
theorem Program.declaration?_of_entry {p : Program} {entry : Declaration} (h : p.entry? = some entry) :
    p.declaration? entry.name = some entry := by
  obtain ⟨rest, heq⟩ := List.head?_eq_some_iff.mp h
  unfold declaration?
  rw [heq]
  exact List.find?_cons_of_pos (beq_self_eq_true entry.name)

/-! ## Turns -/

namespace Heading

/-- A bend of something leads somewhere. -/
theorem isStalled_bent (h : Heading) {left ahead : Int} (hb : ¬(left = 0 ∧ ahead = 0)) :
    (h.bent left ahead).isStalled = false := by
  rw [isStalled_eq_false_iff]
  unfold bent
  split <;> simp only <;> omega

theorem isStalled_unit (h : Heading) : h.unit.isStalled = h.isStalled := by
  unfold isStalled unit
  rw [Bool.eq_iff_iff]
  simp only [Bool.and_eq_true, beq_iff_eq, Int.sign_eq_zero_iff_zero]

/-- **Who goes somewhere goes somewhere after every bend**, however long. -/
theorem isStalled_turn {h : Heading} (hgoing : h.isStalled = false) (b : Bend) :
    (h.turn b).isStalled = false := by
  unfold turn
  split
  · exact hgoing
  · next hb =>
    dsimp only
    split
    · rw [isStalled_unit]
      exact isStalled_bent h hb
    · exact isStalled_bent h hb

end Heading

/-! ## Steps -/

/-- Whether cells past the end of a row or column come in at the other end. -/
def Switches.wraps (s : Switches) : Bool := s.wrapX || s.wrapY

namespace Cursor

variable {grid : Grid} {c t u : Cursor}

/-- **What steps leave alone.** -/
structure Advances (c t : Cursor) : Prop where
  heading : t.heading = c.heading
  switches : t.switches = c.switches
  groupAges : t.groupAges = c.groupAges
  age : c.age ≤ t.age

theorem Advances.refl (c : Cursor) : Advances c c := ⟨rfl, rfl, rfl, Nat.le_refl _⟩

theorem Advances.trans (h : Advances c t) (h' : Advances t u) : Advances c u where
  heading := h'.heading.trans h.heading
  switches := h'.switches.trans h.switches
  groupAges := h'.groupAges.trans h.groupAges
  age := h.age.trans h'.age

theorem advances_markHere (c : Cursor) : Advances c c.markHere := by
  unfold markHere
  split
  · exact .refl c
  · exact ⟨rfl, rfl, rfl, Nat.le_refl _⟩

theorem advances_moved (c : Cursor) (grid : Grid) : Advances c (c.moved grid) :=
  ⟨rfl, rfl, rfl, Nat.le_succ _⟩

/-- Who does not wrap comes to the next cell along the heading. -/
theorem moved_eq (grid : Grid) (h : c.switches.wraps = false) :
    c.moved grid = { c with
      cell := ⟨c.cell.x + c.heading.dx, c.cell.y + c.heading.dy⟩, wrapped := false, age := c.age + 1 } := by
  rw [Switches.wraps, Bool.or_eq_false_iff] at h
  have hrow : c.nextRow grid = (c.cell.y + c.heading.dy, false) := by
    unfold nextRow
    rw [h.2]
    rfl
  have hcolumn : ∀ y, c.nextColumn grid y = (c.cell.x + c.heading.dx, false) := by
    intro y
    unfold nextColumn
    rw [h.1]
  simp only [moved, hrow, hcolumn, Bool.or_false]

/-- Coordinates in range do not wrap. -/
theorem wrapIn_of_mem {size : Nat} {n : Int} (h : 0 ≤ n ∧ n < size) : wrapIn size n = (n, false) := by
  rw [wrapIn, if_neg (Int.not_lt.mpr h.1), if_neg (Int.not_le.mpr h.2)]

/-- **Nor does anyone who steps onto the grid**, whatever wraps. -/
theorem moved_of_isSome {target : Cell} (hx : c.cell.x + c.heading.dx = target.x)
    (hy : c.cell.y + c.heading.dy = target.y) (h : (grid.char? target).isSome = true) :
    c.moved grid = { c with cell := target, wrapped := false, age := c.age + 1 } := by
  obtain ⟨x, y, rfl, row, hrow, hwidth⟩ := Grid.isSome_char?_iff.mp h
  have hheight : y < grid.height := (Array.getElem?_eq_some_iff.mp hrow).1
  have hnext : c.nextRow grid = (↑y, false) := by
    unfold nextRow
    rw [hy]
    dsimp only
    rw [wrapIn_of_mem ⟨Int.natCast_nonneg y, Int.ofNat_lt.mpr hheight⟩]
    exact ite_self _
  have hcolumn : c.nextColumn grid y = (↑x, false) := by
    unfold nextColumn
    rw [hx, Grid.width?_natCast, hrow]
    cases c.switches.wrapX with
    | false => rfl
    | true => exact wrapIn_of_mem ⟨Int.natCast_nonneg x, Int.ofNat_lt.mpr hwidth⟩
  simp only [moved, hnext, hcolumn, Bool.or_false]

/-- Who keeps to no rule about marks may leave every cell. -/
theorem mayLeave_of_free (hexclusive : c.switches.exclusive = false) (honly : c.switches.onlyMarked = false) :
    c.mayLeave = true := by
  unfold mayLeave
  rw [hexclusive, honly]
  simp

theorem advances_step {marking : Bool} (h : c.step? grid marking = some t) : Advances c t := by
  unfold step? at h
  split at h
  · cases h
    cases marking with
    | true => exact (advances_markHere c).trans (advances_moved _ grid)
    | false => exact advances_moved c grid
  · cases h

/-- Every step takes the cursor's age on by one. -/
theorem age_of_step {marking : Bool} (h : c.step? grid marking = some t) : t.age = c.age + 1 := by
  have hmark : c.markHere.age = c.age := by
    unfold markHere
    split <;> rfl
  unfold step? at h
  split at h
  · cases h
    cases marking with
    | true => exact congrArg (· + 1) hmark
    | false => rfl
  · cases h

theorem step_of_stepIf {test : Bool} (h : c.stepIf? grid test = some t) :
    c.step? grid true = some t := by
  unfold stepIf? at h
  split at h
  · exact h
  · cases h

theorem advances_stepIf {test : Bool} (h : c.stepIf? grid test = some t) : Advances c t :=
  advances_step (step_of_stepIf h)

theorem advances_spell {text : List Char} (h : c.spell? grid text = some t) : Advances c t := by
  induction text generalizing c with
  | nil =>
    cases h
    exact .refl _
  | cons char text ih =>
    obtain ⟨next, hstep, hrest⟩ := Option.bind_eq_some_iff.mp h
    exact (advances_stepIf hstep).trans (ih hrest)

/-! ## Groups -/

/-- The settled ages after a call of a group came to its end at an age: the first age settles the
group. -/
def settle (ages : Vector (Option Nat) groupCount) (group age : Nat) : Vector (Option Nat) groupCount :=
  .ofFn fun slot => if slot = groupSlot group then ages.get slot <|> some age else ages.get slot

theorem get_settle (ages : Vector (Option Nat) groupCount) (group age : Nat) (slot : Fin groupCount) :
    (settle ages group age).get slot =
      if slot = groupSlot group then ages.get slot <|> some age else ages.get slot :=
  Vector.getElem_ofFn slot.isLt

section Settling

variable {ages : Vector (Option Nat) groupCount} {group age settled : Nat}

theorem settle_of_none (h : ages.get (groupSlot group) = none)
    (hlt : (groupSlot group).val < groupCount) :
    settle ages group age = ages.set (groupSlot group) (some age) hlt := by
  apply Vector.ext
  intro slot hslot
  refine (get_settle ages group age ⟨slot, hslot⟩).trans ?_
  rw [Vector.getElem_set]
  by_cases hs : (⟨slot, hslot⟩ : Fin groupCount) = groupSlot group
  · rw [if_pos hs, if_pos (congrArg Fin.val hs).symm, hs, h]
    rfl
  · have hne : (groupSlot group).val ≠ slot := fun heq => hs (Fin.ext heq.symm)
    rw [if_neg hs, if_neg hne]
    rfl

theorem settle_of_some (h : ages.get (groupSlot group) = some settled) :
    settle ages group age = ages := by
  apply Vector.ext
  intro slot hslot
  refine (get_settle ages group age ⟨slot, hslot⟩).trans ?_
  by_cases hs : (⟨slot, hslot⟩ : Fin groupCount) = groupSlot group
  · have hhere : ages[slot] = some settled := by
      rw [← hs] at h
      exact h
    rw [if_pos hs, hs, h, hhere]
    rfl
  · exact if_neg hs

end Settling

/-- A cursor that keeps to its group changes in nothing else. -/
theorem eq_of_agree {group : Nat} (h : c.agree? group = some t) :
    t = { c with groupAges := settle c.groupAges group c.age } := by
  cases hages : c.groupAges[groupSlot group] with
  | none =>
    simp only [agree?, hages] at h
    cases h
    rw [settle_of_none hages]
  | some age =>
    simp only [agree?, hages] at h
    split at h
    · cases h
      rw [settle_of_some hages]
    · cases h

/-- What leaves age and settled groups alone, agrees to a group alike. -/
theorem agree_map {f : Cursor → Cursor} (hages : (f c).groupAges = c.groupAges) (hage : (f c).age = c.age)
    (hset : ∀ ages, { f c with groupAges := ages } = f { c with groupAges := ages }) (group : Nat) :
    (f c).agree? group = (c.agree? group).map f := by
  unfold agree?
  rw [hages]
  split
  · have hsame : ({ f c with groupAges := c.groupAges.set (groupSlot group) (some (f c).age) } : Cursor) =
        { f c with groupAges := c.groupAges.set (groupSlot group) (some c.age) } :=
      congrArg (fun age => { f c with groupAges := c.groupAges.set (groupSlot group) (some age) }) hage
    exact congrArg some (hsame.trans (hset _))
  · rw [hage, apply_ite (Option.map f)]
    rfl

end Cursor

namespace Walk

variable {program : Program} {grid : Grid} {c t u : Cursor}

/-! ## Paths -/

/-- What comes back from a call: the cursor, with the group of the call settled, at the caller. -/
theorem eq_of_returned {params : Params} {caller : Cursor} (h : returned? params caller t = some u) :
    u = ({ t with groupAges :=
      params.group.toList.foldl (Cursor.settle · · t.age) t.groupAges }).returnTo caller params.piggyback := by
  unfold returned? at h
  cases hg : params.group with
  | none =>
    rw [hg] at h
    cases h
    rfl
  | some group =>
    rw [hg] at h
    obtain ⟨agreed, hagreed, h⟩ := Option.bind_eq_some_iff.mp h
    cases Cursor.eq_of_agree hagreed
    cases h
    rfl

/-- What is made of cursors without regard to groups and calls is made of those that come back. -/
theorem returned_map {params : Params} {caller caller' : Cursor} {f g : Cursor → Cursor}
    (hagree : ∀ group, (f t).agree? group = (t.agree? group).map f)
    (hreturn : ∀ u, (f u).returnTo caller' params.piggyback = g (u.returnTo caller params.piggyback)) :
    returned? params caller' (f t) = (returned? params caller t).map g := by
  unfold returned?
  cases params.group with
  | none => exact congrArg some (hreturn t)
  | some group =>
    dsimp only
    rw [hagree]
    cases t.agree? group with
    | none => rfl
    | some u => exact congrArg some (hreturn u)

/-- A direction changes the heading and nothing else, and leads somewhere. -/
theorem eq_of_headings {way : Direction} {headed : List Cursor}
    (hh : headings? grid way c = some headed) (mem : t ∈ headed) :
    ∃ heading : Heading, t = { c with heading } ∧
      (c.heading.isStalled = false → heading.isStalled = false) := by
  unfold headings? at hh
  obtain ⟨turn, _, rfl⟩ := Option.map_eq_some_iff.mp hh
  -- an absolute turn is one from east, which is no dead end either
  obtain ⟨start, hstart, hgoing⟩ : ∃ start : Heading,
      (if way.absolute then { c with heading := .east } else c) = { c with heading := start } ∧
        (c.heading.isStalled = false → start.isStalled = false) := by
    by_cases ha : way.absolute = true
    · exact ⟨.east, if_pos ha, fun _ => rfl⟩
    · exact ⟨c.heading, if_neg ha, id⟩
  simp only [hstart] at mem
  cases turn with
  | relative b =>
    cases List.mem_singleton.mp mem
    exact ⟨start.turn b, rfl, fun h => Heading.isStalled_turn (hgoing h) b⟩
  | branch bends =>
    obtain ⟨b, _, rfl⟩ := List.mem_map.mp mem
    exact ⟨start.turn b, rfl, fun h => Heading.isStalled_turn (hgoing h) b⟩
  | everywhere =>
    obtain ⟨target, htarget, rfl⟩ := List.mem_map.mp mem
    refine ⟨_, rfl, fun _ => ?_⟩
    -- the cell that the cursor stands on is not aimed at
    have hne : target ≠ c.cell := by simpa using (List.mem_filter.mp htarget).2
    rw [Heading.isStalled_eq_false_iff]
    by_contra hzero
    simp only [not_or, not_not] at hzero
    apply hne
    cases target
    cases hc : c.cell
    simp only [hc, Cell.mk.injEq] at hzero ⊢
    omega

/-- A call that asks for nothing is in force as the pattern is declared. -/
theorem merged_entry (p : Params) : Params.merged {} p = p := rfl

/-- Straight on is one bend ahead. -/
theorem headings_forward (grid : Grid) (c : Cursor) : headings? grid .forward c = some [c.bend ⟨0, 1⟩] := rfl

/-- **What paths keep.** -/
structure Keeps (c t : Cursor) : Prop where
  switches : t.switches = c.switches
  age : c.age ≤ t.age
  going : c.heading.isStalled = false → t.heading.isStalled = false

theorem Keeps.refl (c : Cursor) : Keeps c c := ⟨rfl, Nat.le_refl _, id⟩

theorem Keeps.trans (h : Keeps c t) (h' : Keeps t u) : Keeps c u where
  switches := h'.switches.trans h.switches
  age := h.age.trans h'.age
  going hgoing := h'.going (h.going hgoing)

theorem Keeps.of_advances (h : Cursor.Advances c t) : Keeps c t where
  switches := h.switches
  age := h.age
  going hgoing := by rwa [h.heading]

theorem keeps_of_headings {way : Direction} {headed : List Cursor}
    (hh : headings? grid way c = some headed) (mem : t ∈ headed) : Keeps c t := by
  obtain ⟨heading, rfl, hgoing⟩ := eq_of_headings hh mem
  exact ⟨rfl, Nat.le_refl _, hgoing⟩

/-- A call keeps what the pattern called keeps, and for the rest gives back the caller's. -/
theorem keeps_of_returned {params : Params} {way : Direction} {headed : List Cursor} {h : Cursor}
    (hh : headings? grid way (callee params c) = some headed) (mem : h ∈ headed) (kept : Keeps h t)
    (hreturn : returned? params c t = some u) : Keeps c u := by
  have hstart := keeps_of_headings hh mem
  rw [eq_of_returned hreturn]
  refine ⟨rfl, Nat.le_refl _, fun hgoing => ?_⟩
  unfold Cursor.returnTo
  dsimp only
  split
  · exact kept.going (hstart.going hgoing)
  · exact hgoing

/-- **No pattern leaks switches, takes age back or brings a cursor to a halt.** -/
theorem Reaches.keeps {node : Node} (h : Reaches program grid node c t) : Keeps c t := by
  induction h with
  | literal h => exact .of_advances (Cursor.advances_spell h)
  | oneOf h | inside h | outside h => exact .of_advances (Cursor.advances_stepIf h)
  | finished | enough | absent => exact .refl _
  | part _ _ head tail | round _ _ head tail => exact head.trans tail
  | choice _ _ ih => exact ih
  | call _ hh mem _ hreturn hadvance ih =>
    have hback := keeps_of_returned hh mem ih hreturn
    split at hadvance
    · exact hback.trans (.of_advances (Cursor.advances_step hadvance))
    · cases hadvance
      exact hback
  | direction hh mem => exact keeps_of_headings hh mem
  | unmarked _ ih =>
    refine ⟨?_, ih.age, ih.going⟩
    dsimp only
    rw [ih.switches]
  | retraced _ ih =>
    refine ⟨?_, ih.age, ih.going⟩
    dsimp only
    rw [ih.switches]

/-- **A call gives the caller back**, with new marks and ages of groups, if the caller neither goes on
from where the pattern ends nor takes a step after it. -/
theorem Reaches.eq_caller {target : Call} {declared : Declaration}
    (hd : program.declaration? target.name = some declared)
    (hpiggyback : (target.params.merged declared.params).piggyback = false)
    (hadvance : (target.params.merged declared.params).advance = false)
    (h : Reaches program grid (.call target) c t) :
    t = { c with marks := t.marks, groupAges := t.groupAges } := by
  cases h with
  | call hd' _ _ _ hreturn hlast =>
    cases hd.symm.trans hd'
    rw [if_neg (by rw [hadvance]; exact Bool.false_ne_true)] at hlast
    cases hlast
    rw [eq_of_returned hreturn]
    unfold Cursor.returnTo
    rw [hpiggyback]
    rfl

end Walk

end GridPattern
