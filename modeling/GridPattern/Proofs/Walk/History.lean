import GridPattern.Proofs.Walk.Frame
import GridPattern.Proofs.Walk.Marks

/-!
# The history of a survivor

What happened on the way from a cursor to one of its survivors, in order: the marking steps that were
taken, and the calls of groups that came to their end. A look for something absent is no part of it.

**The law** (`Travels.marks_eq`, `Travels.groupAges_eq`). The marks of a survivor are those of the cursor
and then the cells that its history marks, each where it occurs first; the ages of its groups are those
of the cursor and then the first that its history settles. Nothing else on the way bears on either.

**What it does not establish.** A survivor may be reached in several ways, and then it has several
histories. Each of them has the same marks.
-/

namespace GridPattern

/-- **Something of note on the way.** -/
inductive Event
  /-- The cursor took a marking step from where it was. -/
  | stepped (c : Cursor)
  /-- A call of the group came to its end at that age. -/
  | ended (group age : Nat)

namespace Event

/-- The cell that a step marks, if marking is on. -/
def marked? : Event → Option Cell
  | stepped c => if c.switches.noMark then none else some c.cell
  | ended _ _ => none

@[simp] theorem marked?_stepped (c : Cursor) :
    (stepped c).marked? = if c.switches.noMark then none else some c.cell := rfl

/-- The ages of groups after an event. -/
def settle (ages : Vector (Option Nat) groupCount) : Event → Vector (Option Nat) groupCount
  | stepped _ => ages
  | ended group age => Cursor.settle ages group age

end Event

/-! ## What events leave behind -/

namespace Cursor

variable {grid : Grid} {c t : Cursor}

/-- The cursors that take the steps of a text that is spelled. -/
def spelling (grid : Grid) : List Char → Cursor → List Cursor
  | [], _ => []
  | _ :: text, c => c :: ((c.step? grid true).map (spelling grid text)).getD []

theorem marks_step (h : c.step? grid true = some t) :
    t.marks = markAll c.marks (Event.stepped c).marked?.toList := by
  unfold step? at h
  split at h
  · cases h
    refine (marks_markHere c).trans ?_
    rw [Event.marked?_stepped]
    split <;> rfl
  · cases h

theorem marks_stepIf {test : Bool} (h : c.stepIf? grid test = some t) :
    t.marks = markAll c.marks ([Event.stepped c].filterMap Event.marked?) := by
  rw [marks_step (step_of_stepIf h), List.filterMap_cons]
  cases (Event.stepped c).marked? <;> rfl

theorem marks_spell {text : List Char} (h : c.spell? grid text = some t) :
    t.marks = markAll c.marks (((c.spelling grid text).map Event.stepped).filterMap Event.marked?) := by
  induction text generalizing c with
  | nil =>
    cases h
    rfl
  | cons char text ih =>
    obtain ⟨next, hstep, hrest⟩ := Option.bind_eq_some_iff.mp h
    have hspelling : c.spelling grid (char :: text) = [c] ++ next.spelling grid text := by
      rw [spelling, step_of_stepIf hstep]
      rfl
    rw [hspelling, List.map_append, List.filterMap_append, markAll_append, ih hrest,
      marks_stepIf hstep]
    rfl

/-- A settled group stays as it is. -/
theorem settle_of_settled {ages : Vector (Option Nat) groupCount} {slot : Fin groupCount} {settled : Nat}
    (h : ages.get slot = some settled) (group age : Nat) :
    (settle ages group age).get slot = some settled := by
  rw [get_settle]
  split
  · rw [h]
    rfl
  · exact h

end Cursor

/-- No event unsettles a group. -/
theorem foldl_settle_of_settled {ages : Vector (Option Nat) groupCount} {slot : Fin groupCount}
    {settled : Nat} (h : ages.get slot = some settled) (history : List Event) :
    (history.foldl Event.settle ages).get slot = some settled := by
  induction history generalizing ages with
  | nil => exact h
  | cons event history ih =>
    cases event with
    | stepped _ => exact ih h
    | ended group age => exact ih (Cursor.settle_of_settled h group age)

/-- Steps settle no group. -/
theorem foldl_settle_stepped (cursors : List Cursor) (ages : Vector (Option Nat) groupCount) :
    (cursors.map Event.stepped).foldl Event.settle ages = ages := by
  induction cursors with
  | nil => rfl
  | cons _ _ ih => exact ih

/-- The end of a call marks nothing. -/
theorem filterMap_marked_ended (groups : List Nat) (age : Nat) :
    (groups.map (Event.ended · age)).filterMap Event.marked? = [] := by
  rw [List.filterMap_map]
  exact List.filterMap_eq_nil_iff.mpr fun _ _ => rfl

namespace Walk

/-- **A path with its history.** -/
inductive Travels (program : Program) (grid : Grid) : Node → Cursor → List Event → Cursor → Prop
  | literal {text : List Char} {c t : Cursor} : c.spell? grid text = some t →
      Travels program grid (.literal text) c ((c.spelling grid text).map .stepped) t
  | oneOf {chars : List Char} {negated : Bool} {c t : Cursor} :
      c.stepIf? grid ((c.char? grid).any
        (Cursor.classMatches c.switches.insensitive chars negated)) = some t →
      Travels program grid (.oneOf chars negated) c [.stepped c] t
  | inside {c t : Cursor} : c.stepIf? grid (c.char? grid).isSome = some t →
      Travels program grid .inside c [.stepped c] t
  | outside {c t : Cursor} : c.stepIf? grid (c.char? grid).isNone = some t →
      Travels program grid .outside c [.stepped c] t
  | finished {c : Cursor} : Travels program grid (.sequence []) c [] c
  | part {part : Node} {parts : List Node} {c t u : Cursor} {before after : List Event} :
      Travels program grid part c before t → Travels program grid (.sequence parts) t after u →
      Travels program grid (.sequence (part :: parts)) c (before ++ after) u
  | choice {options : List Node} {option : Node} {c t : Cursor} {history : List Event} :
      option ∈ options → Travels program grid option c history t →
      Travels program grid (.choice options) c history t
  | enough {inner : Node} {count : Repeat} {c : Cursor} :
      Travels program grid (.repeated inner count) c [] c
  | round {inner : Node} {count : Repeat} {c t u : Cursor} {before after : List Event} :
      Travels program grid inner c before t → Travels program grid (.repeated inner count) t after u →
      Travels program grid (.repeated inner count) c (before ++ after) u
  | call {target : Call} {declared : Declaration} {c h t u v : Cursor} {headed : List Cursor}
      {history : List Event} :
      program.declaration? target.name = some declared →
      headings? grid target.direction (callee (target.params.merged declared.params) c) = some headed →
      h ∈ headed → Travels program grid declared.body h history t →
      returned? (target.params.merged declared.params) c t = some u →
      (if (target.params.merged declared.params).advance then u.step? grid false else some u) = some v →
      Travels program grid (.call target) c
        (history ++ (target.params.merged declared.params).group.toList.map (.ended · t.age)) v
  | direction {way : Direction} {c h : Cursor} {headed : List Cursor} :
      headings? grid way c = some headed → h ∈ headed → Travels program grid (.direction way) c [] h
  | absent {inner : Node} {c : Cursor} : Travels program grid (.look .absent inner) c [] c
  | unmarked {inner : Node} {c t : Cursor} {history : List Event} :
      Travels program grid inner { c with switches.noMark := true } history t →
      Travels program grid (.look .unmarked inner) c history
        { t with switches.noMark := c.switches.noMark }
  | retraced {inner : Node} {c t : Cursor} {history : List Event} :
      Travels program grid inner { c with switches.onlyMarked := true } history t →
      Travels program grid (.look .retraced inner) c history
        { t with switches.onlyMarked := c.switches.onlyMarked }

variable {program : Program} {grid : Grid} {c t : Cursor} {node : Node} {history : List Event}

/-- **Every path has a history.** -/
theorem Reaches.exists_travels (h : Reaches program grid node c t) :
    ∃ history, Travels program grid node c history t := by
  induction h with
  | literal h => exact ⟨_, .literal h⟩
  | oneOf h => exact ⟨_, .oneOf h⟩
  | inside h => exact ⟨_, .inside h⟩
  | outside h => exact ⟨_, .outside h⟩
  | finished => exact ⟨_, .finished⟩
  | part _ _ head tail =>
    obtain ⟨before, head⟩ := head
    obtain ⟨after, tail⟩ := tail
    exact ⟨_, .part head tail⟩
  | choice mem _ ih =>
    obtain ⟨history, ih⟩ := ih
    exact ⟨history, .choice mem ih⟩
  | enough => exact ⟨_, .enough⟩
  | round _ _ head tail =>
    obtain ⟨before, head⟩ := head
    obtain ⟨after, tail⟩ := tail
    exact ⟨_, .round head tail⟩
  | call hd hh mem _ hreturn hadvance ih =>
    obtain ⟨history, ih⟩ := ih
    exact ⟨_, .call hd hh mem ih hreturn hadvance⟩
  | direction hh mem => exact ⟨_, .direction hh mem⟩
  | absent => exact ⟨_, .absent⟩
  | unmarked _ ih =>
    obtain ⟨history, ih⟩ := ih
    exact ⟨history, .unmarked ih⟩
  | retraced _ ih =>
    obtain ⟨history, ih⟩ := ih
    exact ⟨history, .retraced ih⟩

/-- A step after a call marks nothing and settles nothing. -/
theorem eq_of_advance {advance : Bool} {u : Cursor}
    (h : (if advance then u.step? grid false else some u) = some t) :
    t.marks = u.marks ∧ t.groupAges = u.groupAges := by
  split at h
  · unfold Cursor.step? at h
    split at h
    · cases h
      exact ⟨rfl, rfl⟩
    · cases h
  · cases h
    exact ⟨rfl, rfl⟩

/-- **The marks of a survivor** are those of the cursor and then what its history marks. -/
theorem Travels.marks_eq (h : Travels program grid node c history t) :
    t.marks = markAll c.marks (history.filterMap Event.marked?) := by
  induction h with
  | literal h => exact Cursor.marks_spell h
  | oneOf h | inside h | outside h => exact Cursor.marks_stepIf h
  | finished | enough | absent => rfl
  | part _ _ head tail | round _ _ head tail =>
    rw [List.filterMap_append, markAll_append, tail, head]
  | choice _ _ ih => exact ih
  | call _ hh mem _ hreturn hadvance ih =>
    obtain ⟨hlast, _⟩ := eq_of_advance hadvance
    obtain ⟨heading, hstart, _⟩ := eq_of_headings hh mem
    rw [hstart] at ih
    rw [List.filterMap_append, filterMap_marked_ended, List.append_nil, hlast, eq_of_returned hreturn]
    exact ih
  | direction hh mem =>
    obtain ⟨heading, rfl, _⟩ := eq_of_headings hh mem
    rfl
  | unmarked _ ih | retraced _ ih => exact ih

/-- **A survivor has the marks of its cursor and then others**, all along a path. -/
theorem Reaches.extends_marks (h : Reaches program grid node c t) : Extends c.marks t.marks := by
  obtain ⟨history, travels⟩ := h.exists_travels
  rw [travels.marks_eq]
  exact extends_markAll c.marks _

/-- **The ages of a survivor's groups** are those of the cursor and then what its history settles. -/
theorem Travels.groupAges_eq (h : Travels program grid node c history t) :
    t.groupAges = history.foldl Event.settle c.groupAges := by
  induction h with
  | literal h => rw [(Cursor.advances_spell h).groupAges, foldl_settle_stepped]
  | oneOf h | inside h | outside h => exact (Cursor.advances_stepIf h).groupAges
  | finished | enough | absent => rfl
  | part _ _ head tail | round _ _ head tail => rw [List.foldl_append, tail, head]
  | choice _ _ ih => exact ih
  | call _ hh mem _ hreturn hadvance ih =>
    obtain ⟨_, hlast⟩ := eq_of_advance hadvance
    obtain ⟨heading, hstart, _⟩ := eq_of_headings hh mem
    rw [hstart] at ih
    rw [List.foldl_append, List.foldl_map, hlast, eq_of_returned hreturn]
    exact congrArg (fun ages => List.foldl _ ages _) ih
  | direction hh mem =>
    obtain ⟨heading, rfl, _⟩ := eq_of_headings hh mem
    rfl
  | unmarked _ ih | retraced _ ih => exact ih

end Walk

end GridPattern
