import GridPattern.Proofs.Search.Findings

/-!
# What adds no marks

A pattern looked for unmarked, or on marked cells only, adds no marks, whatever is in it: it may call, turn
on more switches, repeat itself, look around again. The switch that a look or a call turns on stays on until
the look or the call is over, for all inside give back the switches that they came with.

**The law** (`quiet_patterns_add_no_marks`). Unmarked, all marks are as before. On marked cells only they
are as before if there were any; else the first step is as free as any first step, and may mark its cell.

**What it does not establish.** Anything about a pattern where one switch or the other is on for a part of
the way.
-/

namespace GridPattern

/-- **The marks of one who keeps to marked cells**: those of before, or a first one. -/
structure Retraces (before after : List Cell) : Prop where
  same : before ≠ [] → after = before
  first : before = [] → after.length ≤ 1

namespace Retraces

variable {xs ys zs : List Cell}

theorem of_eq (h : ys = xs) : Retraces xs ys where
  same _ := h
  first hempty := by
    rw [h, hempty]
    exact Nat.zero_le 1

theorem trans (h : Retraces xs ys) (h' : Retraces ys zs) : Retraces xs zs where
  same hne := by
    have heq := h.same hne
    rw [h'.same (heq ▸ hne), heq]
  first hempty := by
    by_cases hys : ys = []
    · exact h'.first hys
    · rw [h'.same hys]
      exact h.first hempty

end Retraces

namespace Walk

/-- **A switch that governs marks**: under it each marking step keeps a relation of marks, and nothing
turns it off but what turned it on. -/
structure Governs (grid : Grid) (on : Switches → Bool) (R : List Cell → List Cell → Prop) : Prop where
  refl : ∀ marks, R marks marks
  trans : ∀ {xs ys zs}, R xs ys → R ys zs → R xs zs
  step : ∀ {c t : Cursor}, on c.switches = true → c.step? grid true = some t → R c.marks t.marks
  or : ∀ {a b : Switches}, (on a || on b) = true → on (a.or b) = true
  unmarked : ∀ {a : Switches}, on a = true → on { a with noMark := true } = true
  retraced : ∀ {a : Switches}, on a = true → on { a with onlyMarked := true } = true

variable {program : Program} {grid : Grid} {on : Switches → Bool} {R : List Cell → List Cell → Prop}
  {c h t u v : Cursor}

namespace Governs

theorem stepIf (g : Governs grid on R) {test : Bool} (hon : on c.switches = true)
    (h : c.stepIf? grid test = some t) : R c.marks t.marks :=
  g.step hon (Cursor.step_of_stepIf h)

theorem spell (g : Governs grid on R) {text : List Char} (hon : on c.switches = true)
    (h : c.spell? grid text = some t) : R c.marks t.marks := by
  induction text generalizing c with
  | nil =>
    cases h
    exact g.refl _
  | cons char text ih =>
    obtain ⟨next, hstep, hrest⟩ := Option.bind_eq_some_iff.mp h
    have hswitches := (Cursor.advances_stepIf hstep).switches
    exact g.trans (g.stepIf hon hstep) (ih (hswitches ▸ hon) hrest)

/-- A call relates the marks if the pattern called does. -/
theorem call {way : Direction} {params : Params} {headed : List Cursor}
    (hh : headings? grid way (callee params c) = some headed) (mem : h ∈ headed)
    (hbody : R h.marks t.marks) (hreturn : returned? params c t = some u)
    (hlast : (if params.advance then u.step? grid false else some u) = some v) : R c.marks v.marks := by
  obtain ⟨heading, rfl, _⟩ := eq_of_headings hh mem
  have hreturned : u.marks = t.marks := by
    rw [eq_of_returned hreturn]
    rfl
  rw [(eq_of_advance hlast).1, hreturned]
  exact hbody

/-- **Where the switch is on the marks of a survivor are related**, by induction on the path. -/
theorem reaches (g : Governs grid on R) {node : Node} (path : Reaches program grid node c t)
    (hon : on c.switches = true) : R c.marks t.marks := by
  induction path with
  | literal h => exact g.spell hon h
  | oneOf h | inside h | outside h => exact g.stepIf hon h
  | finished | enough | absent => exact g.refl _
  | part first _ head tail | round first _ head tail =>
    have hswitches := first.keeps.switches
    exact g.trans (head hon) (tail (hswitches ▸ hon))
  | choice _ _ ih => exact ih hon
  | call _ hh mem _ hreturn hlast ih =>
    refine call hh mem (ih ?_) hreturn hlast
    obtain ⟨heading, rfl, _⟩ := eq_of_headings hh mem
    exact g.or (by rw [hon]; rfl)
  | direction hh mem =>
    obtain ⟨heading, rfl, _⟩ := eq_of_headings hh mem
    exact g.refl _
  | unmarked _ ih => exact ih (g.unmarked hon)
  | retraced _ ih => exact ih (g.retraced hon)

/-- A call that turns the switch on relates the marks. -/
theorem reaches_call (g : Governs grid on R) {target : Call} {declared : Declaration}
    (hd : program.declaration? target.name = some declared)
    (hon : on (target.params.merged declared.params).switches = true)
    (path : Reaches program grid (.call target) c t) : R c.marks t.marks := by
  cases path with
  | call hd' hh mem hbody hreturn hlast =>
    cases hd.symm.trans hd'
    refine call hh mem (g.reaches hbody ?_) hreturn hlast
    obtain ⟨heading, rfl, _⟩ := eq_of_headings hh mem
    exact g.or (by rw [hon, Bool.or_true])

end Governs

/-! ## The two switches -/

theorem governs_noMark (grid : Grid) : Governs grid Switches.noMark fun before after => after = before where
  refl _ := rfl
  trans h h' := h'.trans h
  step hon h := by
    rw [Cursor.marks_step h, Event.marked?_stepped, if_pos hon]
    rfl
  or h := h
  unmarked _ := rfl
  retraced h := h

/-- Who keeps to marked cells marks the first cell or none. -/
theorem retraces_step (hon : c.switches.onlyMarked = true) (hstep : c.step? grid true = some t) :
    Retraces c.marks t.marks := by
  have hmarks := Cursor.marks_step hstep
  rw [Event.marked?_stepped] at hmarks
  constructor
  · intro hne
    -- the cell could be left, so it is one of the marks
    have hmarked : c.marks.contains c.cell = true := by
      unfold Cursor.step? Cursor.mayLeave at hstep
      rw [if_pos hon, List.isEmpty_eq_false_iff.mpr hne, Bool.false_or] at hstep
      by_contra hnot
      rw [Cursor.isMarked, if_neg hnot] at hstep
      cases hstep
    have hsame : addMark c.marks c.cell = c.marks := if_pos hmarked
    rw [hmarks]
    split
    · rfl
    · exact hsame
  · intro hempty
    rw [hmarks, hempty]
    split
    · exact Nat.zero_le 1
    · exact Nat.le_refl 1

theorem governs_onlyMarked (grid : Grid) : Governs grid Switches.onlyMarked Retraces where
  refl _ := .of_eq rfl
  trans := .trans
  step := retraces_step
  or h := h
  unmarked h := h
  retraced _ := rfl

end Walk

namespace Search

open Walk

/-- **Unmarked and marked-only patterns add no marks**, looked for or called, whatever is in them; but on
marked cells only a first cell may be marked where none is. -/
theorem quiet_patterns_add_no_marks (s : Setting) (depth count : Nat) {node : Node} {c : Cursor}
    {found : Survivors Cursor} (h : ((followAll s depth node (.one c)).runFrom count).1 = .ok found) :
    (∀ inner, node = .look .unmarked inner → ∀ t ∈ found.toList, t.marks = c.marks) ∧
      (∀ inner, node = .look .retraced inner → ∀ t ∈ found.toList, Retraces c.marks t.marks) ∧
      ∀ target declared, node = .call target → s.program.declaration? target.name = some declared →
        ((target.params.merged declared.params).switches.noMark = true →
          ∀ t ∈ found.toList, t.marks = c.marks) ∧
        ((target.params.merged declared.params).switches.onlyMarked = true →
          ∀ t ∈ found.toList, Retraces c.marks t.marks) := by
  have unmarked := governs_noMark s.grid
  have retraced := governs_onlyMarked s.grid
  refine ⟨?_, ?_, ?_⟩
  · rintro inner rfl t mem
    cases reaches_of_followAll h mem with
    | unmarked path =>
      have hmarks := unmarked.reaches path rfl
      exact hmarks
  · rintro inner rfl t mem
    cases reaches_of_followAll h mem with
    | retraced path =>
      have hmarks := retraced.reaches path rfl
      exact hmarks
  · rintro target declared rfl hd
    exact ⟨fun hon t mem => unmarked.reaches_call hd hon (reaches_of_followAll h mem),
      fun hon t mem => retraced.reaches_call hd hon (reaches_of_followAll h mem)⟩

/-- The way there and back without a mark, and again over what is marked: nothing is added. Without a mark
to keep to a first step can be taken and no other, and its cell is marked. -/
theorem quiet_patterns_add_no_marks_there_and_back :
    let s : Setting := ⟨thereAndBack, ⟨#[#['a', 'b']], by decide⟩, none⟩
    let fresh : Cursor := { cell := ⟨0, 0⟩ }
    let marked : Cursor := { fresh with marks := [⟨2, 0⟩, ⟨1, 0⟩, ⟨0, 0⟩] }
    let way (params : Params) : Node := .call ⟨"way", .forward, params⟩
    let leg (params : Params) : Node := .call ⟨"leg", .forward, params⟩
    let walk (node : Node) (c : Cursor) : Except Stop (Survivors Cursor) :=
      ((followAll s 9 node (.one c)).runFrom 0).1
    let marks (found : Survivors Cursor) : List (List Cell) := found.toList.map Cursor.marks
    (∃ found, walk (.look .unmarked (way {})) fresh = .ok found ∧ marks found = [[]] ∧
        ∀ t ∈ found.toList, t.marks = fresh.marks) ∧
      (∃ found, walk (way { switches := { noMark := true } }) marked = .ok found ∧
        marks found = [marked.marks] ∧ ∀ t ∈ found.toList, t.marks = marked.marks) ∧
      (∃ found, walk (.look .retraced (way {})) marked = .ok found ∧
        marks found = [marked.marks] ∧ ∀ t ∈ found.toList, Retraces marked.marks t.marks) ∧
      ∃ found, walk (leg { switches := { onlyMarked := true } }) fresh = .ok found ∧
        marks found = [[⟨0, 0⟩]] ∧ ∀ t ∈ found.toList, Retraces fresh.marks t.marks := by
  intro s fresh marked way leg walk marks
  have unmarked : marks <$> walk (.look .unmarked (way {})) fresh = .ok [[]] := by decide +kernel
  have silent : marks <$> walk (way { switches := { noMark := true } }) marked = .ok [marked.marks] := by
    decide +kernel
  have retraced : marks <$> walk (.look .retraced (way {})) marked = .ok [marked.marks] := by
    decide +kernel
  have first : marks <$> walk (leg { switches := { onlyMarked := true } }) fresh = .ok [[⟨0, 0⟩]] := by
    decide +kernel
  refine ⟨?_, ?_, ?_, ?_⟩
  · obtain ⟨found, h, hmarks⟩ := map_eq_ok_iff.mp unmarked
    have looks := (quiet_patterns_add_no_marks s 9 0 h).1
    exact ⟨found, h, hmarks, looks _ rfl⟩
  · obtain ⟨found, h, hmarks⟩ := map_eq_ok_iff.mp silent
    have calls := (quiet_patterns_add_no_marks s 9 0 h).2.2 _ _ rfl rfl
    exact ⟨found, h, hmarks, calls.1 rfl⟩
  · obtain ⟨found, h, hmarks⟩ := map_eq_ok_iff.mp retraced
    have looks := (quiet_patterns_add_no_marks s 9 0 h).2.1
    exact ⟨found, h, hmarks, looks _ rfl⟩
  · obtain ⟨found, h, hmarks⟩ := map_eq_ok_iff.mp first
    have calls := (quiet_patterns_add_no_marks s 9 0 h).2.2 _ _ rfl rfl
    exact ⟨found, h, hmarks, calls.2 rfl⟩

end Search

end GridPattern
