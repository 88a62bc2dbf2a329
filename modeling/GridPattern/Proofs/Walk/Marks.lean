import GridPattern.Cursor
import Mathlib.Data.List.Induction
import Mathlib.Data.List.Nodup

/-!
# Marks

A cursor marks a cell at most once and never forgets a mark. What it has marked is therefore the marks
that it began with and then new ones, in the order in which they came.

**The law** (`extends_markAll`, `markAll_eq`), by induction on the cells that are marked one after the other: a
list of marks only goes on, and it goes on with each cell that is new where it came first.
-/

namespace GridPattern

/-- **New marks after old ones**: the list goes on with cells that differ from each other and from all
before. -/
def Extends (before after : List Cell) : Prop :=
  ∃ new, after = before ++ new ∧ new.Nodup ∧ before.Disjoint new

theorem Extends.refl (marks : List Cell) : Extends marks marks :=
  ⟨[], by simp, List.nodup_nil, List.disjoint_nil_right _⟩

theorem Extends.trans {xs ys zs : List Cell} (h : Extends xs ys) (h' : Extends ys zs) :
    Extends xs zs := by
  obtain ⟨new, rfl, hnew, hold⟩ := h
  obtain ⟨newer, rfl, hnewer, holder⟩ := h'
  rw [List.disjoint_append_left] at holder
  refine ⟨new ++ newer, List.append_assoc .., ?_, ?_⟩
  · exact List.nodup_append'.mpr ⟨hnew, hnewer, holder.2⟩
  · exact List.disjoint_append_right.mpr ⟨hold, holder.1⟩

/-- From marks that differ only marks that differ come about. -/
theorem Extends.nodup {xs ys : List Cell} (h : Extends xs ys) (hxs : xs.Nodup) : ys.Nodup := by
  obtain ⟨new, rfl, hnew, hold⟩ := h
  exact List.nodup_append'.mpr ⟨hxs, hnew, hold⟩

/-- The marks after one more cell was marked. -/
def addMark (marks : List Cell) (cell : Cell) : List Cell :=
  if marks.contains cell then marks else marks ++ [cell]

theorem extends_addMark (marks : List Cell) (cell : Cell) : Extends marks (addMark marks cell) := by
  unfold addMark
  split
  · exact .refl marks
  · next h =>
    have hnew : cell ∉ marks := by rwa [List.contains_iff_mem] at h
    exact ⟨[cell], rfl, List.nodup_singleton cell, List.disjoint_singleton.mpr hnew⟩

/-- The marks after cells were marked one after the other. -/
def markAll (marks cells : List Cell) : List Cell := cells.foldl addMark marks

@[simp] theorem markAll_cons (marks : List Cell) (cell : Cell) (cells : List Cell) :
    markAll marks (cell :: cells) = markAll (addMark marks cell) cells := rfl

theorem markAll_append (marks cells cells' : List Cell) :
    markAll marks (cells ++ cells') = markAll (markAll marks cells) cells' := List.foldl_append

/-- **Marks are only added, and never twice.** -/
theorem extends_markAll (marks cells : List Cell) : Extends marks (markAll marks cells) := by
  induction cells generalizing marks with
  | nil => exact .refl marks
  | cons cell cells ih => exact (extends_addMark marks cell).trans (ih (addMark marks cell))

/-- **Each new cell is marked where it comes first**, after the marks that there were. -/
theorem markAll_eq (marks cells : List Cell) :
    markAll marks cells = marks ++ cells.eraseDups.filter (· ∉ marks) := by
  induction cells using List.reverseRecOn with
  | nil => simp [markAll]
  | append_singleton cells cell ih =>
    have hlast : markAll marks (cells ++ [cell]) = addMark (markAll marks cells) cell := by
      rw [markAll_append]
      rfl
    have hdups : (cells ++ [cell]).eraseDups = cells.eraseDups ++ if cell ∈ cells then [] else [cell] := by
      rw [List.eraseDups_append]
      split <;> simp [*, List.removeAll, List.eraseDups_cons]
    rw [hlast, hdups, ih, List.filter_append, ← List.append_assoc, addMark]
    by_cases hcell : cell ∈ cells <;> by_cases hmark : cell ∈ marks <;> simp [hcell, hmark]

theorem markAll_empty (cells : List Cell) : markAll [] cells = cells.eraseDups := by
  rw [markAll_eq]
  simp

/-- Cells that differ from each other and from all marks are all marked. -/
theorem markAll_of_nodup {marks cells : List Cell} (hcells : cells.Nodup) (h : marks.Disjoint cells) :
    markAll marks cells = marks ++ cells := by
  induction cells generalizing marks with
  | nil => exact (List.append_nil marks).symm
  | cons cell cells ih =>
    obtain ⟨hcell, hrest⟩ := List.nodup_cons.mp hcells
    obtain ⟨hnew, hlater⟩ := List.disjoint_cons_right.mp h
    have hmark : addMark marks cell = marks ++ [cell] := if_neg (by simpa using hnew)
    have hdisjoint : (marks ++ [cell]).Disjoint cells :=
      List.disjoint_append_left.mpr ⟨hlater, List.singleton_disjoint.mpr hcell⟩
    rw [markAll_cons, hmark, ih hrest hdisjoint, List.append_assoc]
    rfl

theorem Cursor.markHere_eq (c : Cursor) :
    c.markHere = { c with marks := if c.switches.noMark then c.marks else addMark c.marks c.cell } := by
  unfold markHere isMarked addMark
  cases c.switches.noMark <;> cases c.marks.contains c.cell <;> rfl

theorem Cursor.marks_markHere (c : Cursor) :
    c.markHere.marks = if c.switches.noMark then c.marks else addMark c.marks c.cell := congrArg marks c.markHere_eq

end GridPattern
