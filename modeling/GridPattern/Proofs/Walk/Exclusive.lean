import GridPattern.Proofs.Walk.Recorded

/-!
# Ways that do not cross themselves

An exclusive cursor leaves no cell that is marked. As long as it marks what it leaves, it leaves no cell
twice, and so its way ends on a grid that it cannot get off. It may come to a marked cell, by a step or back
from a call, but no marking step takes it on from there.

**The law** (`exclusive_ways_do_not_cross`). The cells that marking steps left differ from one another and
from all that were marked before, and they are what is marked after that.

**What it does not establish.** That a step in advance of a call leaves an unmarked cell for the first
time: it leaves no mark. Nor anything about patterns that mark nothing or keep to what is marked.
-/

namespace GridPattern

/-- To mark what one leaves, and to leave nothing that is marked. -/
def Switches.isAvoiding (s : Switches) : Bool := s.exclusive && !s.noMark && !s.onlyMarked

/-- The part of the language in which nothing is matched unmarked or on marked cells only. -/
def marking : Fragment where
  params p := !p.switches.noMark && !p.switches.onlyMarked
  look kind := kind == .absent

/-- The part of the language without calls. -/
def callFree : Fragment where
  params _ := false

variable {grid : Grid}

/-- What a call in force turns on leaves a cursor avoiding. -/
theorem Switches.isAvoiding_or {s : Switches} {call declared : Params} (hs : s.isAvoiding = true)
    (hcall : marking.params call = true) (hdeclared : marking.params declared = true) :
    (s.or (call.merged declared).switches).isAvoiding = true := by
  simp only [isAvoiding, marking, Switches.or, Params.merged, Bool.and_eq_true, Bool.not_eq_true',
    Bool.or_eq_false_iff, Bool.or_eq_true] at *
  exact ⟨⟨.inl hs.1.1, hs.1.2, hcall.1, hdeclared.1⟩, hs.2, hcall.2, hdeclared.2⟩

namespace Cursor

variable {c t : Cursor}

/-- A cursor that is avoiding leaves a cell for the first time, and marks it. -/
theorem marks_of_avoiding (hc : c.switches.isAvoiding = true) (h : c.step? grid true = some t) :
    c.cell ∉ c.marks ∧ t.marks = c.marks ++ [c.cell] := by
  simp only [Switches.isAvoiding, Bool.and_eq_true, Bool.not_eq_true'] at hc
  obtain ⟨⟨hexclusive, hmark⟩, honly⟩ := hc
  have hnew : c.marks.contains c.cell = false := by
    by_contra hmarked
    rw [Bool.not_eq_false] at hmarked
    have hne : c.marks.isEmpty = false :=
      List.isEmpty_eq_false_iff.mpr (List.ne_nil_of_mem (List.contains_iff_mem.mp hmarked))
    have hstuck : c.mayLeave = false := by
      rw [mayLeave, isMarked, hne, honly, hexclusive, hmarked]
      rfl
    rw [step?, hstuck] at h
    cases h
  refine ⟨mt List.contains_iff_mem.mpr (Bool.eq_false_iff.mp hnew), ?_⟩
  rw [marks_step h, Event.marked?_stepped, hmark]
  exact if_neg (Bool.eq_false_iff.mp hnew)

end Cursor

/-- **The way so far crosses neither itself nor the marks from before.** -/
structure Recorded.Avoids (before : List Cell) (r : Recorded) : Prop where
  avoiding : r.cursor.switches.isAvoiding = true
  marks : r.cursor.marks = before ++ r.left
  nodup : r.left.Nodup
  disjoint : before.Disjoint r.left

namespace Walk

open Walker

/-- Every move of an avoiding cursor keeps it off its way so far. -/
theorem avoids_invariant (grid : Grid) (before : List Cell) :
    Invariant marking (recorder grid) (Recorded.Avoids before) where
  step := by
    intro r t h hstep
    obtain ⟨next, hnext, rfl⟩ := eq_of_recorder_step hstep
    obtain ⟨hnew, hmarks⟩ := Cursor.marks_of_avoiding h.avoiding hnext
    rw [h.marks, List.mem_append, not_or] at hnew
    refine ⟨?_, ?_, ?_, ?_⟩
    · rw [(Cursor.advances_step hnext).switches]
      exact h.avoiding
    · rw [hmarks, h.marks, List.append_assoc]
    · exact List.nodup_append'.mpr
        ⟨h.nodup, List.nodup_singleton _, List.disjoint_singleton.mpr hnew.2⟩
    · exact List.disjoint_append_right.mpr ⟨h.disjoint, List.disjoint_singleton.mpr hnew.1⟩
  headings := by
    intro way r headed _ h hheaded t mem
    obtain ⟨heading, rfl⟩ := eq_of_recorder_headings hheaded mem
    exact ⟨h.avoiding, h.marks, h.nodup, h.disjoint⟩
  callee hcall hdeclared h :=
    ⟨Switches.isAvoiding_or h.avoiding hcall hdeclared, h.marks, h.nodup, h.disjoint⟩
  going := rfl
  back := by
    intro call declared caller r t _ _ hcaller h hback
    obtain ⟨hleft, hmarks, hswitches⟩ := eq_of_recorder_back hback
    refine ⟨?_, ?_, ?_, ?_⟩
    · rw [hswitches]
      exact hcaller.avoiding
    · rw [hmarks, hleft]
      exact h.marks
    · rw [hleft]
      exact h.nodup
    · rw [hleft]
      exact h.disjoint
  lookFrom := by
    intro kind r hkind h
    cases eq_of_beq hkind
    exact h
  lookBack := by
    intro kind start r hkind _ h
    cases eq_of_beq hkind
    exact h

/-- Without calls every step counts. -/
theorem age_invariant (grid : Grid) (age : Nat) :
    Invariant callFree (recorder grid) fun r => r.cursor.age = age + r.left.length where
  step := by
    intro r t h hstep
    obtain ⟨next, hnext, rfl⟩ := eq_of_recorder_step hstep
    rw [List.length_append, ← Nat.add_assoc, ← h]
    exact Cursor.age_of_step hnext
  headings := by
    intro way r headed _ h hheaded t mem
    obtain ⟨heading, rfl⟩ := eq_of_recorder_headings hheaded mem
    exact h
  callee := nofun
  going := rfl
  back := nofun
  lookFrom {kind} _ _ h := by cases kind <;> exact h
  lookBack {kind} _ _ _ _ h := by cases kind <;> exact h

/-- **The way of an exclusive cursor does not cross itself**, nor what was marked before it began, and is
what is marked after that. A pattern that calls nothing ages the cursor by a step for each new mark. -/
theorem exclusive_ways_do_not_cross (s : Setting) (hprogram : marking.allowsProgram s.program = true)
    (node : Node) (hnode : marking.allows node = true) (c : Cursor)
    (hc : c.switches.isAvoiding = true) (depth count : Nat) :
    (followAll s depth node (.one c)).runFrom count =
        Counted.mapEnd Recorded.cursor ((followRecorded s depth node c).runFrom count) ∧
      ∀ found, ((followRecorded s depth node c).runFrom count).1 = .ok found → ∀ r ∈ found.toList,
        r.left.Nodup ∧ c.marks.Disjoint r.left ∧ r.cursor.marks = c.marks ++ r.left ∧
          (callFree.allows node = true → r.cursor.age = c.age + r.left.length) := by
  refine ⟨runFrom_followAll_eq s depth count c node, fun found hfound r mem => ?_⟩
  have hstart : Recorded.Avoids c.marks { cursor := c } :=
    ⟨hc, (List.append_nil c.marks).symm, List.nodup_nil, List.disjoint_nil_right _⟩
  have avoids := (avoids_invariant s.grid c.marks).simulates.followAll
    (Fragment.closed_of_allowsProgram hprogram) s.budget depth hnode ⟨rfl, hstart⟩
  obtain ⟨_, _, h⟩ := exists_related avoids hfound r mem
  refine ⟨h.nodup, h.disjoint, h.marks, fun hcalls => ?_⟩
  have hclosed : callFree.Closed s.program := nofun
  have ages := (age_invariant s.grid c.age).simulates.followAll hclosed s.budget depth hcalls
    (a := { cursor := c }) ⟨rfl, rfl⟩
  obtain ⟨_, _, hage⟩ := exists_related ages hfound r mem
  exact hage

/-- One hop on, or to either side, over a dot. -/
def hop : Node := .sequence [.direction ⟨['P'], false⟩, .literal ['.']]

/-- A square of four dots, of which one is marked. The ways over the others end when there is none left,
whether the hops are calls or not. -/
theorem exclusive_ways_do_not_cross_square :
    let s : Setting := ⟨⟨[⟨"hop", {}, hop⟩]⟩, ⟨#[#['.', '.'], #['.', '.']], by decide⟩, none⟩
    let start : Cursor :=
      { cell := ⟨0, 0⟩, age := 5, marks := [⟨1, 0⟩], switches := { exclusive := true } }
    let hops : Node := .repeated hop .plus
    let calls : Node := .repeated (.call ⟨"hop", .forward, { piggyback := true }⟩) .plus
    let ways (found : Survivors Recorded) : List (List Cell) := (found.toList.map Recorded.left).eraseDups
    let square : List (List Cell) := [[⟨0, 0⟩], [⟨0, 0⟩, ⟨0, 1⟩], [⟨0, 0⟩, ⟨0, 1⟩, ⟨1, 1⟩]]
    (∃ found, ((followRecorded s 20 hops start).runFrom 0).1 = .ok found ∧ ways found = square ∧
        ∀ r ∈ found.toList, r.cursor.marks = start.marks ++ r.left ∧ r.cursor.age = 5 + r.left.length) ∧
      ∃ found, ((followRecorded s 20 calls start).runFrom 0).1 = .ok found ∧ ways found = square ∧
        ∀ r ∈ found.toList, r.left.Nodup ∧ start.marks.Disjoint r.left := by
  intro s start hops calls ways square
  have hopped : ways <$> ((followRecorded s 20 hops start).runFrom 0).1 = .ok square := by decide +kernel
  have called : ways <$> ((followRecorded s 20 calls start).runFrom 0).1 = .ok square := by decide +kernel
  constructor
  · obtain ⟨found, hfound, hways⟩ := map_eq_ok_iff.mp hopped
    obtain ⟨_, h⟩ := exclusive_ways_do_not_cross s rfl hops rfl start rfl 20 0
    refine ⟨found, hfound, hways, fun r mem => ?_⟩
    obtain ⟨_, _, hmarks, hage⟩ := h found hfound r mem
    exact ⟨hmarks, hage rfl⟩
  · obtain ⟨found, hfound, hways⟩ := map_eq_ok_iff.mp called
    obtain ⟨_, h⟩ := exclusive_ways_do_not_cross s rfl calls rfl start rfl 20 0
    refine ⟨found, hfound, hways, fun r mem => ?_⟩
    obtain ⟨hnodup, hdisjoint, _⟩ := h found hfound r mem
    exact ⟨hnodup, hdisjoint⟩

end Walk

end GridPattern
