import GridPattern.Proofs.Walk.Chains
import GridPattern.Proofs.Walk.Groups
import GridPattern.Proofs.Walk.Straight

/-!
# Measuring runs of cells

One cell off the grid, cells of the grid as many as there are, and one off the grid again: a pattern for runs
of cells. How old a cursor is at the end of it is the length of the run and two more, so calls of one group are
calls over runs of one length. A pattern for stacks calls it over one run after the other, and what its own age
is in the end is, in the same way, the number of the runs.

**The law** (`eval_measure_of_spans`, `eval_stack_of_stacks`). A call for runs has a survivor if and only if
there is a run, as long as the group says if that is settled; and a call for stacks, in the group of the calls
in it, has one if and only if there are as many runs as each is long. Either settles the group.
-/

namespace GridPattern

/-! ## Patterns -/

/-- A pattern between two cells off the grid. -/
def between (inner : Node) : Node := .sequence [.outside, inner, .outside]

/-- **A pattern for runs of cells.** -/
def runOfCells : Node := between (.repeated .inside .plus)

/-- A call of a pattern for runs, of a group: the caller then takes a step. -/
def measure (name : String) (way : Direction) (group : Nat) : Node :=
  .call ⟨name, way, { advance := true, group := some group }⟩

/-- **A pattern for stacks of runs.** -/
def stackOfRuns (name : String) (way : Direction) (group : Nat) : Node :=
  between (.repeated (measure name way group) .plus)

namespace Cursor

/-- An age that a call of the group may have: none other is settled. -/
def Allows (c : Cursor) (group age : Nat) : Prop :=
  ∀ settled, c.groupAges.get (groupSlot group) = some settled → settled = age

/-- The caller of a call of a group that came to its end at that age: the group is settled, and there may be
new marks. -/
structure Measured (c : Cursor) (group age : Nat) (t : Cursor) : Prop where
  caller : t = { c with marks := t.marks, groupAges := t.groupAges }
  settled : t.groupAges.get (groupSlot group) = some age

/-- The caller of a pattern for runs, after a run of that length. -/
def measured (c : Cursor) (group : Nat) (h : Heading) (w : Nat) : Cursor :=
  { c with
    cell := c.cell.along c.heading 1
    age := c.age + 1
    marks := markAll c.marks (c.cell.line h (w + 2))
    groupAges := settle c.groupAges group (w + 2) }

/-- The caller of a pattern for runs, after so many runs. -/
def stacked (c : Cursor) (group : Nat) (h : Heading) (w k : Nat) : Cursor := (·.measured group h w)^[k] c

section Stacked

variable (c : Cursor) (group : Nat) (h : Heading) (w k : Nat)

theorem stacked_succ : c.stacked group h w (k + 1) = (c.stacked group h w k).measured group h w :=
  Function.iterate_succ_apply' _ k c

@[simp] theorem heading_stacked : (c.stacked group h w k).heading = c.heading := by
  induction k with
  | zero => rfl
  | succ k ih => rw [stacked_succ, ← ih]; rfl

@[simp] theorem cell_stacked : (c.stacked group h w k).cell = c.cell.along c.heading k := by
  induction k with
  | zero => exact (Cell.along_zero c.cell c.heading).symm
  | succ k ih =>
    rw [stacked_succ, ← Cell.along_along, ← ih, ← heading_stacked c group h w k]
    rfl

@[simp] theorem age_stacked : (c.stacked group h w k).age = c.age + k := by
  induction k with
  | zero => rfl
  | succ k ih => rw [stacked_succ, ← Nat.add_assoc, ← ih]; rfl

end Stacked

variable {c t : Cursor} {group age w k : Nat} {h : Heading}

/-- A settled group allows the settled age. -/
theorem allows_iff_of_settled (hsettled : c.groupAges.get (groupSlot group) = some age) {age' : Nat} :
    c.Allows group age' ↔ age = age' := by
  unfold Allows
  rw [hsettled]
  constructor
  · exact fun hall => hall age rfl
  · rintro rfl settled hsame
    exact (Option.some.inj hsame).symm

theorem Measured.plain (hm : c.Measured group age t) (hc : c.Plain) : t.Plain := by
  rw [hm.caller]
  exact ⟨hc.switches, hc.wrapped⟩

theorem Measured.cell (hm : c.Measured group age t) : t.cell = c.cell := by rw [hm.caller]

theorem Measured.heading (hm : c.Measured group age t) : t.heading = c.heading := by rw [hm.caller]

/-- After a run of a length that the group allows the group is settled, and allows that length. -/
theorem settled_measured (ha : c.Allows group (w + 2)) :
    (c.measured group h w).groupAges.get (groupSlot group) = some (w + 2) := get_settle_self ha

theorem allows_stacked (ha : c.Allows group (w + 2)) : (c.stacked group h w k).Allows group (w + 2) := by
  induction k with
  | zero => exact ha
  | succ k ih =>
    rw [stacked_succ]
    exact (allows_iff_of_settled (settled_measured ih)).mpr rfl

theorem settled_stacked (ha : c.Allows group (w + 2)) (hk : 0 < k) :
    (c.stacked group h w k).groupAges.get (groupSlot group) = some (w + 2) := by
  obtain ⟨k, rfl⟩ := Nat.exists_eq_add_one.mpr hk
  rw [stacked_succ]
  exact settled_measured (allows_stacked ha)

theorem Plain.stacked (hc : c.Plain) : (c.stacked group h w k).Plain := by
  induction k with
  | zero => exact hc
  | succ k ih =>
    rw [stacked_succ]
    exact ⟨ih.switches, ih.wrapped⟩

end Cursor

namespace Walk

variable {program : Program} {grid : Grid} {t : Cursor} {n : Nat}

/-! ## Runs -/

section Cells

variable (ht : t.Plain) (hgoing : t.heading.isStalled = false)
include ht hgoing

theorem eval_inside_plain : eval program grid .inside t =
    some (.ok (if grid.char? t.cell = none then [] else [t.ahead 1])) := by
  rw [eval_inside hgoing, ht.stepIf]
  unfold Cursor.char?
  cases grid.char? t.cell <;> rfl

theorem eval_outside_plain : eval program grid .outside t =
    some (.ok (if grid.char? t.cell = none then [t.ahead 1] else [])) := by
  rw [eval_outside hgoing, ht.stepIf]
  unfold Cursor.char?
  cases grid.char? t.cell <;> rfl

theorem eval_between_of_ne_none (inner : Node) (hcell : grid.char? t.cell ≠ none) :
    eval program grid (between inner) t = some (.ok []) := by
  rw [between, eval_sequence _ hgoing, evalParts_cons, eval_outside_plain ht hgoing, if_neg hcell]
  rfl

/-- What lies between comes to survivors, and of these to the ones off the grid. -/
theorem eval_between {inner : Node} {ts : List Cursor} (hcell : grid.char? t.cell = none)
    (hinner : eval program grid inner (t.ahead 1) = some (.ok ts))
    (hts : ∀ u ∈ ts, u.Plain ∧ u.heading.isStalled = false) :
    eval program grid (between inner) t =
      some (.ok (ts.flatMap fun u => if grid.char? u.cell = none then [u.ahead 1] else [])) := by
  have hrest : evalParts program grid [inner, .outside] (t.ahead 1) = some (.ok (ts.flatMap fun u =>
      if grid.char? u.cell = none then [u.ahead 1] else [])) :=
    evalParts_eq_flatMap hinner fun u mem =>
      evalParts_singleton (eval_outside_plain (hts u mem).1 (hts u mem).2)
  rw [between, eval_sequence _ hgoing, evalParts_cons, eval_outside_plain ht hgoing,
    if_pos hcell]
  exact evalEach_singleton.trans hrest

/-- One or more of what goes along a chain, between two cells off the grid: of the cursors of the chain those
before a cell off the grid. -/
theorem eval_between_of_chain {inner : Node} {chain : Nat → Cursor} (hbefore : grid.char? t.cell = none)
    (hstart : chain 0 = t.ahead 1)
    (hchain : ∀ i, (chain i).Plain ∧ (chain i).heading.isStalled = false ∧
      (chain i).cell = t.cell.along t.heading (i + 1))
    (hstep : ∀ i < n, eval program grid inner (chain i) = some (.ok [chain (i + 1)]))
    (hend : eval program grid inner (chain n) = some (.ok [])) :
    eval program grid (between (.repeated inner .plus)) t = some (.ok ((List.range' 1 n).flatMap fun k =>
      if grid.char? (t.cell.along t.heading (k + 1)) = none then [(chain k).ahead 1] else [])) := by
  have hplus := eval_plus_of_chain (hchain 0).2.1 hstep hend
  rw [hstart] at hplus
  have hplain : ∀ u ∈ (List.range' 1 n).map chain, u.Plain ∧ u.heading.isStalled = false := by
    intro u mem
    obtain ⟨i, _, rfl⟩ := List.mem_map.mp mem
    exact ⟨(hchain i).1, (hchain i).2.1⟩
  rw [eval_between ht hgoing hbefore hplus hplain, List.flatMap_map]
  simp only [(hchain _).2.2]

/-- The cells after a cell off the grid, as many as there are. -/
theorem eval_run (hbefore : grid.char? t.cell = none)
    (hcells : ∀ i < n, (grid.char? (t.cell.along t.heading (i + 1))).isSome = true)
    (hend : grid.char? (t.cell.along t.heading (n + 1)) = none) :
    eval program grid runOfCells t = some (.ok (if 0 < n then [t.ahead (n + 2)] else [])) := by
  have hchain : ∀ i, (t.ahead (i + 1)).Plain ∧ (t.ahead (i + 1)).heading.isStalled = false ∧
      (t.ahead (i + 1)).cell = t.cell.along t.heading (i + 1) := fun i => ⟨ht.ahead _, hgoing, rfl⟩
  have hsome : ∀ i < n, grid.char? (t.ahead (i + 1)).cell ≠ none :=
    fun i hi => Option.isSome_iff_ne_none.mp (hcells i hi)
  have hstep : ∀ i < n, eval program grid .inside (t.ahead (i + 1)) = some (.ok [t.ahead (i + 1 + 1)]) := by
    intro i hi
    rw [eval_inside_plain (ht.ahead _) hgoing, if_neg (hsome i hi), Cursor.ahead_ahead]
  have hlast : eval program grid .inside (t.ahead (n + 1)) = some (.ok []) :=
    (eval_inside_plain (ht.ahead _) hgoing).trans (congrArg (some ∘ Except.ok) (if_pos hend))
  rw [runOfCells, eval_between_of_chain ht hgoing hbefore rfl hchain hstep hlast]
  obtain rfl | hpos := Nat.eq_zero_or_pos n
  · rfl
  · rw [flatMap_range'_eq hpos, if_pos (Nat.le_refl n), if_pos hend, if_pos hpos, Cursor.ahead_ahead]
    intro i _ hle hne
    exact if_neg (hsome i (by omega))

/-- **A run has a survivor**, as old as the run is long and two steps more. -/
theorem eval_run_of_spans (h : grid.Spans t.cell t.heading n) :
    eval program grid runOfCells t = some (.ok [t.ahead (n + 2)]) := by
  rw [eval_run ht hgoing h.before h.cells h.after, if_pos h.pos]

theorem eval_run_of_not_spans (h : ∀ n, ¬grid.Spans t.cell t.heading n) :
    eval program grid runOfCells t = some (.ok []) := by
  cases hbefore : grid.char? t.cell with
  | some char =>
    refine eval_between_of_ne_none ht hgoing _ ?_
    rw [hbefore]
    exact Option.some_ne_none char
  | none =>
    obtain ⟨n, hcells, hend⟩ := Grid.exists_run hgoing grid t.cell
    rw [eval_run ht hgoing hbefore hcells hend, if_neg]
    exact fun hpos => h n ⟨hpos, hbefore, hcells, hend⟩

end Cells

/-! ## Calls in a group -/

section Calls

variable {name : String} {way : Direction} {b : Bend} {h : Heading} {group : Nat} {body : Node}
  {advance : Bool} {ended : List Cursor}

/-- The cursor sent into a call: of age zero, and headed its own way. -/
def sent (t : Cursor) (h : Heading) : Cursor := { t with age := 0, heading := h }

theorem merged_plain (params : Params) : params.merged {} = params := by
  simp [Params.merged, Switches.or]

/-- Who has an age that the group allows comes back to the caller, and the group is settled. -/
theorem returned_of_allows {u : Cursor} (ha : u.Allows group u.age) :
    returned? { advance, group := some group } t u =
      some { t with marks := u.marks, groupAges := Cursor.settle u.groupAges group u.age } := by
  unfold returned?
  simp only [Cursor.agree?_eq_some ha]
  rfl

/-- Who has another does not. -/
theorem returned_of_not_allows {u : Cursor} (ha : ¬u.Allows group u.age) :
    returned? { advance, group := some group } t u = none := by
  unfold Cursor.Allows at ha
  push Not at ha
  obtain ⟨settled, hsettled, hne⟩ := ha
  unfold returned?
  simp only [Cursor.agree?_eq_none hsettled hne]
  rfl

section Called

variable (ht : t.Plain) (hgoing : t.heading.isStalled = false) (hh : t.heading.turn b = h)
  (hway : ∀ c, headings? grid way c = some [c.bend b])
include ht hgoing hh

theorem plain_sent : (sent t h).Plain ∧ (sent t h).heading.isStalled = false := by
  refine ⟨⟨ht.switches, ht.wrapped⟩, ?_⟩
  rw [sent, ← hh]
  exact Heading.isStalled_turn hgoing b

include hway

/-- A call with a bend for its direction, of a pattern that asks for nothing. -/
theorem eval_call_of_bend {params : Params} (hparams : params.switches = {})
    (hd : program.declaration? name = some ⟨name, {}, body⟩)
    (hbody : eval program grid body (sent t h) = some (.ok ended)) :
    eval program grid (.call ⟨name, way, params⟩) t = some (.ok (handBack grid params t ended)) := by
  have hcallee : (callee params t).bend b = sent t h := by
    simp only [callee, sent, Cursor.bend, Switches.or, ht.switches, hparams, ← hh]
    rfl
  rw [eval_call hgoing hd]
  dsimp only
  rw [merged_plain, hway, hcallee]
  dsimp only
  rw [evalEach_singleton, hbody]
  rfl

section Measured

variable (hd : program.declaration? name = some ⟨name, {}, runOfCells⟩)
include hd

/-- **A call over a run** that is as long as the group says. -/
theorem eval_measure_of_spans {w : Nat} (hspans : grid.Spans t.cell h w) (ha : t.Allows group (w + 2)) :
    eval program grid (measure name way group) t = some (.ok [t.measured group h w]) := by
  obtain ⟨hplain, hsent⟩ := plain_sent ht hgoing hh
  let u := (sent t h).ahead (w + 2)
  have hrun : eval program grid runOfCells (sent t h) = some (.ok [u]) :=
    eval_run_of_spans hplain hsent hspans
  have hage : u.age = w + 2 := Nat.zero_add _
  have hallows : u.Allows group u.age := hage.symm ▸ ha
  have hback : Cursor.Plain { t with marks := u.marks, groupAges := Cursor.settle u.groupAges group u.age } :=
    ⟨ht.switches, ht.wrapped⟩
  rw [measure, eval_call_of_bend ht hgoing hh hway rfl hd hrun]
  unfold handBack
  rw [if_pos rfl, List.filterMap_cons_some (returned_of_allows hallows), List.filterMap_cons,
    hback.step_unmarked, hage]
  rfl

/-- A call without such a run. -/
theorem eval_measure_of_not (hnot : ∀ w, grid.Spans t.cell h w → ¬t.Allows group (w + 2)) :
    eval program grid (measure name way group) t = some (.ok []) := by
  obtain ⟨hplain, hsent⟩ := plain_sent ht hgoing hh
  by_cases hex : ∃ w, grid.Spans t.cell h w
  · obtain ⟨w, hspans⟩ := hex
    let u := (sent t h).ahead (w + 2)
    have hrun : eval program grid runOfCells (sent t h) = some (.ok [u]) :=
      eval_run_of_spans hplain hsent hspans
    have hage : u.age = w + 2 := Nat.zero_add _
    have hallows : ¬u.Allows group u.age := hage.symm ▸ hnot w hspans
    rw [measure, eval_call_of_bend ht hgoing hh hway rfl hd hrun]
    unfold handBack
    rw [List.filterMap_cons_none (returned_of_not_allows hallows)]
    rfl
  · have hrun : eval program grid runOfCells (sent t h) = some (.ok []) :=
      eval_run_of_not_spans hplain hsent (not_exists.mp hex)
    rw [measure, eval_call_of_bend ht hgoing hh hway rfl hd hrun]
    rfl

/-- As many runs of one length as there are, and of these the ones before a cell off the grid. -/
theorem eval_stackOfRuns {w : Nat} (hbefore : grid.char? t.cell = none)
    (ha : 0 < n → t.Allows group (w + 2))
    (hruns : ∀ i < n, grid.Spans (t.cell.along t.heading (i + 1)) h w)
    (hend : ∀ w', grid.Spans (t.cell.along t.heading (n + 1)) h w' →
      ¬((t.ahead 1).stacked group h w n).Allows group (w' + 2)) :
    eval program grid (stackOfRuns name way group) t = some (.ok ((List.range' 1 n).flatMap fun k =>
      if grid.char? (t.cell.along t.heading (k + 1)) = none then
        [((t.ahead 1).stacked group h w k).ahead 1] else [])) := by
  let chain := (t.ahead 1).stacked group h w
  have hheading : ∀ i, (chain i).heading = t.heading := Cursor.heading_stacked _ group h w
  have hstalled : ∀ i, (chain i).heading.isStalled = false := fun i => hheading i ▸ hgoing
  have hturn : ∀ i, (chain i).heading.turn b = h := fun i => hheading i ▸ hh
  have hcell : ∀ i, (chain i).cell = t.cell.along t.heading (i + 1) := by
    intro i
    rw [Nat.add_comm, ← Cell.along_along]
    exact Cursor.cell_stacked _ group h w i
  have hstep : ∀ i < n, eval program grid (measure name way group) (chain i) =
      some (.ok [chain (i + 1)]) := by
    intro i hi
    have hspans : grid.Spans (chain i).cell h w := (hcell i).symm ▸ hruns i hi
    have hallows : (chain i).Allows group (w + 2) := Cursor.allows_stacked (ha (Nat.zero_lt_of_lt hi))
    have hnext : chain (i + 1) = (chain i).measured group h w := Cursor.stacked_succ _ group h w i
    rw [hnext]
    exact eval_measure_of_spans (ht.ahead 1).stacked (hstalled i) (hturn i) hway hd hspans hallows
  have hlast : eval program grid (measure name way group) (chain n) = some (.ok []) :=
    eval_measure_of_not (ht.ahead 1).stacked (hstalled n) (hturn n) hway hd
      fun w' hspans => hend w' (hcell n ▸ hspans)
  exact eval_between_of_chain ht hgoing hbefore rfl
    (fun i => ⟨(ht.ahead 1).stacked, hstalled i, hcell i⟩) hstep hlast

end Measured

end Called

/-! ## Stacks -/

/-- **What a pattern for stacks comes to**: a survivor if there is a stack that the group allows, and else
none. -/
inductive MeasuresStack (program : Program) (grid : Grid) (node : Node) (group : Nat) (t : Cursor)
    (h h' : Heading) : Prop
  | found {w : Nat} {u : Cursor} (stack : grid.Stacks t.cell h h' w) (allows : t.Allows group (w + 2))
      (measured : t.Measured group (w + 2) u) (comes : eval program grid node t = some (.ok [u]))
  | missed (missing : ∀ w, grid.Stacks t.cell h h' w → ¬t.Allows group (w + 2))
      (comes : eval program grid node t = some (.ok []))

section Stacks

variable {w : Nat}

/-- Of the runs of a stack the calls' group allows as many as each is long. -/
theorem handBack_stacked {u : Cursor} (hage : u.age = 1) (ha : u.Allows group (w + 2)) (hw : 0 < w)
    (off : Nat → Prop) [DecidablePred off] :
    handBack grid { group := some group } t ((List.range' 1 n).flatMap fun k =>
        if off k then [(u.stacked group h w k).ahead 1] else []) =
      if w ≤ n then if off w then [{ t with
        marks := ((u.stacked group h w w).ahead 1).marks
        groupAges := Cursor.settle (u.stacked group h w w).groupAges group (w + 2) }] else [] else [] := by
  have hages : ∀ k, ((u.stacked group h w k).ahead 1).age = k + 2 := by
    intro k
    unfold Cursor.ahead
    rw [Cursor.age_stacked, hage, Nat.add_comm 1]
  unfold handBack
  rw [if_neg Bool.false_ne_true, List.filterMap_flatMap, flatMap_range'_eq hw]
  · have hallows : ((u.stacked group h w w).ahead 1).Allows group ((u.stacked group h w w).ahead 1).age := by
      rw [hages]
      exact Cursor.allows_stacked ha
    split
    · split
      · rw [List.filterMap_cons_some (returned_of_allows hallows), hages]
        rfl
      · rfl
    · rfl
  · intro k hk _ hne
    split
    · refine List.filterMap_cons_none (returned_of_not_allows ?_)
      have hsettled : ((u.stacked group h w k).ahead 1).groupAges.get (Cursor.groupSlot group) = some (w + 2) :=
        Cursor.settled_stacked ha hk
      rw [hages, Cursor.allows_iff_of_settled hsettled]
      omega
    · rfl

variable {name' : String} {way' : Direction} {b' : Bend} {h' : Heading}
  (ht : t.Plain) (hgoing : t.heading.isStalled = false)
  (hh : t.heading.turn b = h) (hway : ∀ c, headings? grid way c = some [c.bend b])
  (hd : program.declaration? name = some ⟨name, {}, stackOfRuns name' way' group⟩)
  (hh' : h.turn b' = h') (hway' : ∀ c, headings? grid way' c = some [c.bend b'])
  (hd' : program.declaration? name' = some ⟨name', {}, runOfCells⟩)
include ht hgoing hh hway hd hh' hway' hd'

/-- A call over a stack that has a first run, as long as the group says. -/
theorem eval_stack_of_spans (hbefore : grid.char? t.cell = none) (hfirst : grid.Spans (t.cell.along h 1) h' w)
    (ha : t.Allows group (w + 2)) : ∃ u n, t.Measured group (w + 2) u ∧
      (w ≤ n ↔ ∀ i < w, grid.Spans (t.cell.along h (i + 1)) h' w) ∧
      eval program grid (.call ⟨name, way, { group := some group }⟩) t = some (.ok
        (if w ≤ n then if grid.char? (t.cell.along h (w + 1)) = none then [u] else [] else [])) := by
  obtain ⟨hplain, hsent⟩ := plain_sent ht hgoing hh
  obtain ⟨n, hruns, hend⟩ := grid.exists_stack hsent t.cell h' w
  have hn : 0 < n := by
    rw [Nat.pos_iff_ne_zero]
    rintro rfl
    exact hend hfirst
  have hallows : ((sent t h).ahead 1).Allows group (w + 2) := ha
  -- after the first run the group allows no other length
  have hlast : ∀ w', grid.Spans (t.cell.along h (n + 1)) h' w' →
      ¬(((sent t h).ahead 1).stacked group h' w n).Allows group (w' + 2) := by
    intro w' hspans ha'
    have hsame := (Cursor.allows_iff_of_settled (Cursor.settled_stacked hallows hn)).mp ha'
    obtain rfl : w = w' := Nat.add_right_cancel hsame
    exact hend hspans
  have hbody := eval_stackOfRuns hplain hsent hh' hway' hd' hbefore (fun _ => hallows) hruns hlast
  have hcall : eval program grid (.call ⟨name, way, { group := some group }⟩) t = _ :=
    eval_call_of_bend ht hgoing hh hway rfl hd hbody
  rw [handBack_stacked (Nat.zero_add 1) hallows hfirst.pos] at hcall
  refine ⟨_, n, ⟨rfl, ?_⟩, ⟨fun hle i hi => hruns i (by omega), fun hall => ?_⟩, hcall⟩
  · exact Cursor.get_settle_self (Cursor.allows_stacked hallows)
  · by_contra hlt
    exact hend (hall n (by omega))

/-- **A call over a stack** has one survivor, if there is a stack and it is as high as the group says: the
caller, and the group is settled. -/
theorem eval_stack_of_stacks (hstacks : grid.Stacks t.cell h h' w) (ha : t.Allows group (w + 2)) :
    ∃ u, t.Measured group (w + 2) u ∧
      eval program grid (.call ⟨name, way, { group := some group }⟩) t = some (.ok [u]) := by
  obtain ⟨u, n, hu, hn, hcall⟩ := eval_stack_of_spans ht hgoing hh hway hd hh' hway' hd' hstacks.before
    (hstacks.runs 0 hstacks.pos) ha
  rw [if_pos (hn.mpr hstacks.runs), if_pos hstacks.after] at hcall
  exact ⟨u, hu, hcall⟩

/-- Else it has none. -/
theorem eval_stack_of_not (hnot : ∀ w, grid.Stacks t.cell h h' w → ¬t.Allows group (w + 2)) :
    eval program grid (.call ⟨name, way, { group := some group }⟩) t = some (.ok []) := by
  obtain ⟨hplain, hsent⟩ := plain_sent ht hgoing hh
  cases hbefore : grid.char? t.cell with
  | some char =>
    have hcell : grid.char? (sent t h).cell ≠ none := by
      rw [sent, hbefore]
      exact Option.some_ne_none char
    exact eval_call_of_bend ht hgoing hh hway rfl hd (eval_between_of_ne_none hplain hsent _ hcell)
  | none =>
    by_cases hex : ∃ w, grid.Spans (t.cell.along h 1) h' w ∧ t.Allows group (w + 2)
    · obtain ⟨w, hfirst, ha⟩ := hex
      obtain ⟨u, n, _, hn, hcall⟩ := eval_stack_of_spans ht hgoing hh hway hd hh' hway' hd' hbefore hfirst ha
      rw [hcall]
      split
      · next hle => rw [if_neg fun hafter => hnot w ⟨hfirst.pos, hbefore, hn.mp hle, hafter⟩ ha]
      · rfl
    · push Not at hex
      have hbody : eval program grid (stackOfRuns name' way' group) (sent t h) = some (.ok []) :=
        eval_stackOfRuns (w := 0) (n := 0) hplain hsent hh' hway' hd' hbefore nofun nofun hex
      exact eval_call_of_bend ht hgoing hh hway rfl hd hbody

theorem measures_stack :
    MeasuresStack program grid (.call ⟨name, way, { group := some group }⟩) group t h h' := by
  by_cases hex : ∃ w, grid.Stacks t.cell h h' w ∧ t.Allows group (w + 2)
  · obtain ⟨w, hstacks, ha⟩ := hex
    obtain ⟨u, hu, hcall⟩ := eval_stack_of_stacks ht hgoing hh hway hd hh' hway' hd' hstacks ha
    exact .found hstacks ha hu hcall
  · have hnot : ∀ w, grid.Stacks t.cell h h' w → ¬t.Allows group (w + 2) :=
      fun w hstacks ha => hex ⟨w, hstacks, ha⟩
    exact .missed hnot (eval_stack_of_not ht hgoing hh hway hd hh' hway' hd' hnot)

end Stacks

end Calls

end Walk

end GridPattern
