import GridPattern.Proofs.Search.Report
import GridPattern.Proofs.Walk.Budget
import Mathlib.Data.Finset.Lattice.Fold

/-!
# What a budget does to a search

A search gives each start cell the whole budget. One that reports anything but a spent budget reports
the same under every larger budget and under none.

**The law** (`budget_only_cuts`). A budget has a part in no answer: of a walk along a pattern, of walks
that share one count, of a whole search.
-/

namespace GridPattern

open Walk Counted

/-- Rows that differ only where the one stops for a certain reason are equal, if neither stops for it. -/
theorem mapM_eq_of_ne {ε α β : Type} {f g : α → Except ε β} {stop : ε} {as : List α}
    (h : ∀ a ∈ as, f a ≠ .error stop → g a = f a) (hne : as.mapM f ≠ .error stop) :
    as.mapM g = as.mapM f := by
  induction as with
  | nil => rfl
  | cons a as ih =>
    obtain ⟨hhead, htail⟩ := List.forall_mem_cons.mp h
    cases ha : f a with
    | error cause =>
      rw [mapM_cons_error ha] at hne ⊢
      have hother : f a ≠ .error stop := by
        intro heq
        cases ha.symm.trans heq
        exact hne rfl
      exact mapM_cons_error ((hhead hother).trans ha)
    | ok b =>
      have hg : g a = .ok b := (hhead (by rw [ha]; exact nofun)).trans ha
      rw [mapM_cons_ok ha] at hne ⊢
      rw [mapM_cons_ok hg, ih htail]
      intro hstop
      rw [hstop] at hne
      exact hne rfl

namespace Search

variable {program : Program} {grid : Grid} {limit patience : Nat}

theorem depthFor_mono (budget : Option Nat) {patience patience' : Nat} (h : patience ≤ patience') :
    depthFor budget patience ≤ depthFor budget patience' := by
  cases budget with
  | none => exact h
  | some _ => exact Nat.le_refl _

/-- From one start cell, what is not cut off does not change with the budget. -/
theorem outcomeFrom_of_not_exhausted {origin : Cell}
    (h : outcomeFrom ⟨program, grid, some limit⟩ patience origin ≠
      .error (.fault (.budgetExhausted limit))) :
    ∃ enough, ∀ budget, (∀ larger ∈ budget, limit ≤ larger) → ∀ patience' ≥ enough,
      outcomeFrom ⟨program, grid, budget⟩ patience' origin =
        outcomeFrom ⟨program, grid, some limit⟩ patience origin := by
  obtain ⟨_, hb⟩ := budgeted_enterProgram program grid { cell := origin }
  simp only [outcomeFrom, runFrom_run] at h ⊢
  obtain ⟨enough, heq⟩ := hb.of_not_exhausted (Nat.lt_succ_self limit) h
  refine ⟨enough, ?_⟩
  intro budget hlarger patience' hp
  rw [heq budget hlarger _ (depthFor_mono budget hp)]
  rfl

/-- A patience that is enough for every start cell. -/
theorem findings_of_not_exhausted
    (h : findings ⟨program, grid, some limit⟩ patience ≠ .error (.fault (.budgetExhausted limit))) :
    ∃ enough, ∀ budget, (∀ larger ∈ budget, limit ≤ larger) → ∀ patience' ≥ enough,
      findings ⟨program, grid, budget⟩ patience' = findings ⟨program, grid, some limit⟩ patience := by
  have heach : ∀ origin, ∃ enough, ∀ budget, (∀ larger ∈ budget, limit ≤ larger) →
      ∀ patience' ≥ enough, findingsFrom ⟨program, grid, some limit⟩ patience origin ≠
          .error (.fault (.budgetExhausted limit)) →
        findingsFrom ⟨program, grid, budget⟩ patience' origin =
          findingsFrom ⟨program, grid, some limit⟩ patience origin := by
    intro origin
    simp only [findingsFrom_eq]
    by_cases hne : outcomeFrom ⟨program, grid, some limit⟩ patience origin =
        .error (.fault (.budgetExhausted limit))
    · refine ⟨0, ?_⟩
      intro budget _ patience' _ hnot
      exact absurd (map_eq_error_iff.mpr hne) hnot
    · obtain ⟨enough, heq⟩ := outcomeFrom_of_not_exhausted hne
      refine ⟨enough, ?_⟩
      intro budget hlarger patience' hp _
      rw [heq budget hlarger patience' hp]
  choose enough heach using heach
  obtain ⟨most, hmost⟩ : ∃ most, ∀ origin ∈ grid.startCells, enough origin ≤ most :=
    ⟨grid.startCells.toFinset.sup enough, fun _ mem => Finset.le_sup (List.mem_toFinset.mpr mem)⟩
  refine ⟨most, ?_⟩
  intro budget hlarger patience' hp
  have hrows := mapM_eq_of_ne
    (fun origin mem => heach origin budget hlarger patience' (le_trans (hmost origin mem) hp))
    (mt map_eq_error_iff.mpr h)
  unfold findings
  rw [hrows]

/-- A search that the budget did not end finds the same under every larger budget and under none. -/
theorem find_of_not_exhausted {originInsensitive : Bool}
    (h : find program grid ⟨originInsensitive, some limit⟩ patience ≠
      .error (.fault (.budgetExhausted limit))) :
    ∃ enough, ∀ budget, (∀ larger ∈ budget, limit ≤ larger) → ∀ patience' ≥ enough,
      find program grid ⟨originInsensitive, budget⟩ patience' =
        find program grid ⟨originInsensitive, some limit⟩ patience := by
  unfold find at h ⊢
  obtain ⟨enough, heq⟩ := findings_of_not_exhausted (mt map_eq_error_iff.mpr h)
  refine ⟨enough, ?_⟩
  intro budget hlarger patience' hp
  rw [heq budget hlarger patience' hp]

/-- **A budget only cuts off, and never changes an answer.** A walk has one account under all budgets.
A walker that has spent its budget goes no further until it begins with the program again, and then it
does what it would have done at first. A search that was not cut off has its answer under every larger
budget and under none. -/
theorem budget_only_cuts (program : Program) (grid : Grid) :
    (∀ node cursors, ∃ account,
      Budgeted (fun budget depth => followAll ⟨program, grid, budget⟩ depth node cursors) account ∧
        (cursors.toList ≠ [] → 0 < account.cost)) ∧
    (∀ limit depth, limit < depth → ∀ request count,
      ((request.walk ⟨program, grid, some limit⟩ depth).runFrom count).1 =
        .error (.fault (.budgetExhausted limit)) →
      ∀ later : List Request, (∀ next ∈ later, ∃ node cursors, next = .follow node cursors) →
      ∀ (node : Node) (cursors : Survivors Cursor), cursors.toList ≠ [] →
        ((followAll ⟨program, grid, some limit⟩ depth node cursors).runFrom
          (countAfter ⟨program, grid, some limit⟩ depth (request :: later) count)).1 =
            .error (.fault (.budgetExhausted limit))) ∧
    (∀ budget depth requests count c,
      (run ⟨program, grid, budget⟩ depth c).runFrom
          (countAfter ⟨program, grid, budget⟩ depth requests count) =
        (run ⟨program, grid, budget⟩ depth c).runFrom 0) ∧
    ∀ originInsensitive limit patience answer,
      find program grid { originInsensitive, stepBudget := some limit } patience = answer →
      answer ≠ .error (.fault (.budgetExhausted limit)) →
        (∀ larger ≥ limit, ∀ patience',
          find program grid { originInsensitive, stepBudget := some larger } patience' = answer) ∧
        ∃ enough, ∀ patience' ≥ enough,
          find program grid { originInsensitive, stepBudget := none } patience' = answer := by
  refine ⟨budgeted_followAll program grid, ?_, ?_, ?_⟩
  · intro limit depth hd request count hspent later hfollow node cursors hne
    have hpast : limit < countAfter ⟨program, grid, some limit⟩ depth (request :: later) count :=
      lt_countAfter hd hfollow (lt_count_of_exhausted hd hspent)
    exact exhausted_of_lt hd hpast node hne
  · intro budget depth requests count c
    rw [runFrom_run, runFrom_run]
  · intro originInsensitive limit patience answer hanswer hne
    subst hanswer
    obtain ⟨enough, heq⟩ := find_of_not_exhausted hne
    refine ⟨fun larger hle patience' => ?_, enough, heq none nofun⟩
    -- under a budget the patience is of no account
    have hpatience : find program grid ⟨originInsensitive, some larger⟩ patience' =
        find program grid ⟨originInsensitive, some larger⟩ enough := rfl
    rw [hpatience]
    refine heq (some larger) ?_ enough (Nat.le_refl enough)
    intro _ mem
    cases mem
    exact hle

/-- One or more letters `a`, or nothing again and again. -/
def letters : Program := ⟨[⟨"letters", {}, .repeated (.literal ['a']) .plus⟩]⟩

/-- To repeat nothing takes more than three steps, and then not even one cell can be read. The search for
letters in `aa` needs no more than twenty steps from any cell, so without a budget it finds the same. -/
theorem budget_only_cuts_letters :
    let grid : Grid := ⟨#[#['a', 'a']], by decide⟩
    let start : Cursor := { cell := ⟨0, 0⟩ }
    let forever : Request := .follow (.repeated (.sequence []) .star) (.one start)
    ((followAll ⟨letters, grid, some 3⟩ 4 .inside (.one start)).runFrom
        (countAfter ⟨letters, grid, some 3⟩ 4 [forever] 0)).1 = .error (.fault (.budgetExhausted 3)) ∧
      ∃ found enough, found.map Finding.toMatch =
          [⟨⟨0, 0⟩, [⟨0, 0⟩]⟩, ⟨⟨0, 0⟩, [⟨0, 0⟩, ⟨1, 0⟩]⟩, ⟨⟨1, 0⟩, [⟨1, 0⟩]⟩] ∧
        ∀ patience ≥ enough, find letters grid { stepBudget := none } patience = .ok found := by
  intro grid start forever
  obtain ⟨_, hspent, _, hfind⟩ := budget_only_cuts letters grid
  have hpast := hspent 3 4 (by decide) forever 0 (by decide +kernel) [] (List.forall_mem_nil _)
    .inside (.one start) (List.cons_ne_nil _ _)
  have reported : List.map Finding.toMatch <$> find letters grid { stepBudget := some 20 } 0 =
      .ok [⟨⟨0, 0⟩, [⟨0, 0⟩]⟩, ⟨⟨0, 0⟩, [⟨0, 0⟩, ⟨1, 0⟩]⟩, ⟨⟨1, 0⟩, [⟨1, 0⟩]⟩] := by decide +kernel
  obtain ⟨found, hfound, hmatch⟩ := map_eq_ok_iff.mp reported
  obtain ⟨_, enough, heq⟩ := hfind false 20 0 (.ok found) hfound nofun
  exact ⟨hpast, found, enough, hmatch, heq⟩

end Search

end GridPattern
