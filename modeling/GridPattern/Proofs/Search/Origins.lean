import GridPattern.Proofs.Search.Report

/-!
# Searches to which origins are of no interest

Such a search compares each finding with those that it has kept, and these are fewer than the other search
keeps. Still it says no more and no less than what the other search says with its own duplicates left out.

**The law** (`find_originInsensitive`). To mark the same cells is an equivalence that findings from the same
start cell with the same cells are in (`Duplicates.sameCells`), and to drop by a finer relation first changes
nothing (`firsts_firsts`). Origins are looked at only when all walks have ended, so both searches stop for the
same reason.

**What it does not establish.** Which origin a finding keeps among several with the same cells; it is the one
of the first, as the order of start cells has it.
-/

namespace GridPattern.Search

/-- **Findings of the same cells**, in whatever order these were marked and wherever the cursor set out. -/
def SameCells (a b : Finding) : Prop := a.toMatch.marks.toFinset = b.toMatch.marks.toFinset

instance : DecidableRel SameCells :=
  fun a b => inferInstanceAs (Decidable (a.toMatch.marks.toFinset = b.toMatch.marks.toFinset))

theorem sameCells_equivalence : Equivalence SameCells where
  refl _ := rfl
  symm h := Eq.symm h
  trans h h' := Eq.trans h h'

theorem Duplicates.sameCells {originInsensitive : Bool} {a b : Finding} (h : Duplicates originInsensitive a b) :
    SameCells a b := h.1

/-- Without regard to origins, duplicates are findings of the same cells. -/
theorem duplicates_true_iff {a b : Finding} : Duplicates true a b ↔ SameCells a b :=
  ⟨Duplicates.sameCells, fun h => ⟨h, nofun⟩⟩

theorem distinct_true_eq_firsts {found : List Finding} (hmarks : ∀ f ∈ found, f.cursor.marks.Nodup) :
    distinct true found = firsts SameCells found :=
  eraseDupsBy_eq_firsts sameCells_equivalence fun a ha b hb =>
    (isDuplicate_iff (hmarks a ha) (hmarks b hb)).trans duplicates_true_iff

/-- **A search without regard to origins is a quotient of the other one.** It stops where the other one stops,
and for the same reason; and of what the other one finds it keeps, in order, the findings whose cells no
earlier one of them has. -/
theorem find_originInsensitive (program : Program) (grid : Grid) (budget : Option Nat) (patience : Nat) :
    find program grid ⟨true, budget⟩ patience =
      firsts SameCells <$> find program grid ⟨false, budget⟩ patience := by
  unfold find
  dsimp only
  cases hall : findings ⟨program, grid, budget⟩ patience with
  | error stop => rfl
  | ok all =>
    obtain ⟨survivors, houtcome, rfl⟩ := findings_eq_ok hall
    have hmarks := nodup_of_mem_entries houtcome
    refine congrArg Except.ok ?_
    calc distinct true (entries grid survivors)
      _ = firsts SameCells (entries grid survivors) := distinct_true_eq_firsts hmarks
      _ = firsts SameCells (firsts (Duplicates false) (entries grid survivors)) :=
        (firsts_firsts sameCells_equivalence (fun _ _ => Duplicates.sameCells) _).symm
      _ = firsts SameCells (distinct false (entries grid survivors)) := by rw [distinct_eq_firsts false hmarks]

end GridPattern.Search
