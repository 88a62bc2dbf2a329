import GridPattern.Proofs.Search.Report
import GridPattern.Proofs.Walk.Blame
import GridPattern.Proofs.Walk.Budget

/-!
# Why a search has no answer

A search stops for what its program asks for and cannot have, or because the budget is spent. Without a
budget it can also go on for longer than anyone waits.

**The law** (`find_blames`). Every stop is accounted for: the program or the budget is to blame for a
fault, and only without a budget is a search ever unfinished. A program that declares what it calls and
asks for turns that there are is to blame for nothing.

**What it does not establish.** Which start cell the fault is met from; that is `find_correct`.
-/

namespace GridPattern

/-- **A program that leaves nothing open**: it has a declaration, declares whatever it calls, and asks
only for turns that there are. -/
structure Program.WellFormed (p : Program) : Prop where
  begins : p.declarations ≠ []
  calls : ∀ name, p.Calls name → p.Declares name
  turns : ∀ letters, p.Turns letters → MeanTurn letters

/-- Such a program is to blame for nothing; the budget may be. -/
theorem Blame.of_wellFormed {p : Program} {budget : Option Nat} {fault : WalkFault}
    (h : Blame p budget fault) (hp : p.WellFormed) :
    ∃ limit, budget = some limit ∧ fault = .budgetExhausted limit := by
  cases h with
  | noDeclarations hnone => exact absurd hnone hp.begins
  | undeclared hcalls hnot => exact absurd (hp.calls _ hcalls) hnot
  | unknownTurns hturns hnot => exact absurd (hp.turns _ hturns) hnot
  | budgetExhausted hbudget => exact ⟨_, hbudget, rfl⟩

namespace Search

open Walk

variable {program : Program} {grid : Grid} {options : Options} {patience : Nat} {stop : Stop}

/-- Under a budget every start cell has an outcome. -/
theorem outcomeFrom_ne_unfinished (program : Program) (grid : Grid) (limit patience : Nat)
    (origin : Cell) :
    outcomeFrom ⟨program, grid, some limit⟩ patience origin ≠ .error .unfinished := by
  unfold outcomeFrom
  rw [runFrom_run]
  exact finished_of_lt (metered_enterProgram program grid (Nat.le_refl _) { cell := origin })
    (Nat.lt_succ_self limit) 0

theorem blame_of_find (h : find program grid options patience = .error stop) :
    (∃ fault, stop = .fault fault ∧ Blame program options.stepBudget fault) ∨
      stop = .unfinished ∧ options.stepBudget = none := by
  obtain ⟨_, origin, _, _, _, hstop⟩ := findings_eq_error_iff.mp (map_eq_error_iff.mp h)
  cases stop with
  | fault fault => exact .inl ⟨fault, rfl, blame_of_run rfl hstop⟩
  | unfinished =>
    cases hbudget : options.stepBudget with
    | none => exact .inr ⟨rfl, rfl⟩
    | some limit =>
      rw [hbudget] at hstop
      exact absurd hstop (outcomeFrom_ne_unfinished program grid limit patience origin)

/-- **Faults are the program's, or the budget's.** No cursor ever comes to a halt; a program without
faults stops only where its budget is spent, and without a budget not at all. -/
theorem find_blames (program : Program) (grid : Grid) (options : Options) (patience : Nat) :
    find program grid options patience ≠ .error (.fault .stalled) ∧
    (∀ stop, find program grid options patience = .error stop →
      (∃ fault, stop = .fault fault ∧ Blame program options.stepBudget fault) ∨
        stop = .unfinished ∧ options.stepBudget = none) ∧
    (program.WellFormed → ∀ stop, find program grid options patience = .error stop →
      (∃ limit, options.stepBudget = some limit ∧ stop = .fault (.budgetExhausted limit)) ∨
        stop = .unfinished ∧ options.stepBudget = none) := by
  refine ⟨fun h => ?_, fun stop h => blame_of_find h, fun hp stop h => ?_⟩
  · obtain ⟨fault, heq, hblame⟩ | ⟨heq, _⟩ := blame_of_find h
    · cases heq
      cases hblame
    · cases heq
  · obtain ⟨fault, rfl, hblame⟩ | hunfinished := blame_of_find h
    · obtain ⟨limit, hbudget, rfl⟩ := hblame.of_wellFormed hp
      exact .inl ⟨limit, hbudget, rfl⟩
    · exact .inr hunfinished

/-- A pattern that calls itself to the right, and does nothing else. -/
def spin : Program := ⟨[⟨"spin", {}, .call ⟨"spin", ⟨['R'], false⟩, {}⟩⟩]⟩

theorem patterns_spin : spin.patterns = [.call ⟨"spin", ⟨['R'], false⟩, {}⟩] := rfl

theorem spin_wellFormed : spin.WellFormed where
  begins := List.cons_ne_nil _ _
  calls name h := by
    obtain ⟨target, mem, rfl⟩ := h
    rw [patterns_spin, List.mem_singleton] at mem
    cases mem
    exact ⟨_, List.mem_cons_self, rfl⟩
  turns letters h := by
    rw [Program.Turns, patterns_spin] at h
    obtain ⟨way, mem, rfl⟩ | ⟨target, mem, rfl⟩ := h
    · cases List.mem_singleton.mp mem
    · cases List.mem_singleton.mp mem
      decide

/-- A pattern that calls another, which nobody declared. -/
def lost : Program := ⟨[⟨"lost", {}, .call ⟨"way", .forward, {}⟩⟩]⟩

/-- To spin ends with the budget and cannot end otherwise; who is lost called a name without a
declaration. -/
theorem find_blames_spin_lost :
    let grid : Grid := ⟨#[#['a']], by decide⟩
    (∃ stop, find spin grid { stepBudget := some 3 } 0 = .error stop ∧
      ((∃ limit, some 3 = some limit ∧ stop = .fault (.budgetExhausted limit)) ∨
        stop = .unfinished ∧ some 3 = none)) ∧
      find lost grid {} 0 = .error (.fault (.undeclared "way")) ∧
        lost.Calls "way" ∧ ¬lost.Declares "way" := by
  intro grid
  have spent : find spin grid { stepBudget := some 3 } 0 = .error (.fault (.budgetExhausted 3)) := by
    decide +kernel
  have met : find lost grid {} 0 = .error (.fault (.undeclared "way")) := by decide +kernel
  obtain ⟨_, _, hspin⟩ := find_blames spin grid { stepBudget := some 3 } 0
  obtain ⟨_, hlost, _⟩ := find_blames lost grid {} 0
  refine ⟨⟨_, spent, hspin spin_wellFormed _ spent⟩, met, ?_⟩
  obtain ⟨fault, heq, hblame⟩ | ⟨heq, _⟩ := hlost _ met
  · cases heq
    cases hblame with
    | undeclared hcalls hnot => exact ⟨hcalls, hnot⟩
  · cases heq

end Search

end GridPattern
