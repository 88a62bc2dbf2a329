import GridPattern.Proofs.Search.Report
import GridPattern.Proofs.Walk.Agreement
import GridPattern.Proofs.Walk.Frame

/-!
# The meaning of a program

A program means what its first declaration means, called straight on. That is said here for every cursor,
also for one that goes nowhere: a call of a pattern would stop there, but a program begins with a turn.

**The law** (`find_of_evalProgram`). Without a budget a search reports, from all start cells, what the program
means there, if it means anything from each of them.
-/

namespace GridPattern

namespace Walk

open Counted Survivors Filter

/-- The cursor that a declaration is begun with: straight on, with an age of its own. -/
def beginning (params : Params) (c : Cursor) : Cursor := (callee params c).bend ⟨0, 1⟩

/-- **The meaning of a program** for one cursor. -/
noncomputable def evalProgram (program : Program) (grid : Grid) (c : Cursor) : Option Verdict :=
  match program.entry? with
  | .none => some (.error [.noDeclarations])
  | some entry =>
    (eval program grid entry.body (beginning entry.params c)).map
      (Except.map (handBack grid entry.params c))

section Runs

variable {s : Setting} {entry : Declaration} {c : Cursor}

/-- The survivors of a walk are those that the program means. -/
theorem evalProgram_of_run {depth count : Nat} {found : Survivors Cursor}
    (h : ((run s depth c).runFrom count).1 = .ok found) :
    evalProgram s.program s.grid c = some (.ok found.toList) := by
  have hrun : ComesTo (run s depth c) (.ok found) := ⟨count, _, Prod.ext h rfl⟩
  obtain ⟨_, _, h⟩ | ⟨_, _, heq⟩ := ComesTo.of_bind hrun
  · unfold evalProgram
    cases hentry : s.program.entry? with
    | none =>
      rw [hentry] at h
      cases h.of_fail
    | some entry =>
      rw [hentry] at h
      obtain ⟨declared, headed, ended, hd, hh, hbody, hfound⟩ := (sound_follow s depth).call_ended h
      cases (Program.declaration?_of_entry hentry).symm.trans hd
      cases (headings_forward s.grid _).symm.trans hh
      rw [hfound, Option.map_eq_some_iff]
      exact ⟨_, evalEach_singleton.symm.trans hbody, rfl⟩
  · cases heq

/-- **Without a budget a walk of a program comes to what it means**, if it is deep enough. -/
theorem eventually_run (hb : s.budget = .none) {ts : List Cursor}
    (h : evalProgram s.program s.grid c = some (.ok ts)) :
    ∀ᶠ depth in atTop, ∀ count, ∃ found, ((run s depth c).runFrom count).1 = .ok found ∧
      found.toList = ts := by
  unfold evalProgram at h
  cases hentry : s.program.entry? with
  | none =>
    rw [hentry] at h
    cases h
  | some entry =>
    rw [hentry] at h
    obtain ⟨v, hv, heq⟩ := Option.map_eq_some_iff.mp h
    have hd := Program.declaration?_of_entry hentry
    refine (answers_follow hb hv).mono fun depth hbody count => ?_
    have hcall : Answers toList (call s (follow s depth) ⟨entry.name, .forward, {}⟩ c)
        (v.map (handBack s.grid entry.params c)) := by
      refine answers_call (F := follow s depth) hd (headings_forward s.grid _) ?_
      rw [← Verdict.join_singleton v]
      exact answers_flatMapList (.cons hbody .nil)
    rw [heq] at hcall
    obtain ⟨found, hfound, rfl⟩ := hcall.of_ok
    obtain ⟨after, hrun⟩ := hfound 0
    refine ⟨found, ?_, rfl⟩
    rw [run_eq, runFrom_bind, runFrom_restart, hentry]
    exact congrArg Prod.fst hrun

end Runs

end Walk

namespace Search

open Walk Filter

variable {program : Program} {grid : Grid} {options : Options} {patience : Nat}

/-- **A search has findings if every walk has survivors**, and then they are the entries without an earlier
duplicate. -/
theorem find_eq_ok_iff {found : List Finding} :
    find program grid options patience = .ok found ↔ ∃ survivors : Cell → Survivors Cursor,
      (∀ origin ∈ grid.startCells,
        outcomeFrom ⟨program, grid, options.stepBudget⟩ patience origin = .ok (survivors origin)) ∧
      found = firsts (Duplicates options.originInsensitive) (entries grid survivors) := by
  constructor
  · intro h
    obtain ⟨all, hall, rfl⟩ := map_eq_ok_iff.mp h
    obtain ⟨survivors, houtcome, rfl⟩ := findings_eq_ok hall
    exact ⟨survivors, houtcome, distinct_eq_firsts _ (nodup_of_mem_entries houtcome)⟩
  · rintro ⟨survivors, houtcome, rfl⟩
    have hmarks := nodup_of_mem_entries (s := ⟨program, grid, options.stepBudget⟩) houtcome
    refine map_eq_ok_iff.mpr ⟨entries grid survivors, ?_, distinct_eq_firsts _ hmarks⟩
    refine map_eq_ok_iff.mpr ⟨_, mapM_eq_ok_iff.mpr ?_, rfl⟩
    refine (List.forall₂_map_right_iff (R := fun origin row =>
      findingsFrom ⟨program, grid, options.stepBudget⟩ patience origin = .ok row)).mpr ?_
    refine List.forall₂_same.mpr fun origin mem => ?_
    rw [findingsFrom_eq, houtcome origin mem]
    rfl

/-- **What a search without a budget reports** of a program that means something from every start cell. -/
theorem find_of_evalProgram {ts : Cell → List Cursor} (originInsensitive : Bool)
    (h : ∀ origin ∈ grid.startCells,
      evalProgram program grid { cell := origin } = some (.ok (ts origin))) :
    ∃ least, ∀ patience ≥ least, find program grid ⟨originInsensitive, none⟩ patience =
      .ok (firsts (Duplicates originInsensitive) (entries grid fun origin => .ofList (ts origin))) := by
  have heach : List.Forall₂ (fun origin (_ : Cell) => ∀ᶠ depth in atTop, ∃ found,
      outcomeFrom ⟨program, grid, none⟩ depth origin = .ok found ∧ found.toList = ts origin)
      grid.startCells grid.startCells :=
    List.forall₂_same.mpr fun origin mem =>
      (eventually_run (s := ⟨program, grid, none⟩) rfl (h origin mem)).mono fun _ hrun => hrun 0
  obtain ⟨least, hleast⟩ := eventually_atTop.mp (eventually_forall₂ heach)
  refine ⟨least, fun patience hp => ?_⟩
  have hrow := List.forall₂_same.mp (hleast patience hp)
  have hsurvivors : ∀ origin, ∃ found, origin ∈ grid.startCells →
      outcomeFrom ⟨program, grid, none⟩ patience origin = .ok found ∧ found.toList = ts origin := by
    intro origin
    by_cases mem : origin ∈ grid.startCells
    · obtain ⟨found, hfound⟩ := hrow origin mem
      exact ⟨found, fun _ => hfound⟩
    · exact ⟨.none, fun hmem => absurd hmem mem⟩
  choose survivors hok using hsurvivors
  refine find_eq_ok_iff.mpr ⟨survivors, fun origin mem => (hok origin mem).1, ?_⟩
  refine congrArg (firsts (Duplicates originInsensitive)) ?_
  unfold entries
  refine List.flatMap_congr fun origin mem => ?_
  rw [(hok origin mem).2, Survivors.toList_ofList]

/-- Code that can be read is searched for by the program that it is read as. -/
theorem withCode_of_find {code text : String} {options : Options} {tokens : List Token} {found : List Finding}
    (hscan : Token.scan code = .ok tokens) (hparse : Program.ofTokens tokens = .ok program)
    (hfind : find program (.ofText text) options patience = .ok found) :
    withCode code text options patience = .ok found := by
  rw [withCode_of_scan hscan, withTokens_of_parse hparse]
  exact congrArg (Except.mapError _) hfind

end Search

end GridPattern
