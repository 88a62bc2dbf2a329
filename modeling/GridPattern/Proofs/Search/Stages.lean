import GridPattern.Proofs.Pattern.FirstFault
import GridPattern.Proofs.Search.Report

/-!
# Stages of a search

Code is scanned, its tokens are parsed, and its program is walked over the grid. Each stage begins when the one
before has come to an end without errors, and the errors of all three have one type.

**The law** (`errors_of_one_stage`). There is no refusal without an error, and its errors are of one stage: the first
that fails. The scanner and the parser know nothing of the grid. The last stage fails with one error, that of the
first start cell whose walk fails.

**What it does not establish.** Which errors the scanner and the parser find; that is `Token.scan_eq_lex` and
`Program.faults_of_ofTokens`.
-/

namespace GridPattern

/-! ## Kinds of errors -/

/-- What the scanner finds is of a kind of its stage. -/
theorem stage_scan (f : Located ScanFault) : (Error.scan f).stage = .scan := by
  obtain ⟨_, fault⟩ := f
  cases fault <;> rfl

theorem stage_parse (f : Located ParseFault) : (Error.parse f).stage = .parse := by
  obtain ⟨_, fault⟩ := f
  cases fault <;> rfl

theorem stage_walk (f : WalkFault) : (Error.walk f).stage = .walk := by
  cases f <;> rfl

/-! ## Failing stages -/

/-- A scanner that fails has found a fault. -/
theorem Token.ne_nil_of_scan {code : String} {faults : List (Located ScanFault)}
    (h : scan code = .error faults) : faults ≠ [] := by
  unfold scan scanChars at h
  dsimp only at h
  split at h
  · cases h
  · next hne =>
    cases h
    exact hne

namespace Search

variable {code text : String} {options : Options} {patience : Nat} {es : List Error}

/-- Walks fail with one error. -/
theorem withProgram_eq_errors_iff {program : Program} :
    withProgram program text options patience = .error (.errors es) ↔
      ∃ fault, find program (.ofText text) options patience = .error (.fault fault) ∧ es = [.walk fault] := by
  unfold withProgram
  cases find program (.ofText text) options patience with
  | ok found => exact ⟨nofun, nofun⟩
  | error stop =>
    cases stop with
    | unfinished => exact ⟨nofun, nofun⟩
    | fault fault =>
      constructor
      · rintro ⟨⟩
        exact ⟨fault, rfl, rfl⟩
      · rintro ⟨_, ⟨⟩, rfl⟩
        rfl

/-- Past the scanner a search fails in the parser or on the grid. -/
theorem withTokens_eq_errors_iff {tokens : List Token} :
    withTokens tokens text options patience = .error (.errors es) ↔
      (∃ faults, Program.ofTokens tokens = .error faults ∧ es = faults.map .parse) ∨
      ∃ program fault, Program.ofTokens tokens = .ok program ∧
        find program (.ofText text) options patience = .error (.fault fault) ∧ es = [.walk fault] := by
  cases hparse : Program.ofTokens tokens with
  | error faults =>
    rw [withTokens_of_parse_error hparse]
    constructor
    · rintro ⟨⟩
      exact .inl ⟨faults, rfl, rfl⟩
    · rintro (⟨_, ⟨⟩, rfl⟩ | ⟨_, _, ⟨⟩, _⟩)
      rfl
  | ok program =>
    rw [withTokens_of_parse hparse, withProgram_eq_errors_iff]
    constructor
    · rintro ⟨fault, hfind, rfl⟩
      exact .inr ⟨program, fault, rfl, hfind, rfl⟩
    · rintro (⟨_, ⟨⟩, _⟩ | ⟨_, fault, ⟨⟩, hfind, rfl⟩)
      exact ⟨fault, hfind, rfl⟩

theorem withCode_eq_errors_iff :
    withCode code text options patience = .error (.errors es) ↔
      (∃ faults, Token.scan code = .error faults ∧ es = faults.map .scan) ∨
      ∃ tokens, Token.scan code = .ok tokens ∧ withTokens tokens text options patience = .error (.errors es) := by
  cases hscan : Token.scan code with
  | error faults =>
    rw [withCode_of_scan_error hscan]
    constructor
    · rintro ⟨⟩
      exact .inl ⟨faults, rfl, rfl⟩
    · rintro (⟨_, ⟨⟩, rfl⟩ | ⟨_, ⟨⟩, _⟩)
      rfl
  | ok tokens =>
    rw [withCode_of_scan hscan]
    constructor
    · intro h
      exact .inr ⟨tokens, rfl, h⟩
    · rintro (⟨_, ⟨⟩, _⟩ | ⟨_, ⟨⟩, h⟩)
      exact h

/-- **Stages fail separately and in order.** A refusal has errors, all of one stage. It is the scanner's if and only
if the code cannot be scanned, and the parser's if and only if it can be scanned and not be parsed; then it is the
same for every text and all options. Otherwise it is one error, of the first start cell whose walk fails. -/
theorem errors_of_one_stage (h : withCode code text options patience = .error (.errors es)) :
    es ≠ [] ∧ ∃ stage : Stage, (∀ e ∈ es, e.stage = stage) ∧
      (stage = .scan ↔ ∃ faults, Token.scan code = .error faults) ∧
      (stage = .parse ↔ ∃ tokens faults, Token.scan code = .ok tokens ∧ Program.ofTokens tokens = .error faults) ∧
      (stage ≠ .walk → ∀ text' options' patience',
        withCode code text' options' patience' = .error (.errors es)) ∧
      (stage = .walk → ∃ tokens program fault before origin after,
        Token.scan code = .ok tokens ∧ Program.ofTokens tokens = .ok program ∧ es = [.walk fault] ∧
        (Grid.ofText text).startCells = before ++ origin :: after ∧
        (∀ cell ∈ before, ∃ found,
          outcomeFrom ⟨program, .ofText text, options.stepBudget⟩ patience cell = .ok found) ∧
        outcomeFrom ⟨program, .ofText text, options.stepBudget⟩ patience origin = .error (.fault fault)) := by
  obtain ⟨faults, hscan, rfl⟩ | ⟨tokens, hscan, htokens⟩ := withCode_eq_errors_iff.mp h
  · refine ⟨mt List.map_eq_nil_iff.mp (Token.ne_nil_of_scan hscan), .scan, ?_, ?_, ?_, ?_, nofun⟩
    · exact List.forall_mem_map.mpr fun f _ => stage_scan f
    · exact ⟨fun _ => ⟨faults, hscan⟩, fun _ => rfl⟩
    · refine ⟨nofun, ?_⟩
      rintro ⟨_, _, hok, _⟩
      cases hscan.symm.trans hok
    · intro _ text' options' patience'
      exact withCode_eq_errors_iff.mpr (.inl ⟨faults, hscan, rfl⟩)
  have hread : ¬∃ faults, Token.scan code = .error faults := by
    rintro ⟨_, herror⟩
    cases hscan.symm.trans herror
  obtain ⟨faults, hparse, rfl⟩ | ⟨program, fault, hparse, hfind, rfl⟩ := withTokens_eq_errors_iff.mp htokens
  · obtain ⟨_, _, _, _, _, _, hne, _⟩ := Parser.exists_faulty hparse
    refine ⟨mt List.map_eq_nil_iff.mp hne, .parse, ?_, ⟨nofun, fun found => absurd found hread⟩, ?_, ?_, nofun⟩
    · exact List.forall_mem_map.mpr fun f _ => stage_parse f
    · exact ⟨fun _ => ⟨tokens, faults, hscan, hparse⟩, fun _ => rfl⟩
    · intro _ text' options' patience'
      exact withCode_eq_errors_iff.mpr
        (.inr ⟨tokens, hscan, withTokens_eq_errors_iff.mpr (.inl ⟨faults, hparse, rfl⟩)⟩)
  · obtain ⟨before, origin, after, hcells, hbefore, horigin⟩ :=
      findings_eq_error_iff.mp (map_eq_error_iff.mp hfind)
    refine ⟨List.cons_ne_nil _ _, .walk, ?_, ⟨nofun, fun found => absurd found hread⟩, ⟨nofun, ?_⟩,
      fun hne => absurd rfl hne, fun _ => ?_⟩
    · exact List.forall_mem_singleton.mpr (stage_walk fault)
    · rintro ⟨_, _, hok, herror⟩
      cases hscan.symm.trans hok
      cases hparse.symm.trans herror
    · exact ⟨tokens, program, fault, before, origin, after, hscan, hparse, rfl, hcells, hbefore, horigin⟩

/-- An escape that there is not, a name without a declaration, and a call of a name that has none, after a letter that
only the fifth of nine start cells has. -/
theorem errors_of_one_stage_samples :
    (withCode "a:\\q" "x" {} 0 = .error (.errors [.scan ⟨⟨1, 4⟩, .invalidEscape ['q']⟩]) ∧
      ∃ faults, Token.scan "a:\\q" = .error faults) ∧
    (∃ es, withCode "a" "x" {} 0 = .error (.errors es) ∧ ∀ text options patience,
      withCode "a" text options patience = .error (.errors es)) ∧
    withCode "a:x\x7bb<F>\x7d" "x" {} 0 = .error (.errors [.walk (.undeclared "b")]) ∧
      ∃ program before origin after, (Grid.ofText "x").startCells = before ++ origin :: after ∧
        (∀ cell ∈ before, ∃ found,
          outcomeFrom ⟨program, .ofText "x", some defaultStepBudget⟩ 0 cell = .ok found) ∧
        outcomeFrom ⟨program, .ofText "x", some defaultStepBudget⟩ 0 origin =
          .error (.fault (.undeclared "b")) := by
  have scanned : withCode "a:\\q" "x" {} 0 = .error (.errors [.scan ⟨⟨1, 4⟩, .invalidEscape ['q']⟩]) := by
    decide +kernel
  have parsed : withCode "a" "x" {} 0 =
      .error (.errors [.parse ⟨⟨1, 2⟩, .expected (.mark ':') (.token ['\n'])⟩]) := by decide +kernel
  have walked : withCode "a:x\x7bb<F>\x7d" "x" {} 0 = .error (.errors [.walk (.undeclared "b")]) := by decide +kernel
  refine ⟨⟨scanned, ?_⟩, ⟨_, parsed, ?_⟩, walked, ?_⟩
  · obtain ⟨_, stage, hstage, hscan, _⟩ := errors_of_one_stage scanned
    exact hscan.mp (List.forall_mem_singleton.mp hstage).symm
  · obtain ⟨_, stage, hstage, _, _, hsame, _⟩ := errors_of_one_stage parsed
    refine hsame ?_
    rw [← List.forall_mem_singleton.mp hstage]
    decide
  · obtain ⟨_, stage, hstage, _, _, _, hwalk⟩ := errors_of_one_stage walked
    obtain ⟨_, program, _, before, origin, after, _, _, ⟨⟩, hcells, hbefore, horigin⟩ :=
      hwalk (List.forall_mem_singleton.mp hstage).symm
    exact ⟨program, before, origin, after, hcells, hbefore, horigin⟩

end Search

end GridPattern
