import GridPattern.Proofs.Drawing
import GridPattern.Proofs.Search.Report
import GridPattern.Shell

/-!
# What the command line answers

The command line goes through the stages of a search by itself, to list the tokens in between, and takes the line
feed that ends an input off before it searches and draws.

**The law** (`answer_reports_search`). Once the texts are there, the answer is that of a search of the input without
that line feed. Matches are printed one by one, with an empty line before all but the first, or their number; errors
are printed in their order, one after the other, after the tokens if these are asked for and there are any. It holds
of every terminal: a drawing asks for black on green where a cell is marked, and for bold and italic at the origin.

**What it does not establish.** How arguments are sorted, what is answered for a text that cannot be read, and what a
terminal shows when it is asked for attributes.
-/

namespace GridPattern.CommandLine

open Drawing Search

/-! ## Texts and lines -/

theorem intercalate_cons_eq_join (between text : String) (texts : List String) :
    between.intercalate (text :: texts) = text ++ String.join (texts.map (between ++ ·)) := by
  induction texts generalizing text with
  | nil => simp
  | cons next texts ih =>
    rw [String.intercalate_cons_cons, ih, List.map_cons, String.join_cons, String.append_assoc, String.append_assoc]

/-- What stands between texts stands before each but the first. -/
theorem intercalate_zipIdx {α : Type} (between : String) (text : α × Nat → String) (as : List α) :
    between.intercalate (as.zipIdx.map text) =
      String.join (as.zipIdx.map fun entry => (if 0 < entry.2 then between else "") ++ text entry) := by
  cases as with
  | nil => rfl
  | cons a as =>
    rw [List.zipIdx_cons, List.map_cons, List.map_cons, intercalate_cons_eq_join, String.join_cons, List.map_map]
    -- only the first has number zero
    have hlater : ∀ entry ∈ as.zipIdx (0 + 1),
        between ++ text entry = (if 0 < entry.2 then between else "") ++ text entry := by
      intro entry mem
      have hpos : 0 < entry.2 := List.le_snd_of_mem_zipIdx mem
      rw [if_pos hpos]
    show text (a, 0) ++ _ = "" ++ text (a, 0) ++ _
    rw [String.empty_append]
    exact congrArg (text (a, 0) ++ String.join ·) (List.map_congr_left hlater)

theorem lines_append (texts others : List String) : lines (texts ++ others) = lines texts ++ lines others := by
  simp [lines]

theorem withoutFinalNewline_append (text : String) : withoutFinalNewline (text ++ "\n") = text := by
  have hlist : (text ++ "\n").toList = text.toList ++ ['\n'] := String.toList_append
  rw [withoutFinalNewline, hlist, if_pos List.getLast?_concat, List.dropLast_concat, String.ofList_toList]

theorem withoutFinalNewline_of_ne {text : String} (h : text.toList.getLast? ≠ some '\n') :
    withoutFinalNewline text = text := if_neg h

/-! ## Drawings -/

/-- The attributes that a match gives a cell. -/
def attributesOf (m : Match) (cell : Cell) : List Attribute :=
  (if cell ∈ m.marks then [.black, .onGreen] else []) ++ if cell = m.origin then [.bold, .italic] else []

/-- The character of a cell as a match shows it: with attributes, or else in brackets or between blanks. -/
def shownCell (styling : Styling) (plain : Bool) (m : Match) (cell : Cell) (c : Char) : List Char :=
  if plain then if cell ∈ m.marks then ['[', c, ']'] else [' ', c, ' ']
  else styling.text (attributesOf m cell) c

theorem plainCell_eq (styling : Styling) (m : Match) (cell : Cell) (c : Char) :
    plainCell (m.isMarked cell) c = shownCell styling true m cell c := by
  rw [plainCell, shownCell, if_pos rfl]
  exact if_congr List.contains_iff_mem rfl rfl

/-- A cell of no style has no attributes, and such a character is its own text. -/
theorem styledCell_eq (styling : Styling) (m : Match) (cell : Cell) (c : Char) :
    styledCell styling c (m.styleOf cell) = shownCell styling false m cell c := by
  have hmarked : m.isMarked cell = decide (cell ∈ m.marks) := List.contains_eq_mem cell m.marks
  have horigin : (m.origin == cell) = decide (cell = m.origin) := by
    rw [Bool.eq_iff_iff, beq_iff_eq, decide_eq_true_iff, eq_comm]
  rw [Match.styleOf, hmarked, horigin, shownCell, if_neg Bool.false_ne_true, attributesOf]
  by_cases hm : cell ∈ m.marks <;> by_cases ho : cell = m.origin
  · rw [decide_eq_true hm, decide_eq_true ho, if_pos hm, if_pos ho]
    rfl
  · rw [decide_eq_true hm, decide_eq_false ho, if_pos hm, if_neg ho]
    rfl
  · rw [decide_eq_false hm, decide_eq_true ho, if_neg hm, if_pos ho]
    rfl
  · rw [decide_eq_false hm, decide_eq_false ho, if_neg hm, if_neg ho]
    exact (styling.bare c).symm

/-- A match as it is printed: where it starts, and below that its drawing. -/
def printed (styling : Styling) (plain : Bool) (grid : Grid) (total : Nat) (entry : Finding × Nat) : String :=
  let m := entry.1.toMatch
  "match " ++ toString (entry.2 + 1) ++ "/" ++ toString total ++ " from (" ++ toString m.origin.x ++ ", " ++
    toString m.origin.y ++ ")" ++ "\n" ++ String.ofList (cellByCell grid (shownCell styling plain m))

theorem printed_eq (styling : Styling) (plain : Bool) (grid : Grid) (total : Nat) (entry : Finding × Nat) :
    header entry.1.toMatch entry.2 total ++ "\n" ++
        String.ofList (if plain then Drawing.plain grid entry.1.toMatch else styled styling grid entry.1.toMatch) =
      printed styling plain grid total entry := by
  have hdrawing : (if plain then Drawing.plain grid entry.1.toMatch else styled styling grid entry.1.toMatch) =
      cellByCell grid (shownCell styling plain entry.1.toMatch) := by
    rw [← draw_eq]
    cases plain with
    | true => exact congrArg (draw grid) (funext₂ fun cell c => plainCell_eq styling entry.1.toMatch cell c)
    | false => exact congrArg (draw grid) (funext₂ fun cell c => styledCell_eq styling entry.1.toMatch cell c)
  rw [hdrawing]
  rfl

/-! ## Answers -/

/-- A budget of no steps is none. -/
theorem options_eq (a : Args) :
    a.options = ⟨a.originInsensitive, if a.stepBudget = 0 then none else some a.stepBudget⟩ := by
  simp only [Args.options, Nat.pos_iff_ne_zero, ite_not]

/-- The tokens of code in lines, if they are asked for and the code has been scanned. -/
def listing (asked : Bool) (code : String) : List String :=
  match asked, Token.scan code with
  | true, .ok tokens => tokens.map tokenLine
  | _, _ => []

/-- **Stage by stage comes to what a search comes to.** -/
theorem answerTexts_eq (styling : Styling) (a : Args) (code input : String) (patience : Nat) :
    answerTexts styling a code input patience =
      match withCode code (withoutFinalNewline input) a.options patience with
      | .ok found =>
        ⟨0, report styling a (.ofText (withoutFinalNewline input)) found, lines (listing a.dumpTokens code)⟩
      | .error refusal => failure (listing a.dumpTokens code ++ refusalMessages refusal) := by
  unfold answerTexts listing
  cases hscan : Token.scan code with
  | error faults =>
    have htokens : tokensOf code = .error (.errors (faults.map .scan)) := congrArg (Except.mapError _) hscan
    rw [htokens, withCode_of_scan_error hscan]
    cases a.dumpTokens <;> rfl
  | ok tokens =>
    have htokens : tokensOf code = .ok tokens := congrArg (Except.mapError _) hscan
    rw [htokens, withCode_of_scan hscan]
    dsimp only
    cases withTokens tokens (withoutFinalNewline input) a.options patience with
    | error refusal => cases a.dumpTokens <;> rfl
    | ok found => cases a.dumpTokens <;> rfl

theorem report_eq (styling : Styling) (a : Args) (grid : Grid) (found : List Finding) :
    report styling a grid found =
      if a.count then toString found.length ++ "\n"
      else String.join (found.zipIdx.map fun entry =>
        (if 0 < entry.2 then "\n" else "") ++ printed styling a.plain grid found.length entry) := by
  have hmatches : matchReport styling a.plain grid found =
      "\n".intercalate (found.zipIdx.map (printed styling a.plain grid found.length)) := by
    rw [matchReport]
    exact congrArg _ (List.map_congr_left fun entry _ => printed_eq styling a.plain grid found.length entry)
  rw [report, hmatches, intercalate_zipIdx]
  refine if_congr Iff.rfl ?_ rfl
  simp [lines]

/-- **The command line reports what a search of the input without its final line feed comes to.** Matches are printed
with their headers and an empty line before all but the first, or only counted; errors go to standard error and leave
standard output empty. A budget of no steps is none, and a line feed after an input that has none makes no
difference. -/
theorem answer_reports_search {m : Type → Type} [Monad m] [LawfulMonad m] {s : Surroundings m} {a : Args}
    {code input text : String} (hcode : programText s a = pure (.ok code)) (hinput : inputText s a = pure (.ok input))
    (hend : input = text ++ "\n" ∨ input = text ∧ text.toList.getLast? ≠ some '\n') (patience : Nat) :
    let options : Options := ⟨a.originInsensitive, if a.stepBudget = 0 then none else some a.stepBudget⟩
    ∃ response, answer s a patience = pure response ∧
      (∀ found, withCode code text options patience = .ok found →
        response.exitCode = 0 ∧ response.err = lines (listing a.dumpTokens code) ∧
        response.out =
          if a.count then toString found.length ++ "\n"
          else String.join (found.zipIdx.map fun entry =>
            (if 0 < entry.2 then "\n" else "") ++ printed s.styling a.plain (.ofText text) found.length entry)) ∧
      (∀ es, withCode code text options patience = .error (.errors es) →
        response.exitCode = 1 ∧ response.out = "" ∧
        response.err = lines (listing a.dumpTokens code) ++ lines (es.map Error.message)) ∧
      ∀ s' : Surroundings m, s'.styling = s.styling → programText s' a = pure (.ok code) →
        inputText s' a = pure (.ok (text ++ "\n")) → answer s' a patience = pure response := by
  have hread : ∀ (s : Surroundings m) input, programText s a = pure (.ok code) → inputText s a = pure (.ok input) →
      answer s a patience = pure (answerTexts s.styling a code input patience) := by
    intro s input hcode hinput
    simp [answer, hcode, hinput]
  have htext : withoutFinalNewline input = text := by
    obtain rfl | ⟨rfl, hlast⟩ := hend
    · exact withoutFinalNewline_append text
    · exact withoutFinalNewline_of_ne hlast
  intro options
  have hanswer := answerTexts_eq s.styling a code input patience
  rw [htext, options_eq] at hanswer
  refine ⟨answerTexts s.styling a code input patience, hread s input hcode hinput, ?_, ?_, ?_⟩
  · intro found hfound
    rw [hfound] at hanswer
    rw [hanswer]
    exact ⟨rfl, rfl, report_eq s.styling a (.ofText text) found⟩
  · intro es hes
    rw [hes] at hanswer
    rw [hanswer]
    exact ⟨rfl, rfl, lines_append _ _⟩
  · intro s' hstyling hcode' hinput'
    rw [hread s' _ hcode' hinput', answerTexts_eq, withoutFinalNewline_append, hanswer, hstyling, options_eq]

/-- All that is read is one text, and drawings go to a terminal that has colours. -/
def given (input : String) : Surroundings Id where
  file _ := .ok input
  standardInput := .ok input
  explain := Shell.explain
  styling := Shell.colours

/-- The standard output that matches come to. -/
def output (s : Surroundings Id) (a : Args) (text : String) (found : List Finding) : String :=
  String.join (found.zipIdx.map fun entry =>
    (if 0 < entry.2 then "\n" else "") ++ printed s.styling a.plain (.ofText text) found.length entry)

/-- Two matches between brackets in a line that is ended, two in colours that differ at their origin, and a name
without a declaration after the tokens of its line. -/
theorem answer_reports_search_samples :
    (∃ response : Response,
      answer (given "aba\n") { program := "m:a", expr := true, plain := true, stepBudget := 0 } 10 = pure response ∧
      response.exitCode = 0 ∧
      response.out = "match 1/2 from (0, 0)\n[a] b  a \n\nmatch 2/2 from (2, 0)\n a  b [a]\n") ∧
    (∃ response : Response,
      answer (given "aba") { program := "m:[~aa]b", expr := true } 10 = pure response ∧ response.exitCode = 0 ∧
      response.out =
        "match 1/2 from (0, 0)\n\x1b[1m\x1b[3ma\x1b[0m\x1b[48;5;10m\x1b[38;5;0mb\x1b[49m\x1b[39ma\n\n" ++
        "match 2/2 from (0, 0)\n\x1b[48;5;10m\x1b[38;5;0m\x1b[1m\x1b[3ma\x1b[0m" ++
          "\x1b[48;5;10m\x1b[38;5;0mb\x1b[49m\x1b[39ma\n") ∧
    ∃ response : Response,
      answer (given "aba") { program := "a", expr := true, dumpTokens := true } 10 = pure response ∧
      response.exitCode = 1 ∧ response.out = "" ∧
      response.err = "(1,1 String 'a')\n(1,2 Special '\\n')\n(ln 1, col 2) expected ':', got '\\n'.\n" := by
  let a : Args := { program := "m:a", expr := true, plain := true, stepBudget := 0 }
  let b : Args := { program := "m:[~aa]b", expr := true }
  let c : Args := { program := "a", expr := true, dumpTokens := true }
  have hfirst : output (given "aba\n") a "aba" <$> withCode "m:a" "aba" ⟨false, none⟩ 10 =
      .ok "match 1/2 from (0, 0)\n[a] b  a \n\nmatch 2/2 from (2, 0)\n a  b [a]\n" := by decide +kernel
  have hsecond : output (given "aba") b "aba" <$> withCode "m:[~aa]b" "aba" ⟨false, some defaultStepBudget⟩ 10 =
      .ok ("match 1/2 from (0, 0)\n\x1b[1m\x1b[3ma\x1b[0m\x1b[48;5;10m\x1b[38;5;0mb\x1b[49m\x1b[39ma\n\n" ++
        "match 2/2 from (0, 0)\n\x1b[48;5;10m\x1b[38;5;0m\x1b[1m\x1b[3ma\x1b[0m" ++
          "\x1b[48;5;10m\x1b[38;5;0mb\x1b[49m\x1b[39ma\n") := by decide +kernel
  have hthird : withCode "a" "aba" ⟨false, some defaultStepBudget⟩ 10 =
      .error (.errors [.parse ⟨⟨1, 2⟩, .expected (.mark ':') (.token ['\n'])⟩]) := by decide +kernel
  have hlast : "aba".toList.getLast? ≠ some '\n' := by decide
  refine ⟨?_, ?_, ?_⟩
  · obtain ⟨found, hfound, hout⟩ := map_eq_ok_iff.mp hfirst
    have hend : "aba\n" = "aba" ++ "\n" := by decide
    obtain ⟨response, hanswer, hreport, _⟩ :=
      answer_reports_search (s := given "aba\n") (a := a) rfl rfl (.inl hend) 10
    obtain ⟨hcode, _, hreport⟩ := hreport found hfound
    exact ⟨response, hanswer, hcode, hreport.trans hout⟩
  · obtain ⟨found, hfound, hout⟩ := map_eq_ok_iff.mp hsecond
    obtain ⟨response, hanswer, hreport, _⟩ :=
      answer_reports_search (s := given "aba") (a := b) rfl rfl (.inr ⟨rfl, hlast⟩) 10
    obtain ⟨hcode, _, hreport⟩ := hreport found hfound
    exact ⟨response, hanswer, hcode, hreport.trans hout⟩
  · obtain ⟨response, hanswer, _, hreport, _⟩ :=
      answer_reports_search (s := given "aba") (a := c) rfl rfl (.inr ⟨rfl, hlast⟩) 10
    obtain ⟨hcode, hout, herr⟩ := hreport _ hthird
    exact ⟨response, hanswer, hcode, hout, herr.trans (by decide +kernel)⟩

end GridPattern.CommandLine
