import GridPattern.Proofs.Compass
import GridPattern.Proofs.Search.Meaning
import GridPattern.Proofs.Token.Items
import GridPattern.Proofs.Walk.Budget
import GridPattern.Proofs.Walk.Cost
import GridPattern.Proofs.Walk.Straight
import Mathlib.Data.Set.Function

/-!
# Words in all directions

The program that looks for a word in every direction, from its code to what is reported.

**The law** (`word_search`). Where lines of the grid show the word, and nowhere else, there are matches: one
for each line, and for a single character, which has no direction, one for each cell. A word takes ten steps
from each start cell, however long it is, and that is within the default budget.

**What it does not establish.** Anything about words with special characters, which are read as something
else.
-/

namespace GridPattern

open Walk Counted

namespace Search

/-! ## Reading the code -/

section Reading

open Token

variable {word : List Char}

/-- A word without special characters is one string. -/
theorem cut_word (hne : word ≠ []) (hword : ∀ c ∈ word, isSpecialChar c = false) (here : Place) :
    cut here word = [⟨word, .string, here⟩] := by
  induction word generalizing here with
  | nil => exact absurd rfl hne
  | cons c word ih =>
    obtain ⟨hc, hrest⟩ := List.forall_mem_cons.mp hword
    rw [cut, if_neg (Lexer.ne_of_ordinary hc (by decide)), hc]
    cases word with
    | nil => rfl
    | cons d word =>
      rw [ih (List.cons_ne_nil d word) hrest]
      rfl

/-- The tokens of the code of a word search, all but the last. -/
def wordTokens (word : List Char) : List Token :=
  [⟨"main".toList, .string, ⟨1, 1⟩⟩, ⟨[':'], .special, ⟨1, 5⟩⟩, ⟨['<'], .special, ⟨1, 6⟩⟩,
    ⟨['*'], .special, ⟨1, 7⟩⟩, ⟨['>'], .special, ⟨1, 8⟩⟩, ⟨word, .string, ⟨1, 9⟩⟩]

/-- **A word search**: a turn in all eight directions and then the word. -/
def wordProgram (word : List Char) : Program :=
  ⟨[⟨"main", {}, .sequence [.direction ⟨['*'], false⟩, .literal word]⟩]⟩

theorem scan_wordSearch {word : String} (hne : word ≠ "")
    (hword : ∀ c ∈ word.toList, isSpecialChar c = false) :
    ∃ finish, Token.scan ("main:<*>" ++ word) =
      .ok (wordTokens word.toList ++ [⟨['\n'], .special, finish⟩]) := by
  have hcut : cut .start ("main:<*>".toList ++ word.toList) = wordTokens word.toList := by
    have hrest := cut_word (by simpa using hne) hword ⟨1, 9⟩
    simp [cut, isSpecialChar, specialChars, Place.after, Place.start, wordTokens, hrest]
  refine ⟨Place.start.afterAll ("main:<*>".toList ++ word.toList), ?_⟩
  rw [Token.scan, String.toList_append]
  unfold scanChars
  rw [hcut]
  rfl

theorem ofTokens_wordSearch (word : List Char) (finish : Place) :
    Program.ofTokens (wordTokens word ++ [⟨['\n'], .special, finish⟩]) = .ok (wordProgram word) := rfl

end Reading

/-! ## From one cell -/

section Walking

open Survivors

variable (word : List Char) (grid : Grid) (origin : Cell)

/-- Where a cursor starts that looks for words. -/
def wordStart : Cursor := { cell := origin }

/-- The cursor that has found the word along a heading: back where it started, with the line marked. -/
def wordCursor (h : Heading) : Cursor :=
  { wordStart origin with marks := markAll [] (origin.line h word.length) }

/-- The cursors that a word search has in the end. -/
def wordCursors : List Cursor :=
  (Heading.eight.filter fun h => grid.Shows word origin h).map (wordCursor word origin)

/-- Each bend is a heading, and the cursor comes back if the line along it shows the word. -/
theorem handBack_spelled (bends : List Bend) :
    handBack grid {} (wordStart origin) ((bends.map (wordStart origin).bend).flatMap fun t =>
        (Survivors.ofOption (t.spell? grid word)).toList) =
      ((bends.map Heading.east.turn).filter fun h => grid.Shows word origin h).map
        (wordCursor word origin) := by
  have hback : ∀ ts, handBack grid {} (wordStart origin) ts = ts.map (·.returnTo (wordStart origin) false) :=
    fun ts => congrFun List.filterMap_eq_map ts
  rw [hback, List.flatMap_map, List.map_flatMap]
  induction bends with
  | nil => rfl
  | cons b bends ih =>
    have hplain : ((wordStart origin).bend b).Plain := ⟨rfl, rfl⟩
    rw [List.flatMap_cons, ih, hplain.spell, List.map_cons, List.filter_cons]
    by_cases hshows : grid.Shows word origin (Heading.east.turn b)
    · have hcell : grid.Shows word ((wordStart origin).bend b).cell ((wordStart origin).bend b).heading :=
        hshows
      rw [if_pos hcell, if_pos (decide_eq_true hshows)]
      rfl
    · have hcell : ¬grid.Shows word ((wordStart origin).bend b).cell ((wordStart origin).bend b).heading :=
        hshows
      rw [if_neg hcell, if_neg (by simpa using hshows)]
      rfl

/-- The pattern is ten steps: itself, the turn, and the word in eight directions. -/
theorem pays_wordBody (depth : Nat) : Pays (fun budget => follow ⟨wordProgram word, grid, budget⟩ (depth + 2)
      (.sequence [.direction ⟨['*'], false⟩, .literal word]) (wordStart origin))
    ⟨.ok (.ofList ((Bend.allEight.map (wordStart origin).bend).flatMap fun t =>
      (Survivors.ofOption (t.spell? grid word)).toList)), 10⟩ := by
  let headed := Bend.allEight.map (wordStart origin).bend
  have hgoing : ∀ t ∈ headed, t.heading.isStalled = false := by
    intro t mem
    obtain ⟨b, _, rfl⟩ := List.mem_map.mp mem
    exact Heading.isStalled_turn rfl b
  have hturn : Pays (fun budget => flatMapList (follow ⟨wordProgram word, grid, budget⟩ (depth + 1)
      (.direction ⟨['*'], false⟩)) (one (wordStart origin)).toList) ⟨.ok (ofList headed), 1⟩ :=
    pays_flatMapList_singleton (pays_leaf rfl fun _ => rfl)
  have hspell : ∀ t ∈ (ofList headed).toList, Pays (fun budget =>
      follow ⟨wordProgram word, grid, budget⟩ (depth + 1) (.literal word) t)
      ⟨.ok (ofOption (t.spell? grid word)), 1⟩ :=
    fun t mem => pays_leaf (hgoing t mem) fun budget => enter_literal ⟨wordProgram word, grid, budget⟩ depth word t
  have hparts := pays_parts hturn rfl (pays_lastPart (pays_flatMapList hspell))
  have hbody : Pays (fun budget => enter ⟨wordProgram word, grid, budget⟩
      (follow ⟨wordProgram word, grid, budget⟩ (depth + 1)) (depth + 1)
      (.sequence [.direction ⟨['*'], false⟩, .literal word]) (wordStart origin)) _ := hparts
  exact pays_follow rfl hbody

/-- **Ten steps** for each start cell. -/
theorem pays_wordProgram (depth : Nat) :
    Pays (fun budget => enterProgram ⟨wordProgram word, grid, budget⟩ (depth + 2) (wordStart origin))
      ⟨.ok (.ofList (wordCursors word grid origin)), 10⟩ := by
  have hd := Program.declaration?_of_entry (p := wordProgram word) rfl
  have hbody := pays_flatMapList_singleton (pays_wordBody word grid origin depth)
  have hcall : Pays (fun budget => call ⟨wordProgram word, grid, budget⟩
      (follow ⟨wordProgram word, grid, budget⟩ (depth + 2)) ⟨"main", .forward, {}⟩ (wordStart origin)) _ :=
    pays_call hd (headings_forward grid _) hbody
  rw [toList_ofList, merged_entry, handBack_spelled] at hcall
  exact hcall

/-- Under the default budget a word search has its cursors from each start cell. -/
theorem outcomeFrom_wordProgram (patience : Nat) :
    outcomeFrom ⟨wordProgram word, grid, some defaultStepBudget⟩ patience origin =
      .ok (.ofList (wordCursors word grid origin)) := by
  obtain ⟨depth, hdepth⟩ : ∃ depth, depthFor (some defaultStepBudget) patience = depth + 2 :=
    ⟨defaultStepBudget - 1, rfl⟩
  have hafford : Affords (some defaultStepBudget) 0 10 := affords_some.mpr (.inr (by decide))
  have hrun := pays_wordProgram word grid origin depth (some defaultStepBudget) 0
  rw [Bill.under_of_affords hafford] at hrun
  unfold outcomeFrom
  rw [hdepth, runFrom_run]
  exact congrArg Prod.fst hrun

end Walking

/-! ## What is reported -/

section Reporting

variable {word : List Char} {grid : Grid} {o : Cell} {h h' : Heading}

/-- The match of a word along a line. -/
def lineMatch (n : Nat) (place : Cell × Heading) : Match := ⟨place.1, place.1.line place.2 n⟩

/-- Single steps to one cell are the same, however many the other line takes to it. -/
theorem eq_of_along (hsingle : h.IsSingle) (hsingle' : h'.IsSingle) {n : Nat}
    (heq : o.along h' 1 = o.along h n) : h = h' := by
  obtain ⟨dx, dy⟩ := h
  obtain ⟨dx', dy'⟩ := h'
  obtain ⟨hgoing, hdx, hdy⟩ := hsingle
  obtain ⟨hgoing', hdx', hdy'⟩ := hsingle'
  rw [Heading.isStalled_eq_false_iff] at hgoing hgoing'
  simp only [Cell.along, Cell.mk.injEq, Nat.cast_one, one_mul, add_right_inj] at heq
  dsimp only at hgoing hgoing' hdx hdy hdx' hdy'
  have hx : dx = -1 ∨ dx = 0 ∨ dx = 1 := by omega
  have hy : dy = -1 ∨ dy = 0 ∨ dy = 1 := by omega
  rw [Heading.mk.injEq]
  rcases hx with rfl | rfl | rfl <;> rcases hy with rfl | rfl | rfl <;> omega

/-- Of two cells and more, lines from one cell that are the same set are the same line. -/
theorem heading_eq_of_line (hsingle : h.IsSingle) (hsingle' : h'.IsSingle) {n : Nat} (hn : 2 ≤ n)
    (hset : (o.line h n).toFinset = (o.line h' n).toFinset) : h = h' := by
  have hsecond : o.along h' 1 ∈ (o.line h n).toFinset := by
    rw [hset, List.mem_toFinset]
    exact List.mem_map_of_mem (List.mem_range.mpr hn)
  obtain ⟨i, _, heq⟩ := List.mem_map.mp (List.mem_toFinset.mp hsecond)
  exact eq_of_along hsingle hsingle' heq.symm

theorem injOn_lineMatch {n : Nat} (hn : 2 ≤ n) :
    Set.InjOn (lineMatch n) {place | place.2.IsSingle ∧ grid.Shows word place.1 place.2} := by
  rintro ⟨o, h⟩ ⟨hsingle, _⟩ ⟨o', h'⟩ ⟨hsingle', _⟩ heq
  obtain ⟨rfl, hline⟩ : o = o' ∧ o.line h n = o'.line h' n := Match.mk.inj heq
  obtain rfl : h = h' := heading_eq_of_line hsingle hsingle' hn (congrArg List.toFinset hline)
  rfl

/-- All that a word search finds, from all start cells. -/
def wordEntries (word : List Char) (grid : Grid) : List Finding :=
  entries grid fun origin => .ofList (wordCursors word grid origin)

theorem mem_wordEntries {f : Finding} : f ∈ wordEntries word grid ↔ ∃ o ∈ grid.startCells, ∃ h : Heading,
    h.IsSingle ∧ grid.Shows word o h ∧ f = ⟨o, wordCursor word o h⟩ := by
  unfold wordEntries entries wordCursors
  simp only [Survivors.toList_ofList, List.map_map, List.mem_flatMap, List.mem_map, List.mem_filter,
    Heading.mem_eight, decide_eq_true_eq, and_assoc, Function.comp_apply, @eq_comm Finding _ f]

theorem marks_wordCursor (hsingle : h.IsSingle) :
    (wordCursor word o h).marks = o.line h word.length :=
  markAll_of_nodup (Cell.nodup_line hsingle.1 o _) (List.disjoint_nil_left _)

theorem toMatch_wordCursor (hsingle : h.IsSingle) :
    (⟨o, wordCursor word o h⟩ : Finding).toMatch = lineMatch word.length (o, h) :=
  congrArg (Match.mk o) (marks_wordCursor hsingle)

/-- The matches found are the lines that show the word. -/
theorem mem_map_wordEntries (hne : word ≠ []) {m : Match} :
    m ∈ (wordEntries word grid).map Finding.toMatch ↔
      ∃ place : Cell × Heading, (place.2.IsSingle ∧ grid.Shows word place.1 place.2) ∧
        lineMatch word.length place = m := by
  rw [List.mem_map]
  constructor
  · rintro ⟨f, hf, rfl⟩
    obtain ⟨o, _, h, hsingle, hshows, rfl⟩ := mem_wordEntries.mp hf
    exact ⟨(o, h), ⟨hsingle, hshows⟩, (toMatch_wordCursor hsingle).symm⟩
  · rintro ⟨⟨o, h⟩, ⟨hsingle, hshows⟩, rfl⟩
    have hfirst := hshows 0 (List.length_pos_of_ne_nil hne)
    rw [Cell.along_zero] at hfirst
    have hstart := Grid.mem_startCells_of_char? hfirst
    exact ⟨_, mem_wordEntries.mpr ⟨o, hstart, h, hsingle, hshows, rfl⟩, toMatch_wordCursor hsingle⟩

/-- What marks the same cells from the same start is the same match. -/
theorem toMatch_eq_of_duplicates {f g : Finding} (hf : f ∈ wordEntries word grid)
    (hg : g ∈ wordEntries word grid) (hdup : Duplicates false f g) : f.toMatch = g.toMatch := by
  obtain ⟨o, _, h, hsingle, _, rfl⟩ := mem_wordEntries.mp hf
  obtain ⟨o', _, h', hsingle', _, rfl⟩ := mem_wordEntries.mp hg
  obtain ⟨hset, horigin⟩ := hdup
  obtain rfl : o = o' := horigin rfl
  dsimp only at hset
  rw [marks_wordCursor hsingle, marks_wordCursor hsingle'] at hset
  rw [toMatch_wordCursor hsingle, toMatch_wordCursor hsingle']
  by_cases hn : 2 ≤ word.length
  · rw [heading_eq_of_line hsingle hsingle' hn hset]
  · -- fewer cells than two are the start at most, whatever the heading
    obtain hlength | hlength : word.length = 0 ∨ word.length = 1 := by omega
    · simp [lineMatch, Cell.line, hlength]
    · simp [lineMatch, Cell.line, hlength]

/-- What is reported of the findings of a word search: each match once. -/
theorem matches_firsts_wordEntries (word : List Char) (grid : Grid) :
    let found := firsts (Duplicates false) (wordEntries word grid)
    (found.map Finding.toMatch).Nodup ∧
      ∀ m, m ∈ found.map Finding.toMatch ↔ m ∈ (wordEntries word grid).map Finding.toMatch := by
  intro found
  constructor
  · refine List.pairwise_map.mpr ((pairwise_firsts _).imp fun {f g} hdup heq => hdup ?_)
    obtain ⟨horigin, hmarks⟩ := Match.mk.inj heq
    exact ⟨congrArg List.toFinset hmarks, fun _ => horigin⟩
  · intro m
    rw [List.mem_map, List.mem_map]
    constructor
    · rintro ⟨f, hf, rfl⟩
      exact ⟨f, (firsts_sublist _).subset hf, rfl⟩
    · rintro ⟨f, hf, rfl⟩
      obtain ⟨g, hg, hdup⟩ := exists_mem_firsts (duplicates_equivalence false) hf
      exact ⟨g, hg, toMatch_eq_of_duplicates ((firsts_sublist _).subset hg) hf hdup⟩

theorem matches_eq_image (hne : word ≠ []) :
    {m | m ∈ (firsts (Duplicates false) (wordEntries word grid)).map Finding.toMatch} =
      lineMatch word.length '' {place | place.2.IsSingle ∧ grid.Shows word place.1 place.2} := by
  ext m
  rw [Set.mem_ofPred_eq, Set.mem_image, (matches_firsts_wordEntries word grid).2 m]
  exact mem_map_wordEntries hne

/-- Of a single character every line is its first cell. -/
theorem image_lineMatch_singleton (c : Char) :
    lineMatch [c].length '' {place | place.2.IsSingle ∧ grid.Shows [c] place.1 place.2} =
      (fun o => ⟨o, [o]⟩) '' {o | grid.char? o = some c} := by
  have hshows : ∀ o h, grid.Shows [c] o h ↔ grid.char? o = some c :=
    fun o h => Grid.shows_cons.trans (and_iff_left nofun)
  have hline : ∀ place, lineMatch [c].length place = ⟨place.1, [place.1]⟩ := by
    intro place
    simp [lineMatch, Cell.line]
  ext m
  simp only [Set.mem_image, Set.mem_ofPred_eq, hshows, hline]
  constructor
  · rintro ⟨⟨o, h⟩, ⟨_, hchar⟩, rfl⟩
    exact ⟨o, hchar, rfl⟩
  · rintro ⟨o, hchar, rfl⟩
    exact ⟨(o, .east), ⟨Heading.isSingle_east, hchar⟩, rfl⟩

/-- **A word search finds the lines that show the word.** For every text and every word without special
characters, under the default budget: for words of two characters and more each line from a cell in one of the
eight directions is one match, with the cells of the line in order; for a single character each cell that holds
it is one. Matches come row by row. -/
theorem word_search (text word : String) (hne : word ≠ "")
    (hword : ∀ c ∈ word.toList, isSpecialChar c = false) (patience : Nat) :
    let grid := Grid.ofText text
    ∃ found, withCode ("main:<*>" ++ word) text {} patience = .ok found ∧
      (found.map Finding.toMatch).Nodup ∧
      (2 ≤ word.toList.length → Set.BijOn (lineMatch word.toList.length)
        {place | place.2.IsSingle ∧ grid.Shows word.toList place.1 place.2}
        {m | m ∈ found.map Finding.toMatch}) ∧
      (∀ c, word.toList = [c] → Set.BijOn (fun o => ⟨o, [o]⟩) {o | grid.char? o = some c}
        {m | m ∈ found.map Finding.toMatch}) ∧
      found.Pairwise fun a b => a.origin = b.origin ∨ RowMajor a.origin b.origin := by
  intro grid
  have hnil : word.toList ≠ [] := by simpa using hne
  have hfind : find (wordProgram word.toList) grid {} patience =
      .ok (firsts (Duplicates false) (wordEntries word.toList grid)) :=
    find_eq_ok_iff.mpr ⟨_, fun origin _ => outcomeFrom_wordProgram word.toList grid origin patience, rfl⟩
  obtain ⟨finish, hscan⟩ := scan_wordSearch hne hword
  refine ⟨_, withCode_of_find hscan (ofTokens_wordSearch _ _) hfind,
    (matches_firsts_wordEntries word.toList grid).1, fun hn => ?_, fun c hc => ?_, ?_⟩
  · rw [matches_eq_image hnil]
    exact (injOn_lineMatch hn).bijOn_image
  · rw [matches_eq_image hnil, hc, image_lineMatch_singleton]
    refine Set.InjOn.bijOn_image fun o _ o' _ heq => ?_
    exact congrArg Match.origin heq
  · exact (pairwise_entries grid _).sublist (firsts_sublist _)

/-- In `ab` above `ba` the word `ab` stands along each side, on the second line from right to left. -/
theorem word_search_ab :
    let grid := Grid.ofText "ab\nba"
    ("ab" ≠ "" ∧ ∀ c ∈ "ab".toList, isSpecialChar c = false) ∧
      ∃ found, withCode ("main:<*>" ++ "ab") "ab\nba" {} 0 = .ok found ∧
        (found.map Finding.toMatch).Nodup ∧
        Set.BijOn (lineMatch 2) {place | place.2.IsSingle ∧ grid.Shows "ab".toList place.1 place.2}
          {m | m ∈ found.map Finding.toMatch} ∧
        ⟨⟨1, 1⟩, [⟨1, 1⟩, ⟨0, 1⟩]⟩ ∈ found.map Finding.toMatch := by
  intro grid
  have hne : "ab" ≠ "" := by decide
  have hword : ∀ c ∈ "ab".toList, isSpecialChar c = false := by simp [isSpecialChar, specialChars]
  have hlength : "ab".toList.length = 2 := by decide
  obtain ⟨found, hfound, hnodup, hlines, _, _⟩ := word_search "ab\nba" "ab" hne hword 0
  rw [hlength] at hlines
  have hbij := hlines (Nat.le_refl 2)
  have hwest : (⟨-1, 0⟩ : Heading).IsSingle ∧ grid.Shows "ab".toList ⟨1, 1⟩ ⟨-1, 0⟩ :=
    ⟨Heading.mem_eight.mp (by decide), by decide⟩
  have hline : lineMatch 2 (⟨1, 1⟩, ⟨-1, 0⟩) = ⟨⟨1, 1⟩, [⟨1, 1⟩, ⟨0, 1⟩]⟩ := by decide
  have hmem : lineMatch 2 (⟨1, 1⟩, ⟨-1, 0⟩) ∈ found.map Finding.toMatch := hbij.mapsTo hwest
  rw [hline] at hmem
  exact ⟨⟨hne, hword⟩, found, hfound, hnodup, hbij, hmem⟩

end Reporting

end Search

end GridPattern
