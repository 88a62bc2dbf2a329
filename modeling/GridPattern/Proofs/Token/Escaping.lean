import GridPattern.Proofs.Token.Shapes

/-!
# Escaped text

Any text can be written as code: a backslash before a special character makes it stand for itself. Here
texts are written one on each line, and what the scanner makes of the lines is told for all texts.

**The law** (`Token.scan_spelledLines`). Each text comes back as one string and the end of its line as one
more token, unless the text ends with a newline. The end of such a line is dropped as a blank one, for the
escaped newline and the plain one stand next to each other, and the text goes on with the next.

Only what tokens say is told here. Where they stand is the subject of `Token.scan_places`.
-/

namespace GridPattern.Token

open Lexer

/-- A character as code in which it stands for itself. -/
def spelledChar (c : Char) : List Char := if isSpecialChar c then ['\\', c] else [c]

/-- Text as code: a backslash before every special character. -/
def spelled (text : List Char) : List Char := text.flatMap spelledChar

/-- Texts as lines of code. -/
def spelledLines (texts : List (List Char)) : List Char := texts.flatMap fun text => spelled text ++ ['\n']

/-- Puts a text in front of others. One that ends with a newline goes on with the first of them. -/
def glue (text : List Char) : List (List Char) → List (List Char)
  | [] => [text]
  | next :: texts =>
    if text.getLast? = some '\n' then (text ++ next) :: texts else text :: next :: texts

/-- Texts as they come back from their lines. -/
def glued (texts : List (List Char)) : List (List Char) := texts.foldr glue []

/-- What the tokens of lines say: each text as one string, and the end of its line. -/
def lineShapes (texts : List (List Char)) : List (List Char × Kind) :=
  texts.flatMap fun text => [(text, .string), (['\n'], .special)]

/-- A line with its end. -/
def wholeLine (text : List Char) : List Item := text.map (.literal · .start) ++ [.special '\n' .start]

/-- What the line of a text adds. Its end is a blank line after a newline. -/
def lineItems (text : List Char) : List Item :=
  text.map (.literal · .start) ++ if text.getLast? = some '\n' then [] else [.special '\n' .start]

variable {s : State} {text : List Char} {texts : List (List Char)}

/-! ## Reading the lines -/

/-- A character that is written to stand for itself does so. -/
theorem exists_adds_spelledChar (hs : s.AtRest) (c : Char) :
    ∃ s', Adds s (spelledChar c) [.literal c .start] s' := by
  unfold spelledChar
  split
  · next hspecial => exact exists_adds_escaped hs (escaped?_special hspecial)
  · next hordinary => exact exists_adds_ordinary hs (by simpa using hordinary)

theorem exists_adds_spelled (hs : s.AtRest) (text : List Char) :
    ∃ s', Adds s (spelled text) (text.map (.literal · .start)) s' := by
  induction text generalizing s with
  | nil => exact ⟨s, adds_nil hs⟩
  | cons c text ih =>
    obtain ⟨s₁, hchar⟩ := exists_adds_spelledChar hs c
    obtain ⟨s', htext⟩ := ih hchar.atRest
    exact ⟨s', hchar.trans htext⟩

/-- The last character of a text is written last. -/
theorem exists_spelled_concat (text : List Char) (c : Char) : ∃ code, spelled (text ++ [c]) = code ++ [c] := by
  have hlast : ∃ code, spelledChar c = code ++ [c] := by
    unfold spelledChar
    split
    · exact ⟨['\\'], rfl⟩
    · exact ⟨[], rfl⟩
  obtain ⟨code, hcode⟩ := hlast
  exact ⟨spelled text ++ code, by simp [spelled, hcode]⟩

theorem exists_adds_line (hs : s.AtRest) (hne : text ≠ []) :
    ∃ s', Adds s (spelled text ++ ['\n']) (lineItems text) s' := by
  obtain ⟨s₁, hadds⟩ := exists_adds_spelled hs text
  have hafter : s₁.afterNewline = (text.getLast? == some '\n') := by
    obtain ⟨text, c, rfl⟩ := text.eq_nil_or_concat'.resolve_left hne
    obtain ⟨code, hcode⟩ := exists_spelled_concat text c
    have hsteps := hadds.steps
    rw [hcode] at hsteps
    rw [hsteps.afterNewline_eq, List.getLast?_concat]
    rfl
  unfold lineItems
  split
  · next hlast =>
    obtain ⟨s', hend⟩ := exists_adds_skip hadds.atRest (by simp [hafter, hlast])
    exact ⟨s', hadds.trans hend⟩
  · next hlast =>
    obtain ⟨s', hend⟩ := exists_adds_special hadds.atRest isSpecialChar_newline (by decide) (by decide)
      (by simp [hafter, hlast])
    exact ⟨s', hadds.trans hend⟩

theorem exists_adds_spelledLines (hs : s.AtRest) (hne : ∀ text ∈ texts, text ≠ []) :
    ∃ s', Adds s (spelledLines texts) (texts.flatMap lineItems) s' := by
  induction texts generalizing s with
  | nil => exact ⟨s, adds_nil hs⟩
  | cons text texts ih =>
    obtain ⟨s₁, hline⟩ := exists_adds_line hs (hne text List.mem_cons_self)
    obtain ⟨s', hlines⟩ := ih hline.atRest (List.forall_mem_of_forall_mem_cons hne)
    exact ⟨s', hline.trans hlines⟩

/-! ## Texts that go on with the next -/

theorem glued_cons (text : List Char) (texts : List (List Char)) :
    glued (text :: texts) = glue text (glued texts) := rfl

theorem exists_glued_cons (text : List Char) (texts : List (List Char)) :
    ∃ first rest, glued (text :: texts) = first :: rest := by
  rw [glued_cons]
  unfold glue
  split
  · exact ⟨_, _, rfl⟩
  · split <;> exact ⟨_, _, rfl⟩

theorem ne_nil_of_mem_glued (hne : ∀ text ∈ texts, text ≠ []) : ∀ text ∈ glued texts, text ≠ [] := by
  induction texts with
  | nil => exact hne
  | cons text texts ih =>
    obtain ⟨htext, htexts⟩ := List.forall_mem_cons.mp hne
    have hglued := ih htexts
    rw [glued_cons]
    cases hrest : glued texts with
    | nil => exact List.forall_mem_cons.mpr ⟨htext, nofun⟩
    | cons next rest =>
      rw [hrest] at hglued
      rw [glue]
      split
      · have hjoined : text ++ next ≠ [] := List.append_ne_nil_of_left_ne_nil htext next
        exact List.forall_mem_cons.mpr ⟨hjoined, List.forall_mem_of_forall_mem_cons hglued⟩
      · exact List.forall_mem_cons.mpr ⟨htext, hglued⟩

theorem flatMap_glue (text next : List Char) (texts : List (List Char)) :
    (glue text (next :: texts)).flatMap wholeLine = lineItems text ++ (next :: texts).flatMap wholeLine := by
  rw [glue, lineItems]
  split <;> simp [wholeLine]

theorem lineItems_ne_nil (h : text ≠ []) : lineItems text ≠ [] :=
  List.append_ne_nil_of_left_ne_nil (mt List.map_eq_nil_iff.mp h) _

/-- **The items of all lines** are those of the texts that come back, once the last line is ended. -/
theorem flatMap_glued (hne : ∀ text ∈ texts, text ≠ []) (h : texts ≠ []) :
    texts.flatMap lineItems ++ lineEnd .start (texts.flatMap lineItems).reverse =
      (glued texts).flatMap wholeLine := by
  induction texts with
  | nil => exact absurd rfl h
  | cons text texts ih =>
    obtain ⟨htext, htexts⟩ := List.forall_mem_cons.mp hne
    cases texts with
    | nil =>
      obtain ⟨text, c, rfl⟩ := text.eq_nil_or_concat'.resolve_left htext
      by_cases hc : c = '\n' <;> simp [glued, glue, lineItems, wholeLine, lineEnd, Item.isLineEnd, hc]
    | cons next texts =>
      have hitems : ((next :: texts).flatMap lineItems).reverse ≠ [] := by
        rw [List.flatMap_cons]
        have hnext := lineItems_ne_nil (List.forall_mem_cons.mp htexts).1
        exact mt List.reverse_eq_nil_iff.mp (List.append_ne_nil_of_left_ne_nil hnext _)
      obtain ⟨first, rest, hglued⟩ := exists_glued_cons next texts
      rw [List.flatMap_cons, List.reverse_append, lineEnd_append hitems, List.append_assoc,
        ih htexts (List.cons_ne_nil next texts), glued_cons text (next :: texts), hglued, flatMap_glue]

/-- One text is lost for each that goes on with the next. -/
theorem length_glued (texts : List (List Char)) :
    (glued texts).length + texts.dropLast.countP (·.getLast? = some '\n') = texts.length := by
  induction texts with
  | nil => rfl
  | cons text texts ih =>
    cases texts with
    | nil => rfl
    | cons next texts =>
      obtain ⟨first, rest, hglued⟩ := exists_glued_cons next texts
      rw [glued_cons, List.dropLast_cons_cons, List.countP_cons]
      rw [hglued] at ih ⊢
      rw [glue]
      split <;> simp_all <;> omega

theorem glued_eq_self (h : ∀ text ∈ texts.dropLast, text.getLast? ≠ some '\n') : glued texts = texts := by
  induction texts with
  | nil => rfl
  | cons text texts ih =>
    cases texts with
    | nil => rfl
    | cons next texts =>
      rw [List.dropLast_cons_cons, List.forall_mem_cons] at h
      rw [glued_cons, ih h.2, glue, if_neg h.1]

/-! ## Scanning the lines -/

/-- Whole lines are one string each and their ends. -/
theorem shape_runs_wholeLines (hne : ∀ text ∈ texts, text ≠ []) :
    (runs (texts.flatMap wholeLine)).map shape = lineShapes texts := by
  induction texts with
  | nil => rfl
  | cons text texts ih =>
    obtain ⟨htext, htexts⟩ := List.forall_mem_cons.mp hne
    have hitems : (text :: texts).flatMap wholeLine =
        text.map (.literal · .start) ++ .special '\n' .start :: texts.flatMap wholeLine := by
      simp [wholeLine]
    rw [hitems, runs_append_special, runs_literals htext, List.map_append, List.map_singleton,
      List.map_cons, ih htexts]
    rfl

theorem length_lineShapes (texts : List (List Char)) : (lineShapes texts).length = 2 * texts.length := by
  induction texts with
  | nil => rfl
  | cons text texts ih =>
    show (lineShapes texts).length + 2 = 2 * (texts.length + 1)
    omega

/-- The texts themselves come back exactly if none but the last ends with a newline. -/
theorem lineShapes_glued_iff : lineShapes (glued texts) = lineShapes texts ↔
    ∀ text ∈ texts.dropLast, text.getLast? ≠ some '\n' := by
  constructor
  · intro h
    have hlength := congrArg List.length h
    rw [length_lineShapes, length_lineShapes] at hlength
    have hcount : texts.dropLast.countP (·.getLast? = some '\n') = 0 := by
      have := length_glued texts
      omega
    simpa using List.countP_eq_zero.mp hcount
  · intro h
    rw [glued_eq_self h]

/-- **Escaping is undone by scanning**, but for the end of a line whose text ends with a newline. There the
line goes on with the next. No lines at all are scanned to the end of one. -/
theorem scan_spelledLines (hne : ∀ text ∈ texts, text ≠ []) :
    ∃ tokens, scan (String.ofList (spelledLines texts)) = .ok tokens ∧
      tokens.map shape = (if texts = [] then [(['\n'], .special)] else lineShapes (glued texts)) ∧
      (tokens.map shape = lineShapes texts ↔
        texts ≠ [] ∧ ∀ text ∈ texts.dropLast, text.getLast? ≠ some '\n') := by
  obtain ⟨s, hadds⟩ := exists_adds_spelledLines atRest_start hne
  obtain ⟨placed, hscan, hplaced⟩ := hadds.exists_scanChars
  refine ⟨runs placed, ?_, ?_⟩
  · rw [scan, String.toList_ofList, hscan]
  · rw [← shape_runs_unplaced, hplaced]
    obtain rfl | htexts := eq_or_ne texts []
    · exact ⟨rfl, by decide⟩
    · rw [flatMap_glued hne htexts, shape_runs_wholeLines (ne_nil_of_mem_glued hne), if_neg htexts,
        lineShapes_glued_iff, and_iff_right htexts]
      exact ⟨rfl, Iff.rfl⟩

/-- Texts with a doubled backslash, letters right after it and, in the last of them, newlines. -/
theorem scan_spelledLines_mixed : ∃ tokens,
    scan (String.ofList (spelledLines [['a', ':'], ['\\', '\\', 'n'], ['\n', '\n']])) = .ok tokens ∧
      tokens.map shape = [(['a', ':'], .string), (['\n'], .special), (['\\', '\\', 'n'], .string),
        (['\n'], .special), (['\n', '\n'], .string), (['\n'], .special)] := by
  have hne : ∀ text ∈ [['a', ':'], ['\\', '\\', 'n'], ['\n', '\n']], text ≠ [] := by decide
  obtain ⟨tokens, hscan, hshapes, _⟩ := scan_spelledLines hne
  exact ⟨tokens, hscan, hshapes⟩

/-- The end of the first line is dropped, and its text goes on with the second. -/
theorem scan_text_ending_with_newline :
    scan (String.ofList (spelledLines [['a', '\n'], ['b']])) =
        .ok [⟨['a', '\n', 'b'], .string, ⟨1, 1⟩⟩, ⟨['\n'], .special, ⟨3, 2⟩⟩] ∧
      ¬∃ tokens, scan (String.ofList (spelledLines [['a', '\n'], ['b']])) = .ok tokens ∧
        tokens.map shape = lineShapes [['a', '\n'], ['b']] := by
  have hscan : scan (String.ofList (spelledLines [['a', '\n'], ['b']])) =
      .ok [⟨['a', '\n', 'b'], .string, ⟨1, 1⟩⟩, ⟨['\n'], .special, ⟨3, 2⟩⟩] := by decide +kernel
  refine ⟨hscan, ?_⟩
  rintro ⟨tokens, htokens, hshapes⟩
  rw [hscan] at htokens
  cases htokens
  exact absurd hshapes (by decide)

end GridPattern.Token
