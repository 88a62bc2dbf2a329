import GridPattern.Proofs.Token.Shapes
import Mathlib.Data.List.Destutter

/-!
# Plain code

Code without backslashes and dashes has nothing to undo. The scanner cuts it, drops blank lines and ends the
last line, and every character that is left is in the text of one token.

**The law** (`Token.scan_plain`). Plain code can be scanned. Its tokens spell the code with each run of
newlines shortened to one and the last line ended, no two of them should have been one, and what they spell
is scanned to them again.
-/

namespace GridPattern.Token

open Lexer

/-- Nothing in the code is to be undone. -/
def PlainCode (code : List Char) : Prop := ∀ c ∈ code, c ≠ '\\' ∧ c ≠ '-'

/-- Whether a character may stand after another: a newline not after a newline. -/
def MayFollow (c d : Char) : Prop := ¬(c = '\n' ∧ d = '\n')

instance : DecidableRel MayFollow := fun c d => inferInstanceAs (Decidable ¬(c = '\n' ∧ d = '\n'))

/-- Code with every run of newlines shortened to one. -/
def squeezed (code : List Char) : List Char := code.destutter MayFollow

/-- Code whose last line is ended. -/
def closed (code : List Char) : List Char :=
  code ++ if code.getLast? = some '\n' then [] else ['\n']

/-- The item that a character of plain code is read as. -/
def charItem (c : Char) : Item := if isSpecialChar c then .special c .start else .literal c .start

variable {s : State} {c : Char} {code : List Char}

/-! ## Code with short runs of newlines -/

theorem exists_squeezed_cons (d : Char) (code : List Char) : ∃ later, squeezed (d :: code) = d :: later := by
  unfold squeezed
  rw [List.destutter_cons']
  induction code with
  | nil => exact ⟨[], rfl⟩
  | cons c code ih =>
    rw [List.destutter'_cons]
    split
    · exact ⟨_, rfl⟩
    · exact ih

theorem squeezed_cons_cons (d c : Char) (code : List Char) : squeezed (d :: c :: code) =
    if d = '\n' ∧ c = '\n' then squeezed (d :: code) else d :: squeezed (c :: code) := by
  unfold squeezed
  rw [List.destutter_cons', List.destutter_cons', List.destutter_cons']
  split
  · next hskip =>
    have hdrop : ¬MayFollow d c := not_not_intro hskip
    rw [List.destutter'_cons_neg _ hdrop]
  · next hkeep =>
    have hkeep : MayFollow d c := hkeep
    rw [List.destutter'_cons_pos _ hkeep]

theorem tail_squeezed_cons (d c : Char) (code : List Char) : (squeezed (d :: c :: code)).tail =
    if d = '\n' ∧ c = '\n' then (squeezed (d :: code)).tail else c :: (squeezed (c :: code)).tail := by
  obtain ⟨later, hlater⟩ := exists_squeezed_cons c code
  rw [squeezed_cons_cons, hlater, apply_ite List.tail]
  rfl

theorem getLast?_squeezed (code : List Char) : (squeezed code).getLast? = code.getLast? := by
  cases code with
  | nil => rfl
  | cons d code =>
    induction code generalizing d with
    | nil => rfl
    | cons c code ih =>
      rw [squeezed_cons_cons, List.getLast?_cons_cons]
      split
      · next hskip => rw [ih, hskip.1, hskip.2]
      · obtain ⟨later, hlater⟩ := exists_squeezed_cons c code
        rw [← ih, hlater, List.getLast?_cons_cons]

theorem isChain_closed (code : List Char) : (closed (squeezed code)).IsChain MayFollow := by
  have hsqueezed : (squeezed code).IsChain MayFollow := List.isChain_destutter _ code
  unfold closed
  split
  · rwa [List.append_nil]
  · next hlast =>
    refine List.isChain_append.mpr ⟨hsqueezed, List.isChain_singleton _, ?_⟩
    rintro c hc _ _ ⟨rfl, _⟩
    exact hlast hc

theorem closed_squeezed (code : List Char) : closed (squeezed code) =
    squeezed code ++ if code.getLast? = some '\n' then [] else ['\n'] := by
  rw [closed, getLast?_squeezed]

theorem getLast?_closed (code : List Char) : (closed code).getLast? = some '\n' := by
  unfold closed
  split
  · rwa [List.append_nil]
  · rw [List.getLast?_concat]

theorem closed_squeezed_closed (code : List Char) :
    closed (squeezed (closed (squeezed code))) = closed (squeezed code) := by
  have hchain : squeezed (closed (squeezed code)) = closed (squeezed code) :=
    List.destutter_of_isChain _ _ (isChain_closed code)
  rw [hchain]
  conv_lhs => rw [closed, getLast?_closed, if_pos rfl, List.append_nil]

/-! ## Reading plain code -/

theorem exists_adds_char (hs : s.AtRest) (hc : c ≠ '\\' ∧ c ≠ '-')
    (hskip : ¬(c = '\n' ∧ s.afterNewline = true)) : ∃ s', Adds s [c] [charItem c] s' := by
  unfold charItem
  split
  · next hspecial => exact exists_adds_special hs hspecial hc.1 hc.2 hskip
  · next hordinary => exact exists_adds_ordinary hs (by simpa using hordinary)

/-- After the character `d`, plain code adds what is left of it where `d` comes first. -/
theorem exists_adds_plain {d : Char} (hs : s.AtRest) (hd : s.afterNewline = (d == '\n'))
    (hcode : PlainCode code) : ∃ s', Adds s code ((squeezed (d :: code)).tail.map charItem) s' := by
  induction code generalizing s d with
  | nil => exact ⟨s, adds_nil hs⟩
  | cons c code ih =>
    obtain ⟨hc, hlater⟩ := List.forall_mem_cons.mp hcode
    rw [tail_squeezed_cons]
    split
    · next hskip =>
      obtain ⟨rfl, rfl⟩ := hskip
      obtain ⟨s₁, hnewline⟩ := exists_adds_skip hs hd
      obtain ⟨s', hadds⟩ := ih hnewline.atRest hnewline.afterNewline_eq hlater
      exact ⟨s', hnewline.trans hadds⟩
    · next hskip =>
      have hskip' : ¬(c = '\n' ∧ s.afterNewline = true) := by
        rw [hd]
        simpa [and_comm] using hskip
      obtain ⟨s₁, hchar⟩ := exists_adds_char hs hc hskip'
      obtain ⟨s', hadds⟩ := ih hchar.atRest hchar.afterNewline_eq hlater
      exact ⟨s', hchar.trans hadds⟩

theorem plainCode_closed (h : PlainCode code) : PlainCode (closed (squeezed code)) := by
  intro c hc
  obtain hc | hc := List.mem_append.mp hc
  · exact h c ((List.destutter_sublist _ code).subset hc)
  · split at hc
    · cases hc
    · rw [List.mem_singleton.mp hc]
      decide

theorem isLineEnd_charItem (c : Char) : (charItem c).isLineEnd = (c == '\n') := by
  unfold charItem
  split
  · rfl
  · next hordinary =>
    exact (beq_eq_false_iff_ne.mpr (ne_of_ordinary (by simpa using hordinary) isSpecialChar_newline)).symm

theorem chars_charItem (c : Char) : (charItem c).chars = [c] := by
  unfold charItem
  split <;> rfl

/-- Ending the last line of code ends that of its items. -/
theorem map_charItem_closed (code : List Char) : (closed code).map charItem =
    code.map charItem ++ lineEnd .start (code.map charItem).reverse := by
  have hlast : (code.map charItem).reverse.head?.any Item.isLineEnd = (code.getLast? == some '\n') := by
    rw [List.head?_reverse, List.getLast?_map, Option.any_map]
    cases code.getLast? with
    | none => rfl
    | some c => exact isLineEnd_charItem c
  rw [closed, lineEnd, hlast, List.map_append]
  by_cases hnewline : code.getLast? = some '\n' <;> simp [hnewline, charItem, isSpecialChar_newline]

/-- **What plain code is scanned to**: the items of what is left of it, character by character. -/
theorem exists_scanChars_plain (hcode : PlainCode code) : ∃ placed, scanChars code = .ok (runs placed) ∧
    placed.map Item.unplaced = (closed (squeezed code)).map charItem := by
  have hadds : ∃ s, Adds .start code ((squeezed code).map charItem) s := by
    cases code with
    | nil => exact ⟨.start, adds_nil atRest_start⟩
    | cons c code =>
      obtain ⟨hc, hlater⟩ := List.forall_mem_cons.mp hcode
      obtain ⟨s₁, hchar⟩ := exists_adds_char atRest_start hc (fun h => Bool.false_ne_true h.2)
      obtain ⟨s, hadds⟩ := exists_adds_plain hchar.atRest hchar.afterNewline_eq hlater
      obtain ⟨later, hsqueezed⟩ := exists_squeezed_cons c code
      rw [hsqueezed] at hadds ⊢
      exact ⟨s, hchar.trans hadds⟩
  obtain ⟨s, hadds⟩ := hadds
  obtain ⟨placed, hscan, hplaced⟩ := hadds.exists_scanChars
  rw [← map_charItem_closed] at hplaced
  exact ⟨placed, hscan, hplaced⟩

/-! ## What the tokens spell -/

variable {placed : List Item} {text : List Char}

theorem flatMap_text_of_charItems (h : placed.map Item.unplaced = text.map charItem) :
    (runs placed).flatMap Token.text = text := by
  have hchars : placed.flatMap Item.chars = (placed.map Item.unplaced).flatMap Item.chars := by
    rw [List.flatMap_map]
    exact List.flatMap_congr fun item _ => (chars_unplaced item).symm
  rw [flatMap_text_runs, hchars, h, List.flatMap_map]
  simp only [chars_charItem, List.flatMap_singleton']

theorem chars_ne_nil_of_charItems (h : placed.map Item.unplaced = text.map charItem) :
    ∀ item ∈ placed, item.chars ≠ [] := by
  intro item hitem
  have hmem : item.unplaced ∈ text.map charItem := h ▸ List.mem_map_of_mem hitem
  obtain ⟨c, _, hc⟩ := List.mem_map.mp hmem
  rw [← chars_unplaced, ← hc, chars_charItem]
  exact List.cons_ne_nil c []

/-- Whether two tokens may stand side by side: strings do not, and ends of lines do not. -/
def Separate (t u : Token) : Prop :=
  ¬(t.isString = true ∧ u.isString = true) ∧ ¬(t.isNewline = true ∧ u.isNewline = true)

theorem text_of_isNewline {t : Token} (h : t.isNewline = true) : t.text = ['\n'] := by
  unfold isNewline isSpecial at h
  simpa using (Bool.and_eq_true_iff.mp h).2

/-- Ends of lines are apart where newlines are. -/
theorem isChain_separate {ts : List Token} (hstrings : ts.IsChain Apart)
    (htext : (ts.flatMap Token.text).IsChain MayFollow) : ts.IsChain Separate := by
  induction ts with
  | nil => exact .nil
  | cons t ts ih =>
    rw [List.isChain_cons] at hstrings ⊢
    rw [List.flatMap_cons] at htext
    refine ⟨fun u hu => ⟨hstrings.1 u hu, ?_⟩, ih hstrings.2 htext.right_of_append⟩
    rintro ⟨ht, hu'⟩
    obtain ⟨later, rfl⟩ := List.head?_eq_some_iff.mp hu
    rw [List.flatMap_cons, text_of_isNewline ht, text_of_isNewline hu'] at htext
    have hpair : MayFollow '\n' '\n' := List.rel_of_isChain_cons_cons htext
    exact hpair ⟨rfl, rfl⟩

/-- **Scanning plain code loses nothing and is stable.** -/
theorem scan_plain {code : String} (h : PlainCode code.toList) : ∃ tokens, scan code = .ok tokens ∧
    tokens.flatMap Token.text =
      squeezed code.toList ++ (if code.toList.getLast? = some '\n' then [] else ['\n']) ∧
    tokens.IsChain Separate ∧ (∀ t ∈ tokens, t.text ≠ []) ∧
    ∃ again, scan (String.ofList (tokens.flatMap Token.text)) = .ok again ∧
      again.map shape = tokens.map shape := by
  rw [← closed_squeezed]
  obtain ⟨placed, hscan, hplaced⟩ := exists_scanChars_plain h
  have htext := flatMap_text_of_charItems hplaced
  refine ⟨runs placed, hscan, htext, isChain_separate (isChain_runs placed) ?_,
    text_ne_nil_of_mem_runs (chars_ne_nil_of_charItems hplaced), ?_⟩
  · rw [htext]
    exact isChain_closed code.toList
  · obtain ⟨again, hagain, hitems⟩ := exists_scanChars_plain (plainCode_closed h)
    rw [closed_squeezed_closed, ← hplaced] at hitems
    refine ⟨runs again, ?_, shape_runs_congr hitems⟩
    rw [htext, scan, String.toList_ofList, hagain]

/-- Three newlines become one, and the last line is ended. -/
theorem scan_plain_blank_lines : ∃ tokens,
    scan (String.ofList ['m', ':', 'a', '\n', '\n', '\n', 'b']) = .ok tokens ∧
      tokens.flatMap Token.text = ['m', ':', 'a', '\n', 'b', '\n'] := by
  have hplain : PlainCode (String.ofList ['m', ':', 'a', '\n', '\n', '\n', 'b']).toList := by
    simp [PlainCode]
  obtain ⟨tokens, hscan, htext, _⟩ := scan_plain hplain
  rw [String.toList_ofList] at htext
  exact ⟨tokens, hscan, htext⟩

end GridPattern.Token
