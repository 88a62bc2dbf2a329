import GridPattern.Proofs.Token.Ranges

/-!
# The scanner is the lexer

The last pass joins neighbouring strings, where the lexer makes one string of every longest run of items.
Joined from the back, tokens and the items that they spell come to the same.

**The law** (`Token.scan_eq_lex`). The scanner and the lexer give the same tokens at the same places, or the
same faults in the same order, for all code.
-/

namespace GridPattern.Lexer

open Token

/-- A string goes on with a string wherever that was said to begin. -/
theorem foldl_consJoined_place {before : List Token} (h : AfterString before) (text : List Char)
    (place place' : Place) (later : List Token) :
    before.foldl (fun later t => consJoined t later) (⟨text, .string, place⟩ :: later) =
      before.foldl (fun later t => consJoined t later) (⟨text, .string, place'⟩ :: later) := by
  obtain ⟨t, more, rfl, ht⟩ := h
  have hstring : ∀ place : Place, Token.isString ⟨text, .string, place⟩ = true := fun _ => rfl
  simp only [List.foldl_cons, consJoined, ht, hstring, Bool.and_true, if_true]

theorem consJoined_special (c : Char) (place : Place) (later : List Token) :
    consJoined ⟨[c], .special, place⟩ later = ⟨[c], .special, place⟩ :: later := by
  cases later <;> rfl

theorem consJoined_empty (place : Place) (later : List Token) :
    consJoined ⟨[], .string, place⟩ later = consItem (.empty place) later := by
  obtain _ | ⟨⟨text, kind, start⟩, later⟩ := later
  · rfl
  · cases kind <;> rfl

/-- What a literal character begins, a string that ends with it begins. -/
theorem consJoined_consItem (text : List Char) (c : Char) (place start : Place) (later : List Token) :
    consJoined ⟨text, .string, place⟩ (consItem (.literal c start) later) =
      consJoined ⟨text ++ [c], .string, place⟩ later := by
  obtain _ | ⟨⟨text', kind, start'⟩, later⟩ := later
  · rfl
  · cases kind <;> simp [consJoined, consItem, isString]

theorem consJoined_literal (c : Char) (place : Place) (later : List Token) :
    consJoined ⟨[c], .string, place⟩ later = consItem (.literal c place) later := by
  obtain _ | ⟨⟨text, kind, start⟩, later⟩ := later
  · rfl
  · cases kind <;> rfl

theorem consItem_literal (c : Char) (later : List Token) : ∃ text more, ∀ place,
    consItem (.literal c place) later = ⟨c :: text, .string, place⟩ :: more := by
  obtain _ | ⟨⟨text, kind, start⟩, later⟩ := later
  · exact ⟨[], [], fun _ => rfl⟩
  · cases kind with
    | string => exact ⟨text, later, fun _ => rfl⟩
    | special => exact ⟨[], ⟨text, .special, start⟩ :: later, fun _ => rfl⟩
    | escape => exact ⟨[], ⟨text, .escape, start⟩ :: later, fun _ => rfl⟩

/-- **Joining** the tokens that spell items comes to the runs of the items. -/
theorem Spells.join {before : List Token} {done : List Item} (h : Spells before done)
    (later : List Token) : before.foldl (fun later t => consJoined t later) later =
      done.foldl (fun later item => consItem item later) later := by
  induction h generalizing later with
  | nil => rfl
  | special _ ih =>
    rw [List.foldl_cons, consJoined_special, ih]
    rfl
  | empty _ ih => rw [List.foldl_cons, consJoined_empty, ih, List.foldl_cons]
  | @first before done c place start hplace _ ih =>
    rw [List.foldl_cons, consJoined_literal, List.foldl_cons, ← ih]
    -- A string that stands elsewhere is taken in by the one before it, and its place is lost.
    obtain rfl | hafter := hplace
    · rfl
    · obtain ⟨text, more, hitem⟩ := consItem_literal c later
      rw [hitem place, hitem start]
      exact foldl_consJoined_place hafter (c :: text) place start more
  | @more before done text c place start _ _ ih =>
    have hjoin := ih (consItem (.literal c start) later)
    rw [List.foldl_cons, consJoined_consItem] at hjoin
    rw [List.foldl_cons, hjoin, List.foldl_cons]

theorem Spells.joinStrings {tokens : List Token} {done : List Item} (h : Spells tokens.reverse done) :
    joinStrings tokens = runs done.reverse := by
  have hjoin := h.join []
  rw [List.foldl_reverse] at hjoin
  rw [Token.joinStrings, hjoin, runs, List.foldr_reverse]

/-! ## The end of the last line -/

/-- The end of a line is joined with nothing. -/
theorem consItem_append (item : Item) (tokens : List Token) (t : Token) (ht : t.kind = .special) :
    consItem item (tokens ++ [t]) = consItem item tokens ++ [t] := by
  obtain ⟨text, kind, place⟩ := t
  cases ht
  obtain _ | ⟨⟨text', kind', place'⟩, tokens⟩ := tokens
  · cases item <;> rfl
  · cases kind' <;> cases item <;> rfl

theorem runs_special (items : List Item) (c : Char) (place : Place) :
    runs (items ++ [.special c place]) = runs items ++ [⟨[c], .special, place⟩] := by
  unfold runs
  rw [List.foldr_append]
  induction items with
  | nil => rfl
  | cons item items ih =>
    rw [List.foldr_cons, ih, consItem_append _ _ _ rfl]
    rfl

/-- Whether tokens end with a string. -/
def EndsWithString (tokens : List Token) : Prop := ∃ t ∈ tokens.getLast?, t.isString = true

theorem endsWithString_consItem (item : Item) {tokens : List Token} (h : EndsWithString tokens) :
    EndsWithString (consItem item tokens) := by
  obtain ⟨t, ht, hstring⟩ := h
  obtain _ | ⟨⟨text, kind, place⟩, _ | ⟨u, more⟩⟩ := tokens
  · cases ht
  · cases ht
    have hkind : kind = .string := by simpa [isString] using hstring
    subst hkind
    cases item <;> exact ⟨_, rfl, rfl⟩
  · refine ⟨t, ?_, hstring⟩
    rw [List.getLast?_cons_cons] at ht
    cases kind <;> cases item <;> simpa [consItem, List.getLast?_cons_cons] using ht

/-- Runs end with a string where the last item is not special. -/
theorem endsWithString_runs (items : List Item) {item : Item} (h : ∀ c place, item ≠ .special c place) :
    EndsWithString (runs (items ++ [item])) := by
  unfold runs
  rw [List.foldr_append]
  induction items with
  | nil =>
    cases item with
    | special c place => exact absurd rfl (h c place)
    | literal | empty => exact ⟨_, rfl, rfl⟩
  | cons first items ih => exact endsWithString_consItem first ih

theorem endLastLine_of_isNewline {finish : Place} {tokens : List Token} {t : Token}
    (ht : t.isNewline = true) : endLastLine finish (tokens ++ [t]) = tokens ++ [t] := by
  simp [endLastLine, ht]

/-- **The last line** is ended if the last item does not end it. -/
theorem endLastLine_runs (finish : Place) (done : List Item) :
    endLastLine finish (runs done.reverse) = tokens finish done := by
  have hended : ∀ place, Token.isNewline ⟨['\n'], .special, place⟩ = true := fun _ => rfl
  unfold tokens
  split
  · next place done =>
    rw [List.reverse_cons, runs_special, endLastLine_of_isNewline (hended place)]
  · next hdone =>
    have hopen : (runs done.reverse).getLast?.any isNewline = false := by
      cases done with
      | nil => rfl
      | cons item done =>
        rw [List.reverse_cons]
        cases item with
        | special c place =>
          have hc : c ≠ '\n' := by
            intro heq
            subst heq
            exact hdone place done rfl
          simp [runs_special, isNewline, isSpecial, hc]
        | literal c place =>
          obtain ⟨t, ht, hstring⟩ := @endsWithString_runs done.reverse (.literal c place) (by simp)
          rw [Option.mem_def.mp ht]
          simp_all [isNewline, isSpecial, isString]
        | empty place =>
          obtain ⟨t, ht, hstring⟩ := @endsWithString_runs done.reverse (.empty place) (by simp)
          rw [Option.mem_def.mp ht]
          simp_all [isNewline, isSpecial, isString]
    rw [endLastLine, hopen, List.reverse_cons, runs_special]
    rfl

end GridPattern.Lexer

namespace GridPattern.Token

open Lexer

/-- **The scanner is the lexer**, for all code: the same tokens at the same places, or the same faults. -/
theorem scan_eq_lex (code : String) : scan code = lex code.toList := by
  obtain ⟨hitems, hfaults, each⟩ := (readsAll code.toList).plain .start rfl
  have hkeeps : Keeps [] State.start.items := ⟨.nil, rfl⟩
  have hpasses := spellRanges_passes [] _ _ hkeeps each
  rw [← hitems] at hpasses
  have hranges := hpasses.faults
  have hjoin := hpasses.spells.joinStrings
  have hhere := read_here .start code.toList
  rw [show State.start.faults = [] from rfl, List.nil_append] at hfaults
  rw [show State.start.items.faults = [] from rfl, List.nil_append] at hranges
  rw [lex, hfaults, hranges, hhere, ← endLastLine_runs, ← hjoin]
  rfl

end GridPattern.Token
