import GridPattern.Proofs.Pattern.Grammar
import GridPattern.Proofs.Walk.Frame
import GridPattern.Proofs.Walk.Results

/-!
# Sequences in other groups, strings in other pieces

Parts one after the other may be grouped as one likes, and a string may be cut as one likes. All survivors go
through one part before the next part is looked at, but those of a group go through all of it one by one; so the
same parts are followed by the same cursors, in another order.

**The law** (`regrouped_sequence`). A sequence with a group in it has survivors if and only if the one without has,
and the same ones in the same order. With a string in one piece or in several it comes to the same, faults
included. So what is left of a string when the parser takes off the character of a suffix or of a look around goes
on meaning its characters one by one.

**What it does not establish.** Which fault is met first: from one cursor a group may stop the walk at a later part
before an earlier part is followed from the next cursor.
-/

namespace GridPattern.Walk

open Survivors

variable {p : Program} {grid : Grid} {c : Cursor}

/-! ## Groups -/

/-- **Parts have survivors if the first part has and the others have from there.** -/
theorem evalEach_evalParts_cons_iff {part : Node} {parts : List Node} {cs us : List Cursor} :
    evalEach (evalParts p grid (part :: parts)) cs = some (.ok us) ↔
      ∃ ts, evalEach (eval p grid part) cs = some (.ok ts) ∧
        evalEach (evalParts p grid parts) ts = some (.ok us) := by
  constructor
  · intro h
    -- cursor by cursor: what each of them comes to goes through the first part by itself
    obtain ⟨uss, hall, rfl⟩ := evalEach_eq_ok_iff.mp h
    clear h
    induction hall with
    | nil => exact ⟨[], rfl, rfl⟩
    | @cons c us cs uss hc _ ih =>
      obtain ⟨ts', hhead', htail'⟩ := ih
      rw [evalParts_cons] at hc
      obtain ⟨v, hhead, hc⟩ := Option.bind_eq_some_iff.mp hc
      cases v with
      | error faults => cases hc
      | ok ts =>
        refine ⟨ts ++ ts', ?_, ?_⟩
        · rw [evalEach_cons, hhead, hhead']
          rfl
        · exact evalEach_append_eq_ok_iff.mpr ⟨us, _, hc, htail', rfl⟩
  · rintro ⟨ts, head, tail⟩
    exact evalEach_evalParts_cons head tail

theorem evalEach_evalParts_append_iff {parts others : List Node} {cs us : List Cursor} :
    evalEach (evalParts p grid (parts ++ others)) cs = some (.ok us) ↔
      ∃ ts, evalEach (evalParts p grid parts) cs = some (.ok ts) ∧
        evalEach (evalParts p grid others) ts = some (.ok us) := by
  induction parts generalizing cs with
  | nil =>
    rw [evalEach_evalParts_nil]
    constructor
    · intro h
      exact ⟨cs, rfl, h⟩
    · rintro ⟨_, ⟨⟩, h⟩
      exact h
  | cons part parts ih =>
    rw [List.cons_append]
    simp only [evalEach_evalParts_cons_iff, ih]
    constructor
    · rintro ⟨ts, hhead, vs, hparts, hothers⟩
      exact ⟨vs, ⟨ts, hhead, hparts⟩, hothers⟩
    · rintro ⟨vs, ⟨ts, hhead, hparts⟩, hothers⟩
      exact ⟨ts, hhead, vs, hparts, hothers⟩

/-- Parts bring no cursor to a halt. -/
theorem going_of_evalParts {parts : List Node} {ts : List Cursor} (hs : c.heading.isStalled = false)
    (h : evalParts p grid parts c = some (.ok ts)) : ∀ t ∈ ts, t.heading.isStalled = false := by
  rw [← eval_sequence parts hs] at h
  intro t mem
  exact (reaches_of_eval h mem).keeps.going hs

/-- **A group in a sequence** has the survivors of its parts. -/
theorem eval_regrouped (before group after : List Node) (us : List Cursor) :
    eval p grid (.sequence (before ++ .sequence group :: after)) c = some (.ok us) ↔
      eval p grid (.sequence (before ++ group ++ after)) c = some (.ok us) := by
  cases hs : c.heading.isStalled with
  | true => rw [eval_stalled _ hs, eval_stalled _ hs]
  | false =>
    have hsingle : ∀ parts, eval p grid (.sequence parts) c = evalEach (evalParts p grid parts) [c] := by
      intro parts
      rw [eval_sequence parts hs, evalEach_singleton]
    rw [hsingle, hsingle, List.append_assoc, evalEach_evalParts_append_iff, evalEach_evalParts_append_iff]
    apply exists_congr
    intro ts
    apply and_congr_right
    intro hts
    rw [evalEach_singleton] at hts
    have hgoing := going_of_evalParts hs hts
    have hgroup : evalEach (eval p grid (.sequence group)) ts = evalEach (evalParts p grid group) ts :=
      evalEach_congr fun t mem => eval_sequence group (hgoing t mem)
    rw [evalEach_evalParts_cons_iff, evalEach_evalParts_append_iff, hgroup]

/-! ## Pieces of a string -/

theorem spell?_append (text more : List Char) (c : Cursor) :
    c.spell? grid (text ++ more) = (c.spell? grid text).bind (·.spell? grid more) := by
  induction text generalizing c with
  | nil => rfl
  | cons char text ih =>
    show Option.bind _ _ = (Option.bind _ _).bind _
    rw [Option.bind_assoc]
    exact congrArg _ (funext ih)

/-- Pieces one after the other spell the whole string. -/
theorem partsAt_pieces (depth : Nat) (pieces : List (List Char)) {cs : List Cursor}
    (hs : ∀ c ∈ cs, c.heading.isStalled = false) :
    partsAt p grid (depth + 1) (pieces.map .literal) cs =
      .ok (cs.flatMap fun c => (c.spell? grid pieces.flatten).toList) := by
  induction pieces generalizing cs with
  | nil => exact congrArg Except.ok (List.flatMap_singleton' cs).symm
  | cons text pieces ih =>
    have hhead : each (outcomeAt p grid (depth + 1) (.literal text)) cs =
        .ok (cs.flatMap fun c => (c.spell? grid text).toList) :=
      each_eq_flatMap fun c mem => outcomeAt_literal (hs c mem) text
    have hgoing : ∀ t ∈ cs.flatMap fun c => (c.spell? grid text).toList, t.heading.isStalled = false := by
      intro t mem
      obtain ⟨c, hc, ht⟩ := List.mem_flatMap.mp mem
      rw [(Cursor.advances_spell (Option.mem_toList.mp ht)).heading]
      exact hs c hc
    rw [List.map_cons, partsAt, hhead]
    show partsAt p grid (depth + 1) (pieces.map .literal) _ = _
    rw [ih hgoing, List.flatMap_assoc, List.flatten_cons]
    refine congrArg Except.ok (List.flatMap_congr fun c _ => ?_)
    rw [spell?_append]
    cases c.spell? grid text with
    | none => rfl
    | some t => exact List.flatMap_singleton _ t

/-- **A string in other pieces** comes to the same at every depth. -/
theorem outcomeAt_pieces (depth : Nat) (before after : List Node) {pieces others : List (List Char)}
    (h : pieces.flatten = others.flatten) :
    outcomeAt p grid (depth + 2) (.sequence (before ++ pieces.map .literal ++ after)) c =
      outcomeAt p grid (depth + 2) (.sequence (before ++ others.map .literal ++ after)) c := by
  cases hs : c.heading.isStalled with
  | true => rw [outcomeAt_stalled hs, outcomeAt_stalled hs]
  | false =>
    have hbefore : outcomeAt p grid (depth + 2) (.sequence before) c = partsAt p grid (depth + 1) before [c] :=
      outcomeAt_sequence hs before
    rw [outcomeAt_sequence hs, outcomeAt_sequence hs, List.append_assoc, List.append_assoc, partsAt_append,
      partsAt_append, ← hbefore]
    cases hr : outcomeAt p grid (depth + 2) (.sequence before) c with
    | error stop => rfl
    | ok ts =>
      have hgoing : ∀ t ∈ ts, t.heading.isStalled = false := by
        intro t mem
        exact (reaches_of_eval (eval_of_outcomeAt hr) mem).keeps.going hs
      show partsAt p grid (depth + 1) (pieces.map .literal ++ after) ts =
        partsAt p grid (depth + 1) (others.map .literal ++ after) ts
      rw [partsAt_append, partsAt_append, partsAt_pieces depth pieces hgoing, partsAt_pieces depth others hgoing, h]

theorem resultsIn_pieces (before after : List Node) {pieces others : List (List Char)}
    (h : pieces.flatten = others.flatten) (r : Except WalkFault (List Cursor)) :
    ResultsIn p grid (.sequence (before ++ pieces.map .literal ++ after)) c r ↔
      ResultsIn p grid (.sequence (before ++ others.map .literal ++ after)) c r :=
  resultsIn_congr (fun depth (_ : depth ≥ 0) => outcomeAt_pieces depth before after h) r

/-- The string before a repeated character, in one piece if there is any of it. -/
theorem detachOperand_repeated_pieces (text : List Char) (last : Char) (count : Repeat) :
    ∃ pieces : List (List Char), pieces.flatten = text ∧
      Parser.detachOperand (.repeated (.literal (text ++ [last])) count) =
        pieces.map .literal ++ [.repeated (.literal [last]) count] := by
  by_cases h : text = []
  · subst h
    exact ⟨[], rfl, rfl⟩
  · exact ⟨[text], List.flatten_singleton, Grammar.detachOperand_repeated count h⟩

/-- The string after a character that is looked around for, in one piece if there is any of it. -/
theorem detachOperand_look_pieces (kind : Look) (first : Char) (text : List Char) :
    ∃ pieces : List (List Char), pieces.flatten = text ∧
      Parser.detachOperand (.look kind (.literal (first :: text))) =
        .look kind (.literal [first]) :: pieces.map .literal := by
  cases text with
  | nil => exact ⟨[], rfl, rfl⟩
  | cons c text => exact ⟨[c :: text], List.flatten_singleton, rfl⟩

/-- **Groups and pieces do not tell.** A sequence has the survivors, in order, that it has with the parts of a group in
the place of the group. A string in two pieces comes to what it comes to in one. And where the parser takes the last
character off a string for a suffix, or the first for a look around, what is left may be cut in any pieces. -/
theorem regrouped_sequence (p : Program) (grid : Grid) (c : Cursor) (before after : List Node) :
    (∀ group ts, EndsWith p grid (.sequence (before ++ [.sequence group] ++ after)) c ts ↔
      EndsWith p grid (.sequence (before ++ group ++ after)) c ts) ∧
    (∀ text more r, ResultsIn p grid (.sequence (before ++ [.literal (text ++ more)] ++ after)) c r ↔
      ResultsIn p grid (.sequence (before ++ [.literal text, .literal more] ++ after)) c r) ∧
    (∀ (pieces : List (List Char)) last count r,
      ResultsIn p grid (.sequence (before ++
        Parser.detachOperand (.repeated (.literal (pieces.flatten ++ [last])) count) ++ after)) c r ↔
      ResultsIn p grid (.sequence (before ++
        (pieces.map .literal ++ [.repeated (.literal [last]) count]) ++ after)) c r) ∧
    ∀ (pieces : List (List Char)) first kind r,
      ResultsIn p grid (.sequence (before ++
        Parser.detachOperand (.look kind (.literal (first :: pieces.flatten))) ++ after)) c r ↔
      ResultsIn p grid (.sequence (before ++
        (.look kind (.literal [first]) :: pieces.map .literal) ++ after)) c r := by
  refine ⟨?_, ?_, ?_, ?_⟩
  · intro group ts
    rw [endsWith_iff, endsWith_iff, ← List.append_cons]
    exact eval_regrouped before group after ts
  · intro text more r
    have hcut : [text ++ more].flatten = [text, more].flatten := by simp
    exact resultsIn_pieces before after hcut r
  · intro pieces last count r
    obtain ⟨left, hleft, hdetach⟩ := detachOperand_repeated_pieces pieces.flatten last count
    have hsame : ResultsIn p grid _ c r ↔ ResultsIn p grid _ c r :=
      resultsIn_pieces before (.repeated (.literal [last]) count :: after) hleft r
    rw [hdetach]
    simpa only [List.append_assoc, List.singleton_append] using hsame
  · intro pieces first kind r
    obtain ⟨left, hleft, hdetach⟩ := detachOperand_look_pieces kind first pieces.flatten
    have hsame : ResultsIn p grid _ c r ↔ ResultsIn p grid _ c r :=
      resultsIn_pieces (before ++ [.look kind (.literal [first])]) after hleft r
    rw [hdetach]
    simpa only [List.append_assoc, List.cons_append, List.nil_append] using hsame

end GridPattern.Walk
