import GridPattern.Proofs.Token.Runs
import GridPattern.Proofs.Token.Steps

/-!
# Tokens wherever they stand

Text and kind of a token are its shape. Where items stand plays no part in the shapes of their tokens
(`shape_runs_congr`), so code can be read piece by piece with all places forgotten.

A piece that leaves neither a backslash nor a range open adds its items to those done before (`Adds`), and
pieces one after the other add theirs in that order (`Adds.trans`).

**The law** (`Adds.exists_scanChars`). If all code adds items, it is scanned to the runs of these items and the
end of the last line. Code with ranges is not told of in this way.
-/

namespace GridPattern

/-- What a token says, wherever it stands. -/
def Token.shape (t : Token) : List Char × Token.Kind := (t.text, t.kind)

namespace Lexer

open Token

/-- An item with its place forgotten. -/
def Item.unplaced : Item → Item
  | .literal c _ => .literal c .start
  | .special c _ => .special c .start
  | .empty _ => .empty .start

theorem shape_consItem_congr {item item' : Item} {ts ts' : List Token} (h : item.unplaced = item'.unplaced)
    (hts : ts.map shape = ts'.map shape) : (consItem item ts).map shape = (consItem item' ts').map shape := by
  obtain _ | ⟨⟨text, kind, place⟩, ts⟩ := ts <;> obtain _ | ⟨⟨text', kind', place'⟩, ts'⟩ := ts'
  · cases item <;> cases item' <;> simp_all [Item.unplaced, consItem, shape]
  · simp at hts
  · simp at hts
  · obtain ⟨hhead, htail⟩ := List.cons.inj hts
    obtain ⟨rfl, rfl⟩ := Prod.mk.inj hhead
    cases item <;> cases item' <;> cases kind <;> simp_all [Item.unplaced, consItem, shape]

/-- **Where items stand** plays no part in what their tokens say. -/
theorem shape_runs_congr {items items' : List Item} (h : items.map Item.unplaced = items'.map Item.unplaced) :
    (runs items).map shape = (runs items').map shape := by
  induction items generalizing items' with
  | nil =>
    rw [List.map_eq_nil_iff.mp h.symm]
  | cons item items ih =>
    obtain ⟨item', rest, rfl, hitem, hitems⟩ := List.map_eq_cons_iff.mp h.symm
    exact shape_consItem_congr hitem.symm (ih hitems.symm)

theorem unplaced_unplaced (item : Item) : item.unplaced.unplaced = item.unplaced := by
  cases item <;> rfl

theorem shape_runs_unplaced (items : List Item) :
    (runs (items.map Item.unplaced)).map shape = (runs items).map shape := by
  refine shape_runs_congr ?_
  rw [List.map_map]
  exact List.map_congr_left fun item _ => unplaced_unplaced item

theorem chars_unplaced (item : Item) : item.unplaced.chars = item.chars := by
  cases item <;> rfl

/-- Whether an item is the end of a line. -/
def Item.isLineEnd : Item → Bool
  | .special c _ => c == '\n'
  | _ => false

/-- The end of the last line, unless the latest item is one. -/
def lineEnd (finish : Place) (done : List Item) : List Item :=
  if done.head?.any Item.isLineEnd then [] else [.special '\n' finish]

theorem tokens_eq (finish : Place) (done : List Item) :
    tokens finish done = runs (done.reverse ++ lineEnd finish done) := by
  unfold tokens
  split
  · exact congrArg runs (List.append_nil _).symm
  · next hdone =>
    have hopen : done.head?.any Item.isLineEnd = false := by
      obtain _ | ⟨item, done⟩ := done
      · rfl
      · cases item with
        | literal | empty => rfl
        | special c place =>
          refine beq_eq_false_iff_ne.mpr fun hc => ?_
          subst hc
          exact hdone place done rfl
    rw [lineEnd, hopen, List.reverse_cons]
    rfl

/-- Only the latest item tells. -/
theorem lineEnd_append {done : List Item} (h : done ≠ []) (finish : Place) (older : List Item) :
    lineEnd finish (done ++ older) = lineEnd finish done := by
  rw [lineEnd, lineEnd, List.head?_append_of_ne_nil _ h]

theorem isLineEnd_unplaced (item : Item) : item.unplaced.isLineEnd = item.isLineEnd := by
  cases item <;> rfl

theorem map_unplaced_lineEnd (finish : Place) (done : List Item) :
    (lineEnd finish done).map Item.unplaced = lineEnd .start (done.map Item.unplaced) := by
  have hhead : (done.map Item.unplaced).head?.any Item.isLineEnd = done.head?.any Item.isLineEnd := by
    cases done with
    | nil => rfl
    | cons item done => exact isLineEnd_unplaced item
  rw [lineEnd, lineEnd, hhead, apply_ite (List.map Item.unplaced)]
  rfl

theorem shape_tokens_congr {done done' : List Item} (finish finish' : Place)
    (h : done.map Item.unplaced = done'.map Item.unplaced) :
    (tokens finish done).map shape = (tokens finish' done').map shape := by
  rw [tokens_eq, tokens_eq]
  refine shape_runs_congr ?_
  rw [List.map_append, List.map_append, List.map_reverse, List.map_reverse, map_unplaced_lineEnd,
    map_unplaced_lineEnd, h]

/-! ## Reading at rest -/

/-- Between characters that are read by themselves: not after a backslash and not in a range. -/
structure State.AtRest (s : State) : Prop where
  escaping : s.escaping = false
  range : s.items.range = none

/-- **Code that adds items** to those done, from one state at rest to another. -/
structure Adds (s : State) (code : List Char) (items : List Item) (s' : State) : Prop where
  steps : Steps s code s'
  atRest : s'.AtRest
  done : s'.items.done.map Item.unplaced = items.reverse ++ s.items.done.map Item.unplaced

variable {s s₁ s' : State} {c d : Char} {code later : List Char} {items more : List Item}

theorem atRest_start : State.start.AtRest := ⟨rfl, rfl⟩

theorem adds_nil (hs : s.AtRest) : Adds s [] [] s := ⟨.nil, hs, rfl⟩

theorem Adds.trans (h : Adds s code items s₁) (h' : Adds s₁ later more s') :
    Adds s (code ++ later) (items ++ more) s' where
  steps := steps_append_iff.mpr ⟨s₁, h.steps, h'.steps⟩
  atRest := h'.atRest
  done := by rw [h'.done, h.done, List.reverse_append, List.append_assoc]

theorem exists_adds_skip (hs : s.AtRest) (hafter : s.afterNewline = true) : ∃ s', Adds s ['\n'] [] s' :=
  ⟨_, steps_singleton_iff.mpr (.skip hs.escaping hafter), ⟨rfl, hs.range⟩, rfl⟩

theorem exists_adds_special (hs : s.AtRest) (hc : isSpecialChar c = true) (hbackslash : c ≠ '\\')
    (hdash : c ≠ '-') (hskip : ¬(c = '\n' ∧ s.afterNewline = true)) :
    ∃ s', Adds s [c] [.special c .start] s' :=
  ⟨_, steps_singleton_iff.mpr (.special hs.escaping hc hbackslash hdash hskip hs.range), ⟨rfl, hs.range⟩, rfl⟩

/-- A literal character is one more item where no range is open. -/
theorem exists_adds_literal (hrange : s.items.range = none) (hliteral : s.literal? c = some d) :
    ∃ s', Adds s [c] [.literal d .start] s' := by
  refine ⟨_, steps_singleton_iff.mpr (.literal hliteral), ?_, ?_⟩ <;>
    simp only [literal_of_none hrange]
  · exact ⟨rfl, hrange⟩
  · rfl

theorem exists_adds_ordinary (hs : s.AtRest) (hc : isSpecialChar c = false) :
    ∃ s', Adds s [c] [.literal c .start] s' := by
  refine exists_adds_literal hs.range ?_
  rw [State.literal?, hs.escaping, hc]
  rfl

theorem exists_adds_escaped (hs : s.AtRest) (hc : escaped? c = some d) :
    ∃ s', Adds s ['\\', c] [.literal d .start] s' := by
  have hbackslash : Step s '\\' { s.past '\\' with escaping := true } := .backslash hs.escaping
  have hliteral : State.literal? { s.past '\\' with escaping := true } c = some d := by
    rwa [State.literal?, if_pos rfl]
  have hrange : ({ s.past '\\' with escaping := true } : State).items.range = none := hs.range
  obtain ⟨s', hsteps, hs', hdone⟩ := exists_adds_literal hrange hliteral
  exact ⟨s', .cons hbackslash hsteps, hs', hdone⟩

theorem Steps.afterNewline_eq (h : Steps s (code ++ [c]) s') : s'.afterNewline = (c == '\n') := by
  obtain ⟨_, _, hstep⟩ := steps_concat_iff.mp h
  exact hstep.afterNewline_eq

theorem Adds.afterNewline_eq (h : Adds s [c] items s') : s'.afterNewline = (c == '\n') :=
  (steps_singleton_iff.mp h.steps).afterNewline_eq

/-- **What is read at rest is scanned** to the runs of the items that it adds, wherever they stand. -/
theorem Adds.exists_scanChars (h : Adds .start code items s) : ∃ placed,
    scanChars code = .ok (runs placed) ∧ placed.map Item.unplaced = items ++ lineEnd .start items.reverse := by
  have hdone : s.items.done.map Item.unplaced = items.reverse := by
    rw [h.done, show State.start.items.done = [] from rfl, List.map_nil, List.append_nil]
  refine ⟨s.items.done.reverse ++ lineEnd s.here s.items.done, ?_, ?_⟩
  · rw [← tokens_eq]
    exact scanChars_eq_ok_iff.mpr ⟨s, h.steps, h.atRest.range, rfl⟩
  · rw [List.map_append, List.map_reverse, map_unplaced_lineEnd, hdone, List.reverse_reverse]

end Lexer

end GridPattern
