import GridPattern.Proofs.Token.Places
import GridPattern.Proofs.Token.Shapes

/-!
# More newlines

A line end right after a line end is dropped before anything else is made of the code. What the scanner then
comes to is told here for newlines that are added: after a newline, at the end of the code and before all code.

States go on alike if they differ only in where things stand, and in items that were done before all others
(`State.Alike`). One step keeps that (`State.Alike.exists_step`), so all steps do.

**The law.** After a newline, also an escaped one, and at the end of the code the tokens say the same with more
newlines (`exists_scanChars_newlines`, `exists_scanChars_end`). Before all code they are one more token
(`exists_scanChars_start`).
-/

namespace GridPattern.Lexer

open Token

variable {s s' s₁ t : State} {items items' : Items} {base : List Item} {c d : Char} {code : List Char}

/-! ## States that go on alike -/

/-- **Items that go on alike**, wherever they stand. Those of `base` are done before all others on the right. -/
structure Items.Alike (base : List Item) (items items' : Items) : Prop where
  range : items'.range.map Range.first = items.range.map Range.first
  done : items'.done.map Item.unplaced = items.done.map Item.unplaced ++ base

/-- States whose items go on alike, both or neither of them after a backslash. -/
structure State.Alike (base : List Item) (s t : State) : Prop where
  items : s.items.Alike base t.items
  escaping : t.escaping = s.escaping

theorem map_unplaced_rangeItems (first last : Char) (dash dash' : Place) :
    (rangeItems first last dash').map Item.unplaced = (rangeItems first last dash).map Item.unplaced := by
  unfold rangeItems
  split
  · rfl
  · rw [List.map_map, List.map_map]
    rfl

theorem Items.Alike.literal (h : items.Alike base items') (d : Char) (place place' : Place) :
    (items.literal d place).Alike base (items'.literal d place') := by
  obtain ⟨hrange, hdone⟩ := h
  unfold Items.literal
  cases hr : items.range with
  | none =>
    have hr' : items'.range = none := by simpa [hr] using hrange
    rw [hr']
    refine ⟨rfl, ?_⟩
    rw [List.map_cons, hdone]
    rfl
  | some r =>
    obtain ⟨r', hr', hfirst⟩ : ∃ r', items'.range = some r' ∧ r'.first = r.first := by
      simpa [hr] using hrange
    rw [hr']
    refine ⟨rfl, ?_⟩
    rw [List.map_append, List.map_append, List.map_reverse, List.map_reverse, hdone, hfirst,
      map_unplaced_rangeItems r.first d r.dash r'.dash, List.append_assoc]

theorem Items.Alike.range_eq_none (h : items.Alike base items') (hrange : items.range = none) :
    items'.range = none := by
  simpa [hrange] using h.range

/-- **One step**: alike states step alike. A newline may be skipped in both or in neither. -/
theorem State.Alike.exists_step (h : s.Alike base t) (hskip : c = '\n' → t.afterNewline = s.afterNewline)
    (hstep : Step s c s') : ∃ t', Step t c t' ∧ s'.Alike base t' := by
  obtain ⟨hitems, hescaping⟩ := h
  cases hstep with
  | skip hs hafter =>
    exact ⟨_, .skip (hescaping.trans hs) ((hskip rfl).trans hafter), hitems, rfl⟩
  | backslash hs => exact ⟨_, .backslash (hescaping.trans hs), hitems, rfl⟩
  | @literal _ d hliteral =>
    have hliteral' : t.literal? c = some d := by
      rw [← hliteral, State.literal?, State.literal?, hescaping]
    exact ⟨_, .literal hliteral', hitems.literal d _ _, rfl⟩
  | special hs hspecial hbackslash hdash hkeep hr =>
    have hkeep' : ¬(c = '\n' ∧ t.afterNewline = true) := by
      rintro ⟨hc, hafter⟩
      exact hkeep ⟨hc, (hskip hc).symm.trans hafter⟩
    have hstep' := Step.special (hescaping.trans hs) hspecial hbackslash hdash hkeep' (hitems.range_eq_none hr)
    refine ⟨_, hstep', ⟨hitems.range, ?_⟩, rfl⟩
    rw [List.map_cons, hitems.done]
    rfl
  | @dash first start done hs hr hdone =>
    have hdone' := hitems.done
    rw [hdone] at hdone'
    obtain ⟨item, done', hitem, hfirst, hrest⟩ := List.map_eq_cons_iff.mp hdone'
    cases item with
    | literal c place =>
      cases hfirst
      exact ⟨_, .dash (hescaping.trans hs) (hitems.range_eq_none hr) hitem, ⟨rfl, hrest⟩, rfl⟩
    | special | empty => cases hfirst

theorem State.Alike.exists_steps (h : s.Alike base t)
    (hskip : code.head? = some '\n' → t.afterNewline = s.afterNewline) (hsteps : Steps s code s') :
    ∃ t', Steps t code t' ∧ s'.Alike base t' := by
  induction hsteps generalizing t with
  | nil => exact ⟨t, .nil, h⟩
  | @cons s s₁ s' c code hstep hsteps ih =>
    obtain ⟨t₁, hstep', halike⟩ := h.exists_step (fun hc => hskip (by rw [hc]; rfl)) hstep
    have hafter : t₁.afterNewline = s₁.afterNewline := by
      rw [hstep.afterNewline_eq, hstep'.afterNewline_eq]
    obtain ⟨t', hsteps', halike'⟩ := ih halike fun _ => hafter
    exact ⟨t', .cons hstep' hsteps', halike'⟩

/-- States that are alike end with the same tokens, wherever they stand. -/
theorem State.Alike.shape_tokens (h : s.Alike [] t) :
    (tokens t.here t.items.done).map shape = (tokens s.here s.items.done).map shape := by
  have hdone := h.items.done
  rw [List.append_nil] at hdone
  exact shape_tokens_congr _ _ hdone

/-! ## After a newline -/

/-- As many newlines. -/
def newlines (n : Nat) : List Char := List.replicate n '\n'

/-- A newline that is not skipped is one more item. -/
theorem exists_step_newline (hescaping : s.escaping = false) (hafter : s.afterNewline = false)
    (hrange : s.items.range = none) : ∃ s', Step s '\n' s' ∧ s'.items.range = none ∧
      s'.items.done = .special '\n' s.here :: s.items.done :=
  ⟨_, .special hescaping isSpecialChar_newline (by decide) (by decide) (by simp [hafter]) hrange, hrange, rfl⟩

/-- After a newline, newlines do nothing. -/
theorem exists_steps_newlines (hescaping : s.escaping = false) (hafter : s.afterNewline = true) (n : Nat) :
    ∃ place, Steps s (newlines n) { s with here := place } := by
  induction n generalizing s with
  | zero => exact ⟨s.here, .nil⟩
  | succ n ih =>
    have hpast : s.past '\n' = { s with here := s.here.after '\n' } := by
      rw [State.past, hescaping, hafter]
      rfl
    obtain ⟨place, hsteps⟩ := @ih (s.past '\n') rfl rfl
    rw [hpast] at hsteps
    have hstep : Step s '\n' { s with here := s.here.after '\n' } := hpast ▸ .skip hescaping hafter
    exact ⟨place, .cons hstep hsteps⟩

/-- Code after a newline does the same after more of them. -/
theorem Steps.exists_after_newlines (h : Steps s code s') (hescaping : s.escaping = false)
    (hafter : s.afterNewline = true) (n : Nat) : ∃ t, Steps s (newlines n ++ code) t ∧ s'.Alike [] t := by
  obtain ⟨place, hnewlines⟩ := exists_steps_newlines hescaping hafter n
  have halike : s.Alike [] { s with here := place } := ⟨⟨rfl, (List.append_nil _).symm⟩, rfl⟩
  obtain ⟨t, hsteps, halike'⟩ := halike.exists_steps (fun _ => rfl) h
  exact ⟨t, steps_append_iff.mpr ⟨_, hnewlines, hsteps⟩, halike'⟩

variable {before after : List Char} {ts : List Token} {n : Nat}

/-- **After a newline, more newlines change nothing** that the tokens say. -/
theorem exists_scanChars_newlines (h : scanChars (before ++ after) = .ok ts)
    (hlast : before.getLast? = some '\n') (n : Nat) :
    ∃ us, scanChars (before ++ newlines n ++ after) = .ok us ∧ us.map shape = ts.map shape := by
  obtain ⟨s', hsteps, hrange, rfl⟩ := scanChars_eq_ok_iff.mp h
  obtain ⟨s, hbefore, hafter⟩ := steps_append_iff.mp hsteps
  obtain ⟨past, rfl⟩ := List.getLast?_eq_some_iff.mp hlast
  obtain ⟨_, _, hstep⟩ := steps_concat_iff.mp hbefore
  obtain ⟨t, hafter', halike⟩ :=
    hafter.exists_after_newlines (hstep.escaping_eq_false (by decide)) hstep.afterNewline_eq n
  have hsteps' := steps_append_iff.mpr ⟨s, hbefore, hafter'⟩
  rw [← List.append_assoc] at hsteps'
  exact ⟨_, scanChars_eq_ok_iff.mpr ⟨t, hsteps', halike.items.range_eq_none hrange, rfl⟩, halike.shape_tokens⟩

/-! ## At the end of the code -/

theorem rangeItems_ne_nil (first last : Char) (dash : Place) : rangeItems first last dash ≠ [] := by
  unfold rangeItems
  split
  · exact List.cons_ne_nil _ _
  · next hlt =>
    have htext : (first...=last).toList ≠ [] :=
      fun hnil => Std.Rcc.toList_eq_nil_iff.mp hnil (Char.not_lt.mp hlt)
    exact mt List.map_eq_nil_iff.mp htext

/-- A literal character ends no line, and neither does the range that ends at it. -/
theorem isLineEnd_literal (items : Items) (d : Char) (place : Place) :
    (items.literal d place).done.head?.any Item.isLineEnd = false := by
  unfold Items.literal
  split
  · rfl
  · next r hr =>
    have hne : (rangeItems r.first d r.dash).reverse ≠ [] :=
      mt List.reverse_eq_nil_iff.mp (rangeItems_ne_nil r.first d r.dash)
    rw [List.head?_append_of_ne_nil _ hne, List.head?_reverse]
    cases hlast : (rangeItems r.first d r.dash).getLast? with
    | none => rfl
    | some item =>
      have hspecial : ¬item.IsSpecial := not_isSpecial_of_mem_rangeItems (List.mem_of_getLast? hlast)
      cases item with
      | special => exact absurd trivial hspecial
      | literal | empty => rfl

/-- The latest item ends a line only where the latest character is a newline. -/
theorem Step.isLineEnd_eq_false (h : Step s c s') (hrange : s'.items.range = none) (hnewline : c ≠ '\n')
    (hbackslash : c ≠ '\\') : s'.items.done.head?.any Item.isLineEnd = false := by
  cases h with
  | skip => exact absurd rfl hnewline
  | backslash => exact absurd rfl hbackslash
  | literal => exact isLineEnd_literal _ _ _
  | special => exact beq_eq_false_iff_ne.mpr hnewline
  | dash => cases hrange

/-- **At the end of the code, more newlines change nothing** that the tokens say, but for a backslash. -/
theorem exists_scanChars_end (h : scanChars code = .ok ts) (hlast : code.getLast? ≠ some '\\') (n : Nat) :
    ∃ us, scanChars (code ++ newlines n) = .ok us ∧ us.map shape = ts.map shape := by
  by_cases hnewline : code.getLast? = some '\n'
  · rw [← List.append_nil code] at h
    obtain ⟨us, hus, hshapes⟩ := exists_scanChars_newlines h hnewline n
    exact ⟨us, by rwa [List.append_nil] at hus, hshapes⟩
  obtain ⟨s, hsteps, hrange, rfl⟩ := scanChars_eq_ok_iff.mp h
  have hopen : s.escaping = false ∧ s.afterNewline = false ∧ s.items.done.head?.any Item.isLineEnd = false := by
    obtain rfl | ⟨past, c, rfl⟩ := code.eq_nil_or_concat'
    · cases hsteps
      exact ⟨rfl, rfl, rfl⟩
    · rw [List.getLast?_concat] at hlast hnewline
      obtain ⟨_, _, hstep⟩ := steps_concat_iff.mp hsteps
      have hbackslash : c ≠ '\\' := fun hc => hlast (congrArg some hc)
      have hnewline : c ≠ '\n' := fun hc => hnewline (congrArg some hc)
      exact ⟨hstep.escaping_eq_false hbackslash, hstep.afterNewline_eq.trans (beq_eq_false_iff_ne.mpr hnewline),
        hstep.isLineEnd_eq_false hrange hnewline hbackslash⟩
  obtain ⟨hescaping, hafter, hlineEnd⟩ := hopen
  cases n with
  | zero => exact ⟨_, (congrArg scanChars (List.append_nil code)).trans h, rfl⟩
  | succ n =>
    -- The first of the newlines is what would have been added, and the others do nothing.
    obtain ⟨s₁, hstep, hrange₁, hdone⟩ := exists_step_newline hescaping hafter hrange
    obtain ⟨place, hnewlines⟩ :=
      exists_steps_newlines (hstep.escaping_eq_false (by decide)) hstep.afterNewline_eq n
    have hsteps' := steps_append_iff.mpr ⟨s, hsteps, .cons hstep hnewlines⟩
    refine ⟨_, scanChars_eq_ok_iff.mpr ⟨_, hsteps', hrange₁, rfl⟩, ?_⟩
    rw [hdone, tokens_eq s.here, lineEnd, hlineEnd, if_neg Bool.false_ne_true,
      ← List.reverse_cons]
    rfl

/-! ## Before all code -/

/-- A special item that was done first stays the first: only literal ones are taken away. -/
theorem Steps.first_suffix {first : Item} (h : Steps s code s') (hspecial : first.IsSpecial)
    (hfirst : [first] <:+ s.items.done) : [first] <:+ s'.items.done := by
  induction h with
  | nil => exact hfirst
  | cons hstep _ ih =>
    refine ih ?_
    cases hstep with
    | skip | backslash => exact hfirst
    | special => exact hfirst.trans (List.suffix_cons _ _)
    | literal =>
      unfold Items.literal
      split
      · exact hfirst.trans (List.suffix_cons _ _)
      · exact hfirst.trans (List.suffix_append _ _)
    | dash _ _ hdone =>
      rw [hdone] at hfirst
      obtain heq | hfirst := List.suffix_cons_iff.mp hfirst
      · cases heq
        exact hspecial.elim
      · exact hfirst

/-- **Before all code, newlines are one token** that the code does without. -/
theorem exists_scanChars_start (h : scanChars code = .ok ts) (hn : n ≠ 0) :
    ∃ us, scanChars (newlines n ++ code) = .ok (⟨['\n'], .special, .start⟩ :: us) := by
  obtain ⟨n, rfl⟩ := Nat.exists_eq_succ_of_ne_zero hn
  obtain ⟨s, hsteps, hrange, rfl⟩ := scanChars_eq_ok_iff.mp h
  obtain ⟨s₁, hstep, hrange₁, hdone⟩ := @exists_step_newline .start rfl rfl rfl
  -- What the code begins with may be one more newline to be skipped.
  have hcode : ∃ m rest t₁, newlines n ++ code = newlines m ++ rest ∧ Steps s₁ rest t₁ ∧
      t₁.items.range = none := by
    by_cases hhead : code.head? = some '\n'
    · obtain ⟨rest, rfl⟩ := List.head?_eq_some_iff.mp hhead
      obtain _ | ⟨hfirst, hrest⟩ := hsteps
      rw [hfirst.unique hstep] at hrest
      exact ⟨n + 1, rest, s, by simp [newlines, List.replicate_succ'], hrest, hrange⟩
    · have halike : State.start.Alike [.special '\n' .start] s₁ :=
        ⟨⟨by rw [hrange₁]; rfl, by rw [hdone]; rfl⟩, hstep.escaping_eq_false (by decide)⟩
      obtain ⟨t₁, hsteps₁, halike₁⟩ := halike.exists_steps (fun h => absurd h hhead) hsteps
      exact ⟨n, code, t₁, rfl, hsteps₁, halike₁.items.range_eq_none hrange⟩
  obtain ⟨m, rest, t₁, hrest, hsteps₁, hrange'⟩ := hcode
  obtain ⟨t, hsteps', halike⟩ :=
    hsteps₁.exists_after_newlines (hstep.escaping_eq_false (by decide)) hstep.afterNewline_eq m
  have hall : Steps .start (newlines (n + 1) ++ code) t := by
    rw [newlines, List.replicate_succ, List.cons_append, ← newlines, hrest]
    exact .cons hstep hsteps'
  have hfirst : [.special '\n' .start] <:+ t.items.done :=
    hsteps'.first_suffix trivial (hdone ▸ List.suffix_refl _)
  obtain ⟨newer, hnewer⟩ := hfirst
  refine ⟨runs (newer.reverse ++ lineEnd t.here t.items.done),
    scanChars_eq_ok_iff.mpr ⟨t, hall, halike.items.range_eq_none hrange', ?_⟩⟩
  rw [tokens_eq, ← hnewer, List.reverse_append]
  rfl

end GridPattern.Lexer
