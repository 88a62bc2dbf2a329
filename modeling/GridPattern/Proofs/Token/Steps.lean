import GridPattern.Proofs.Token.Scanning

/-!
# Reading without faults

The lexer looks past a character only for the text of a fault. As long as nothing is at fault, what a
character does is told by the state and the character alone, and what was read of code is not changed by
what comes after it.

`Step` says once what a character can do, and `Steps` what all characters of code do one after the other.

**The law** (`scanChars_eq_ok_iff`). Code is scanned to tokens exactly if there are steps through all of it
to a state in which no range is open. The tokens are those of the items done there.
-/

namespace GridPattern.Lexer

open Token

/-- Nothing was at fault so far. -/
structure State.Faultless (s : State) : Prop where
  escapes : s.faults = []
  ranges : s.items.faults = []

/-- The state past a character that no item is made of. -/
def State.past (s : State) (c : Char) : State :=
  { s with here := s.here.after c, afterNewline := c == '\n', escaping := false }

/-- What a character stands for in a state in which it is literal. -/
def State.literal? (s : State) (c : Char) : Option Char :=
  if s.escaping then escaped? c else if isSpecialChar c then none else some c

/-- **What one character does** without a fault. -/
inductive Step (s : State) : Char → State → Prop
  | skip : s.escaping = false → s.afterNewline = true → Step s '\n' (s.past '\n')
  | backslash : s.escaping = false → Step s '\\' { s.past '\\' with escaping := true }
  | literal {c d : Char} : s.literal? c = some d →
      Step s c { s.past c with items := s.items.literal d s.here }
  | special {c : Char} : s.escaping = false → isSpecialChar c = true → c ≠ '\\' → c ≠ '-' →
      ¬(c = '\n' ∧ s.afterNewline = true) → s.items.range = none →
      Step s c { s.past c with items := { s.items with done := .special c s.here :: s.items.done } }
  /-- A dash takes the latest item away and opens a range from it. -/
  | dash {first : Char} {start : Place} {done : List Item} : s.escaping = false →
      s.items.range = none → s.items.done = .literal first start :: done →
      Step s '-' { s.past '-' with items := ⟨done, some ⟨first, start, s.here⟩, s.items.faults⟩ }

/-- **What code does**, character by character. -/
inductive Steps : State → List Char → State → Prop
  | nil {s : State} : Steps s [] s
  | cons {s s₁ s' : State} {c : Char} {code : List Char} : Step s c s₁ → Steps s₁ code s' →
      Steps s (c :: code) s'

variable {s s' : State} {c : Char} {code later : List Char}

/-! ## Steps and reading -/

theorem special_of_none {items : Items} (h : items.range = none) (hc : c ≠ '-') (place : Place) :
    items.special c place = { items with done := .special c place :: items.done } := by
  rw [Items.special, if_neg hc, giveUp_of_none h]

/-- A range that is given up is at fault. -/
theorem range_of_giveUp {items : Items} (h : items.giveUp.faults = []) : items.range = none := by
  unfold Items.giveUp at h
  split at h
  · assumption
  · exact absurd h (by simp)

theorem faults_giveUp (items : Items) : items.faults <+: items.giveUp.faults := by
  unfold Items.giveUp
  split
  · exact List.prefix_refl _
  · exact List.prefix_append _ _

theorem faults_dash (items : Items) (place : Place) : items.faults <+: (items.dash place).faults := by
  unfold Items.dash
  split
  · exact List.prefix_refl _
  · exact List.prefix_append _ _

theorem faults_literal (items : Items) (d : Char) (place : Place) :
    (items.literal d place).faults = items.faults := by
  unfold Items.literal
  split <;> rfl

theorem faults_special (items : Items) (c : Char) (place : Place) :
    items.giveUp.faults <+: (items.special c place).faults := by
  unfold Items.special
  split
  · exact faults_dash _ _
  · exact List.prefix_refl _

/-- A fault is never taken back. -/
theorem faultless_of_step (h : (s.step c later).Faultless) : s.Faultless := by
  obtain ⟨hescapes, hranges⟩ := h
  have hkept : s.faults <+: (s.step c later).faults ∧
      s.items.faults <+: (s.step c later).items.faults := by
    unfold State.step
    dsimp only
    split_ifs with hescaping hskip hbackslash
    · unfold State.escaped
      split
      · exact ⟨List.prefix_refl _, (faults_literal _ _ _).symm ▸ List.prefix_refl _⟩
      · exact ⟨List.prefix_append _ _, (faults_literal _ _ _).symm ▸ List.prefix_refl _⟩
    · exact ⟨List.prefix_refl _, List.prefix_refl _⟩
    · exact ⟨List.prefix_refl _, List.prefix_refl _⟩
    · unfold State.plain
      split
      · exact ⟨List.prefix_refl _, (faults_giveUp _).trans (faults_special _ _ _)⟩
      · exact ⟨List.prefix_refl _, (faults_literal _ _ _).symm ▸ List.prefix_refl _⟩
  rw [hescapes, hranges] at hkept
  exact ⟨List.prefix_nil.mp hkept.1, List.prefix_nil.mp hkept.2⟩

theorem faultless_of_read (h : (read s code).Faultless) : s.Faultless := by
  induction code generalizing s with
  | nil => exact h
  | cons c later ih => exact faultless_of_step (ih h)

theorem Step.faultless (h : Step s c s') (hs : s.Faultless) : s'.Faultless := by
  cases h with
  | literal => exact ⟨hs.escapes, (faults_literal _ _ _).trans hs.ranges⟩
  | skip | backslash | special | dash => exact ⟨hs.escapes, hs.ranges⟩

/-- The character read last tells whether a newline is skipped. -/
theorem Step.afterNewline_eq (h : Step s c s') : s'.afterNewline = (c == '\n') := by
  cases h <;> rfl

/-- Only a backslash escapes. -/
theorem Step.escaping_eq_false (h : Step s c s') (hc : c ≠ '\\') : s'.escaping = false := by
  cases h with
  | backslash => exact absurd rfl hc
  | skip | literal | special | dash => rfl

theorem Step.step_eq (h : Step s c s') (later : List Char) : s.step c later = s' := by
  cases h with
  | skip hescaping hafter => simp [State.step, State.past, hescaping, hafter]
  | backslash hescaping => simp [State.step, State.past, hescaping]
  | @literal c d hliteral =>
    unfold State.literal? at hliteral
    split_ifs at hliteral with hescaping hspecial
    · simp [State.step, State.past, State.escaped, hescaping, hliteral]
    · cases hliteral
      have hspecial : isSpecialChar c = false := by simpa using hspecial
      have hnewline : c ≠ '\n' := ne_of_ordinary hspecial isSpecialChar_newline
      have hbackslash : c ≠ '\\' := ne_of_ordinary hspecial (by decide)
      simp [State.step, State.past, State.plain, hescaping, hspecial, hnewline, hbackslash]
  | special hescaping hspecial hbackslash hdash hskip hrange =>
    simp [State.step, State.past, State.plain, special_of_none, *]
  | dash hescaping hrange hdone =>
    have hspecial : isSpecialChar '-' = true := by decide
    simp [State.step, State.past, State.plain, Items.special, Items.dash, giveUp_of_none hrange, *]

theorem Step.unique {s₁ s₂ : State} (h : Step s c s₁) (h' : Step s c s₂) : s₁ = s₂ :=
  (h.step_eq []).symm.trans (h'.step_eq [])

/-- **There are no other faultless steps.** -/
theorem step_of_faultless (h : (s.step c later).Faultless) : Step s c (s.step c later) := by
  suffices hstep : ∃ s', Step s c s' by
    obtain ⟨s', hstep⟩ := hstep
    rwa [hstep.step_eq later]
  obtain ⟨hescapes, hranges⟩ := h
  unfold State.step at hescapes hranges
  by_cases hescaping : s.escaping = true
  · rw [if_pos hescaping] at hescapes
    cases hliteral : escaped? c with
    | some d =>
      have hliteral : s.literal? c = some d := by rw [State.literal?, if_pos hescaping, hliteral]
      exact ⟨_, .literal hliteral⟩
    | none => simp [State.escaped, hliteral] at hescapes
  rw [if_neg hescaping] at hescapes hranges
  have hescaping : s.escaping = false := by simpa using hescaping
  by_cases hskip : c = '\n' ∧ s.afterNewline = true
  · obtain ⟨rfl, hafter⟩ := hskip
    exact ⟨_, .skip hescaping hafter⟩
  rw [if_neg hskip] at hranges
  by_cases hbackslash : c = '\\'
  · subst hbackslash
    exact ⟨_, .backslash hescaping⟩
  rw [if_neg hbackslash] at hranges
  by_cases hspecial : isSpecialChar c = true
  · have hranges : (s.items.special c s.here).faults = [] := by
      simpa [State.plain, hspecial] using hranges
    have hrange : s.items.range = none :=
      range_of_giveUp (List.prefix_nil.mp (hranges ▸ faults_special s.items c s.here))
    by_cases hdash : c = '-'
    · subst hdash
      rw [Items.special, if_pos rfl, giveUp_of_none hrange, Items.dash] at hranges
      split at hranges
      · next first start done hdone => exact ⟨_, .dash hescaping hrange hdone⟩
      · simp at hranges
    · exact ⟨_, .special hescaping hspecial hbackslash hdash hskip hrange⟩
  · have hliteral : s.literal? c = some c := by simp [State.literal?, hescaping, hspecial]
    exact ⟨_, .literal hliteral⟩

theorem Steps.faultless (h : Steps s code s') (hs : s.Faultless) : s'.Faultless := by
  induction h with
  | nil => exact hs
  | cons hstep _ ih => exact ih (hstep.faultless hs)

theorem Steps.read_eq (h : Steps s code s') : read s code = s' := by
  induction h with
  | nil => rfl
  | @cons s s₁ s' c code hstep _ ih => rw [read, hstep.step_eq code, ih]

theorem steps_of_faultless (h : (read s code).Faultless) : Steps s code (read s code) := by
  induction code generalizing s with
  | nil => exact .nil
  | cons c later ih => exact .cons (step_of_faultless (faultless_of_read h)) (ih h)

theorem steps_append_iff :
    Steps s (code ++ later) s' ↔ ∃ s₁, Steps s code s₁ ∧ Steps s₁ later s' := by
  induction code generalizing s with
  | nil =>
    constructor
    · intro h
      exact ⟨s, .nil, h⟩
    · rintro ⟨_, ⟨⟩, h⟩
      exact h
  | cons c code ih =>
    constructor
    · rintro (_ | ⟨hstep, h⟩)
      obtain ⟨s₁, hcode, hlater⟩ := ih.mp h
      exact ⟨s₁, .cons hstep hcode, hlater⟩
    · rintro ⟨s₁, _ | ⟨hstep, hcode⟩, hlater⟩
      exact .cons hstep (ih.mpr ⟨s₁, hcode, hlater⟩)

theorem steps_singleton_iff : Steps s [c] s' ↔ Step s c s' := by
  constructor
  · rintro (_ | ⟨hstep, ⟨⟩⟩)
    exact hstep
  · intro h
    exact .cons h .nil

theorem steps_concat_iff : Steps s (code ++ [c]) s' ↔ ∃ s₁, Steps s code s₁ ∧ Step s₁ c s' := by
  simp only [steps_append_iff, steps_singleton_iff]

theorem Steps.here_eq (h : Steps s code s') : s'.here = s.here.afterAll code := by
  rw [← h.read_eq, read_here]

/-! ## Scanning by steps -/

theorem faultless_start : State.start.Faultless := ⟨rfl, rfl⟩

/-- **Code that can be scanned** is code that has steps, to a state without an open range. -/
theorem scanChars_eq_ok_iff {ts : List Token} : scanChars code = .ok ts ↔
    ∃ s, Steps .start code s ∧ s.items.range = none ∧ ts = tokens s.here s.items.done := by
  have hsettled : Reads .start (settle .start false code) (read .start code) :=
    (readsAll code).plain .start rfl
  have hkeeps : Keeps [] State.start.items := ⟨.nil, rfl⟩
  have hpasses := spellRanges_passes [] _ _ hkeeps hsettled.each
  rw [← hsettled.items] at hpasses
  have hfinish : endLastLine (Place.start.afterAll code)
      (joinStrings (spellRanges [] (settle .start false code).1).1) =
        tokens (read .start code).here (read .start code).items.giveUp.done := by
    rw [hpasses.spells.joinStrings, endLastLine_runs, read_here]
    rfl
  -- Scanned by its passes, code is at fault where the lexer is.
  have hscan : scanChars code = .ok ts ↔
      (settle .start false code).2 ++ (spellRanges [] (settle .start false code).1).2 = [] ∧
        endLastLine (Place.start.afterAll code)
          (joinStrings (spellRanges [] (settle .start false code).1).1) = ts := by
    unfold scanChars settle
    dsimp only
    split
    · next hnone => simp [hnone]
    · next hsome => exact ⟨nofun, fun h => absurd h.1 hsome⟩
  have hescapes : (settle .start false code).2 = (read .start code).faults := hsettled.faults.symm
  have hranges : (spellRanges [] (settle .start false code).1).2 =
      (read .start code).items.giveUp.faults := hpasses.faults.symm
  rw [hscan, hfinish, hescapes, hranges, List.append_eq_nil_iff, and_assoc]
  constructor
  · rintro ⟨hescapes, hranges, hts⟩
    have hrange := range_of_giveUp hranges
    rw [giveUp_of_none hrange] at hranges hts
    exact ⟨_, steps_of_faultless ⟨hescapes, hranges⟩, hrange, hts.symm⟩
  · rintro ⟨s, hsteps, hrange, hts⟩
    have hs := hsteps.faultless faultless_start
    rw [hsteps.read_eq, giveUp_of_none hrange]
    exact ⟨hs.escapes, hs.ranges, hts.symm⟩

end GridPattern.Lexer
