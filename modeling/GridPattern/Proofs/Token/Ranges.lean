import GridPattern.Proofs.Token.Items
import Mathlib.Data.List.Sort

/-!
# Ranges, item by item

The range pass keeps the tokens done with, the latest first, and the lexer the items done with. What the
one keeps spells what the other keeps, so they find the same characters before a dash, and the same
dashes at fault.

A string of the pass need not stand where its first character does: what is left of the string after a
dash keeps the place of the character that the range took. Such a string comes right after the range, so
no string of the scan ends up there.
-/

namespace GridPattern.Token

theorem toNat_ofNat {point : Nat} (h : point.isValidChar) : (Char.ofNat point).toNat = point := by
  rw [Char.ofNat, dif_pos h]
  rfl

/-- **The characters of a range** are those from the first to the last. -/
theorem mem_charsBetween {first last c : Char} :
    c ∈ charsBetween first last ↔ first ≤ c ∧ c ≤ last := by
  have hle : ∀ a b : Char, a ≤ b ↔ a.toNat ≤ b.toNat := fun a b => Iff.rfl
  rw [charsBetween, List.mem_filterMap, hle, hle]
  constructor
  · intro found
    rcases found with ⟨point, hpoint, hc⟩
    split at hc
    · next hvalid =>
      cases hc
      rw [List.mem_range'_1] at hpoint
      rw [toNat_ofNat hvalid]
      omega
    · cases hc
  · intro found
    rcases found with ⟨hfirst, hlast⟩
    have hvalid : c.toNat.isValidChar := c.valid
    refine ⟨c.toNat, List.mem_range'_1.mpr (by omega), ?_⟩
    rw [if_pos hvalid, Char.ofNat_toNat]

/-- They come in order. -/
theorem charsBetween_ascending (first last : Char) : (charsBetween first last).Pairwise (· < ·) := by
  refine List.Pairwise.filterMap _ ?_ (List.pairwise_lt_range' 1)
  intro m n hlt c hc d hd
  split at hc
  · next hm =>
    split at hd
    · next hn =>
      cases hc
      cases hd
      show (Char.ofNat m).toNat < (Char.ofNat n).toNat
      rwa [toNat_ofNat hm, toNat_ofNat hn]
    · cases hd
  · cases hc

theorem charsBetween_eq (first last : Char) : charsBetween first last = (first...=last).toList := by
  apply (charsBetween_ascending first last).eq_of_mem_iff Std.Rcc.pairwise_toList_lt
  intro c
  rw [mem_charsBetween, Std.Rcc.mem_toList_iff_mem, Std.Rcc.mem_iff]

end GridPattern.Token

namespace GridPattern.Lexer

open Token

/-- Whether the latest of the tokens done with is a string. -/
def AfterString (before : List Token) : Prop := ∃ t more, before = t :: more ∧ t.isString = true

/-- **Tokens done with spell items done with**, the latest of both first. A string after a string may
stand anywhere. -/
inductive Spells : List Token → List Item → Prop
  | nil : Spells [] []
  | special {before : List Token} {done : List Item} {c : Char} {place : Place} : Spells before done →
      Spells (⟨[c], .special, place⟩ :: before) (.special c place :: done)
  | empty {before : List Token} {done : List Item} {place : Place} : Spells before done →
      Spells (⟨[], .string, place⟩ :: before) (.empty place :: done)
  | first {before : List Token} {done : List Item} {c : Char} {place start : Place} :
      start = place ∨ AfterString before → Spells before done →
      Spells (⟨[c], .string, place⟩ :: before) (.literal c start :: done)
  | more {before : List Token} {done : List Item} {text : List Char} {c : Char} {place start : Place} :
      text ≠ [] → Spells (⟨text, .string, place⟩ :: before) done →
      Spells (⟨text ++ [c], .string, place⟩ :: before) (.literal c start :: done)

variable {before : List Token} {done : List Item} {place : Place}

/-- Characters of a range that go on with a string. -/
theorem Spells.append {text : List Char} (h : Spells (⟨text, .string, place⟩ :: before) done)
    (hne : text ≠ []) (more : List Char) (dash : Place) :
    Spells (⟨text ++ more, .string, place⟩ :: before)
      ((more.map (Item.literal · dash)).reverse ++ done) := by
  induction more generalizing text done with
  | nil => simpa using h
  | cons c more ih =>
    have hlonger : Spells (⟨text ++ [c], .string, place⟩ :: before) (.literal c dash :: done) :=
      .more hne h
    simpa using ih hlonger (by simp)

/-- Tokens and items end with the same literal character, if with any. -/
theorem Spells.takeLast (h : Spells before done) :
    (takeLast? before = none ∧ ∀ c start done', done ≠ .literal c start :: done') ∨
      ∃ c start before' done', takeLast? before = some (c, before') ∧
        done = .literal c start :: done' ∧ Spells before' done' := by
  cases h with
  | nil | special h | empty h => exact .inl ⟨rfl, by simp⟩
  | first _ h => exact .inr ⟨_, _, _, _, rfl, rfl, h⟩
  | @more before done text c place start hne h =>
    refine .inr ⟨c, start, ⟨text, .string, place⟩ :: before, done, ?_, rfl, h⟩
    simp [takeLast?, isString, consUnlessEmpty, hne]

/-- A range is pushed in place of its first character. -/
theorem Spells.range (h : Spells before done) (first last : Char) (dash : Place) :
    Spells (⟨charsBetween first last, .string, dash⟩ :: before)
      ((rangeItems first last dash).reverse ++ done) := by
  rw [charsBetween_eq, rangeItems]
  by_cases hlt : last < first
  · have hnil : (first...=last).toList = [] :=
      Std.Rcc.toList_eq_nil_iff.mpr (Char.not_le.mpr hlt)
    rw [if_pos hlt, hnil]
    exact .empty h
  · rw [if_neg hlt]
    have hne : (first...=last).toList ≠ [] :=
      fun hnil => Std.Rcc.toList_eq_nil_iff.mp hnil (Char.not_lt.mp hlt)
    obtain ⟨c, text, htext⟩ := List.exists_cons_of_ne_nil hne
    have hfirst : Spells (⟨[c], .string, dash⟩ :: before) (.literal c dash :: done) :=
      .first (.inl rfl) h
    have htext' := hfirst.append (List.cons_ne_nil c []) text dash
    rw [htext]
    simpa using htext'

/-! ## Feeding -/

theorem giveUp_of_none {items : Items} (h : items.range = none) : items.giveUp = items := by
  rw [Items.giveUp, h]

theorem giveUp_range (items : Items) : items.giveUp.range = none := by
  unfold Items.giveUp
  split
  · assumption
  · rfl

/-- A special character is fed alike where the open range was given up. -/
theorem feed_giveUp (items : Items) (c : Char) (place : Place) :
    feed items.giveUp ⟨[c], .special, place⟩ = feed items ⟨[c], .special, place⟩ := by
  simp only [feed, Items.special, giveUp_of_none (giveUp_range items)]

/-- What the passes keep, as against the items of the lexer. -/
structure Keeps (before : List Token) (items : Items) : Prop where
  spells : Spells before items.done
  closed : items.range = none

theorem Keeps.special {items : Items} (h : Keeps before items) (c : Char) (hc : c ≠ '-')
    (place : Place) : Keeps (⟨[c], .special, place⟩ :: before) (feed items ⟨[c], .special, place⟩) ∧
      (feed items ⟨[c], .special, place⟩).faults = items.faults := by
  simp only [feed, Items.special, if_neg hc, giveUp_of_none h.closed]
  exact ⟨⟨.special h.spells, h.closed⟩, trivial⟩

theorem literal_of_none {items : Items} (h : items.range = none) (c : Char) (start : Place) :
    items.literal c start = { items with done := .literal c start :: items.done } := by
  rw [Items.literal, h]

theorem feedText_append {items : Items} {text : List Char} (hne : text ≠ [])
    (h : Keeps (⟨text, .string, place⟩ :: before) items) (start : Place) (more : List Char) :
    Keeps (⟨text ++ more, .string, place⟩ :: before) (feedText items start more) ∧
      (feedText items start more).faults = items.faults := by
  induction more generalizing items text start with
  | nil =>
    rw [List.append_nil]
    exact ⟨h, rfl⟩
  | cons c more ih =>
    rw [feedText, literal_of_none h.closed, List.append_cons]
    have hmore : Keeps (⟨text ++ [c], .string, place⟩ :: before)
        { items with done := .literal c start :: items.done } := ⟨.more hne h.spells, h.closed⟩
    exact ih (by simp) hmore ⟨start.line, start.col + 1⟩

theorem Keeps.string {items : Items} (h : Keeps before items) {text : List Char} (hne : text ≠ [])
    {start : Place} (hplace : start = place ∨ AfterString before) :
    Keeps (⟨text, .string, place⟩ :: before) (feedText items start text) ∧
      (feedText items start text).faults = items.faults := by
  obtain ⟨c, text, rfl⟩ := List.exists_cons_of_ne_nil hne
  rw [feedText, literal_of_none h.closed]
  have hfirst : Keeps (⟨[c], .string, place⟩ :: before)
      { items with done := .literal c start :: items.done } := ⟨.first hplace h.spells, h.closed⟩
  exact feedText_append (List.cons_ne_nil c []) hfirst ⟨start.line, start.col + 1⟩ text

/-- A dash without a literal character before it is at fault and stays. -/
theorem Keeps.dash_of_none {items : Items} (h : Keeps before items) (htake : takeLast? before = none)
    (place : Place) :
    Keeps (⟨['-'], .special, place⟩ :: before) (feed items ⟨['-'], .special, place⟩) ∧
      (feed items ⟨['-'], .special, place⟩).faults = items.faults ++ [⟨place, .rangeWithoutStart⟩] := by
  have hfeed : feed items ⟨['-'], .special, place⟩ = items.dash place := by
    simp only [feed, Items.special, if_true, giveUp_of_none h.closed]
  rw [hfeed]
  obtain ⟨_, hnone⟩ | ⟨_, _, _, _, hsome, _⟩ := h.spells.takeLast
  · unfold Items.dash
    split
    · next hdone => exact absurd hdone (hnone _ _ _)
    · exact ⟨⟨.special h.spells, h.closed⟩, rfl⟩
  · rw [hsome] at htake
    cases htake

/-- A dash with a literal character before it opens a range. -/
theorem Keeps.dash_of_some {items : Items} (h : Keeps before items) {first : Char}
    {before' : List Token} (htake : takeLast? before = some (first, before')) (place : Place) :
    ∃ start done, items.done = .literal first start :: done ∧ Spells before' done ∧
      feed items ⟨['-'], .special, place⟩ = ⟨done, some ⟨first, start, place⟩, items.faults⟩ := by
  obtain ⟨hnone, _⟩ | ⟨c, start, _, done, hsome, hdone, hspells⟩ := h.spells.takeLast
  · rw [hnone] at htake
    cases htake
  · rw [hsome] at htake
    cases htake
    refine ⟨start, done, hdone, hspells, ?_⟩
    simp only [feed, Items.special, if_true, giveUp_of_none h.closed, Items.dash, hdone]

/-- What is left of a string after a range goes on with the range. -/
theorem Keeps.rest {items : Items} (h : Keeps before items) (hafter : AfterString before)
    (text : List Char) (place start : Place) :
    Keeps (consUnlessEmpty ⟨text, .string, place⟩ before) (feedText items start text) ∧
      (feedText items start text).faults = items.faults := by
  by_cases hempty : text = []
  · subst hempty
    exact ⟨h, rfl⟩
  · have hcons : consUnlessEmpty ⟨text, .string, place⟩ before = ⟨text, .string, place⟩ :: before := by
      simp [consUnlessEmpty, hempty]
    rw [hcons]
    exact h.string hempty (.inr hafter)

/-! ## The range pass -/

/-- **What the range pass comes to** is what feeding comes to, at the end of the code. -/
structure Passes (items items' : Items) (spelled : List Token × List (Located ScanFault)) : Prop where
  spells : Spells spelled.1.reverse items'.giveUp.done
  faults : items'.giveUp.faults = items.faults ++ spelled.2

theorem Passes.of_faults {items items₁ items' : Items} {faults : List (Located ScanFault)}
    {spelled : List Token × List (Located ScanFault)} (h : Passes items₁ items' spelled)
    (hfaults : items₁.faults = items.faults ++ faults) :
    Passes items items' (spelled.1, faults ++ spelled.2) :=
  ⟨h.spells, by rw [h.faults, hfaults, List.append_assoc]⟩

/-- Where no string follows, an open range may as well be given up before. -/
theorem giveUp_foldl_feed {tokens : List Token} (each : ∀ t ∈ tokens, Settled t)
    (hnext : ∀ last text place more, tokens = ⟨last :: text, .string, place⟩ :: more → False)
    (items : Items) : (tokens.foldl feed items.giveUp).giveUp = (tokens.foldl feed items).giveUp := by
  cases tokens with
  | nil => exact giveUp_of_none (giveUp_range items)
  | cons t tokens =>
    cases each t List.mem_cons_self with
    | @string text place hne =>
      obtain ⟨c, text, rfl⟩ := List.exists_cons_of_ne_nil hne
      exact (hnext c text place tokens rfl).elim
    | special => rw [List.foldl_cons, feed_giveUp, List.foldl_cons]

theorem dash_eq {t : Token} (h : t.isSpecial '-' = true) : t = ⟨['-'], .special, t.place⟩ := by
  obtain ⟨text, kind, place⟩ := t
  simp_all [isSpecial]

theorem spellRanges_passes (before tokens : List Token) :
    ∀ items : Items, Keeps before items → (∀ t ∈ tokens, Settled t) →
      Passes items (tokens.foldl feed items) (spellRanges before tokens) := by
  fun_induction spellRanges before tokens with
  | case1 before =>
    intro items h each
    refine ⟨?_, ?_⟩
    · rw [List.foldl_nil, giveUp_of_none h.closed, List.reverse_reverse]
      exact h.spells
    · rw [List.foldl_nil, giveUp_of_none h.closed, List.append_nil]
  | case2 before t tokens hdash htake later ih =>
    intro items h each
    have hkeeps := h.dash_of_none htake t.place
    rw [← dash_eq hdash] at hkeeps
    exact (ih _ hkeeps.1 (List.forall_mem_of_forall_mem_cons each)).of_faults hkeeps.2
  | case3 before t hdash first before' htake last text place tokens range ih =>
    intro items h each
    -- The string after the dash ends the range that the dash opens and goes on after it.
    obtain ⟨start, done, _, hspells, hfeed⟩ := h.dash_of_some htake t.place
    rw [← dash_eq hdash] at hfeed
    have hrange : Keeps (range :: before')
        ⟨(rangeItems first last t.place).reverse ++ done, none, items.faults⟩ :=
      ⟨hspells.range first last t.place, rfl⟩
    obtain ⟨hkeeps, hfaults⟩ := hrange.rest ⟨range, before', rfl, rfl⟩ text place
      ⟨place.line, place.col + 1⟩
    have hpasses := ih _ hkeeps
      (List.forall_mem_of_forall_mem_cons (List.forall_mem_of_forall_mem_cons each))
    have hstring : feed (feed items t) ⟨last :: text, .string, place⟩ = feedText
        ⟨(rangeItems first last t.place).reverse ++ done, none, items.faults⟩
        ⟨place.line, place.col + 1⟩ text := by
      rw [hfeed]
      rfl
    rw [List.foldl_cons, List.foldl_cons, hstring]
    exact ⟨hpasses.spells, by rw [hpasses.faults, hfaults]⟩
  | case4 before t hdash first before' htake tokens hnext later ih =>
    intro items h each
    -- The pass looks ahead and the lexer does not: its range stays open until the next item.
    obtain ⟨start, done, hdone, _, hfeed⟩ := h.dash_of_some htake t.place
    rw [← dash_eq hdash] at hfeed
    have hkeeps : Keeps (t :: before) (feed items t).giveUp := by
      refine ⟨?_, giveUp_range _⟩
      rw [hfeed, dash_eq hdash]
      show Spells _ (.special '-' t.place :: .literal first start :: done)
      rw [← hdone]
      exact .special h.spells
    have hrest := List.forall_mem_of_forall_mem_cons each
    have hpasses := ih _ hkeeps hrest
    have hfaults : (feed items t).giveUp.faults = items.faults ++ [⟨t.place, .rangeWithoutEnd⟩] := by
      rw [hfeed]
      rfl
    have hgiveUp := giveUp_foldl_feed hrest hnext (feed items t)
    have hall := hpasses.of_faults hfaults
    exact ⟨hgiveUp ▸ hall.spells, hgiveUp ▸ hall.faults⟩
  | case5 before t tokens hdash ih =>
    intro items h each
    have hrest := List.forall_mem_of_forall_mem_cons each
    have hkeeps : Keeps (t :: before) (feed items t) ∧ (feed items t).faults = items.faults := by
      cases each t List.mem_cons_self with
      | string hne => exact h.string hne (.inl rfl)
      | special => exact h.special _ (by simpa [isSpecial] using hdash) _
    have hpasses := ih _ hkeeps.1 hrest
    exact ⟨hpasses.spells, by rw [List.foldl_cons, hpasses.faults, hkeeps.2]⟩

end GridPattern.Lexer
