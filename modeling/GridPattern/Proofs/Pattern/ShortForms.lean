import GridPattern.Proofs.Pattern.Grammar
import Mathlib.Data.List.Induction
import Mathlib.Data.List.TakeWhile
import Mathlib.Data.Nat.Digits.Lemmas
import Mathlib.Tactic.IntervalCases

/-!
# Reading short forms

The texts that the grammar describes letter by letter, params and bounds, are the texts that are read
without a flaw, and what is read is what they stand for.

**The laws** (`isParams_iff`, `isBounds_iff`).
-/

namespace GridPattern

/-! ## Digits -/

namespace Text

theorem digit?_eq (c : Char) :
    digit? c = if c.isDigit = true then some (c.toNat - '0'.toNat) else none := by
  have hc : ('0' ≤ c ∧ c ≤ '9') ↔ c.isDigit = true := by
    simp only [Char.isDigit, Bool.and_eq_true, decide_eq_true_eq]
    exact Iff.rfl
  unfold digit?
  simp only [hc]

/-- A run of digits stands for its value in base ten, the last digit the lowest. -/
theorem digits?_eq_some_iff {text : List Char} {n : Nat} :
    digits? text = some n ↔ (∀ c ∈ text, c.isDigit = true) ∧
      n = Nat.ofDigits 10 (text.reverse.map fun c => c.toNat - '0'.toNat) := by
  induction text using List.reverseRecOn generalizing n with
  | nil =>
    constructor
    · intro hfalse
      cases hfalse
      exact ⟨by simp, rfl⟩
    · intro found
      rcases found with ⟨_, rfl⟩
      rfl
  | append_singleton text c ih =>
    have hstep : digits? (text ++ [c]) =
        (digits? text).bind fun n => (digit? c).map (10 * n + ·) := by
      simp [digits?, List.foldlM_append]
    have hvalue : ∀ m, c.toNat - '0'.toNat + 10 * m = 10 * m + (c.toNat - '0'.toNat) :=
      fun m => Nat.add_comm ..
    rw [hstep, Option.bind_eq_some_iff, digit?_eq]
    simp only [ih, List.reverse_append, List.reverse_singleton, List.singleton_append, List.map_cons,
      Nat.ofDigits_cons, List.forall_mem_append, List.forall_mem_singleton]
    by_cases hc : c.isDigit = true
    · rw [if_pos hc]
      constructor
      · intro found
        rcases found with ⟨m, ⟨hall, rfl⟩, h⟩
        cases h
        exact ⟨⟨hall, hc⟩, (hvalue _).symm⟩
      · intro found
        rcases found with ⟨⟨hall, _⟩, rfl⟩
        exact ⟨_, ⟨hall, rfl⟩, congrArg some (hvalue _).symm⟩
    · rw [if_neg hc]
      constructor
      · intro found
        rcases found with ⟨m, _, h⟩
        cases h
      · intro found
        rcases found with ⟨⟨_, hc'⟩, _⟩
        exact absurd hc' hc

/-! ## White space -/

theorem isBlank_eq_false_of_isDigit {c : Char} (h : c.isDigit = true) : isBlank c = false := by
  have hc : 48 ≤ c.toNat ∧ c.toNat ≤ 57 := by
    simp only [Char.isDigit, Bool.and_eq_true, decide_eq_true_eq] at h
    exact h
  simp only [isBlank, Bool.or_eq_false_iff, Bool.and_eq_false_iff, decide_eq_false_iff_not,
    beq_eq_false_iff_ne]
  omega

/-- What is left after trimming stands between blanks. -/
theorem exists_trim (text : List Char) : ∃ before after, text = before ++ trim text ++ after ∧
    (∀ c ∈ before, isBlank c = true) ∧ ∀ c ∈ after, isBlank c = true := by
  refine ⟨text.takeWhile isBlank,
    ((text.dropWhile isBlank).reverse.takeWhile isBlank).reverse, ?_, ?_, ?_⟩
  · unfold trim
    rw [List.append_assoc, ← List.reverse_append, List.takeWhile_append_dropWhile, List.reverse_reverse,
      List.takeWhile_append_dropWhile]
  · exact fun c mem => List.mem_takeWhile_imp mem
  · exact fun c mem => List.mem_takeWhile_imp (List.mem_reverse.mp mem)

/-- Blanks are dropped up to a character that is none. -/
theorem dropWhile_blanks {blanks text rest : List Char} (hne : text ≠ [])
    (hblanks : ∀ c ∈ blanks, isBlank c = true) (htext : ∀ c ∈ text, isBlank c = false) :
    (blanks ++ (text ++ rest)).dropWhile isBlank = text ++ rest := by
  obtain ⟨c, text, rfl⟩ := List.exists_cons_of_ne_nil hne
  have hc : ¬isBlank c = true := by simp [htext c List.mem_cons_self]
  rw [List.dropWhile_append_of_pos hblanks, List.cons_append, List.dropWhile_cons_of_neg hc]

/-- Between blanks, a text without a blank is what is left after trimming. -/
theorem trim_eq {before text after : List Char} (hne : text ≠ [])
    (hbefore : ∀ c ∈ before, isBlank c = true) (htext : ∀ c ∈ text, isBlank c = false)
    (hafter : ∀ c ∈ after, isBlank c = true) : trim (before ++ text ++ after) = text := by
  have hback : (text ++ after).reverse.dropWhile isBlank = text.reverse := by
    have hdrop : (after.reverse ++ (text.reverse ++ [])).dropWhile isBlank = text.reverse ++ [] :=
      dropWhile_blanks (List.reverse_ne_nil_iff.mpr hne)
        (fun c mem => hafter c (List.mem_reverse.mp mem)) fun c mem => htext c (List.mem_reverse.mp mem)
    rw [List.append_nil] at hdrop
    rw [List.reverse_append, hdrop]
  unfold trim
  rw [List.append_assoc, dropWhile_blanks hne hbefore htext, hback, List.reverse_reverse]

/-! ## Integers -/

theorem withoutPlus_of_digits {digits : List Char} (h : ∀ c ∈ digits, c.isDigit = true) :
    withoutPlus digits = digits := by
  unfold withoutPlus
  split
  · next rest =>
    have hplus := h '+' List.mem_cons_self
    exact absurd hplus (by decide)
  · rfl

theorem exists_sign (text : List Char) :
    ∃ sign, text = sign ++ withoutPlus text ∧ (sign = [] ∨ sign = ['+']) := by
  unfold withoutPlus
  split
  · exact ⟨['+'], rfl, .inr rfl⟩
  · exact ⟨[], rfl, .inl rfl⟩

theorem number?_eq_some_iff {text : List Char} {n : Nat} :
    number? text = some n ↔
      withoutPlus text ≠ [] ∧ digits? (withoutPlus text) = some n ∧ n < 2 ^ 64 := by
  change (if (withoutPlus text).isEmpty then none
    else (digits? (withoutPlus text)).filter (· < wordBound)) = some n ↔ _
  by_cases h : withoutPlus text = []
  · simp [h]
  · rw [if_neg (by rwa [List.isEmpty_iff]), Option.filter_eq_some_iff, decide_eq_true_eq]
    exact ⟨fun hn => ⟨h, hn⟩, fun hn => hn.2⟩

/-- **An integer is what is read as a number** once the white space around it is gone. -/
theorem number?_trim_eq_some_iff {text : List Char} {n : Nat} :
    number? (trim text) = some n ↔ Grammar.IsInteger text n := by
  constructor
  · intro h
    obtain ⟨before, after, htext, hbefore, hafter⟩ := exists_trim text
    obtain ⟨sign, hsign, hplus⟩ := exists_sign (trim text)
    obtain ⟨hne, hdigits, hlt⟩ := number?_eq_some_iff.mp h
    obtain ⟨hall, hn⟩ := digits?_eq_some_iff.mp hdigits
    refine ⟨before, sign, withoutPlus (trim text), after, ?_, hbefore, hafter, hplus, hne, hall, hn, hlt⟩
    rw [List.append_assoc before, ← hsign]
    exact htext
  · intro found
    rcases found with ⟨before, sign, digits, after, rfl, hbefore, hafter, hsign, hne, hall, hn, hlt⟩
    have hblank : ∀ c ∈ sign ++ digits, isBlank c = false := by
      intro c mem
      rcases List.mem_append.mp mem with mem | mem
      · rcases hsign with rfl | rfl
        · cases mem
        · cases List.mem_singleton.mp mem
          rfl
      · exact isBlank_eq_false_of_isDigit (hall c mem)
    have hplus : withoutPlus (sign ++ digits) = digits := by
      rcases hsign with rfl | rfl
      · exact withoutPlus_of_digits hall
      · rfl
    rw [List.append_assoc before, trim_eq (by simp [hne]) hbefore hblank hafter, number?_eq_some_iff,
      hplus]
    exact ⟨hne, digits?_eq_some_iff.mpr ⟨hall, hn⟩, hlt⟩

/-! ## Pieces -/

theorem split_of_not_mem {separator : Char} {text : List Char} (h : separator ∉ text) :
    split separator text = ⟨text, []⟩ := by
  induction text with
  | nil => rfl
  | cons c text ih =>
    rw [List.mem_cons, not_or] at h
    rw [split_cons, if_neg (Ne.symm h.1), ih h.2]

theorem split_append {separator : Char} {left right : List Char} (h : separator ∉ left) :
    split separator (left ++ separator :: right) = ⟨left, (split separator right).toList⟩ := by
  induction left with
  | nil => rw [List.nil_append, split_cons, if_pos rfl]
  | cons c left ih =>
    rw [List.mem_cons, not_or] at h
    rw [List.cons_append, split_cons, if_neg (Ne.symm h.1), ih h.2]

end Text

/-! ## Bounds -/

namespace Bounds

open Grammar Text

theorem readBound_eq_iff {text : List Char} {bound : Option Nat} :
    readBound text = (bound, []) ↔ ∃ n, IsInteger text n ∧ bound = some n := by
  unfold readBound
  simp only [← number?_trim_eq_some_iff]
  cases number? (trim text) with
  | none => simp
  | some n => simp [eq_comm]

theorem readSide_eq_iff {text : List Char} {bound : Option Nat} :
    readSide text = (bound, []) ↔ IsSide text bound := by
  unfold readSide IsSide
  by_cases h : text = []
  · have hnot : ¬∃ n, IsInteger text n ∧ bound = some n := by
      intro found
      rcases found with ⟨n, ⟨before, sign, digits, after, htext, _, _, _, hne, _⟩, _⟩
      rw [h] at htext
      simp [hne] at htext
    rw [if_pos (by rw [h]; rfl), or_iff_left hnot]
    simp [h, eq_comm]
  · rw [if_neg (by rwa [List.isEmpty_iff]), readBound_eq_iff, or_iff_right (fun hn => h hn.1)]

theorem ofText_of_not_mem {text : List Char} (h : ',' ∉ text) :
    ofText text = (⟨(readBound text).1, (readBound text).1⟩, (readBound text).2) := by
  unfold ofText
  rw [split_of_not_mem h]
  rfl

/-- Two parts that are not both empty are two sides. -/
theorem ofText_append {left right : List Char} (hleft : ',' ∉ left) (hright : ',' ∉ right)
    (hne : left ≠ [] ∨ right ≠ []) : ofText (left ++ ',' :: right) =
      (⟨(readSide left).1, (readSide right).1⟩, (readSide left).2 ++ (readSide right).2) := by
  unfold ofText
  rw [split_append hleft, split_of_not_mem hright]
  cases left with
  | nil =>
    cases right with
    | nil => simp at hne
    | cons c right => rfl
  | cons c left => cases right <;> rfl

theorem ofText_tooMany {left middle right : List Char} (hleft : ',' ∉ left) (hmiddle : ',' ∉ middle) :
    ofText (left ++ ',' :: (middle ++ ',' :: right)) = ({}, [.tooMany]) := by
  unfold ofText
  rw [split_append hleft, split_append hmiddle]
  cases left <;> cases middle <;> rfl

/-- **Written bounds are what is read as bounds** without a flaw. -/
theorem isBounds_iff {text : List Char} {b : Bounds} :
    IsBounds text b ↔ ofText text = (b, []) := by
  constructor
  · intro h
    cases h with
    | exactly hcomma hn =>
      rw [ofText_of_not_mem hcomma, readBound_eq_iff.mpr ⟨_, hn, rfl⟩]
    | between hleft hright hne hmin hmax =>
      rw [ofText_append hleft hright hne, readSide_eq_iff.mpr hmin, readSide_eq_iff.mpr hmax]
      rfl
  · intro h
    by_cases hcomma : ',' ∈ text
    · obtain ⟨left, right, rfl, hleft⟩ := List.eq_append_cons_of_mem hcomma
      by_cases hright : ',' ∈ right
      · obtain ⟨middle, last, rfl, hmiddle⟩ := List.eq_append_cons_of_mem hright
        rw [ofText_tooMany hleft hmiddle] at h
        cases h
      · by_cases hne : left ≠ [] ∨ right ≠ []
        · rw [ofText_append hleft hright hne, Prod.mk.injEq, List.append_eq_nil_iff] at h
          obtain ⟨rfl, hl, hr⟩ := h
          exact .between hleft hright hne (readSide_eq_iff.mp (Prod.ext rfl hl))
            (readSide_eq_iff.mp (Prod.ext rfl hr))
        · obtain ⟨rfl, rfl⟩ : left = [] ∧ right = [] := by
            simpa only [not_or, not_not] using hne
          cases h
    · rw [ofText_of_not_mem hcomma, Prod.mk.injEq] at h
      obtain ⟨rfl, hflaws⟩ := h
      have hread : readBound text = ((readBound text).1, []) := Prod.ext rfl hflaws
      obtain ⟨n, hn, hbound⟩ := readBound_eq_iff.mp hread
      rw [hbound]
      exact .exactly hcomma hn

end Bounds

/-! ## Params -/

namespace Params

open Grammar

/-- The params that letters ask for, each by whether its letters are there. -/
def written (text : List Char) : Params where
  switches :=
    { noMark := text.contains 'S'
      wrapX := text.contains 'H' || text.contains 'W'
      wrapY := text.contains 'V' || text.contains 'W'
      exclusive := text.contains 'E'
      insensitive := text.contains 'I'
      onlyMarked := text.contains 'L' }
  piggyback := text.contains 'P'
  advance := text.contains 'A'
  group := ((text.filter (·.isDigit)).getLast?).map fun c => c.toNat - '0'.toNat

theorem isParams_iff_written {text : List Char} {p : Params} :
    IsParams text p ↔ (∀ c ∈ text, c ∈ paramLetters) ∧ p = written text := by
  constructor
  · intro h
    obtain ⟨⟨noMark, wrapX, wrapY, exclusive, insensitive, onlyMarked⟩, piggyback, advance, group⟩ := p
    refine ⟨h.letters, ?_⟩
    simp only [written, mk.injEq, Switches.mk.injEq]
    refine ⟨⟨?_, ?_, ?_, ?_, ?_, ?_⟩, ?_, ?_, h.group⟩ <;> rw [Bool.eq_iff_iff]
    · simpa using h.noMark
    · simpa using h.wrapX
    · simpa using h.wrapY
    · simpa using h.exclusive
    · simpa using h.insensitive
    · simpa using h.onlyMarked
    · simpa using h.piggyback
    · simpa using h.advance
  · intro found
    rcases found with ⟨hletters, rfl⟩
    refine ⟨hletters, ?_, ?_, ?_, ?_, ?_, ?_, ?_, ?_, rfl⟩ <;> simp [written]

/-- The last digit of a text is the last of its rest, if there is one. -/
theorem group_cons (c : Char) (text : List Char) :
    (written (c :: text)).group = (written text).group.or (written [c]).group := by
  simp only [written, List.filter_cons, List.filter_nil]
  cases h : (text.filter (·.isDigit)).getLast? with
  | none =>
    rw [List.getLast?_eq_none_iff] at h
    rw [h]
    rfl
  | some last =>
    have hcons : ∀ a, (a :: text.filter (·.isDigit)).getLast? = some last := by
      intro a
      rw [List.getLast?_cons, h]
      rfl
    split
    · rw [hcons]
      rfl
    · rw [h]
      rfl

/-- Letters behind another one go before it. -/
theorem written_cons (c : Char) (text : List Char) :
    written (c :: text) = (written text).merged (written [c]) := by
  have hcontains : ∀ d, (c :: text).contains d = (text.contains d || [c].contains d) := by
    intro d
    simp [Bool.or_comm]
  have hgroup := group_cons c text
  simp only [written] at hgroup
  simp only [written, merged, Switches.or, hcontains, Option.orElse_eq_orElse, Option.orElse_eq_or,
    hgroup, Bool.or_assoc, Bool.or_left_comm]

theorem merged_empty (p : Params) : p.merged {} = p := by
  obtain ⟨⟨noMark, wrapX, wrapY, exclusive, insensitive, onlyMarked⟩, piggyback, advance, group⟩ := p
  simp [merged, Switches.or]

theorem merged_assoc (p q r : Params) : (p.merged q).merged r = p.merged (q.merged r) := by
  simp only [merged, Switches.or, Bool.or_assoc, Option.orElse_eq_orElse, Option.orElse_eq_or,
    Option.or_assoc]

theorem addLetter?_of_mem {c : Char} (h : c ∈ paramLetters) (p : Params) :
    p.addLetter? c = some ((written [c]).merged p) := by
  have hall : ∀ c ∈ paramLetters, p.addLetter? c = some ((written [c]).merged p) := by
    unfold paramLetters
    repeat' refine List.forall_mem_cons.mpr ⟨rfl, ?_⟩
    exact List.forall_mem_nil _
  exact hall c h

theorem mem_paramLetters_of_isDigit {c : Char} (h : c.isDigit = true) : c ∈ paramLetters := by
  have hc : 48 ≤ c.toNat ∧ c.toNat ≤ 57 := by
    simp only [Char.isDigit, Bool.and_eq_true, decide_eq_true_eq] at h
    exact h
  have hof : c = Char.ofNat c.toNat := (Char.ofNat_toNat c).symm
  obtain ⟨hlow, hhigh⟩ := hc
  rw [hof]
  generalize c.toNat = n at hlow hhigh
  interval_cases n <;> decide

/-- What asks for something is a letter of params. -/
theorem mem_of_addLetter? {c : Char} {p q : Params} (h : p.addLetter? c = some q) :
    c ∈ paramLetters := by
  unfold addLetter? at h
  split at h
  case h_10 =>
    obtain ⟨n, hn, _⟩ := Option.map_eq_some_iff.mp h
    rw [Text.digit?_eq] at hn
    split at hn
    · next hdigit => exact mem_paramLetters_of_isDigit hdigit
    · cases hn
  all_goals decide

theorem addLetters_of_mem {text : List Char} (h : ∀ c ∈ text, c ∈ paramLetters) (p : Params) :
    p.addLetters text = ((written text).merged p, []) := by
  induction text generalizing p with
  | nil => rfl
  | cons c text ih =>
    rw [List.forall_mem_cons] at h
    rw [addLetters, addLetter?_of_mem h.1, written_cons c text, merged_assoc]
    exact ih h.2 _

theorem mem_of_addLetters {text : List Char} {p q : Params} (h : p.addLetters text = (q, [])) :
    ∀ c ∈ text, c ∈ paramLetters := by
  induction text generalizing p with
  | nil => simp
  | cons c text ih =>
    rw [addLetters] at h
    split at h
    · next p' hc => exact List.forall_mem_cons.mpr ⟨mem_of_addLetter? hc, ih h⟩
    · cases h

/-- **Params are what is read as params** with no letter left over. -/
theorem isParams_iff {text : List Char} {p : Params} :
    IsParams text p ↔ ofLetters text = (p, []) := by
  rw [isParams_iff_written]
  constructor
  · intro found
    rcases found with ⟨hletters, rfl⟩
    rw [ofLetters, addLetters_of_mem hletters, merged_empty]
  · intro h
    have hletters := mem_of_addLetters h
    rw [ofLetters, addLetters_of_mem hletters, merged_empty] at h
    exact ⟨hletters, (Prod.mk.inj h).1.symm⟩

end Params

end GridPattern
