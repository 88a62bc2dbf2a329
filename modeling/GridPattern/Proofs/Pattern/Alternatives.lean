import GridPattern.Proofs.Pattern.Lists
import GridPattern.Token.Scan

/-!
# Characters as alternatives

In brackets each character of a string is an alternative by itself. The strings are taken apart before suffixes
and looks around are settled, and these leave strings behind: what stands before the character that a suffix
belongs to, or after the one that is looked around at.

**The law** (`alternatives_of_ofTokens`). In a program that was read a string of several characters is among
alternatives only as such a remainder, right beside the repetition or the look around that it was cut from. It is
shown of what one statement comes to (`spelledOut_pieces`), and holds of one such list after another.

**What it does not establish.** That there are no remainders. They are what their characters would not be, one
alternative that takes a cell for each of them (`alternatives_before_suffix`).
-/

namespace GridPattern

/-- **Alternatives that are spelled out**: each is one character at most if it is a string, unless the string
stands before the repetition of a character or after the look around at one. -/
def Node.SpelledOut (options : List Node) : Prop :=
  ∀ before text after, options = before ++ .literal text :: after → 2 ≤ text.length →
    (∃ c count rest, after = .repeated (.literal [c]) count :: rest) ∨
      ∃ front kind c, before = front ++ [.look kind (.literal [c])]

namespace Parser

open Grammar Node

variable {options options' : List Node}

theorem spelledOut_of_short (h : ∀ text, .literal text ∈ options → text.length ≤ 1) : SpelledOut options := by
  rintro before text after rfl htwo
  have := h text (List.mem_append_right _ List.mem_cons_self)
  omega

/-- What stands beside a string still does when more alternatives come before or after. -/
theorem spelledOut_append (h : SpelledOut options) (h' : SpelledOut options') : SpelledOut (options ++ options') := by
  intro before text after heq htwo
  obtain ⟨front, rfl, hrest⟩ | ⟨back, rfl, hrest⟩ := List.append_eq_append_iff.mp heq
  · -- the string is one of the second list
    refine (h' front text after hrest htwo).imp_right ?_
    rintro ⟨front', kind, c, rfl⟩
    exact ⟨options ++ front', kind, c, (List.append_assoc ..).symm⟩
  · cases back with
    | nil =>
      refine (h' [] text after hrest.symm htwo).imp_right ?_
      rintro ⟨front, kind, c, hfront⟩
      simp at hfront
    | cons first back =>
      -- the string is one of the first list
      obtain ⟨rfl, rfl⟩ := List.cons.inj hrest
      refine (h before text back rfl htwo).imp_left ?_
      rintro ⟨c, count, rest, rfl⟩
      exact ⟨c, count, rest ++ options', rfl⟩

theorem spelledOut_flatMap {α : Type} {f : α → List Node} (h : ∀ a, SpelledOut (f a)) (as : List α) :
    SpelledOut (as.flatMap f) := by
  induction as with
  | nil => exact spelledOut_of_short nofun
  | cons a as ih => exact spelledOut_append (h a) ih

/-- What a statement that is no string of several characters comes to. -/
theorem spelledOut_detachOperand {node : Node} (h : ∀ text, node = .literal text → text.length ≤ 1) :
    SpelledOut (detachOperand node) := by
  have detaches : Detaches node (detachOperand node) := detaches_iff.mpr rfl
  generalize detachOperand node = out at detaches
  cases detaches with
  | last =>
    intro before text after heq _
    cases before with
    | nil =>
      obtain ⟨_, rfl⟩ := List.cons.inj heq
      exact .inl ⟨_, _, [], rfl⟩
    | cons first before =>
      have htail : _ = before ++ .literal text :: after := (List.cons.inj heq).2
      have mem : .literal text ∈ before ++ .literal text :: after := List.mem_append_right _ List.mem_cons_self
      rw [← htail, List.mem_singleton] at mem
      cases mem
  | first =>
    intro before text after heq _
    match before with
    | [] => cases heq
    | [first] =>
      obtain ⟨rfl, _⟩ := List.cons.inj heq
      exact .inr ⟨[], _, _, rfl⟩
    | _ :: _ :: before => simp at heq
  | other => exact spelledOut_of_short fun text mem => h text (List.mem_singleton.mp mem).symm

/-- What one statement comes to in brackets. -/
theorem spelledOut_pieces (node : Node) : SpelledOut ((splitLiteral node).flatMap detachOperand) := by
  have splits : Splits node (splitLiteral node) := splits_iff.mpr rfl
  generalize splitLiteral node = out at splits
  cases splits with
  | @string text _ =>
    rw [List.flatMap_map]
    refine spelledOut_flatMap (fun c => spelledOut_detachOperand fun text htext => ?_) text
    cases htext
    exact Nat.le_refl 1
  | other h =>
    rw [List.flatMap_singleton]
    exact spelledOut_detachOperand h

end Parser

/-- **Each character in brackets is an alternative by itself**, unless it stands before the one that a suffix
belongs to, or after the one that is looked around at, in the same string. -/
theorem alternatives_of_ofTokens {tokens : List Token} {p : Program} (h : Program.ofTokens tokens = .ok p) :
    ∀ options, .choice options ∈ p.patterns → Node.SpelledOut options := by
  intro options mem
  by_cases hne : options = []
  · rw [hne]
    exact Parser.spelledOut_of_short nofun
  · obtain ⟨kind, parts, heq⟩ := Program.complete_of_ofTokens h _ mem hne
    cases kind with
    | all => cases heq
    | any =>
      rw [Node.choice.inj heq, List.flatMap_assoc]
      exact Parser.spelledOut_flatMap Parser.spelledOut_pieces parts

/-- `([ab(cd)]+)`: under a suffix and in a group, `a` and `b` are alternatives by themselves, and the string in a
group of its own is none. -/
theorem alternatives_of_ofTokens_nested :
    let options : List Node := [.literal ['a'], .literal ['b'], .sequence [.literal ['c', 'd']]]
    (Token.scanChars ['m', ':', '(', '[', 'a', 'b', '(', 'c', 'd', ')', ']', '+', ')']).toOption.map
        Program.ofTokens = some (.ok ⟨[⟨"m", {}, .sequence [.sequence [.repeated (.choice options) .plus]]⟩]⟩) ∧
      Node.SpelledOut options := by
  intro options
  have hread : (Token.scanChars ['m', ':', '(', '[', 'a', 'b', '(', 'c', 'd', ')', ']', '+', ')']).toOption.map
      Program.ofTokens = some (.ok ⟨[⟨"m", {}, .sequence [.sequence [.repeated (.choice options) .plus]]⟩]⟩) := rfl
  obtain ⟨tokens, _, htokens⟩ := Option.map_eq_some_iff.mp hread
  exact ⟨hread, alternatives_of_ofTokens htokens options (by simp [Program.patterns, Node.patterns, Node.patternsEach])⟩

/-- `[abc*]`: before the repetition of `c` the string `ab` is one alternative. -/
theorem alternatives_before_suffix :
    let options : List Node := [.literal ['a', 'b'], .repeated (.literal ['c']) .star]
    let p : Program := ⟨[⟨"m", {}, .sequence [.choice options]⟩]⟩
    (Token.scanChars ['m', ':', '[', 'a', 'b', 'c', '*', ']']).toOption.map Program.ofTokens = some (.ok p) ∧
      .choice options ∈ p.patterns ∧ .literal ['a', 'b'] ∈ options := by
  intro options p
  have mem : .choice options ∈ p.patterns := by simp [p, Program.patterns, Node.patterns, Node.patternsEach]
  exact ⟨rfl, mem, List.mem_cons_self⟩

end GridPattern
