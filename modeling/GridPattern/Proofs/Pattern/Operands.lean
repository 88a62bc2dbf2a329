import GridPattern.Proofs.Pattern.Lists
import GridPattern.Token.Scan

/-!
# What suffixes and looks around belong to

A suffix on a string belongs to its last character and a look around before one to its first. That is settled
where a list is complete, for each of its statements, and so it is settled for the whole program.

**The law** (`operands_of_ofTokens`). In a program that was read, no member of a list repeats a string of
several characters or looks around at one, and no declaration does.

**What it does not establish.** That nothing does. A statement with a suffix on a suffix, or on a look around,
is not taken apart any further: the string under both is the operand of the inner one as it is
(`operands_of_stacked_suffixes`).
-/

namespace GridPattern

namespace Node

/-- What a repetition repeats or a look around looks for. -/
def inner? : Node → Option Node
  | .repeated inner _ => some inner
  | .look _ inner => some inner
  | _ => none

/-- **A pattern that is of one character at most**, if it repeats a string or looks around at one. -/
def Detached (node : Node) : Prop := ∀ text, node.inner? = some (.literal text) → text.length ≤ 1

/-- **A pattern that lists of detached members stand in**, and no others. -/
def Settled (node : Node) : Prop := ∀ m ∈ node.patterns, ∀ part ∈ m.members, part.Detached

mutual

/-- **Where a pattern in a pattern stands**: it is the pattern itself, a member of a list in it, or what a
repetition or a look around in it is of. -/
theorem exists_outer {m : Node} : ∀ node : Node, m ∈ node.patterns →
    m = node ∨ ∃ outer ∈ node.patterns, m ∈ outer.members ∨ outer.inner? = some m
  | .sequence parts, mem | .choice parts, mem => by
    refine (List.mem_cons.mp mem).imp_right fun mem => ?_
    obtain hpart | ⟨outer, houter, h⟩ := exists_outer_each parts mem
    · exact ⟨_, List.mem_cons_self, .inl hpart⟩
    · exact ⟨outer, List.mem_cons_of_mem _ houter, h⟩
  | .repeated inner _, mem | .look _ inner, mem => by
    refine (List.mem_cons.mp mem).imp_right fun mem => ?_
    obtain rfl | ⟨outer, houter, h⟩ := exists_outer inner mem
    · exact ⟨_, List.mem_cons_self, .inr rfl⟩
    · exact ⟨outer, List.mem_cons_of_mem _ houter, h⟩
  | .literal _, mem | .oneOf _ _, mem | .call _, mem | .direction _, mem | .inside, mem | .outside, mem =>
    .inl (List.mem_singleton.mp mem)

theorem exists_outer_each {m : Node} : ∀ nodes : List Node, m ∈ patternsEach nodes →
    m ∈ nodes ∨ ∃ outer ∈ patternsEach nodes, m ∈ outer.members ∨ outer.inner? = some m
  | [], mem => nomatch mem
  | node :: nodes, mem => by
    obtain mem | mem := List.mem_append.mp mem
    · obtain rfl | ⟨outer, houter, h⟩ := exists_outer node mem
      · exact .inl List.mem_cons_self
      · exact .inr ⟨outer, List.mem_append_left _ houter, h⟩
    · obtain hnode | ⟨outer, houter, h⟩ := exists_outer_each nodes mem
      · exact .inl (List.mem_cons_of_mem _ hnode)
      · exact .inr ⟨outer, List.mem_append_right _ houter, h⟩

end

end Node

namespace Parser

open Grammar Node

variable {node part : Node}

/-- What comes of a statement is detached. -/
theorem detached_of_mem_detachOperand (mem : part ∈ detachOperand node) : part.Detached := by
  have detaches : Detaches node (detachOperand node) := detaches_iff.mpr rfl
  generalize detachOperand node = out at mem detaches
  cases detaches with
  | last =>
    rcases List.mem_pair.mp mem with rfl | rfl
    · exact nofun
    · rintro _ ⟨⟩
      exact Nat.le_refl 1
  | first =>
    rcases List.mem_pair.mp mem with rfl | rfl
    · rintro _ ⟨⟩
      exact Nat.le_refl 1
    · exact nofun
  | other hrepeated hlook =>
    cases List.mem_singleton.mp mem
    intro text htext
    cases node with
    | repeated inner count =>
      cases htext
      exact hrepeated text count rfl
    | look kind inner =>
      cases htext
      exact hlook kind text rfl
    | _ => cases htext

/-- The members of a complete list are detached. -/
theorem detached_of_mem_node {kind : ListKind} {parts : List Node} (mem : part ∈ (kind.node parts).members) :
    part.Detached := by
  cases kind with
  | all | any =>
    obtain ⟨_, _, mem⟩ := List.mem_flatMap.mp mem
    exact detached_of_mem_detachOperand mem

end Parser

theorem Node.Complete.settled {node : Node} (h : node.Complete) : node.Settled := by
  intro m mem part hpart
  obtain ⟨kind, parts, rfl⟩ := h m mem (List.ne_nil_of_mem hpart)
  exact Parser.detached_of_mem_node hpart

/-- The pattern of a list is no repetition and no look around. -/
theorem Grammar.IsList.inner?_eq_none {kind : Parser.ListKind} {ts : List Token} {node : Node}
    (h : Grammar.IsList kind ts node) : node.inner? = none := by
  cases h with
  | negated => rfl
  | statements _ builds => cases builds <;> rfl

/-- **Each suffix and each look around belongs to one character**, unless it has another suffix or a look around
on it: in a program that was read no declaration and no member of a list repeats a string of several characters
or looks around at one, and what does is what another one is of. -/
theorem operands_of_ofTokens {tokens : List Token} {p : Program} (h : Program.ofTokens tokens = .ok p) :
    (∀ d ∈ p.declarations, ∀ text, d.body.inner? = some (.literal text) → text.length ≤ 1) ∧
    (∀ node ∈ p.patterns, ∀ part ∈ node.members, ∀ text, part.inner? = some (.literal text) →
      text.length ≤ 1) ∧
    ∀ node ∈ p.patterns, ∀ text, node.inner? = some (.literal text) → 2 ≤ text.length →
      ∃ outer ∈ p.patterns, outer.inner? = some node := by
  have lists := Program.isList_of_ofTokens h
  have settled : ∀ node ∈ p.patterns, ∀ part ∈ node.members, part.Detached := by
    intro node mem
    obtain ⟨d, hd, mem⟩ := List.mem_flatMap.mp mem
    obtain ⟨_, isList⟩ := lists d hd
    exact isList.complete.settled node mem
  refine ⟨fun d hd text htext => ?_, settled, fun node mem text htext htwo => ?_⟩
  · obtain ⟨_, isList⟩ := lists d hd
    rw [isList.inner?_eq_none] at htext
    cases htext
  · obtain ⟨d, hd, mem⟩ := List.mem_flatMap.mp mem
    obtain ⟨_, isList⟩ := lists d hd
    have inProgram : ∀ {m}, m ∈ d.body.patterns → m ∈ p.patterns := fun hm => List.mem_flatMap.mpr ⟨d, hd, hm⟩
    obtain rfl | ⟨outer, houter, hmember | hinner⟩ := Node.exists_outer d.body mem
    · rw [isList.inner?_eq_none] at htext
      cases htext
    · have hone := settled outer (inProgram houter) node hmember text htext
      omega
    · exact ⟨outer, inProgram houter, hinner⟩

/-- `!ab(cd+)`: the look around is at `a` and the suffix on `d`. -/
theorem operands_of_ofTokens_single :
    let parts : List Node := [.look .absent (.literal ['a']), .literal ['b'],
      .sequence [.literal ['c'], .repeated (.literal ['d']) .plus]]
    (Token.scanChars ['m', ':', '!', 'a', 'b', '(', 'c', 'd', '+', ')']).toOption.map Program.ofTokens =
        some (.ok ⟨[⟨"m", {}, .sequence parts⟩]⟩) ∧
      ∀ part ∈ parts, ∀ text, part.inner? = some (.literal text) → text.length ≤ 1 := by
  intro parts
  have hread : (Token.scanChars ['m', ':', '!', 'a', 'b', '(', 'c', 'd', '+', ')']).toOption.map
      Program.ofTokens = some (.ok ⟨[⟨"m", {}, .sequence parts⟩]⟩) := rfl
  obtain ⟨tokens, _, htokens⟩ := Option.map_eq_some_iff.mp hread
  obtain ⟨_, hmembers, _⟩ := operands_of_ofTokens htokens
  exact ⟨hread, hmembers (.sequence parts) (by simp [Program.patterns, Node.patterns])⟩

/-- `ab*?`: the outer suffix is not on a string, and the inner one, which is, is no member of a list. -/
theorem operands_of_stacked_suffixes :
    let inner : Node := .repeated (.literal ['a', 'b']) .star
    let p : Program := ⟨[⟨"m", {}, .sequence [.repeated inner .option]⟩]⟩
    (Token.scanChars ['m', ':', 'a', 'b', '*', '?']).toOption.map Program.ofTokens = some (.ok p) ∧
      inner ∈ p.patterns ∧ inner.inner? = some (.literal ['a', 'b']) := by
  intro inner p
  have mem : inner ∈ (Node.sequence [.repeated inner .option]).patterns :=
    List.mem_cons_of_mem _ (Node.mem_patternsEach.mpr
      ⟨_, List.mem_singleton_self _, Node.mem_patterns_repeated (Node.mem_patterns_self inner)⟩)
  exact ⟨rfl, List.mem_flatMap.mpr ⟨_, List.mem_singleton_self _, mem⟩, rfl⟩

end GridPattern
