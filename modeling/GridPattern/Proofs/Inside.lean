import GridPattern.Pattern

/-!
# The patterns in a pattern

A pattern is made of patterns, and these of others. Many laws hold of patterns in which no pattern of some
kind stands anywhere; and what a pattern can call is what the calls in it name.
-/

namespace GridPattern

namespace Node

mutual

/-- **All patterns in a pattern**, itself the first of them. What a call leads to is not in it. -/
def patterns : Node → List Node
  | .sequence parts => .sequence parts :: patternsEach parts
  | .choice options => .choice options :: patternsEach options
  | .repeated inner count => .repeated inner count :: inner.patterns
  | .look kind inner => .look kind inner :: inner.patterns
  | node => [node]

/-- All patterns in those of a list. -/
def patternsEach : List Node → List Node
  | [] => []
  | node :: nodes => node.patterns ++ patternsEach nodes

end

variable {node m : Node}

theorem mem_patterns_self (node : Node) : node ∈ node.patterns := by
  cases node <;> exact List.mem_cons_self

theorem mem_patternsEach {nodes : List Node} :
    m ∈ patternsEach nodes ↔ ∃ node ∈ nodes, m ∈ node.patterns := by
  induction nodes with
  | nil => simp [patternsEach]
  | cons node nodes ih => simp [patternsEach, ih]

theorem mem_patterns_sequence {parts : List Node} (mem : node ∈ parts) (h : m ∈ node.patterns) :
    m ∈ (sequence parts).patterns :=
  List.mem_cons_of_mem _ (mem_patternsEach.mpr ⟨node, mem, h⟩)

theorem mem_patterns_choice {options : List Node} (mem : node ∈ options) (h : m ∈ node.patterns) :
    m ∈ (choice options).patterns :=
  List.mem_cons_of_mem _ (mem_patternsEach.mpr ⟨node, mem, h⟩)

theorem mem_patterns_repeated {count : Repeat} (h : m ∈ node.patterns) :
    m ∈ (repeated node count).patterns :=
  List.mem_cons_of_mem _ h

theorem mem_patterns_look {kind : Look} (h : m ∈ node.patterns) : m ∈ (look kind node).patterns :=
  List.mem_cons_of_mem _ h

end Node

namespace Program

/-- All patterns in the declarations of a program. -/
def patterns (p : Program) : List Node := p.declarations.flatMap (·.body.patterns)

theorem mem_patterns_of_declaration? {p : Program} {name : String} {declared : Declaration} {m : Node}
    (hd : p.declaration? name = some declared) (h : m ∈ declared.body.patterns) : m ∈ p.patterns :=
  List.mem_flatMap.mpr ⟨declared, List.mem_of_find?_eq_some hd, h⟩

end Program

end GridPattern
