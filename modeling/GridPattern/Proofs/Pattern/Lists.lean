import GridPattern.Proofs.Inside
import GridPattern.Proofs.Pattern.Completeness

/-!
# The lists of a program

A list is put together once all its statements are read, and what is put together there is not touched again.
So whatever the two passes over a complete list bring about holds of every list in the program, however deep it
stands and whatever stands around it.

**The law** (`Program.complete_of_ofTokens`), by induction on the derivation: in a program that was read every
list is what a complete list comes to. To show something of all lists it is enough to show it of these.

**What it does not establish.** Which statements a list was put together from.
-/

namespace GridPattern

namespace Node

/-- The members of a list. -/
def members : Node → List Node
  | .sequence parts => parts
  | .choice options => options
  | _ => []

/-- **A pattern of complete lists**: each list in it, if it has a member, is what some statements come to. -/
def Complete (node : Node) : Prop :=
  ∀ m ∈ node.patterns, m.members ≠ [] → ∃ kind parts, m = Parser.ListKind.node kind parts

variable {node inner : Node} {parts : List Node}

/-- Where no pattern is inside there is no list. -/
theorem complete_of_patterns (h : node.patterns = [node]) (hm : node.members = []) : node.Complete := by
  intro m mem hmembers
  rw [h, List.mem_singleton] at mem
  rw [mem] at hmembers
  exact absurd hm hmembers

theorem complete_literal (text : List Char) : (literal text).Complete := complete_of_patterns rfl rfl

theorem Complete.repeated (h : inner.Complete) (count : Repeat) : (repeated inner count).Complete :=
  List.forall_mem_cons.mpr ⟨fun hmembers => absurd rfl hmembers, h⟩

theorem Complete.look (h : inner.Complete) (kind : Look) : (look kind inner).Complete :=
  List.forall_mem_cons.mpr ⟨fun hmembers => absurd rfl hmembers, h⟩

end Node

namespace Parser

open Grammar Node

variable {node part : Node} {parts : List Node}

theorem complete_of_mem_detachOperand (h : node.Complete) (mem : part ∈ detachOperand node) : part.Complete := by
  have detaches : Detaches node (detachOperand node) := detaches_iff.mpr rfl
  generalize detachOperand node = out at mem detaches
  cases detaches with
  | @last text c count =>
    rcases List.mem_pair.mp mem with rfl | rfl
    · exact complete_literal _
    · exact (complete_literal _).repeated count
  | @first c text kind =>
    rcases List.mem_pair.mp mem with rfl | rfl
    · exact (complete_literal _).look kind
    · exact complete_literal _
  | other =>
    cases List.mem_singleton.mp mem
    exact h

theorem complete_of_mem_splitLiteral (h : node.Complete) (mem : part ∈ splitLiteral node) : part.Complete := by
  have splits : Splits node (splitLiteral node) := splits_iff.mpr rfl
  generalize splitLiteral node = out at mem splits
  cases splits with
  | string =>
    obtain ⟨c, _, rfl⟩ := List.mem_map.mp mem
    exact complete_literal [c]
  | other =>
    cases List.mem_singleton.mp mem
    exact h

/-- A pass keeps what it keeps of each member. -/
theorem complete_of_mem_flatMap {pass : Node → List Node}
    (hpass : ∀ {node part}, node.Complete → part ∈ pass node → part.Complete)
    (h : ∀ part ∈ parts, part.Complete) : ∀ part ∈ parts.flatMap pass, part.Complete := by
  intro part mem
  obtain ⟨node, hnode, mem⟩ := List.mem_flatMap.mp mem
  exact hpass (h node hnode) mem

/-- Statements of complete lists come to a list of complete lists. -/
theorem complete_node (kind : ListKind) (h : ∀ part ∈ parts, part.Complete) : (kind.node parts).Complete := by
  have hpatterns : (kind.node parts).patterns =
      kind.node parts :: patternsEach (kind.node parts).members := by cases kind <;> rfl
  have hmembers : ∀ part ∈ (kind.node parts).members, part.Complete := by
    cases kind with
    | all => exact complete_of_mem_flatMap complete_of_mem_detachOperand h
    | any =>
      exact complete_of_mem_flatMap complete_of_mem_detachOperand
        (complete_of_mem_flatMap complete_of_mem_splitLiteral h)
  unfold Complete
  rw [hpatterns]
  refine List.forall_mem_cons.mpr ⟨fun _ => ⟨kind, parts, rfl⟩, fun m mem => ?_⟩
  obtain ⟨part, hpart, mem⟩ := mem_patternsEach.mp mem
  exact hmembers part hpart m mem

end Parser

/-! ## Derivations -/

namespace Grammar

open Node

variable {ts : List Token} {node : Node}

theorem Suffixed.complete {inner : Node} (h : Suffixed ts inner node) (hinner : inner.Complete) :
    node.Complete := by
  induction h with
  | none => exact hinner
  | more _ _ ih => exact ih (hinner.repeated _)

mutual

/-- What is derived as a list, a statement or an atom has complete lists. -/
theorem IsList.complete {kind : Parser.ListKind} : ∀ {ts : List Token} {node : Node},
    IsList kind ts node → node.Complete
  | _, _, .negated _ _ => complete_of_patterns rfl rfl
  | _, _, .statements areStatements builds => by
    rw [builds_iff.mp builds]
    exact Parser.complete_node kind areStatements.complete

theorem AreStatements.complete : ∀ {ts : List Token} {nodes : List Node},
    AreStatements ts nodes → ∀ node ∈ nodes, node.Complete
  | _, _, .nil => nofun
  | _, _, .cons isStatement areStatements =>
    List.forall_mem_cons.mpr ⟨isStatement.complete, areStatements.complete⟩

theorem IsStatement.complete : ∀ {ts : List Token} {node : Node}, IsStatement ts node → node.Complete
  | _, _, .atom isAtom suffixed => suffixed.complete isAtom.complete
  | _, _, .look _ isStatement => isStatement.complete.look _

theorem IsAtom.complete : ∀ {ts : List Token} {node : Node}, IsAtom ts node → node.Complete
  | _, _, .group _ isList _ | _, _, .choice _ isList _ => isList.complete
  | _, _, .string _ | _, _, .direction _ _ _ | _, _, .call _ | _, _, .outside _ | _, _, .inside _ =>
    complete_of_patterns rfl rfl

end

theorem IsDeclaration.isList {d : Declaration} (h : IsDeclaration ts d) : ∃ ts, IsList .all ts d.body := by
  cases h with
  | plain _ _ isList _ | withParams _ _ _ _ _ isList _ => exact ⟨_, isList⟩

theorem IsProgram.isDeclaration {ds : List Declaration} (h : IsProgram ts ds) :
    ∀ d ∈ ds, ∃ ts, IsDeclaration ts d := by
  induction h with
  | nil => exact List.forall_mem_nil _
  | cons isDeclaration _ ih => exact List.forall_mem_cons.mpr ⟨⟨_, isDeclaration⟩, ih⟩

end Grammar

/-- The pattern of a declaration that was read is a list. -/
theorem Program.isList_of_ofTokens {tokens : List Token} {p : Program} (h : Program.ofTokens tokens = .ok p) :
    ∀ d ∈ p.declarations, ∃ ts, Grammar.IsList .all ts d.body := by
  intro d hd
  obtain ⟨_, isDeclaration⟩ := (Program.isProgram_of_ofTokens h).isDeclaration d hd
  exact isDeclaration.isList

/-- **Every list in a program that was read was complete** when it was put together. -/
theorem Program.complete_of_ofTokens {tokens : List Token} {p : Program} (h : Program.ofTokens tokens = .ok p) :
    ∀ m ∈ p.patterns, m.members ≠ [] → ∃ kind parts, m = Parser.ListKind.node kind parts := by
  intro m mem
  obtain ⟨d, hd, mem⟩ := List.mem_flatMap.mp mem
  obtain ⟨_, isList⟩ := Program.isList_of_ofTokens h d hd
  exact isList.complete m mem

end GridPattern
