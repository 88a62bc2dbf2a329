import GridPattern.Proofs.Inside
import GridPattern.Proofs.Outcome
import GridPattern.Proofs.Walk.Frame
import GridPattern.Search

/-!
# What a search takes of its program

A program is looked at in two ways only: for its first declaration, and for the declaration of a name that a
call gives. So names that no call within reach gives are of no consequence, nor is what comes after the first
declaration of a name.

**The law** (`follow_agrees`), by induction on the depth: if two programs resolve the names of a set alike, and
what these resolve to calls names of the set only, then walks along patterns that do so too are the same walks,
step for step. No pattern has to come to an end for that, and none has to be without faults.
(`find_of_reachable`) The names within reach of a program are such a set.

**What it does not establish.** That the names within reach are needed: a call of one need never be come to.
-/

namespace GridPattern

open Walk

/-- **A pattern that calls names of a set only**, wherever the calls stand in it. -/
def Node.CallsWithin (names : String → Prop) (node : Node) : Prop :=
  ∀ target, .call target ∈ node.patterns → names target.name

namespace Program

/-- **Two programs that agree on a set of names**, closed under calls. -/
structure AgreeOn (names : String → Prop) (p q : Program) : Prop where
  resolves : ∀ {name}, names name → p.declaration? name = q.declaration? name
  closed : ∀ {name declared}, names name → p.declaration? name = some declared →
    declared.body.CallsWithin names

/-- **The names within reach of a program**: the name of its first declaration and, whatever declaration a name
within reach resolves to, all names that are called in it. -/
inductive Reachable (p : Program) : String → Prop
  | entry {entry : Declaration} : p.entry? = some entry → Reachable p entry.name
  | call {name : String} {declared : Declaration} {target : Call} : Reachable p name →
      p.declaration? name = some declared → .call target ∈ declared.body.patterns → Reachable p target.name

/-- The names within reach are closed under calls. -/
theorem agreeOn_reachable {p q : Program} (h : ∀ name, p.Reachable name → p.declaration? name = q.declaration? name) :
    AgreeOn p.Reachable p q where
  resolves hname := h _ hname
  closed hname hd _ mem := .call hname hd mem

/-- Where all calls are of declared names, all names within reach are declared. -/
theorem Reachable.isDeclared {p : Program} {name : String}
    (hcalls : ∀ target, .call target ∈ p.patterns → (p.declaration? target.name).isSome = true)
    (h : p.Reachable name) : (p.declaration? name).isSome = true := by
  cases h with
  | entry hentry =>
    rw [declaration?_of_entry hentry]
    rfl
  | call _ hd mem => exact hcalls _ (mem_patterns_of_declaration? hd mem)

/-- Declarations after all others change nothing for a name that is declared. -/
theorem declaration?_append {p : Program} {name : String} (h : (p.declaration? name).isSome = true)
    (more : List Declaration) : p.declaration? name = (Program.mk (p.declarations ++ more)).declaration? name := by
  obtain ⟨declared, hd⟩ := Option.isSome_iff_exists.mp h
  have hfind : (p.declarations ++ more).find? (·.name == name) = some declared := by
    rw [List.find?_append]
    exact congrArg (Option.or · (more.find? (·.name == name))) hd
  exact hd.trans hfind.symm

end Program

namespace Walk

/-! ## Walks of two programs -/

section Agreement

variable {p q : Program} {names : String → Prop} {grid : Grid} {budget : Option Nat} {F F' : Follow}

theorem gather_congr {α β : Type} {f g : α → Counted (Survivors β)} {as : List α} (h : ∀ a ∈ as, f a = g a)
    (gathered : List β) : Survivors.gather f as gathered = Survivors.gather g as gathered := by
  induction as generalizing gathered with
  | nil => rfl
  | cons a as ih =>
    obtain ⟨hhead, htail⟩ := List.forall_mem_cons.mp h
    rw [Survivors.gather, Survivors.gather, hhead]
    exact congrArg (_ >>= ·) (funext fun s => ih htail _)

theorem sequence_congr {nodes : List Node} (h : ∀ node ∈ nodes, F node = F' node) (cursors : Survivors Cursor) :
    sequence F nodes cursors = sequence F' nodes cursors := by
  induction nodes generalizing cursors with
  | nil => rfl
  | cons node nodes ih =>
    obtain ⟨hhead, htail⟩ := List.forall_mem_cons.mp h
    rw [sequence, sequence, hhead]
    refine congrArg (_ >>= ·) (funext fun between => ?_)
    rw [ih htail between]

/-- A call is the same if it is of a name that is resolved alike. -/
theorem call_agrees (h : Program.AgreeOn names p q)
    (hF : ∀ node, node.CallsWithin names → F node = F' node) {target : Call} (hname : names target.name) :
    call ⟨p, grid, budget⟩ F target = call ⟨q, grid, budget⟩ F' target := by
  funext caller
  unfold call Walker.call
  dsimp only
  rw [← h.resolves hname]
  cases hd : p.declaration? target.name with
  | none => rfl
  | some declared =>
    dsimp only
    rw [hF declared.body (h.closed hname hd)]

/-- One level of a walk is the same, if the walks inside are. -/
theorem enter_agrees (h : Program.AgreeOn names p q)
    (hF : ∀ node, node.CallsWithin names → F node = F' node) (rounds : Nat) {node : Node}
    (hnode : node.CallsWithin names) :
    enter ⟨p, grid, budget⟩ F rounds node = enter ⟨q, grid, budget⟩ F' rounds node := by
  funext c
  cases node with
  | literal | oneOf | inside | outside | direction => rfl
  | sequence nodes =>
    refine sequence_congr (fun part mem => hF part fun target htarget => ?_) (.one c)
    exact hnode target (Node.mem_patterns_sequence mem htarget)
  | choice nodes =>
    refine congrArg (Survivors.ofList <$> ·) (gather_congr (fun option mem => ?_) [])
    rw [hF option fun target htarget => hnode target (Node.mem_patterns_choice mem htarget)]
  | repeated inner count =>
    show repeated (F inner) rounds count c = repeated (F' inner) rounds count c
    rw [hF inner fun target htarget => hnode target (Node.mem_patterns_repeated htarget)]
  | call target => exact congrFun (call_agrees h hF (hnode target List.mem_cons_self)) c
  | look kind inner =>
    show look ⟨p, grid, budget⟩ kind (F inner) c = look ⟨p, grid, budget⟩ kind (F' inner) c
    rw [hF inner fun target htarget => hnode target (Node.mem_patterns_look htarget)]

/-- **Walks of programs that agree are the same**, along patterns that call nothing else. -/
theorem follow_agrees (h : Program.AgreeOn names p q) (depth : Nat) (node : Node)
    (hnode : node.CallsWithin names) :
    follow ⟨p, grid, budget⟩ depth node = follow ⟨q, grid, budget⟩ depth node := by
  induction depth generalizing node with
  | zero => rfl
  | succ depth ih =>
    funext c
    rw [follow_succ, follow_succ, enter_agrees h ih depth hnode]

/-- The walk of a whole program is a call of its first declaration. -/
theorem run_agrees (hentry : p.entry? = q.entry?) (h : Program.AgreeOn p.Reachable p q) (depth : Nat) :
    run ⟨p, grid, budget⟩ depth = run ⟨q, grid, budget⟩ depth := by
  funext c
  rw [run_eq, run_eq]
  dsimp only
  rw [← hentry]
  refine congrArg (_ >>= ·) (funext fun _ => ?_)
  cases he : p.entry? with
  | none => rfl
  | some entry =>
    have hname : p.Reachable (Call.mk entry.name .forward {}).name := .entry he
    exact congrFun (call_agrees h (follow_agrees h depth) hname) c

end Agreement

end Walk

/-! ## Searches -/

namespace Search

/-- Searches for programs with the same first declaration that agree on what is within reach. -/
theorem find_of_reachable {p q : Program} (hentry : p.entry? = q.entry?)
    (h : ∀ name, p.Reachable name → p.declaration? name = q.declaration? name) (grid : Grid) (options : Options)
    (patience : Nat) : find p grid options patience = find q grid options patience := by
  have hfrom : findingsFrom ⟨p, grid, options.stepBudget⟩ patience =
      findingsFrom ⟨q, grid, options.stepBudget⟩ patience := by
    funext origin
    unfold findingsFrom
    rw [run_agrees hentry (Program.agreeOn_reachable h)]
  unfold find findings
  rw [hfrom]

/-- **Only declarations within reach matter.** Two programs have the same findings or stop for the same reason,
under every budget, if they begin with the same declaration and resolve all names within reach of the one
alike. So declarations can be added behind a program that declares all that it calls. -/
theorem only_reachable_matters (p : Program) :
    (∀ q : Program, p.entry? = q.entry? →
      (∀ name, p.Reachable name → p.declaration? name = q.declaration? name) →
      ∀ grid options patience, find p grid options patience = find q grid options patience) ∧
    (p.declarations ≠ [] → (∀ target, .call target ∈ p.patterns → (p.declaration? target.name).isSome = true) →
      ∀ more grid options patience,
        find ⟨p.declarations ++ more⟩ grid options patience = find p grid options patience) := by
  constructor
  · exact fun q => find_of_reachable
  · intro hne hcalls more grid options patience
    refine (find_of_reachable (q := ⟨p.declarations ++ more⟩) ?_ (fun name hname => ?_) grid options patience).symm
    · exact (List.head?_append_of_ne_nil _ hne).symm
    · exact Program.declaration?_append (hname.isDeclared hcalls) more

/-- Letters `a` on the way to a `b`, by a pattern that calls itself. -/
def wayTo : List Declaration :=
  [⟨"way", {}, .call ⟨"on", .forward, {}⟩⟩,
    ⟨"on", {}, .sequence [.literal ['a'],
      .choice [.literal ['b'], .call ⟨"on", .forward, { piggyback := true }⟩]]⟩]

theorem name_of_mem_wayTo {target : Call} (mem : .call target ∈ (Program.mk wayTo).patterns) : target.name = "on" := by
  simp only [Program.patterns, wayTo, List.flatMap_cons, List.flatMap_nil, Node.patterns, Node.patternsEach,
    List.append_nil, List.cons_append, List.nil_append, List.mem_cons, reduceCtorEq, Node.call.injEq,
    List.not_mem_nil, or_false, false_or] at mem
  obtain rfl | rfl := mem <;> rfl

theorem reachable_wayTo {name : String} (h : (Program.mk wayTo).Reachable name) : name = "way" ∨ name = "on" := by
  cases h with
  | entry hentry =>
    cases hentry
    exact .inl rfl
  | call _ hd mem => exact .inr (name_of_mem_wayTo (Program.mem_patterns_of_declaration? hd mem))

/-- In front of the second declaration stands one that nothing calls and after it one that is hidden, as is the
one added at the end: the way is found as before, and with too little to go on it is lost as before. -/
theorem only_reachable_matters_wayTo :
    let grid : Grid := ⟨#[#['a', 'a', 'b']], by decide⟩
    let hidden : Declaration := ⟨"on", {}, .inside⟩
    let q : Program := ⟨[wayTo[0], ⟨"off", {}, .call ⟨"nowhere", .forward, {}⟩⟩, wayTo[1], hidden]⟩
    let found : List Match := [⟨⟨0, 0⟩, [⟨0, 0⟩, ⟨1, 0⟩, ⟨2, 0⟩]⟩, ⟨⟨1, 0⟩, [⟨1, 0⟩, ⟨2, 0⟩]⟩]
    let told (p : Program) : Except Stop (List Match) := List.map Finding.toMatch <$> find p grid {} 0
    told ⟨wayTo⟩ = .ok found ∧ told q = .ok found ∧ told ⟨wayTo ++ [hidden]⟩ = .ok found ∧
      find q grid ⟨false, some 5⟩ 0 = .error (.fault (.budgetExhausted 5)) := by
  intro grid hidden q found told
  obtain ⟨hsame, hmore⟩ := only_reachable_matters ⟨wayTo⟩
  have hq : ∀ options patience, find ⟨wayTo⟩ grid options patience = find q grid options patience := by
    refine hsame q rfl (fun name hname => ?_) grid
    obtain rfl | rfl := reachable_wayTo hname <;> rfl
  have hcalls : ∀ target, .call target ∈ (Program.mk wayTo).patterns →
      ((Program.mk wayTo).declaration? target.name).isSome = true := by
    intro target mem
    rw [name_of_mem_wayTo mem]
    rfl
  have hfound : told ⟨wayTo⟩ = .ok found := by decide +kernel
  have hlost : find ⟨wayTo⟩ grid ⟨false, some 5⟩ 0 = .error (.fault (.budgetExhausted 5)) := by decide +kernel
  refine ⟨hfound, ?_, ?_, ?_⟩
  · rw [← hfound]
    exact congrArg (List.map Finding.toMatch <$> ·) (hq {} 0).symm
  · rw [← hfound]
    exact congrArg (List.map Finding.toMatch <$> ·) (hmore nofun hcalls [hidden] grid {} 0)
  · rw [← hq, hlost]

end Search

end GridPattern
