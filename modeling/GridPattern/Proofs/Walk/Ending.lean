import GridPattern.Proofs.Inside
import GridPattern.Proofs.Walk.Budget
import GridPattern.Proofs.Walk.Completeness
import GridPattern.Proofs.Walk.Frame
import Mathlib.Data.Fintype.EquivFin
import Mathlib.Logic.Relation
import Mathlib.Order.WellFounded

/-!
# Patterns that come to an end by themselves

A walk goes on without end only where a declaration comes back to itself through calls, or where a repetition
has no greatest number. Where neither is within reach of a pattern every cursor has a verdict, and so there
is a number of steps that is enough for the walk, whatever the grid.

**The law** (`decided_of_bounded`), by induction along the calls, which are well founded because there are
finitely many declarations and no cycle among those within reach; then on the pattern; then on the rounds
that a repetition has left. How many cursors go on from round to round has no part in it.

**What it does not establish.** What number of steps is enough.
-/

namespace GridPattern

/-- Without a cycle there is no infinite descent among finitely many. -/
theorem wellFounded_of_acyclic {α : Type} [Finite α] {r : α → α → Prop}
    (h : ∀ a, ¬Relation.TransGen r a a) : WellFounded (flip r) := by
  have htrans : IsTrans α (Relation.TransGen (flip r)) := ⟨fun _ _ _ => Relation.TransGen.trans⟩
  have hirrefl : Std.Irrefl (Relation.TransGen (flip r)) :=
    ⟨fun a hcycle => h a (Relation.transGen_swap.mp hcycle)⟩
  exact Subrelation.wf Relation.TransGen.single (Finite.wellFounded_of_trans_of_irrefl _)

/-! ## What a pattern can call -/

/-- Whether a pattern is a repetition without a greatest number. -/
def Node.isEndless : Node → Bool
  | .repeated _ count => count.most?.isNone
  | _ => false

namespace Program

/-- The declarations that the calls in a pattern lead to. -/
def called (p : Program) (node : Node) : List Declaration :=
  node.patterns.filterMap fun
    | .call target => p.declaration? target.name
    | _ => none

/-- **The call graph**: the body of one declaration calls the other. -/
def Invokes (p : Program) (declared other : Declaration) : Prop := other ∈ p.called declared.body

/-- **What is within reach of a pattern**: the declarations that it calls, and all that these call. -/
def Needs (p : Program) (node : Node) (declared : Declaration) : Prop :=
  ∃ first ∈ p.called node, Relation.ReflTransGen p.Invokes first declared

/-- **No recursion and no endless repetition** within reach of a pattern. -/
structure Bounded (p : Program) (node : Node) : Prop where
  acyclic : ∀ declared, p.Needs node declared → ¬Relation.TransGen p.Invokes declared declared
  here : ∀ m ∈ node.patterns, m.isEndless = false
  within : ∀ declared, p.Needs node declared → ∀ m ∈ declared.body.patterns, m.isEndless = false

variable {p : Program} {node : Node} {declared other : Declaration}

theorem mem_called {target : Call} (mem : .call target ∈ node.patterns)
    (hd : p.declaration? target.name = some declared) : declared ∈ p.called node :=
  List.mem_filterMap.mpr ⟨_, mem, hd⟩

theorem mem_of_mem_called (mem : declared ∈ p.called node) : declared ∈ p.declarations := by
  obtain ⟨m, _, hm⟩ := List.mem_filterMap.mp mem
  cases m with
  | call target => exact List.mem_of_find?_eq_some hm
  | _ => cases hm

theorem Needs.of_called (mem : declared ∈ p.called node) : p.Needs node declared :=
  ⟨declared, mem, .refl⟩

theorem Needs.tail (h : p.Needs node declared) (next : p.Invokes declared other) : p.Needs node other := by
  obtain ⟨first, mem, path⟩ := h
  exact ⟨first, mem, path.tail next⟩

theorem Needs.mem (h : p.Needs node declared) : declared ∈ p.declarations := by
  obtain ⟨first, mem, path⟩ := h
  cases path with
  | refl => exact mem_of_mem_called mem
  | tail _ last => exact mem_of_mem_called last

/-- Declarations that can be ranked, each above those that it calls, have no cycle. -/
theorem acyclic_of_rank (rank : Declaration → Nat)
    (h : ∀ declared other, p.Needs node declared → p.Invokes declared other → rank other < rank declared) :
    ∀ declared, p.Needs node declared → ¬Relation.TransGen p.Invokes declared declared := by
  have below : ∀ declared other, p.Needs node declared → Relation.TransGen p.Invokes declared other →
      p.Needs node other ∧ rank other < rank declared := by
    intro declared other hneeds path
    induction path with
    | single next => exact ⟨hneeds.tail next, h _ _ hneeds next⟩
    | tail _ last ih => exact ⟨ih.1.tail last, (h _ _ ih.1 last).trans ih.2⟩
  exact fun declared hneeds hcycle => lt_irrefl _ (below declared declared hneeds hcycle).2

/-- The calls within reach of a bounded pattern are well founded. -/
theorem Bounded.wellFounded (h : p.Bounded node) :
    WellFounded fun declared other : { d // p.Needs node d } => p.Invokes other declared := by
  have hfinite : Finite { d // p.Needs node d } :=
    ((List.finite_toSet p.declarations).subset fun _ => Needs.mem).to_subtype
  refine wellFounded_of_acyclic (r := fun declared other : { d // p.Needs node d } =>
    p.Invokes declared other) fun declared hcycle => ?_
  exact h.acyclic declared declared.2 (hcycle.lift Subtype.val fun _ _ next => next)

end Program

namespace Walk

open Counted Survivors Filter

/-! ## Verdicts for every cursor -/

/-- **The pattern has a verdict for every cursor.** -/
def Decided (p : Program) (grid : Grid) (node : Node) : Prop := ∀ c, ∃ v, eval p grid node c = some v

variable {p : Program} {grid : Grid}

theorem exists_evalEach {α : Type} {eval : α → Option Verdict} {as : List α}
    (h : ∀ a ∈ as, ∃ v, eval a = some v) : ∃ v, evalEach eval as = some v := by
  induction as with
  | nil => exact ⟨_, rfl⟩
  | cons a as ih =>
    obtain ⟨hhead, htail⟩ := List.forall_mem_cons.mp h
    obtain ⟨v, hv⟩ := hhead
    obtain ⟨w, hw⟩ := ih htail
    exact ⟨v.beside w, by rw [evalEach_cons, hv, hw]; rfl⟩

theorem exists_evalParts {parts : List Node} (h : ∀ part ∈ parts, Decided p grid part) (c : Cursor) :
    ∃ v, evalParts p grid parts c = some v := by
  induction parts generalizing c with
  | nil => exact ⟨_, evalParts_nil⟩
  | cons part parts ih =>
    obtain ⟨hhead, htail⟩ := List.forall_mem_cons.mp h
    obtain ⟨v, hv⟩ := hhead c
    rw [evalParts_cons, hv]
    cases v with
    | error faults => exact ⟨_, rfl⟩
    | ok ts => exact exists_evalEach fun t _ => ih htail t

/-- The levels of a repetition come to an end with the greatest number of rounds, if not before. -/
theorem exists_evalLevels {inner : Node} {count : Repeat} {most : Nat} (h : Decided p grid inner)
    (hmost : count.most? = some most) (k : Nat) (level : List Cursor) :
    ∃ v, evalLevels p grid inner count k level = some v := by
  induction hleft : most - k generalizing k level with
  | zero =>
    have hfull : count.most?.any (· ≤ k) = true := by
      rw [hmost]
      exact decide_eq_true (by omega)
    rw [evalLevels_eq, if_pos hfull]
    exact ⟨_, rfl⟩
  | succ left ih =>
    have hmore : ¬count.most?.any (· ≤ k) = true := by
      rw [hmost]
      exact fun hle => absurd (of_decide_eq_true hle) (by omega)
    obtain ⟨v, hv⟩ : ∃ v, evalEach (eval p grid inner) level = some v := exists_evalEach fun c _ => h c
    rw [evalLevels_eq, if_neg hmore, hv]
    match v with
    | .error faults => exact ⟨_, rfl⟩
    | .ok [] => exact ⟨_, rfl⟩
    | .ok (t :: ts) =>
      obtain ⟨later, hlater⟩ := ih (k + 1) (t :: ts) (by omega)
      exact ⟨_, congrArg (Option.map _) hlater⟩

theorem decided_call {target : Call}
    (h : ∀ declared, p.declaration? target.name = some declared → Decided p grid declared.body) :
    Decided p grid (.call target) := by
  intro c
  by_cases hs : c.heading.isStalled = true
  · exact ⟨_, eval_stalled _ hs⟩
  · have hgoing := Bool.eq_false_iff.mpr hs
    cases hd : p.declaration? target.name with
    | none => exact ⟨_, eval_call_undeclared hgoing hd⟩
    | some declared =>
      rw [eval_call hgoing hd]
      cases headings? grid target.direction (callee (target.params.merged declared.params) c) with
      | none => exact ⟨_, rfl⟩
      | some headed =>
        obtain ⟨v, hv⟩ : ∃ v, evalEach (eval p grid declared.body) headed = some v :=
          exists_evalEach fun t _ => h declared hd t
        exact ⟨_, congrArg (Option.map _) hv⟩

mutual

/-- A pattern has verdicts if the calls in it have, and if no repetition in it is endless. -/
theorem decided_of_calls : ∀ node : Node, (∀ m ∈ node.patterns, m.isEndless = false) →
    (∀ target, .call target ∈ node.patterns → Decided p grid (.call target)) → Decided p grid node := by
  intro node hbounded hcalls c
  by_cases hs : c.heading.isStalled = true
  · exact ⟨_, eval_stalled _ hs⟩
  have hgoing := Bool.eq_false_iff.mpr hs
  match node with
  | .literal text => exact ⟨_, eval_literal text hgoing⟩
  | .oneOf chars negated => exact ⟨_, eval_oneOf chars negated hgoing⟩
  | .inside => exact ⟨_, eval_inside hgoing⟩
  | .outside => exact ⟨_, eval_outside hgoing⟩
  | .direction way =>
    rw [eval_direction way hgoing]
    cases headings? grid way c <;> exact ⟨_, rfl⟩
  | .call target => exact hcalls target List.mem_cons_self c
  | .sequence parts =>
    rw [eval_sequence parts hgoing]
    exact exists_evalParts (decided_of_callsEach parts
      (fun m mem => hbounded m (List.mem_cons_of_mem _ mem))
      (fun target mem => hcalls target (List.mem_cons_of_mem _ mem))) c
  | .choice options =>
    rw [eval_choice options hgoing]
    exact exists_evalEach fun option mem => decided_of_callsEach options
      (fun m mem => hbounded m (List.mem_cons_of_mem _ mem))
      (fun target mem => hcalls target (List.mem_cons_of_mem _ mem)) option mem c
  | .repeated inner count =>
    have hinner := decided_of_calls inner (fun m mem => hbounded m (List.mem_cons_of_mem _ mem))
      fun target mem => hcalls target (List.mem_cons_of_mem _ mem)
    obtain ⟨most, hmost⟩ := Option.isSome_iff_exists.mp
      (Option.isNone_eq_false_iff.mp (hbounded _ List.mem_cons_self))
    rw [eval_repeated inner count hgoing]
    exact exists_evalLevels hinner hmost 0 [c]
  | .look kind inner =>
    obtain ⟨v, hv⟩ := decided_of_calls inner (fun m mem => hbounded m (List.mem_cons_of_mem _ mem))
      (fun target mem => hcalls target (List.mem_cons_of_mem _ mem)) (lookFrom kind c)
    rw [eval_look kind inner hgoing, hv]
    exact ⟨_, rfl⟩

theorem decided_of_callsEach : ∀ nodes : List Node,
    (∀ m ∈ Node.patternsEach nodes, m.isEndless = false) →
    (∀ target, .call target ∈ Node.patternsEach nodes → Decided p grid (.call target)) →
      ∀ node ∈ nodes, Decided p grid node
  | [], _, _ => nofun
  | node :: nodes, hbounded, hcalls => by
    rw [Node.patternsEach] at hbounded hcalls
    refine List.forall_mem_cons.mpr ⟨?_, ?_⟩
    · exact decided_of_calls node (fun m mem => hbounded m (List.mem_append_left _ mem))
        fun target mem => hcalls target (List.mem_append_left _ mem)
    · exact decided_of_callsEach nodes (fun m mem => hbounded m (List.mem_append_right _ mem))
        fun target mem => hcalls target (List.mem_append_right _ mem)

end

/-- The bodies within reach have verdicts, those that are called before those that call. -/
theorem decided_of_needs {node : Node} (h : p.Bounded node) (declared : { d // p.Needs node d }) :
    Decided p grid declared.1.body := by
  induction declared using h.wellFounded.induction with
  | h declared ih =>
    refine decided_of_calls declared.1.body (h.within declared declared.2) fun target mem => ?_
    refine decided_call fun other hd => ?_
    have hnext : p.Invokes declared other := Program.mem_called mem hd
    exact ih ⟨other, declared.2.tail hnext⟩ hnext

/-- **What is bounded has a verdict for every cursor.** -/
theorem decided_of_bounded {node : Node} (h : p.Bounded node) : Decided p grid node := by
  refine decided_of_calls node h.here fun target mem => decided_call fun declared hd => ?_
  exact decided_of_needs h ⟨declared, .of_called (Program.mem_called mem hd)⟩

/-! ## Walks that end -/

/-- **An end that comes by itself**: one outcome under every budget that is large enough, and without one,
which is never that a budget was spent. -/
def EndsByItself {α : Type} (outcomeUnder : Option Nat → Nat → Except Stop α) : Prop :=
  ∃ (enough patience : Nat) (outcome : Except WalkFault α),
    (∀ limit, outcome ≠ .error (.budgetExhausted limit)) ∧
      ∀ budget, (∀ limit ∈ budget, enough ≤ limit) → ∀ depth ≥ depthFor budget patience,
        outcomeUnder budget depth = outcome.mapError .fault

theorem Answers.ne_unfinished {α : Type} {view : α → List Cursor} {m : Counted α} {v : Verdict}
    (h : Answers view m v) (count : Nat) : (m.runFrom count).1 ≠ .error .unfinished := by
  cases h with
  | survivors h =>
    obtain ⟨after, hrun⟩ := h count
    rw [hrun]
    exact nofun
  | fault h _ =>
    obtain ⟨after, hrun⟩ := h count
    rw [hrun]
    exact nofun

/-- An account that has an end comes to it under every budget that allows its steps. -/
theorem Budgeted.endsByItself {α : Type} {walk : Option Nat → Nat → Counted α} {account : Account α}
    (h : Budgeted walk account) {depth : Nat}
    (hfinished : ((walk none depth).runFrom 0).1 ≠ .error .unfinished) (count : Nat) :
    EndsByItself fun budget depth => ((walk budget depth).runFrom count).1 := by
  cases account with
  | endless => exact absurd (h.endless rfl depth 0) hfinished
  | ends cost outcome =>
    obtain ⟨patience, hwithin⟩ := h.within cost outcome rfl
    refine ⟨count + cost, patience, outcome, fun limit heq => ?_, fun budget henough depth hd => ?_⟩
    · exact h.own cost limit (congrArg _ heq)
    · exact congrArg Prod.fst (hwithin budget count (.inr henough) depth hd)

theorem exists_finished_followAll {node : Node} (h : Decided p grid node) (cursors : Survivors Cursor) :
    ∃ depth, ((followAll ⟨p, grid, none⟩ depth node cursors).runFrom 0).1 ≠ .error .unfinished := by
  obtain ⟨v, hv⟩ : ∃ v, evalEach (eval p grid node) cursors.toList = some v :=
    exists_evalEach fun c _ => h c
  obtain ⟨vs, hvs, rfl⟩ := evalEach_eq_some_iff.mp hv
  have heach := hvs.imp fun c v hv => answers_follow (s := ⟨p, grid, .none⟩) rfl hv
  obtain ⟨depth, hdepth⟩ := (eventually_forall₂ heach).exists
  exact ⟨depth, (answers_flatMapList hdepth).ne_unfinished 0⟩

theorem exists_finished_enterProgram
    (h : ∀ entry, p.entry? = some entry → Decided p grid entry.body) (c : Cursor) :
    ∃ depth, ((enterProgram ⟨p, grid, none⟩ depth c).runFrom 0).1 ≠ .error .unfinished := by
  unfold enterProgram
  cases hentry : p.entry? with
  | none => exact ⟨0, nofun⟩
  | some entry =>
    have hd := Program.declaration?_of_entry hentry
    have hheaded := headings_forward grid (callee entry.params c)
    obtain ⟨v, hv⟩ := h entry hentry ((callee entry.params c).bend ⟨0, 1⟩)
    obtain ⟨depth, hdepth⟩ := (answers_follow (s := ⟨p, grid, .none⟩) rfl hv).exists
    have hbody := answers_flatMapList (.cons hdepth .nil)
    have hcall : Answers toList (call ⟨p, grid, .none⟩ (follow ⟨p, grid, .none⟩ depth)
        ⟨entry.name, .forward, {}⟩ c) _ := answers_call hd hheaded hbody
    exact ⟨depth, hcall.ne_unfinished 0⟩

/-- **Patterns without recursion and without endless repetition end by themselves**, on every grid and from
all cursors, and so do programs that have neither within reach of their first declaration. -/
theorem bounded_walks_end (p : Program) (grid : Grid) :
    (∀ node, p.Bounded node → ∀ cursors count, EndsByItself fun budget depth =>
        ((followAll ⟨p, grid, budget⟩ depth node cursors).runFrom count).1) ∧
      ((∀ entry, p.entry? = some entry → p.Bounded (.call ⟨entry.name, .forward, {}⟩)) →
        ∀ c count, EndsByItself fun budget depth => ((run ⟨p, grid, budget⟩ depth c).runFrom count).1) := by
  constructor
  · intro node hbounded cursors count
    have hdecided : Decided p grid node := decided_of_bounded hbounded
    obtain ⟨depth, hfinished⟩ := exists_finished_followAll hdecided cursors
    obtain ⟨_, hb, _⟩ := budgeted_followAll p grid node cursors
    exact hb.endsByItself hfinished count
  · intro hbounded c count
    have hentry : ∀ entry, p.entry? = some entry → Decided p grid entry.body := by
      intro entry hentry
      have hcalled : entry ∈ p.called (.call ⟨entry.name, .forward, {}⟩) :=
        Program.mem_called List.mem_cons_self (Program.declaration?_of_entry hentry)
      exact decided_of_needs (hbounded entry hentry) ⟨entry, .of_called hcalled⟩
    obtain ⟨depth, hfinished⟩ := exists_finished_enterProgram hentry c
    obtain ⟨_, hb⟩ := budgeted_enterProgram p grid c
    simp only [runFrom_run]
    exact hb.endsByItself hfinished 0

/-- Rungs of an `x` that may be missing and a `y`. -/
def rung : Declaration :=
  ⟨"rung", {}, .sequence [.call ⟨"foot", .forward, { piggyback := true }⟩, .literal ['y']]⟩

def foot : Declaration := ⟨"foot", {}, .repeated (.literal ['x']) .option⟩

/-- One rung or two, from a foot that is looked for first. -/
def ascent : Declaration :=
  ⟨"ascent", {}, .sequence [.call ⟨"foot", .forward, {}⟩,
    .repeated (.call ⟨"rung", .forward, { piggyback := true }⟩) (.bounded ⟨some 1, some 2⟩)]⟩

/-- The second `foot` would go round for ever, but no call leads to it. -/
def ladder : Program :=
  ⟨[ascent, foot, rung, ⟨"foot", {}, .repeated (.call ⟨"ascent", .forward, {}⟩) .star⟩]⟩

/-- The ascent is above its rungs, and these above their feet. -/
def heightOf (declared : Declaration) : Nat :=
  if declared.name = "ascent" then 2 else if declared.name = "rung" then 1 else 0

theorem ladder_invokes {declared other : Declaration}
    (h : declared = ascent ∨ declared = foot ∨ declared = rung) (next : ladder.Invokes declared other) :
    (other = foot ∨ other = rung) ∧ heightOf other < heightOf declared := by
  obtain rfl | rfl | rfl := h
  · have hother : other ∈ [foot, rung] := next
    simp only [List.mem_cons, List.not_mem_nil, or_false] at hother
    refine ⟨hother, ?_⟩
    obtain rfl | rfl := hother <;> decide
  · cases next
  · cases List.mem_singleton.mp next
    exact ⟨.inl rfl, by decide⟩

theorem ladder_needs {declared : Declaration}
    (h : ladder.Needs (.call ⟨"ascent", .forward, {}⟩) declared) :
    declared = ascent ∨ declared = foot ∨ declared = rung := by
  obtain ⟨first, mem, path⟩ := h
  induction path with
  | refl => exact .inl (List.mem_singleton.mp mem)
  | tail _ next ih => exact .inr (ladder_invokes ih next).1

theorem ladder_bounded : ladder.Bounded (.call ⟨"ascent", .forward, {}⟩) where
  acyclic := Program.acyclic_of_rank heightOf fun _ _ hneeds next =>
    (ladder_invokes (ladder_needs hneeds) next).2
  here := by decide
  within := by
    intro declared hneeds
    obtain rfl | rfl | rfl := ladder_needs hneeds <;> decide

/-- On `yxyy` the ascent takes one rung or two, of its own accord, and so it does from the foot as well. -/
theorem bounded_walks_end_ladder :
    let grid : Grid := ⟨#[#['y', 'x', 'y', 'y']], by decide⟩
    let start : Cursor := { cell := ⟨0, 0⟩ }
    let call : Node := .call ⟨"ascent", .forward, {}⟩
    let marks (found : Survivors Cursor) : List (List Int) :=
      found.toList.map fun t => t.marks.map Cell.x
    marks <$> ((run ⟨ladder, grid, none⟩ 9 start).runFrom 0).1 = .ok [[0], [0, 1, 2]] ∧
      (EndsByItself fun budget depth => ((run ⟨ladder, grid, budget⟩ depth start).runFrom 0).1) ∧
        ladder.Bounded call ∧ EndsByItself fun budget depth =>
          ((followAll ⟨ladder, grid, budget⟩ depth call (.many [start, start])).runFrom 7).1 := by
  intro grid start call marks
  obtain ⟨hpattern, hprogram⟩ := bounded_walks_end ladder grid
  have hentry : ∀ entry, ladder.entry? = some entry → ladder.Bounded (.call ⟨entry.name, .forward, {}⟩) := by
    rintro entry ⟨⟩
    exact ladder_bounded
  refine ⟨by decide +kernel, hprogram hentry start 0, ladder_bounded, ?_⟩
  exact hpattern call ladder_bounded (.many [start, start]) 7

end Walk

end GridPattern
