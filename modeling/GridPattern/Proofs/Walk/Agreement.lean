import GridPattern.Proofs.Walk.Completeness

/-!
# Walks and meanings agree

Walking a pattern with all cursors at once, level by level, comes to the same as its meaning, which
follows one cursor at a time and depth first.

**The law** (`followAll_agreement`). Whatever the budget, the depth and the count before, survivors are
the ones that the meaning has, in order, and a fault is the budget's or lies on the way of one of the
cursors. Without a budget a walk that is deep enough reaches the verdict, so it ends with survivors if
and only if the meaning has them.

**What it does not establish.** How deep is deep enough. Where a pattern has no meaning, a walk without
a budget is unfinished at every depth or stops at a fault on the way.
-/

namespace GridPattern.Walk

open Counted Survivors Filter

/-- What the walk of some cursors along a pattern has to do with the meaning of the pattern. -/
structure Agreement (s : Setting) (node : Node) (cursors : Survivors Cursor)
    (outcome : Nat → Except Stop (Survivors Cursor)) : Prop where
  /-- Survivors of a walk are those of the meaning. -/
  sound : ∀ depth found, outcome depth = .ok found →
    evalEach (eval s.program s.grid node) cursors.toList = some (.ok found.toList)
  /-- A fault is that of the budget, or some cursor meets it. -/
  soundFault : ∀ depth fault, outcome depth = .error (.fault fault) →
    Spent s fault ∨ ∃ c ∈ cursors.toList, Meets s.program s.grid node c fault
  /-- What some cursor meets keeps all of them from having survivors. -/
  named : ∀ c ∈ cursors.toList, ∀ fault, Meets s.program s.grid node c fault →
    ∀ v, evalEach (eval s.program s.grid node) cursors.toList = some v → v.Names fault
  /-- Survivors of the meaning are those of every walk that is deep enough. -/
  complete : s.budget = .none → ∀ ts,
    evalEach (eval s.program s.grid node) cursors.toList = some (.ok ts) →
      ∃ least, ∀ depth ≥ least, outcome depth = .ok (.ofList ts)
  /-- Faults of the meaning stop every walk that is deep enough. -/
  completeFault : s.budget = .none → ∀ faults,
    evalEach (eval s.program s.grid node) cursors.toList = some (.error faults) →
      ∃ least, ∀ depth ≥ least, ∃ fault ∈ faults, outcome depth = .error (.fault fault)

variable {s : Setting} {node : Node} {cursors : Survivors Cursor}

theorem comesTo_followAll {depth count : Nat} {r : Except Stop (Survivors Cursor)}
    (h : ((followAll s depth node cursors).runFrom count).1 = r) :
    ComesTo (flatMapList (follow s depth node) cursors.toList) r :=
  ⟨count, _, Prod.ext h rfl⟩

/-- Several cursors reach their common verdict once each reaches its own. -/
theorem answers_followAll (hb : s.budget = .none) {v : Verdict}
    (h : evalEach (eval s.program s.grid node) cursors.toList = some v) :
    ∀ᶠ depth in atTop, Answers toList (followAll s depth node cursors) v := by
  obtain ⟨vs, hvs, rfl⟩ := evalEach_eq_some_iff.mp h
  have hall := hvs.imp fun c v hv => answers_follow (s := s) hb hv
  exact (eventually_forall₂ hall).mono fun _ hall => answers_flatMapList hall

/-- A list of walks has its survivors in the narrowest shape. -/
theorem eq_ofList_of_comesTo {α : Type} {f : α → Counted (Survivors Cursor)} {as : List α}
    {found : Survivors Cursor} (h : ComesTo (flatMapList f as) (.ok found)) :
    found = .ofList found.toList := by
  obtain ⟨bss, _, heq⟩ | ⟨_, _, _, _, heq⟩ := h.of_flatMapList
  · cases heq
    rw [toList_ofList]
  · cases heq

/-- **Walking a pattern comes to what it means**: for every program, grid, pattern and list of cursors,
from every count. -/
theorem followAll_agreement (s : Setting) (node : Node) (cursors : Survivors Cursor) (count : Nat) :
    Agreement s node cursors fun depth => ((followAll s depth node cursors).runFrom count).1 where
  sound depth found h := (sound_follow s depth).each (comesTo_followAll h)
  soundFault depth fault h := (sound_follow s depth).each_fault (comesTo_followAll h)
  named c mem fault met v hv := names_of_evalEach mem (fun _ hv => met.names hv) hv
  complete hb ts h := by
    obtain ⟨least, hd⟩ := eventually_atTop.mp (answers_followAll hb h)
    refine ⟨least, ?_⟩
    intro depth hdepth
    obtain ⟨found, hfound, rfl⟩ := (hd depth hdepth).of_ok
    obtain ⟨after, hrun⟩ := hfound count
    have hok : ((followAll s depth node cursors).runFrom count).1 = .ok found := congrArg Prod.fst hrun
    rw [hok, ← eq_ofList_of_comesTo (comesTo_followAll hok)]
  completeFault hb faults h := by
    obtain ⟨least, hd⟩ := eventually_atTop.mp (answers_followAll hb h)
    refine ⟨least, ?_⟩
    intro depth hdepth
    obtain ⟨fault, mem, hstop⟩ := (hd depth hdepth).of_error
    obtain ⟨after, hrun⟩ := hstop count
    exact ⟨fault, mem, congrArg Prod.fst hrun⟩

/-- A pattern that calls itself, `r`: an `a` and then `r`, or one or more `b`. The grid is `abb`. -/
def again : Setting where
  program := ⟨[⟨"r", {}, .choice
    [.sequence [.literal ['a'], .call ⟨"r", .forward, { piggyback := true }⟩],
      .repeated (.literal ['b']) .plus]⟩]⟩
  grid := ⟨#[#['a', 'b', 'b']], by decide⟩
  budget := .none

/-- From the first cell `r` can be followed in two ways. One walk finds them, so the pattern means them,
and so every walk that is deep enough finds them too. -/
theorem followAll_agreement_again :
    let r : Node := .call ⟨"r", .forward, {}⟩
    let start : Cursor := { cell := ⟨0, 0⟩ }
    let found : List Cursor := [{ start with marks := [⟨0, 0⟩, ⟨1, 0⟩] },
      { start with marks := [⟨0, 0⟩, ⟨1, 0⟩, ⟨2, 0⟩] }]
    evalEach (eval again.program again.grid r) [start] = some (.ok found) ∧
      ∃ least, ∀ depth ≥ least,
        ((followAll again depth r (.one start)).runFrom 0).1 = .ok (.many found) := by
  intro r start found
  have agree := followAll_agreement again r (.one start) 0
  have walked : ((followAll again 20 r (.one start)).runFrom 0).1 = .ok (.many found) := by
    decide +kernel
  have meaning := agree.sound 20 (.many found) walked
  exact ⟨meaning, agree.complete rfl found meaning⟩

end GridPattern.Walk
