import GridPattern.Proofs.Walk.Evaluation

/-!
# Faults on the way

Where following a pattern comes upon something that cannot be followed: a heading that goes nowhere, a
name that is not declared, letters that mean no turn. `Meets` finds such a fault by a path to it, so it
says something also of patterns that have no meaning because some other path has no end.

**The law** (`Meets.names`): if the pattern has a meaning, then it is a verdict that names the fault.
-/

namespace GridPattern.Walk

variable {program : Program} {grid : Grid}

/-- A survivor of parts one after the other. -/
inductive Through (program : Program) (grid : Grid) : List Node → Cursor → Cursor → Prop
  | nil {c : Cursor} : Through program grid [] c c
  | cons {part : Node} {parts : List Node} {c t u : Cursor} {ts : List Cursor} :
      eval program grid part c = some (.ok ts) → t ∈ ts → Through program grid parts t u →
      Through program grid (part :: parts) c u

/-- Level `k` of a repetition: what `k` rounds of the inner pattern make of one cursor. -/
noncomputable def levelAt (program : Program) (grid : Grid) (inner : Node) (c : Cursor) :
    Nat → Option Verdict
  | 0 => some (.ok [c])
  | k + 1 => (levelAt program grid inner c k).bind fun
    | .error faults => some (.error faults)
    | .ok level => evalEach (eval program grid inner) level

/-- **A fault on the way** of a cursor along a pattern. -/
inductive Meets (program : Program) (grid : Grid) : Node → Cursor → WalkFault → Prop
  | stalled {node : Node} {c : Cursor} : c.heading.isStalled = true →
      Meets program grid node c .stalled
  | undeclared {target : Call} {c : Cursor} : c.heading.isStalled = false →
      program.declaration? target.name = none →
      Meets program grid (.call target) c (.undeclared target.name)
  | callTurns {target : Call} {declared : Declaration} {c : Cursor} : c.heading.isStalled = false →
      program.declaration? target.name = some declared →
      headings? grid target.direction (callee (target.params.merged declared.params) c) = none →
      Meets program grid (.call target) c (.unknownTurns target.direction.turns)
  | called {target : Call} {declared : Declaration} {c h : Cursor} {headed : List Cursor}
      {fault : WalkFault} : c.heading.isStalled = false →
      program.declaration? target.name = some declared →
      headings? grid target.direction (callee (target.params.merged declared.params) c) = some headed →
      h ∈ headed → Meets program grid declared.body h fault →
      Meets program grid (.call target) c fault
  | turns {way : Direction} {c : Cursor} : c.heading.isStalled = false →
      headings? grid way c = none → Meets program grid (.direction way) c (.unknownTurns way.turns)
  | sequence {before after : List Node} {part : Node} {c t : Cursor} {fault : WalkFault} :
      c.heading.isStalled = false → Through program grid before c t →
      Meets program grid part t fault →
      Meets program grid (.sequence (before ++ part :: after)) c fault
  | choice {options : List Node} {option : Node} {c : Cursor} {fault : WalkFault} :
      c.heading.isStalled = false → option ∈ options → Meets program grid option c fault →
      Meets program grid (.choice options) c fault
  | repeated {inner : Node} {count : Repeat} {k : Nat} {level : List Cursor} {c t : Cursor}
      {fault : WalkFault} : c.heading.isStalled = false →
      levelAt program grid inner c k = some (.ok level) → count.most?.any (· ≤ k) = false →
      t ∈ level → Meets program grid inner t fault → Meets program grid (.repeated inner count) c fault
  | look {kind : Look} {inner : Node} {c : Cursor} {fault : WalkFault} :
      c.heading.isStalled = false → Meets program grid inner (lookFrom kind c) fault →
      Meets program grid (.look kind inner) c fault

section Names

variable {c t : Cursor} {fault : WalkFault}

/-- What one of several cursors meets, the verdict on all of them names. -/
theorem names_of_evalEach {α : Type} {eval : α → Option Verdict} {as : List α} {a : α} {v : Verdict}
    (mem : a ∈ as) (h : ∀ v, eval a = some v → v.Names fault) (hv : evalEach eval as = some v) :
    v.Names fault := by
  obtain ⟨vs, hall, rfl⟩ := evalEach_eq_some_iff.mp hv
  obtain ⟨v, hmem, hav⟩ := exists_mem_of_forall₂ hall mem
  exact (h v hav).join hmem

theorem names_of_through {before after : List Node} {part : Node}
    (h : Through program grid before c t)
    (hp : ∀ v, eval program grid part t = some v → v.Names fault) {v : Verdict}
    (hv : evalParts program grid (before ++ part :: after) c = some v) : v.Names fault := by
  induction h generalizing v with
  | nil =>
    rw [List.nil_append, evalParts_cons, Option.bind_eq_some_iff] at hv
    obtain ⟨w, hw, hv⟩ := hv
    obtain ⟨faults, rfl, mem⟩ := hp w hw
    cases hv
    exact Verdict.names_error mem
  | cons head mem _ ih =>
    rw [List.cons_append, evalParts_cons, head] at hv
    exact names_of_evalEach mem (fun v hv => ih hp hv) hv

/-- A repetition that goes on to level `k` has the verdict of that level's repetition, or a fault with
it. -/
theorem names_of_levelAt {inner : Node} {count : Repeat} {k : Nat} {level : List Cursor}
    (hl : levelAt program grid inner c k = some (.ok level)) (hne : level ≠ [])
    (hk : ∀ j < k, count.most?.any (· ≤ j) = false)
    (h : ∀ v, evalLevels program grid inner count k level = some v → v.Names fault) {v : Verdict}
    (hv : evalLevels program grid inner count 0 [c] = some v) : v.Names fault := by
  induction k generalizing level with
  | zero =>
    cases hl
    exact h v hv
  | succ k ih =>
    rw [levelAt, Option.bind_eq_some_iff] at hl
    obtain ⟨w, hw, hl⟩ := hl
    cases w with
    | error faults => cases hl
    | ok before =>
      change evalEach (eval program grid inner) before = some (.ok level) at hl
      -- an empty level makes no further one
      have hb : before ≠ [] := by
        intro heq
        subst heq
        cases hl
        exact hne rfl
      apply ih hw hb (fun j hj => hk j (Nat.lt_succ_of_lt hj))
      intro v hv
      rw [evalLevels_next (by simp only [hk k (Nat.lt_succ_self k), Bool.false_eq_true,
        not_false_eq_true]) hl hne] at hv
      obtain ⟨w, hw, rfl⟩ := Option.map_eq_some_iff.mp hv
      exact (h w hw).map _

/-- **A verdict names every fault on the way.** So where there are survivors, nothing was met. -/
theorem Meets.names {node : Node} (h : Meets program grid node c fault) {v : Verdict}
    (hv : eval program grid node c = some v) : v.Names fault := by
  induction h generalizing v with
  | stalled hs =>
    rw [eval_stalled _ hs] at hv
    cases hv
    exact Verdict.names_error List.mem_cons_self
  | undeclared hs hd =>
    rw [eval_call_undeclared hs hd] at hv
    cases hv
    exact Verdict.names_error List.mem_cons_self
  | callTurns hs hd ht =>
    rw [eval_call hs hd, ht] at hv
    cases hv
    exact Verdict.names_error List.mem_cons_self
  | called hs hd ht mem _ ih =>
    rw [eval_call hs hd, ht] at hv
    obtain ⟨w, hw, rfl⟩ := Option.map_eq_some_iff.mp hv
    exact (names_of_evalEach mem (fun _ hv => ih hv) hw).map _
  | turns hs ht =>
    rw [eval_direction _ hs, ht] at hv
    cases hv
    exact Verdict.names_error List.mem_cons_self
  | sequence hs through _ ih =>
    rw [eval_sequence _ hs] at hv
    exact names_of_through through (fun _ hv => ih hv) hv
  | choice hs mem _ ih =>
    rw [eval_choice _ hs] at hv
    exact names_of_evalEach mem (fun _ hv => ih hv) hv
  | @repeated inner count k level _ _ _ hs hl hk mem _ ih =>
    rw [eval_repeated _ _ hs] at hv
    refine names_of_levelAt hl (List.ne_nil_of_mem mem) (fun j hj => ?_) (fun v hv => ?_) hv
    · cases hm : count.most? with
      | none => rfl
      | some most =>
        rw [hm] at hk
        simp only [Option.any_some, decide_eq_false_iff_not] at hk ⊢
        omega
    · rw [evalLevels_eq, hk] at hv
      obtain ⟨w, hw, hv⟩ := Option.bind_eq_some_iff.mp hv
      obtain ⟨faults, rfl, hmem⟩ := names_of_evalEach mem (fun _ hv => ih hv) hw
      cases hv
      exact Verdict.names_error hmem
  | look hs _ ih =>
    rw [eval_look _ _ hs] at hv
    obtain ⟨w, hw, rfl⟩ := Option.map_eq_some_iff.mp hv
    exact (ih hw).map _

end Names

end GridPattern.Walk
