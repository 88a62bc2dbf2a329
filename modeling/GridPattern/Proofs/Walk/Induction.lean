import GridPattern.Proofs.Walk.Evaluation

/-!
# Induction on the meaning of a pattern

A verdict comes about by rules, one for each kind of pattern and each way in which it can go. What is
closed under the rules holds of every verdict that there is.

**The law** (`Rules.eval`). A property of patterns is shown along with what goes with it for the levels
of a repetition and for the parts of a sequence.
-/

namespace GridPattern.Walk

/-- **Closed under the rules**: `N` of patterns, `L` of levels and `P` of parts. -/
structure Rules (program : Program) (grid : Grid) (N : Node → Cursor → Verdict → Prop)
    (L : Node → Repeat → Nat → List Cursor → Verdict → Prop)
    (P : List Node → Cursor → Verdict → Prop) : Prop where
  stalled : ∀ node c, c.heading.isStalled = true → N node c (.error [.stalled])
  literal : ∀ text c, c.heading.isStalled = false →
    N (.literal text) c (.ok (c.spell? grid text).toList)
  oneOf : ∀ chars negated c, c.heading.isStalled = false →
    N (.oneOf chars negated) c (.ok (c.stepIf? grid
      ((c.char? grid).any (Cursor.classMatches c.switches.insensitive chars negated))).toList)
  inside : ∀ c, c.heading.isStalled = false →
    N .inside c (.ok (c.stepIf? grid (c.char? grid).isSome).toList)
  outside : ∀ c, c.heading.isStalled = false →
    N .outside c (.ok (c.stepIf? grid (c.char? grid).isNone).toList)
  sequence : ∀ parts c v, c.heading.isStalled = false → P parts c v → N (.sequence parts) c v
  choice : ∀ options c vs, c.heading.isStalled = false →
    List.Forall₂ (fun option v => N option c v) options vs →
      N (.choice options) c (.join vs)
  repeated : ∀ inner count c v, c.heading.isStalled = false → L inner count 0 [c] v →
    N (.repeated inner count) c v
  undeclared : ∀ target c, c.heading.isStalled = false →
    program.declaration? target.name = none →
      N (.call target) c (.error [.undeclared target.name])
  callTurns : ∀ target declared c, c.heading.isStalled = false →
    program.declaration? target.name = some declared →
    headings? grid target.direction (callee (target.params.merged declared.params) c) = none →
      N (.call target) c (.error [.unknownTurns target.direction.turns])
  call : ∀ target declared c headed vs, c.heading.isStalled = false →
    program.declaration? target.name = some declared →
    headings? grid target.direction (callee (target.params.merged declared.params) c) =
      some headed →
    List.Forall₂ (N declared.body) headed vs →
      N (.call target) c
        ((Verdict.join vs).map (handBack grid (target.params.merged declared.params) c))
  turns : ∀ way c, c.heading.isStalled = false → headings? grid way c = none →
    N (.direction way) c (.error [.unknownTurns way.turns])
  direction : ∀ way c headed, c.heading.isStalled = false → headings? grid way c = some headed →
    N (.direction way) c (.ok headed)
  look : ∀ kind inner c v, c.heading.isStalled = false → N inner (lookFrom kind c) v →
    N (.look kind inner) c (v.map (lookBack kind c))
  full : ∀ inner count k level, count.most?.any (· ≤ k) = true →
    L inner count k level (.ok (if count.least ≤ k then level else []))
  stopped : ∀ inner count k level vs faults, ¬count.most?.any (· ≤ k) = true →
    List.Forall₂ (N inner) level vs → Verdict.join vs = .error faults →
      L inner count k level (.error faults)
  died : ∀ inner count k level vs, ¬count.most?.any (· ≤ k) = true →
    List.Forall₂ (N inner) level vs → Verdict.join vs = .ok [] →
      L inner count k level (.ok (if count.least ≤ k then level else []))
  next : ∀ inner count k level vs t ts v, ¬count.most?.any (· ≤ k) = true →
    List.Forall₂ (N inner) level vs → Verdict.join vs = .ok (t :: ts) →
    L inner count (k + 1) (t :: ts) v →
      L inner count k level (v.map ((if count.least ≤ k then level else []) ++ ·))
  done : ∀ c, P [] c (.ok [c])
  partStopped : ∀ part parts c faults, N part c (.error faults) →
    P (part :: parts) c (.error faults)
  part : ∀ part parts c ts vs, N part c (.ok ts) → List.Forall₂ (P parts) ts vs →
    P (part :: parts) c (.join vs)

variable {program : Program} {grid : Grid} {N : Node → Cursor → Verdict → Prop}
  {L : Node → Repeat → Nat → List Cursor → Verdict → Prop} {P : List Node → Cursor → Verdict → Prop}

/-- What is said of a task by what is said of patterns, levels and parts. -/
def Holds (N : Node → Cursor → Verdict → Prop) (L : Node → Repeat → Nat → List Cursor → Verdict → Prop)
    (P : List Node → Cursor → Verdict → Prop) : Task → Verdict → Prop
  | .node node c, v => N node c v
  | .parts parts c, v => P parts c v
  | .levels inner count k level, v => L inner count k level v

section Unfolding

variable {verdict? : Task → Option Verdict} {v : Verdict}

theorem Rules.node (closed : Rules program grid N L P)
    (ih : ∀ task v, verdict? task = some v → Holds N L P task v) {node : Node} {c : Cursor}
    (h : unfolded program grid verdict? (.node node c) = some v) : N node c v := by
  by_cases hs : c.heading.isStalled = true
  · rw [unfolded.eq_def] at h
    cases (if_pos hs).symm.trans h
    exact closed.stalled node c hs
  · have hgoing := Bool.eq_false_iff.mpr hs
    cases node with
    | literal text =>
      rw [unfolded, if_neg hs] at h
      cases h
      exact closed.literal text c hgoing
    | oneOf chars negated =>
      rw [unfolded, if_neg hs] at h
      cases h
      exact closed.oneOf chars negated c hgoing
    | inside =>
      rw [unfolded, if_neg hs] at h
      cases h
      exact closed.inside c hgoing
    | outside =>
      rw [unfolded, if_neg hs] at h
      cases h
      exact closed.outside c hgoing
    | sequence parts =>
      rw [unfolded, if_neg hs] at h
      exact closed.sequence parts c v hgoing (ih (.parts parts c) v h)
    | choice options =>
      rw [unfolded, if_neg hs] at h
      obtain ⟨vs, hvs, rfl⟩ := evalEach_eq_some_iff.mp h
      exact closed.choice options c vs hgoing (hvs.imp fun option v hv => ih (.node option c) v hv)
    | repeated inner count =>
      rw [unfolded, if_neg hs] at h
      exact closed.repeated inner count c v hgoing (ih (.levels inner count 0 [c]) v h)
    | call target =>
      rw [unfolded, if_neg hs] at h
      split at h
      · next hd =>
        cases h
        exact closed.undeclared target c hgoing hd
      · next declared hd =>
        split at h
        · next hh =>
          cases h
          exact closed.callTurns target declared c hgoing hd hh
        · next headed hh =>
          obtain ⟨w, hw, rfl⟩ := Option.map_eq_some_iff.mp h
          obtain ⟨vs, hvs, rfl⟩ := evalEach_eq_some_iff.mp hw
          exact closed.call target declared c headed vs hgoing hd hh
            (hvs.imp fun t v hv => ih (.node declared.body t) v hv)
    | direction way =>
      rw [unfolded, if_neg hs] at h
      split at h
      · next hh =>
        cases h
        exact closed.turns way c hgoing hh
      · next headed hh =>
        cases h
        exact closed.direction way c headed hgoing hh
    | look kind inner =>
      rw [unfolded, if_neg hs] at h
      obtain ⟨w, hw, rfl⟩ := Option.map_eq_some_iff.mp h
      exact closed.look kind inner c w hgoing (ih (.node inner (lookFrom kind c)) w hw)

theorem Rules.levels (closed : Rules program grid N L P)
    (ih : ∀ task v, verdict? task = some v → Holds N L P task v) {inner : Node} {count : Repeat}
    {k : Nat} {level : List Cursor}
    (h : unfolded program grid verdict? (.levels inner count k level) = some v) :
    L inner count k level v := by
  rw [unfolded] at h
  by_cases hk : count.most?.any (· ≤ k) = true
  · rw [if_pos hk] at h
    cases h
    exact closed.full inner count k level hk
  · rw [if_neg hk] at h
    obtain ⟨w, hw, h⟩ := Option.bind_eq_some_iff.mp h
    obtain ⟨vs, hvs, hj⟩ := evalEach_eq_some_iff.mp hw
    have hlevel := hvs.imp fun t v hv => ih (.node inner t) v hv
    cases w with
    | error faults =>
      cases h
      exact closed.stopped inner count k level vs faults hk hlevel hj
    | ok survivors =>
      cases survivors with
      | nil =>
        cases h
        exact closed.died inner count k level vs hk hlevel hj
      | cons t ts =>
        obtain ⟨later, hlater, rfl⟩ := Option.map_eq_some_iff.mp h
        exact closed.next inner count k level vs t ts later hk hlevel hj
          (ih (.levels inner count (k + 1) (t :: ts)) later hlater)

theorem Rules.parts (closed : Rules program grid N L P)
    (ih : ∀ task v, verdict? task = some v → Holds N L P task v) {parts : List Node} {c : Cursor}
    (h : unfolded program grid verdict? (.parts parts c) = some v) : P parts c v := by
  cases parts with
  | nil =>
    rw [unfolded] at h
    cases h
    exact closed.done c
  | cons first rest =>
    rw [unfolded] at h
    obtain ⟨w, hw, h⟩ := Option.bind_eq_some_iff.mp h
    have hfirst := ih (.node first c) w hw
    cases w with
    | error faults =>
      cases h
      exact closed.partStopped first rest c faults hfirst
    | ok ts =>
      obtain ⟨vs, hvs, rfl⟩ := evalEach_eq_some_iff.mp h
      exact closed.part first rest c ts vs hfirst (hvs.imp fun t v hv => ih (.parts rest t) v hv)

end Unfolding

/-- What is closed under the rules holds of the verdicts at every depth of unfolding. -/
theorem Rules.evalUpTo (closed : Rules program grid N L P) (depth : Nat) :
    ∀ task v, evalUpTo program grid depth task = some v → Holds N L P task v := by
  induction depth with
  | zero =>
    intro task v h
    cases h
  | succ depth ih =>
    intro task v h
    cases task with
    | node node c => exact closed.node ih h
    | parts parts c => exact closed.parts ih h
    | levels inner count k level => exact closed.levels ih h

/-- **Every verdict has what is closed under the rules.** -/
theorem Rules.eval (closed : Rules program grid N L P) {node : Node} {c : Cursor} {v : Verdict}
    (h : eval program grid node c = some v) : N node c v := by
  obtain ⟨depth, hdepth⟩ := evalTask_eq_some_iff.mp h
  exact closed.evalUpTo depth (.node node c) v hdepth

end GridPattern.Walk
