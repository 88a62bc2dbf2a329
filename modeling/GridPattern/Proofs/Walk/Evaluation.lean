import GridPattern.Proofs.Walk.Verdict
import Mathlib.Order.Filter.AtTopBot.Basic

/-!
# The meaning of a pattern

What a cursor comes to along a pattern, said depth first and one cursor at a time: a part of a sequence
is followed to the end from one survivor before the next survivor is looked at, and nothing counts
steps. `Walk.follow` goes the other way round, all survivors through one part and then all of theirs
through the next; `GridPattern.Proofs.Walk.Agreement` says that both agree.

**A fixed point.** `unfolded` says each verdict by others. The verdicts that come of it at some depth of
unfolding are the meaning, and the meaning is what it says by itself (`evalTask_eq`).

**What it does not establish.** Patterns may repeat or call themselves without end, and `eval` has no
value then. `Meets` says what faults lie on the way also where there is no value.
-/

namespace GridPattern

namespace Cursor

/-- One marking step, if the test holds. -/
def stepIf? (c : Cursor) (grid : Grid) (test : Bool) : Option Cursor :=
  if test then c.step? grid true else none

/-- One marking step for each character of a text, as long as the grid shows that text. -/
def spell? (grid : Grid) : List Char → Cursor → Option Cursor
  | [], c => some c
  | target :: text, c => do
    let c ← c.stepIf? grid ((c.char? grid).any (charMatches c.switches.insensitive target))
    spell? grid text c

end Cursor

namespace Walk

/-- The cursors that a direction makes of one, if its letters mean a turn. -/
def headings? (grid : Grid) (way : Direction) (c : Cursor) : Option (List Cursor) :=
  let c := if way.absolute then { c with heading := .east } else c
  (Turn.ofLetters? way.turns).map fun
    | .relative b => [c.bend b]
    | .branch bends => bends.map c.bend
    | .everywhere => (grid.cells.filter (· != c.cell)).map c.aimAt

/-- The cursor that a call sends into the pattern called: of age zero, with more switches on. -/
def callee (params : Params) (caller : Cursor) : Cursor :=
  { caller with age := 0, switches := caller.switches.or params.switches }

/-- The survivors of a call, given those at the end of the pattern called: those that keep to the
group, back at the caller, and one unmarked step further if the call advances. -/
def handBack (grid : Grid) (params : Params) (caller : Cursor) (ended : List Cursor) : List Cursor :=
  let returned := ended.filterMap (returned? params caller)
  if params.advance then returned.filterMap (·.step? grid false) else returned

/-- The cursor that looks around. -/
def lookFrom (kind : Look) (c : Cursor) : Cursor :=
  match kind with
  | .absent => c
  | .unmarked => { c with switches.noMark := true }
  | .retraced => { c with switches.onlyMarked := true }

/-- The survivors of a look around, given those of the pattern looked for. -/
def lookBack (kind : Look) (c : Cursor) (found : List Cursor) : List Cursor :=
  match kind with
  | .absent => if found.isEmpty then [c] else []
  | .unmarked => found.map fun t => { t with switches.noMark := c.switches.noMark }
  | .retraced => found.map fun t => { t with switches.onlyMarked := c.switches.onlyMarked }

/-- What there is a verdict on: a pattern for one cursor, the parts of a sequence for one cursor, or the
levels of a repetition from level `k` on, which is given. -/
inductive Task
  | node (node : Node) (c : Cursor)
  | parts (parts : List Node) (c : Cursor)
  | levels (inner : Node) (count : Repeat) (k : Nat) (level : List Cursor)

/-- **The verdict on a task**, by the verdicts on those that it leads to. A level is what the inner
pattern makes of the one before. Levels go on to the greatest number of repetitions or until one is
empty, and those from the least number on are in the verdict. -/
def unfolded (program : Program) (grid : Grid) (verdict? : Task → Option Verdict) :
    Task → Option Verdict
  | .node node c =>
    if c.heading.isStalled then some (.error [.stalled])
    else
      match node with
      | .literal text => some (.ok (c.spell? grid text).toList)
      | .oneOf chars negated =>
        some (.ok (c.stepIf? grid
          ((c.char? grid).any (Cursor.classMatches c.switches.insensitive chars negated))).toList)
      | .inside => some (.ok (c.stepIf? grid (c.char? grid).isSome).toList)
      | .outside => some (.ok (c.stepIf? grid (c.char? grid).isNone).toList)
      | .sequence parts => verdict? (.parts parts c)
      | .choice options => evalEach (fun option => verdict? (.node option c)) options
      | .repeated inner count => verdict? (.levels inner count 0 [c])
      | .call target =>
        match program.declaration? target.name with
        | none => some (.error [.undeclared target.name])
        | some declared =>
          match headings? grid target.direction (callee (target.params.merged declared.params) c) with
          | none => some (.error [.unknownTurns target.direction.turns])
          | some headed =>
            (evalEach (fun h => verdict? (.node declared.body h)) headed).map
              (Except.map (handBack grid (target.params.merged declared.params) c))
      | .direction way =>
        match headings? grid way c with
        | none => some (.error [.unknownTurns way.turns])
        | some headed => some (.ok headed)
      | .look kind inner =>
        (verdict? (.node inner (lookFrom kind c))).map (Except.map (lookBack kind c))
  | .parts [] c => some (.ok [c])
  | .parts (part :: parts) c => (verdict? (.node part c)).bind fun
    | .error faults => some (.error faults)
    | .ok ts => evalEach (fun t => verdict? (.parts parts t)) ts
  | .levels inner count k level =>
    if count.most?.any (· ≤ k) then some (.ok (if count.least ≤ k then level else []))
    else (evalEach (fun t => verdict? (.node inner t)) level).bind fun
      | .error faults => some (.error faults)
      | .ok [] => some (.ok (if count.least ≤ k then level else []))
      | .ok (t :: ts) => (verdict? (.levels inner count (k + 1) (t :: ts))).map
          (Except.map ((if count.least ≤ k then level else []) ++ ·))

/-- The verdicts that come of so many unfoldings. -/
def evalUpTo (program : Program) (grid : Grid) : Nat → Task → Option Verdict
  | 0, _ => none
  | depth + 1, task => unfolded program grid (evalUpTo program grid depth) task

open Classical in
/-- The verdict that comes of enough unfoldings, if any does. -/
noncomputable def evalTask (program : Program) (grid : Grid) (task : Task) : Option Verdict :=
  if h : ∃ v depth, evalUpTo program grid depth task = some v then some h.choose else none

/-- **The meaning of a pattern** for one cursor. -/
noncomputable def eval (program : Program) (grid : Grid) (node : Node) (c : Cursor) : Option Verdict :=
  evalTask program grid (.node node c)

/-- One part after the other, the rest from each survivor of the first. -/
noncomputable def evalParts (program : Program) (grid : Grid) (parts : List Node) (c : Cursor) :
    Option Verdict := evalTask program grid (.parts parts c)

/-- The levels of a repetition from level `k` on. -/
noncomputable def evalLevels (program : Program) (grid : Grid) (inner : Node) (count : Repeat) (k : Nat)
    (level : List Cursor) : Option Verdict := evalTask program grid (.levels inner count k level)

/-! ## The fixed point -/

section FixedPoint

open Filter

variable {ι α β : Type} {l : Filter ι} {program : Program} {grid : Grid}

/-- Where there is a value, nearly all of the others are that value. -/
def Nears (l : Filter ι) (f : ι → Option α) (o : Option α) : Prop :=
  ∀ v, o = some v → ∀ᶠ i in l, f i = some v

theorem Nears.same (o : Option α) : Nears l (fun _ => o) o :=
  fun _ h => .of_forall fun _ => h

theorem Nears.bind {f : ι → Option α} {o : Option α} {g : ι → α → Option β} {k : α → Option β}
    (hf : Nears l f o) (hg : ∀ a, Nears l (fun i => g i a) (k a)) :
    Nears l (fun i => (f i).bind (g i)) (o.bind k) := by
  intro v h
  obtain ⟨a, ha, hv⟩ := Option.bind_eq_some_iff.mp h
  filter_upwards [hf a ha, hg a v hv] with i hfi hgi
  rw [hfi]
  exact hgi

theorem Nears.map {f : ι → Option α} {o : Option α} (hf : Nears l f o) (g : α → β) :
    Nears l (fun i => (f i).map g) (o.map g) := by
  intro v h
  obtain ⟨a, ha, rfl⟩ := Option.map_eq_some_iff.mp h
  filter_upwards [hf a ha] with i hfi
  rw [hfi]
  rfl

theorem Nears.each {f : ι → α → Option Verdict} {g : α → Option Verdict}
    (h : ∀ a, Nears l (fun i => f i a) (g a)) (as : List α) :
    Nears l (fun i => evalEach (f i) as) (evalEach g as) := by
  induction as with
  | nil => exact .same _
  | cons a as ih =>
    simp only [evalEach_cons]
    exact (h a).bind fun v => ih.bind fun w => .same _

/-- Verdicts near to others unfold to verdicts near to theirs. -/
theorem Nears.unfolded {f : ι → Task → Option Verdict} {g : Task → Option Verdict}
    (h : ∀ task, Nears l (fun i => f i task) (g task)) (task : Task) :
    Nears l (fun i => unfolded program grid (f i) task) (unfolded program grid g task) := by
  cases task with
  | node node c =>
    simp only [Walk.unfolded]
    by_cases hs : c.heading.isStalled = true
    · simp only [if_pos hs]
      exact .same _
    · simp only [if_neg hs]
      cases node with
      | literal | oneOf | inside | outside | direction => exact .same _
      | sequence parts => exact h _
      | choice options => exact .each (fun _ => h _) options
      | repeated inner count => exact h _
      | call target =>
        dsimp only
        cases program.declaration? target.name with
        | none => exact .same _
        | some declared =>
          dsimp only
          cases headings? grid target.direction (callee (target.params.merged declared.params) c) with
          | none => exact .same _
          | some headed => exact Nears.map (.each (fun _ => h _) headed) _
      | look kind inner => exact (h _).map _
  | parts parts c =>
    cases parts with
    | nil => exact .same _
    | cons part parts =>
      apply (h _).bind
      intro v
      cases v with
      | error faults => exact .same _
      | ok ts => exact .each (fun _ => h _) ts
  | levels inner count k level =>
    simp only [Walk.unfolded]
    by_cases hk : count.most?.any (· ≤ k) = true
    · simp only [if_pos hk]
      exact .same _
    · simp only [if_neg hk]
      apply Nears.bind (.each (fun _ => h _) level)
      intro v
      match v with
      | .error faults => exact .same _
      | .ok [] => exact .same _
      | .ok (t :: ts) => exact (h _).map _

/-- What one unfolding keeps of the values, between two verdicts on each task. -/
theorem unfolded_le {f g : Task → Option Verdict} (h : ∀ task v, f task = some v → g task = some v)
    {task : Task} {v : Verdict} (hv : unfolded program grid f task = some v) :
    unfolded program grid g task = some v := by
  have hnears : ∀ task, Nears (pure () : Filter Unit) (fun _ => g task) (f task) :=
    fun task v hf => .of_forall fun _ => h task v hf
  simpa using Nears.unfolded hnears task v hv

theorem evalUpTo_succ {depth : Nat} {task : Task} {v : Verdict}
    (h : evalUpTo program grid depth task = some v) : evalUpTo program grid (depth + 1) task = some v := by
  induction depth generalizing task v with
  | zero => cases h
  | succ depth ih => exact unfolded_le (fun _ _ => ih) h

theorem evalUpTo_of_le {least depth : Nat} {task : Task} {v : Verdict}
    (h : evalUpTo program grid least task = some v) (hle : least ≤ depth) :
    evalUpTo program grid depth task = some v := by
  induction hle with
  | refl => exact h
  | step _ ih => exact evalUpTo_succ ih

theorem evalTask_eq_some_iff {task : Task} {v : Verdict} :
    evalTask program grid task = some v ↔ ∃ depth, evalUpTo program grid depth task = some v := by
  unfold evalTask
  constructor
  · intro h
    split at h
    · next hex =>
      cases h
      exact hex.choose_spec
    · cases h
  · intro h
    have hex : ∃ v depth, evalUpTo program grid depth task = some v := ⟨v, h⟩
    obtain ⟨depth, hv⟩ := h
    obtain ⟨depth', hv'⟩ := hex.choose_spec
    rw [dif_pos hex, ← evalUpTo_of_le hv' (le_max_right depth depth'),
      evalUpTo_of_le hv (le_max_left depth depth')]

theorem nears_evalTask (task : Task) :
    Nears atTop (fun depth => evalUpTo program grid depth task) (evalTask program grid task) := by
  intro v h
  obtain ⟨least, hleast⟩ := evalTask_eq_some_iff.mp h
  filter_upwards [eventually_ge_atTop least] with depth hle
  exact evalUpTo_of_le hleast hle

/-- **The meaning is its own unfolding.** -/
theorem evalTask_eq (task : Task) :
    evalTask program grid task = unfolded program grid (evalTask program grid) task := by
  ext v
  rw [evalTask_eq_some_iff]
  constructor
  · intro h
    obtain ⟨depth, h⟩ := h
    have hle : ∀ task v, evalUpTo program grid depth task = some v → evalTask program grid task = some v :=
      fun task v h => evalTask_eq_some_iff.mpr ⟨depth, h⟩
    exact unfolded_le hle (evalUpTo_succ h)
  · -- One unfolding asks for finitely many verdicts, and there is a depth at which all are in.
    intro h
    obtain ⟨depth, hdepth⟩ := (Nears.unfolded nears_evalTask task v h).exists
    exact ⟨depth + 1, hdepth⟩

end FixedPoint

/-! ## Equations -/

section Equations

variable {program : Program} {grid : Grid} {c : Cursor}

theorem eval_stalled (node : Node) (h : c.heading.isStalled = true) :
    eval program grid node c = some (.error [.stalled]) := by
  rw [eval, evalTask_eq]
  exact if_pos h

/-- Only a cursor that goes somewhere has survivors. -/
theorem going_of_eval {node : Node} {ts : List Cursor} (h : eval program grid node c = some (.ok ts)) :
    c.heading.isStalled = false := by
  cases hs : c.heading.isStalled with
  | false => rfl
  | true =>
    rw [eval_stalled node hs] at h
    cases h

/-- Past the test for a heading that goes nowhere, each pattern has its own rule. -/
theorem eval_literal (text : List Char) (h : c.heading.isStalled = false) :
    eval program grid (.literal text) c = some (.ok (c.spell? grid text).toList) := by
  rw [eval, evalTask_eq, unfolded, h]
  rfl

theorem eval_oneOf (chars : List Char) (negated : Bool) (h : c.heading.isStalled = false) :
    eval program grid (.oneOf chars negated) c = some (.ok (c.stepIf? grid
      ((c.char? grid).any (Cursor.classMatches c.switches.insensitive chars negated))).toList) := by
  rw [eval, evalTask_eq, unfolded, h]
  rfl

theorem eval_inside (h : c.heading.isStalled = false) :
    eval program grid .inside c = some (.ok (c.stepIf? grid (c.char? grid).isSome).toList) := by
  rw [eval, evalTask_eq, unfolded, h]
  rfl

theorem eval_outside (h : c.heading.isStalled = false) :
    eval program grid .outside c = some (.ok (c.stepIf? grid (c.char? grid).isNone).toList) := by
  rw [eval, evalTask_eq, unfolded, h]
  rfl

theorem eval_sequence (parts : List Node) (h : c.heading.isStalled = false) :
    eval program grid (.sequence parts) c = evalParts program grid parts c := by
  rw [eval, evalTask_eq, unfolded, h]
  rfl

theorem eval_choice (options : List Node) (h : c.heading.isStalled = false) :
    eval program grid (.choice options) c = evalEach (eval program grid · c) options := by
  rw [eval, evalTask_eq, unfolded, h]
  rfl

theorem eval_repeated (inner : Node) (count : Repeat) (h : c.heading.isStalled = false) :
    eval program grid (.repeated inner count) c = evalLevels program grid inner count 0 [c] := by
  rw [eval, evalTask_eq, unfolded, h]
  rfl

theorem eval_call_undeclared {target : Call} (h : c.heading.isStalled = false)
    (hd : program.declaration? target.name = none) :
    eval program grid (.call target) c = some (.error [.undeclared target.name]) := by
  rw [eval, evalTask_eq, unfolded, h]
  simp only [hd]
  rfl

theorem eval_call {target : Call} {declared : Declaration} (h : c.heading.isStalled = false)
    (hd : program.declaration? target.name = some declared) :
    eval program grid (.call target) c =
      match headings? grid target.direction (callee (target.params.merged declared.params) c) with
      | none => some (.error [.unknownTurns target.direction.turns])
      | some headed =>
        (evalEach (eval program grid declared.body) headed).map
          (Except.map (handBack grid (target.params.merged declared.params) c)) := by
  rw [eval, evalTask_eq, unfolded, h]
  simp only [hd]
  rfl

theorem eval_direction (way : Direction) (h : c.heading.isStalled = false) :
    eval program grid (.direction way) c =
      match headings? grid way c with
      | none => some (.error [.unknownTurns way.turns])
      | some headed => some (.ok headed) := by
  rw [eval, evalTask_eq, unfolded, h]
  rfl

theorem eval_look (kind : Look) (inner : Node) (h : c.heading.isStalled = false) :
    eval program grid (.look kind inner) c =
      (eval program grid inner (lookFrom kind c)).map (Except.map (lookBack kind c)) := by
  rw [eval, evalTask_eq, unfolded, h]
  rfl

theorem evalParts_nil : evalParts program grid [] c = some (.ok [c]) := by
  rw [evalParts, evalTask_eq, unfolded]

/-- Without parts every cursor is its own survivor. -/
theorem evalEach_evalParts_nil (cs : List Cursor) :
    evalEach (evalParts program grid []) cs = some (.ok cs) := by
  refine evalEach_eq_some_iff.mpr ⟨cs.map fun c => .ok [c], ?_, Verdict.join_ones ?_⟩
  · exact (List.forall₂_map_right_iff (R := fun c v => evalParts program grid [] c = some v)).mpr
      (List.forall₂_same.mpr fun _ _ => evalParts_nil)
  · exact (List.forall₂_map_right_iff (R := fun (c : Cursor) (v : Verdict) => v = .ok [c])).mpr
      (List.forall₂_same.mpr fun _ _ => rfl)

theorem evalParts_cons (part : Node) (parts : List Node) :
    evalParts program grid (part :: parts) c = (eval program grid part c).bind fun
      | .error faults => some (.error faults)
      | .ok ts => evalEach (evalParts program grid parts) ts := by
  rw [evalParts, evalTask_eq, unfolded]
  rfl

/-- One part is a sequence by itself. -/
theorem evalParts_one (part : Node) : evalParts program grid [part] c = eval program grid part c := by
  rw [evalParts_cons]
  cases eval program grid part c with
  | none => rfl
  | some v =>
    cases v with
    | error faults => rfl
    | ok ts => exact evalEach_evalParts_nil ts

/-- All parts from each of several cursors: the first part from each, and the others from what survived
it. -/
theorem evalEach_evalParts_cons {part : Node} {parts : List Node} {cs ts us : List Cursor}
    (head : evalEach (eval program grid part) cs = some (.ok ts))
    (tail : evalEach (evalParts program grid parts) ts = some (.ok us)) :
    evalEach (evalParts program grid (part :: parts)) cs = some (.ok us) := by
  obtain ⟨tss, hall, rfl⟩ := evalEach_eq_ok_iff.mp head
  induction hall generalizing us with
  | nil => exact tail
  | @cons c ts₀ cs tss hc hcs ih =>
    rw [List.flatten_cons] at tail
    obtain ⟨us, vs, hus, hvs, rfl⟩ := evalEach_append_eq_ok_iff.mp tail
    rw [evalEach_cons, evalParts_cons, hc, ih (evalEach_eq_ok_iff.mpr ⟨tss, hcs, rfl⟩) hvs]
    simp only [Option.bind_some, hus]
    rfl

theorem evalLevels_eq (inner : Node) (count : Repeat) (k : Nat) (level : List Cursor) :
    evalLevels program grid inner count k level =
      if count.most?.any (· ≤ k) then some (.ok (if count.least ≤ k then level else []))
      else (evalEach (eval program grid inner) level).bind fun
        | .error faults => some (.error faults)
        | .ok [] => some (.ok (if count.least ≤ k then level else []))
        | .ok (t :: ts) => (evalLevels program grid inner count (k + 1) (t :: ts)).map
            (Except.map ((if count.least ≤ k then level else []) ++ ·)) := by
  rw [evalLevels, evalTask_eq, unfolded]
  rfl

/-- A level that is empty is the last. -/
theorem evalLevels_last {inner : Node} {count : Repeat} {k : Nat} {level : List Cursor}
    (hk : ¬count.most?.any (· ≤ k) = true)
    (next : evalEach (eval program grid inner) level = some (.ok [])) :
    evalLevels program grid inner count k level =
      some (.ok (if count.least ≤ k then level else [])) := by
  rw [evalLevels_eq, if_neg hk, next]
  rfl

theorem evalLevels_next {inner : Node} {count : Repeat} {k : Nat} {level next : List Cursor}
    (hk : ¬count.most?.any (· ≤ k) = true)
    (hnext : evalEach (eval program grid inner) level = some (.ok next)) (hne : next ≠ []) :
    evalLevels program grid inner count k level =
      (evalLevels program grid inner count (k + 1) next).map
        (Except.map ((if count.least ≤ k then level else []) ++ ·)) := by
  rw [evalLevels_eq, if_neg hk, hnext]
  obtain ⟨t, ts, rfl⟩ := List.exists_cons_of_ne_nil hne
  rfl

end Equations
end Walk

end GridPattern
