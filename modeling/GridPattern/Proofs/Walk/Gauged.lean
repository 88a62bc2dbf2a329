import GridPattern.Proofs.Walk.Budget

/-!
# How far a walk goes under a budget

A walk counts its steps and nothing else. What it does between steps is not counted: how often a
repetition goes round, and how deep patterns nest. A walk with a gauge does the same, and its gauge shows
these too.

**The law** (`run_ends_within_budget`). Under a budget of `n` steps a program comes to an end, with
survivors or with a fault, whatever it calls or repeats. It takes no more than `n + 1` steps, goes round no
more than `n + 1` times, all repetitions together, and nests no deeper than `n + 1`; the depth that a walk
is given has no part in it, once it is more than the budget.

Each round begins with a cursor, and the pattern repeated takes a step with it before anything else is
done; and every pattern that another is nested in has taken a step of its own. So rounds and nesting are
paid for by steps (`Gauges`), and nothing has to be said about the patterns themselves.
-/

namespace GridPattern

/-- **What a gauge shows.** -/
structure Gauge where
  /-- Steps, as a walk counts them. -/
  steps : Nat := 0
  /-- Rounds of repetitions that were begun, all repetitions together. -/
  rounds : Nat := 0
  /-- The most patterns that were entered and not left. -/
  deepest : Nat := 0
deriving DecidableEq, Repr

/-- Computations with a gauge, inside so many patterns that were entered and not left. -/
abbrev Gauged : Type → Type := ReaderT Nat (ExceptT Stop (StateM Gauge))

namespace Gauged

variable {α β : Type}

/-- What a computation inside so many patterns comes to from a gauge, and the gauge after it. -/
def runAt (m : Gauged α) (level : Nat) (g : Gauge) : Except Stop α × Gauge := (m.run level).run.run g

/-- What a computation comes to from a gauge, outside of all patterns. -/
def runFrom (m : Gauged α) (g : Gauge) : Except Stop α × Gauge := m.runAt 0 g

/-- Enters a pattern: a step, and one more pattern inside the others. -/
def tick (budget : Option Nat) : Gauged Unit := fun level => ExceptT.mk fun g =>
  let (r, steps) := (Counted.tick budget).runFrom g.steps
  (r, { g with steps, deepest := max g.deepest (level + 1) })

/-- Patterns that are entered are counted, and so are rounds. -/
instance : Paced Gauged where
  stop := throw
  restart := set ({} : Gauge)
  inside budget walk := do
    tick budget
    withReader (· + 1) walk
  round walk := do
    modify fun g : Gauge => { g with rounds := g.rounds + 1 }
    walk

theorem runAt_bind (m : Gauged α) (f : α → Gauged β) (level : Nat) (g : Gauge) :
    (m >>= f).runAt level g =
      match m.runAt level g with
      | (.ok a, g) => (f a).runAt level g
      | (.error stop, g) => (.error stop, g) := by
  unfold runAt
  simp only [ReaderT.run_bind, ExceptT.run_bind, StateT.run_bind]
  change (match (m.run level).run.run g with | (r, g') => _ : Except Stop β × Gauge) = _
  cases (m.run level).run.run g with
  | mk r g' => cases r <;> rfl

theorem runAt_round (m : Gauged α) (level : Nat) (g : Gauge) :
    (Paced.round m).runAt level g = m.runAt level { g with rounds := g.rounds + 1 } := rfl

/-- A step is counted, whether it is one too many or not. -/
theorem runAt_inside (budget : Option Nat) (m : Gauged α) (level : Nat) (g : Gauge) :
    let entered : Gauge := { g with steps := g.steps + 1, deepest := max g.deepest (level + 1) }
    (Counted.tick budget).runFrom g.steps = (.ok (), g.steps + 1) ∧
        (Paced.inside budget m).runAt level g = m.runAt (level + 1) entered ∨
      ∃ limit, (Counted.tick budget).runFrom g.steps = (.error (.fault (.budgetExhausted limit)), g.steps + 1) ∧
        (Paced.inside budget m).runAt level g = (.error (.fault (.budgetExhausted limit)), entered) := by
  intro entered
  have hrun : (Paced.inside budget m).runAt level g =
      (tick budget >>= fun _ => withReader (· + 1) m : Gauged α).runAt level g := rfl
  have htick : (tick budget).runAt level g =
      (((Counted.tick budget).runFrom g.steps).1,
        { g with steps := ((Counted.tick budget).runFrom g.steps).2, deepest := max g.deepest (level + 1) }) := rfl
  rw [hrun, runAt_bind, htick]
  cases budget with
  | none => exact .inl ⟨rfl, rfl⟩
  | some limit =>
    rw [Counted.runFrom_tick_some]
    split
    · exact .inr ⟨limit, rfl, rfl⟩
    · exact .inl ⟨rfl, rfl⟩

end Gauged

namespace Walk

open Survivors (flatMapList ofList isEmpty_toList)

/-- **The walk of a whole program, with a gauge.** -/
def Gauged.run (s : Setting) (depth : Nat) (c : Cursor) : Gauged (Survivors Cursor) :=
  (Walker.cursor s.grid).run s.program s.budget depth c

/-! ## What a gauge shows -/

/-- **What steps pay for.** The computation with a gauge is the other one, looked on. Inside `level` patterns
that were entered before, it nests deeper by no more than its steps, and begins fewer rounds than it takes
steps by `spare`, unless it comes to the end of its depth. -/
structure Gauges {α : Type} (level spare : Nat) (m : Gauged α) (m' : Counted α) : Prop where
  erased : ∀ g, m'.runFrom g.steps = ((m.runAt level g).1, (m.runAt level g).2.steps)
  forward : ∀ g, g.steps ≤ (m.runAt level g).2.steps
  nested : ∀ g, (m.runAt level g).2.deepest ≤ max g.deepest (level + ((m.runAt level g).2.steps - g.steps))
  paid : ∀ g, (m.runAt level g).1 ≠ .error .unfinished →
    (m.runAt level g).2.rounds + spare + g.steps ≤ g.rounds + (m.runAt level g).2.steps

namespace Gauges

variable {α β : Type} {level spare : Nat} {m : Gauged α} {m' : Counted α}

theorem weaken (h : Gauges level spare m m') : Gauges level 0 m m' where
  erased := h.erased
  forward := h.forward
  nested := h.nested
  paid g hne := by
    have := h.paid g hne
    omega

theorem pure (a : α) : Gauges level 0 (pure a) (pure a) where
  erased _ := rfl
  forward _ := Nat.le_refl _
  nested _ := Nat.le_max_left _ _
  paid _ _ := Nat.le_refl _

theorem stop (reason : Stop) : Gauges level 0 (Paced.stop reason : Gauged α) (Paced.stop reason : Counted α) where
  erased _ := rfl
  forward _ := Nat.le_refl _
  nested _ := Nat.le_max_left _ _
  paid _ _ := Nat.le_refl _

/-- **Two computations in a row**: the first keeps its spare step. -/
theorem bind (h : Gauges level spare m m') {f : α → Gauged β} {f' : α → Counted β}
    (hf : ∀ a, Gauges level 0 (f a) (f' a)) : Gauges level spare (m >>= f) (m' >>= f') := by
  have hrun : ∀ g, (∃ a, m.runAt level g = (.ok a, (m.runAt level g).2) ∧
        (m >>= f).runAt level g = (f a).runAt level (m.runAt level g).2) ∨
      ∃ stop, m.runAt level g = (.error stop, (m.runAt level g).2) ∧
        (m >>= f).runAt level g = (.error stop, (m.runAt level g).2) := by
    intro g
    rw [Gauged.runAt_bind]
    cases m.runAt level g with
    | mk r after =>
      cases r with
      | ok a => exact .inl ⟨a, rfl, rfl⟩
      | error stop => exact .inr ⟨stop, rfl, rfl⟩
  constructor
  · intro g
    rw [Counted.runFrom_bind, h.erased g]
    obtain ⟨a, hm, hrun⟩ | ⟨stop, hm, hrun⟩ := hrun g <;> rw [hrun, hm]
    exact (hf a).erased _
  · intro g
    have hfirst := h.forward g
    obtain ⟨a, _, hrun⟩ | ⟨stop, _, hrun⟩ := hrun g <;> rw [hrun]
    · exact hfirst.trans ((hf a).forward _)
    · exact hfirst
  · intro g
    have hfirst := h.nested g
    have hforward := h.forward g
    obtain ⟨a, _, hrun⟩ | ⟨stop, _, hrun⟩ := hrun g <;> rw [hrun]
    · have hsecond := (hf a).nested (m.runAt level g).2
      have := (hf a).forward (m.runAt level g).2
      omega
    · exact hfirst
  · intro g hne
    obtain ⟨a, hm, hrun⟩ | ⟨stop, hm, hrun⟩ := hrun g <;> rw [hrun] at hne ⊢
    · have hfirst := h.paid g (by rw [hm]; exact nofun)
      have hsecond := (hf a).paid (m.runAt level g).2 hne
      omega
    · refine h.paid g ?_
      rw [hm]
      intro heq
      cases heq
      exact hne rfl

theorem map (h : Gauges level spare m m') (f : α → β) : Gauges level spare (f <$> m) (f <$> m') := by
  rw [map_eq_pure_bind, map_eq_pure_bind]
  exact h.bind fun a => .pure (f a)

/-- A round is paid for by the step that it begins with. -/
theorem round (h : Gauges level 1 m m') : Gauges level 0 (Paced.round m) (Paced.round m') := by
  constructor
  · intro g
    rw [Gauged.runAt_round]
    exact h.erased { g with rounds := g.rounds + 1 }
  · intro g
    rw [Gauged.runAt_round]
    exact h.forward { g with rounds := g.rounds + 1 }
  · intro g
    rw [Gauged.runAt_round]
    exact h.nested { g with rounds := g.rounds + 1 }
  · intro g hne
    rw [Gauged.runAt_round] at hne ⊢
    have := h.paid { g with rounds := g.rounds + 1 } hne
    dsimp only at this
    omega

/-- The step that a pattern is entered with pays for one level more. -/
theorem inside (budget : Option Nat) (h : Gauges (level + 1) 0 m m') :
    Gauges level 1 (Paced.inside budget m) (Paced.inside budget m') := by
  -- the gauge once the step is taken
  let taken (g : Gauge) : Gauge := { g with steps := g.steps + 1, deepest := max g.deepest (level + 1) }
  have hcounted (count : Nat) : (Paced.inside budget m').runFrom count =
      (Counted.tick budget >>= fun _ => m').runFrom count := rfl
  have hrun := Gauged.runAt_inside budget m level
  constructor
  · intro g
    rw [hcounted, Counted.runFrom_bind]
    obtain ⟨htick, hrun⟩ | ⟨limit, htick, hrun⟩ := hrun g <;> rw [hrun, htick]
    exact h.erased (taken g)
  · intro g
    obtain ⟨_, hrun⟩ | ⟨limit, _, hrun⟩ := hrun g <;> rw [hrun]
    · exact (Nat.le_succ _).trans (h.forward (taken g))
    · exact Nat.le_succ _
  · intro g
    obtain ⟨_, hrun⟩ | ⟨limit, _, hrun⟩ := hrun g <;> rw [hrun]
    · have hinside := h.nested (taken g)
      have hforward := h.forward (taken g)
      simp only [taken] at hinside hforward ⊢
      omega
    · dsimp only
      omega
  · intro g hne
    obtain ⟨_, hrun⟩ | ⟨limit, _, hrun⟩ := hrun g <;> rw [hrun] at hne ⊢
    · have hinside := h.paid (taken g) hne
      simp only [taken] at hinside ⊢
      omega
    · dsimp only
      omega

/-! ### The rules of a walk -/

section Rules

variable {f : α → Gauged (Survivors β)} {f' : α → Counted (Survivors β)}

theorem gather (hf : ∀ a, Gauges level spare (f a) (f' a)) (as : List α) (gathered : List β) :
    Gauges level 0 (Survivors.gather f as gathered) (Survivors.gather f' as gathered) := by
  induction as generalizing gathered with
  | nil => exact .pure gathered.reverse
  | cons a as ih => exact ((hf a).bind fun found => ih _).weaken

theorem flatMapList (hf : ∀ a, Gauges level spare (f a) (f' a)) (as : List α) :
    Gauges level 0 (Survivors.flatMapList f as) (Survivors.flatMapList f' as) :=
  (gather hf as []).map ofList

/-- Of several computations the first has its spare step. -/
theorem flatMapList_of_ne_nil (hf : ∀ a, Gauges level spare (f a) (f' a)) {as : List α} (hne : as ≠ []) :
    Gauges level spare (Survivors.flatMapList f as) (Survivors.flatMapList f' as) := by
  obtain ⟨a, as, rfl⟩ := List.exists_cons_of_ne_nil hne
  have hrow := (hf a).bind fun found => gather hf as (found.toList.reverseAux [])
  exact hrow.map ofList

end Rules

section Inside

variable {w : Walker α} {program : Program} {F : Node → α → Gauged (Survivors α)}
  {F' : Node → α → Counted (Survivors α)}

theorem sequence (hF : ∀ node a, Gauges level 1 (F node a) (F' node a)) (parts : List Node)
    (walkers : Survivors α) :
    Gauges level 0 (Walk.sequence F parts walkers) (Walk.sequence F' parts walkers) := by
  induction parts generalizing walkers with
  | nil => exact .pure walkers
  | cons part parts ih =>
    refine (flatMapList (hF part) walkers.toList).bind fun between => ?_
    split
    · exact .pure _
    · exact ih between

theorem repetitions {f : α → Gauged (Survivors α)} {f' : α → Counted (Survivors α)}
    (hf : ∀ a, Gauges level 1 (f a) (f' a)) (least : Nat) (most : Option Nat) (rounds count : Nat)
    {current : Survivors α} (hne : current.toList ≠ []) (gathered : List α) :
    Gauges level 0 (Walk.repetitions f least most rounds count current gathered)
      (Walk.repetitions f' least most rounds count current gathered) := by
  induction rounds generalizing count current gathered with
  | zero =>
    unfold Walk.repetitions
    split
    · exact .pure gathered.reverse
    · exact .stop _
  | succ rounds ih =>
    unfold Walk.repetitions
    split
    · exact .pure gathered.reverse
    · refine round ((flatMapList_of_ne_nil hf hne).bind fun next => ?_)
      split
      · exact .pure gathered.reverse
      · next he =>
        refine ih (count + 1) ?_ _
        rwa [← isEmpty_toList, List.isEmpty_iff] at he

/-- A direction counts nothing. -/
theorem turn (way : Direction) (a : α) : Gauges level 0 (w.turn way a) (w.turn way a) := by
  unfold Walker.turn
  cases w.headings? way a with
  | none => exact .stop _
  | some headed => exact .pure _

theorem call (hF : ∀ node a, Gauges level 1 (F node a) (F' node a)) (target : Call) (a : α) :
    Gauges level 0 (w.call program F target a) (w.call program F' target a) := by
  unfold Walker.call
  cases program.declaration? target.name with
  | none => exact .stop _
  | some declared =>
    refine (turn target.direction _).bind fun headed => ?_
    exact (flatMapList (hF declared.body) headed.toList).bind fun _ => .pure _

theorem look {f : α → Gauged (Survivors α)} {f' : α → Counted (Survivors α)}
    (hf : ∀ a, Gauges level 1 (f a) (f' a)) (kind : Look) (a : α) :
    Gauges level 0 (w.look kind f a) (w.look kind f' a) := by
  refine ((hf _).bind fun found => ?_).weaken
  cases kind <;> exact .pure _

/-- One level of a walk with a gauge, if the walks inside have gauges. -/
theorem enter (hF : ∀ node a, Gauges level 1 (F node a) (F' node a)) (rounds : Nat) (node : Node)
    (a : α) : Gauges level 0 (w.enter program F rounds node a) (w.enter program F' rounds node a) := by
  cases node with
  | literal _ | oneOf _ _ | inside | outside => exact .pure _
  | sequence nodes => exact sequence hF nodes (.one a)
  | choice nodes => exact flatMapList (hF · a) nodes
  | repeated inner count =>
    have hne : (Survivors.one a).toList ≠ [] := List.cons_ne_nil a []
    exact (repetitions (hF inner) _ _ rounds 0 hne _).map ofList
  | call target => exact call hF target a
  | direction way => exact turn way a
  | look kind inner => exact look (hF inner) kind a

end Inside

end Gauges

/-- **The walk along a pattern has a gauge**, by induction on the depth. -/
theorem gauges_follow {α : Type} (w : Walker α) (program : Program) (budget : Option Nat) (depth level : Nat)
    (node : Node) (a : α) :
    Gauges level 1 (w.follow program budget depth node a) (w.follow program budget depth node a) := by
  induction depth generalizing level node a with
  | zero =>
    -- nothing was begun, and so nothing is finished
    exact ⟨fun _ => rfl, fun _ => Nat.le_refl _, fun _ => Nat.le_max_left _ _, fun _ hne => absurd rfl hne⟩
  | succ depth ih =>
    refine Gauges.inside budget ?_
    split
    · exact .stop _
    · exact .enter (ih (level + 1)) depth node a

/-- The walk of a whole program has a gauge from nothing on. -/
theorem gauges_enterProgram (s : Setting) (depth : Nat) (c : Cursor) :
    ∃ m, Gauges 0 0 m (enterProgram s depth c) ∧
      ∀ g, (Gauged.run s depth c).runFrom g = m.runFrom {} := by
  unfold enterProgram Gauged.run Walker.run
  cases s.program.entry? with
  | none => exact ⟨_, .stop _, fun _ => Gauged.runAt_bind ..⟩
  | some entry => exact ⟨_, .call (gauges_follow _ _ _ depth 0) _ c, fun _ => Gauged.runAt_bind ..⟩

/-! ## Programs under a budget -/

/-- A walk that is deeper than its budget takes one step too many at most. -/
theorem Budgeted.count_le {α : Type} {walk : Option Nat → Nat → Counted α} {account : Account α}
    (h : Budgeted walk account) {limit depth : Nat} (hd : limit < depth) :
    ((walk (some limit) depth).runFrom 0).2 ≤ limit + 1 := by
  obtain ⟨cost, outcome, _, hcost, heq⟩ | heq := h.cases hd 0
  · rw [Counted.affords_some] at hcost
    rw [heq]
    dsimp only
    omega
  · rw [heq]
    dsimp only
    omega

/-- More depth than the budget can use is of no account. -/
theorem runFrom_run_of_lt {program : Program} {grid : Grid} {limit depth : Nat} (h : limit < depth)
    (c : Cursor) (count : Nat) :
    (run ⟨program, grid, some limit⟩ depth c).runFrom count =
      (run ⟨program, grid, some limit⟩ (limit + 1) c).runFrom count := by
  have hm := metered_enterProgram program grid h c
  rw [runFrom_run, runFrom_run]
  obtain heq | hstop := hm.settled (some limit) 0
  · exact heq.symm
  · exact absurd hstop (finished_of_lt hm (Nat.lt_succ_self limit) 0)

/-- **Under a budget every program comes to an end**, and the steps of the budget and one more pay for all
rounds and for all nesting. -/
theorem run_ends_within_budget (s : Setting) {limit depth : Nat} (hb : s.budget = some limit)
    (hd : limit < depth) (c : Cursor) (g : Gauge) :
    let ended := (Gauged.run s depth c).runFrom g
    (run s depth c).runFrom g.steps = (ended.1, ended.2.steps) ∧
      (run s depth c).runFrom g.steps = (run s (limit + 1) c).runFrom g.steps ∧
      ((∃ found, ended.1 = .ok found) ∨ ∃ fault, ended.1 = .error (.fault fault)) ∧
      ended.2.steps ≤ limit + 1 ∧ ended.2.rounds ≤ limit + 1 ∧ ended.2.deepest ≤ limit + 1 := by
  intro ended
  obtain ⟨program, grid, budget⟩ := s
  cases hb
  obtain ⟨m, hm, hrun⟩ := gauges_enterProgram ⟨program, grid, some limit⟩ depth c
  have hended : ended = m.runAt 0 {} := hrun g
  have herased : (enterProgram ⟨program, grid, some limit⟩ depth c).runFrom 0 =
      (ended.1, ended.2.steps) := by
    rw [hended]
    exact hm.erased {}
  have hfinished : ended.1 ≠ .error .unfinished := by
    have := finished_of_lt (metered_enterProgram program grid (Nat.le_refl depth) c) hd 0
    rwa [herased] at this
  obtain ⟨_, hbudget⟩ := budgeted_enterProgram program grid c
  have hsteps := hbudget.count_le hd
  rw [herased] at hsteps
  have hnested := hm.nested {}
  have hrounds := hm.paid {}
  rw [← hended] at hnested hrounds
  have hpaid := hrounds hfinished
  dsimp only at hsteps hnested hpaid
  refine ⟨?_, runFrom_run_of_lt hd c g.steps, ?_, hsteps, by omega, by omega⟩
  · rw [runFrom_run]
    exact herased
  · generalize ended.1 = r at hfinished
    rcases r with (fault | _) | found
    · exact .inr ⟨fault, rfl⟩
    · exact absurd rfl hfinished
    · exact .inl ⟨found, rfl⟩

/-- A turn and then the same again, any number of times: nothing is ever consumed. -/
def whirl : Setting where
  program := ⟨[⟨"whirl", {}, .repeated (.sequence [.direction ⟨['R'], false⟩,
    .call ⟨"whirl", .forward, { piggyback := true }⟩]) .star⟩]⟩
  grid := ⟨#[#['a']], by decide⟩
  budget := some 9

/-- The tenth step of the whirl is one too many. Each of its rounds calls for another inside, three in
all. -/
theorem run_ends_within_budget_whirl :
    let ended := (Gauged.run whirl 20 { cell := ⟨0, 0⟩ }).runFrom {}
    whirl.budget = some 9 ∧ 9 < 20 ∧
      ended = (.error (.fault (.budgetExhausted 9)), ⟨10, 3, 8⟩) ∧
      (run whirl 20 { cell := ⟨0, 0⟩ }).runFrom 0 = (ended.1, ended.2.steps) ∧
        ended.2.steps ≤ 10 ∧ ended.2.rounds ≤ 10 ∧ ended.2.deepest ≤ 10 := by
  have shown : (Gauged.run whirl 20 { cell := ⟨0, 0⟩ }).runFrom {} =
      (.error (.fault (.budgetExhausted 9)), ⟨10, 3, 8⟩) := by decide +kernel
  obtain ⟨herased, _, _, hsteps, hrounds, hdeepest⟩ :=
    run_ends_within_budget whirl rfl (by decide : 9 < 20) { cell := ⟨0, 0⟩ } {}
  exact ⟨rfl, by decide, shown, herased, hsteps, hrounds, hdeepest⟩

end Walk

end GridPattern
