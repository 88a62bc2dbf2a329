import GridPattern.Counted
import GridPattern.Cursor
import GridPattern.Survivors

/-!
# Walking a pattern

What becomes of a cursor that follows a pattern over a grid: the survivors, in order. Nothing is
undone. Where a pattern can go on in several ways all of them go on together, and a way that cannot go
on is dropped.

What walks need not be a cursor: anything will do that stands on a character, takes steps, turns, enters
a call and comes back from it, and looks around. A walker says how, and the walk is the same for all of
them, and for every kind of computation that it can be made of.

A walk counts its steps, one for each pattern entered with a cursor, and a budget may end it. One
count can serve several walks.

Programs may call themselves and repeat patterns that match nothing, so a walk need not end. Its depth
bounds how far patterns nest and how often one is repeated; a walk that comes to the end of it is
`unfinished`, which is neither survival nor fault. Under a budget of `n` steps a depth of `n + 1`
never ends, because every pattern entered and every repetition takes a step.
-/

namespace GridPattern

/-- What a walk takes place in. -/
structure Setting where
  program : Program
  grid : Grid
  /-- The number of steps allowed, if there is a limit. -/
  budget : Option Nat
deriving Repr

namespace Walk

/-! ## Patterns in a row -/

section Rows

variable {α : Type} {m : Type → Type} [Monad m] [Paced m]

/-- The survivors of patterns one after the other. -/
@[specialize]
def sequence (follow : Node → α → m (Survivors α)) : List Node → Survivors α → m (Survivors α)
  | [], walkers => pure walkers
  | node :: nodes, walkers => do
    let walkers ← walkers.tryFlatMap (follow node)
    if walkers.isEmpty then pure .none else sequence follow nodes walkers

/-- The survivors of each number of repetitions from `least` on, up to `most` or until nothing
survives, after those gathered before, the latest first. `count` repetitions are done, and `current`
survived them. -/
@[specialize]
def repetitions (follow : α → m (Survivors α)) (least : Nat) (most : Option Nat) :
    (rounds count : Nat) → (current : Survivors α) → (gathered : List α) → m (List α)
  | rounds, count, current, gathered =>
    if most.any (· ≤ count) then pure gathered.reverse
    else
      match rounds with
      | 0 => Paced.stop .unfinished
      | rounds + 1 => Paced.round do
        let current ← current.tryFlatMap follow
        if current.isEmpty then pure gathered.reverse
        else
          repetitions follow least most rounds (count + 1) current
            (if least ≤ count + 1 then current.toList.reverseAux gathered else gathered)

/-- The survivors of a repeated pattern, fewest repetitions first. -/
@[specialize]
def repeated (follow : α → m (Survivors α)) (rounds : Nat) (count : Repeat) (a : α) : m (Survivors α) :=
  .ofList <$> repetitions follow count.least count.most? rounds 0 (.one a)
    (if count.least = 0 then [a] else [])

end Rows

/-! ## Walkers -/

/-- **What can walk along patterns.** -/
structure Walker (α : Type) where
  /-- Whether it goes nowhere. -/
  isStalled : α → Bool
  /-- The character underneath, if there is one. -/
  char? : α → Option Char
  insensitive : α → Bool
  /-- One marking step, if it may be taken. -/
  step? : α → Option α
  /-- What a direction makes of it, if its letters mean a turn. -/
  headings? : Direction → α → Option (List α)
  /-- Into the pattern called. -/
  callee : Params → α → α
  /-- Back from the end of the pattern called to the caller, if the group allows it, and on if the call
  advances. -/
  back? : Params → (caller ended : α) → Option α
  lookFrom : Look → α → α
  /-- From where a look ended, as far as it is kept. -/
  lookBack : Look → (start found : α) → α

namespace Walker

variable {α : Type} {m : Type → Type} [Monad m] [Paced m] (w : Walker α) (program : Program)
  (budget : Option Nat)

/-- One marking step, if the test holds. -/
def stepIf? (test : Bool) (a : α) : Option α := if test then w.step? a else none

/-- One marking step for each character of a text, as long as that text is underneath. -/
def spell? : List Char → α → Option α
  | [], a => some a
  | target :: text, a => do
    let a ← w.stepIf? ((w.char? a).any (Cursor.charMatches (w.insensitive a) target)) a
    spell? text a

/-- The survivors of a direction, which takes no step on the grid. -/
@[specialize]
def turn (way : Direction) (a : α) : m (Survivors α) :=
  match w.headings? way a with
  | none => Paced.stop (.fault (.unknownTurns way.turns))
  | some headed => pure (.ofList headed)

/-- The survivors of a call: those of the pattern called that come back to the caller. -/
@[specialize]
def call (follow : Node → α → m (Survivors α)) (target : Call) (caller : α) : m (Survivors α) :=
  match program.declaration? target.name with
  | none => Paced.stop (.fault (.undeclared target.name))
  | some declared => do
    let params := target.params.merged declared.params
    let headed ← w.turn target.direction (w.callee params caller)
    let ended ← headed.tryFlatMap (follow declared.body)
    pure (ended.filterMap (w.back? params caller))

/-- The survivors of a look around. -/
@[specialize]
def look (kind : Look) (follow : α → m (Survivors α)) (a : α) : m (Survivors α) := do
  let found ← follow (w.lookFrom kind a)
  match kind with
  | .absent => pure (if found.isEmpty then .one a else .none)
  | kind => pure (found.filterMap fun t => some (w.lookBack kind a t))

/-- The survivors of one pattern, given how to follow the patterns inside it and how many rounds a
repetition may take. -/
@[specialize]
def enter (follow : Node → α → m (Survivors α)) (rounds : Nat) (node : Node) (a : α) : m (Survivors α) :=
  match node with
  | .literal text => pure (.ofOption (w.spell? text a))
  | .oneOf chars negated =>
    pure (.ofOption (w.stepIf?
      ((w.char? a).any (Cursor.classMatches (w.insensitive a) chars negated)) a))
  | .inside => pure (.ofOption (w.stepIf? (w.char? a).isSome a))
  | .outside => pure (.ofOption (w.stepIf? (w.char? a).isNone a))
  | .sequence nodes => sequence follow nodes (.one a)
  | .choice nodes => Survivors.flatMapList (follow · a) nodes
  | .repeated inner count => repeated (follow inner) rounds count a
  | .call target => w.call program follow target a
  | .direction way => w.turn way a
  | .look kind inner => w.look kind (follow inner) a

/-- **The walk along a pattern**: one step, and then the pattern's own rule. Who goes nowhere follows
nothing. -/
@[specialize]
def follow : (depth : Nat) → Node → α → m (Survivors α)
  | 0 => fun _ _ => Paced.stop .unfinished
  | depth + 1 => fun node a => Paced.inside budget <|
    if w.isStalled a then Paced.stop (.fault .stalled)
    else w.enter program (follow depth) depth node a

/-- The walk of several along a pattern, one after the other. -/
@[specialize]
def followAll (depth : Nat) (node : Node) (walkers : Survivors α) : m (Survivors α) :=
  walkers.tryFlatMap (w.follow program budget depth node)

/-- The walk of a whole program: a call of its first declaration, straight on, with the steps counted
from zero. -/
@[specialize]
def run (depth : Nat) (a : α) : m (Survivors α) := do
  Paced.restart
  match program.entry? with
  | none => Paced.stop (.fault .noDeclarations)
  | some entry => w.call program (w.follow program budget depth) ⟨entry.name, .forward, {}⟩ a

end Walker

/-! ## Cursors -/

/-- A cursor at the end of a call, held to the group and back at its caller. -/
def returned? (params : Params) (caller c : Cursor) : Option Cursor := do
  let c ← match params.group with
    | some group => c.agree? group
    | none => some c
  some (c.returnTo caller params.piggyback)

namespace Walker

/-- The cursor back at its caller, one unmarked step further if the call advances. -/
def stepOn? (grid : Grid) (params : Params) (c : Cursor) : Option Cursor :=
  if params.advance then c.step? grid false else some c

/-- The switch that a look turned on is as it was before. -/
def switchBack : Look → (start found : Cursor) → Cursor
  | .absent, _, t => t
  | .unmarked, c, t => { t with switches.noMark := c.switches.noMark }
  | .retraced, c, t => { t with switches.onlyMarked := c.switches.onlyMarked }

/-- **Cursors walk.** The pattern called is followed with an age of its own, with more switches on and in
its own directions. -/
def cursor (grid : Grid) : Walker Cursor where
  isStalled c := c.heading.isStalled
  char? c := c.char? grid
  insensitive c := c.switches.insensitive
  step? c := c.step? grid true
  headings? way c :=
    let c := if way.absolute then { c with heading := .east } else c
    (Turn.ofLetters? way.turns).map fun
      | .relative b => [c.bend b]
      | .branch bends => bends.map c.bend
      | .everywhere => (grid.cells.filter (· != c.cell)).map c.aimAt
  callee params c := { c with age := 0, switches := c.switches.or params.switches }
  back? params caller ended := (returned? params caller ended).bind (stepOn? grid params)
  lookFrom kind c :=
    match kind with
    | .absent => c
    | .unmarked => { c with switches.noMark := true }
    | .retraced => { c with switches.onlyMarked := true }
  lookBack := switchBack

end Walker

open Walker (cursor)

/-- A walk along one pattern. -/
abbrev Follow : Type := Node → Cursor → Counted (Survivors Cursor)

section Cursors

variable (s : Setting)

/-- The survivors of a direction. -/
def turn (way : Direction) (c : Cursor) : Counted (Survivors Cursor) := (cursor s.grid).turn way c

/-- The survivors of a call. -/
def call (follow : Follow) (target : Call) (c : Cursor) : Counted (Survivors Cursor) :=
  (cursor s.grid).call s.program follow target c

/-- The survivors of a look around. -/
def look (kind : Look) (follow : Cursor → Counted (Survivors Cursor)) (c : Cursor) :
    Counted (Survivors Cursor) :=
  (cursor s.grid).look kind follow c

/-- The survivors of one pattern and one cursor. -/
def enter (follow : Follow) (rounds : Nat) (node : Node) (c : Cursor) : Counted (Survivors Cursor) :=
  (cursor s.grid).enter s.program follow rounds node c

/-- The survivors of a cursor that follows a pattern. -/
def follow (depth : Nat) : Follow := (cursor s.grid).follow s.program s.budget depth

/-- The survivors of several cursors that follow a pattern one after the other. -/
def followAll (depth : Nat) (node : Node) (cursors : Survivors Cursor) : Counted (Survivors Cursor) :=
  (cursor s.grid).followAll s.program s.budget depth node cursors

/-- The survivors of a whole program. -/
def run (depth : Nat) (c : Cursor) : Counted (Survivors Cursor) :=
  (cursor s.grid).run s.program s.budget depth c

end Cursors

/-! ### Equations -/

section Equations

variable (s : Setting) (depth : Nat)

/-- A walk along a pattern is one step, and for who goes somewhere the pattern's own rule. -/
theorem follow_succ (node : Node) (c : Cursor) :
    follow s (depth + 1) node c = (do
      Counted.tick s.budget
      if c.heading.isStalled then Counted.fail .stalled else enter s (follow s depth) depth node c) := rfl

theorem follow_of_going {c : Cursor} (hgoing : c.heading.isStalled = false) (node : Node) :
    follow s (depth + 1) node c = (do
      Counted.tick s.budget
      enter s (follow s depth) depth node c) := by
  rw [follow_succ, hgoing]
  rfl

theorem run_eq (c : Cursor) :
    run s depth c = (do
      Counted.restart
      match s.program.entry? with
      | none => Counted.fail .noDeclarations
      | some entry => call s (follow s depth) ⟨entry.name, .forward, {}⟩ c) := by
  unfold run Walker.run
  cases s.program.entry? <;> rfl

end Equations

/-- The depth to walk with: more than a budget can use, or else the `patience` of whoever asks. -/
def depthFor (budget : Option Nat) (patience : Nat) : Nat :=
  match budget with
  | some budget => budget + 1
  | none => patience

end Walk

end GridPattern
