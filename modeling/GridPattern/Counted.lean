import GridPattern.Error

/-!
# Counted computations

Computations that count steps from a count they are given, and leave a count whether they succeed or
not. A budget stops a computation at the first step past it.

**The law.** `runFrom` is the view: what a computation comes to from a count. The lemmas say it of each
way to build a computation, and nothing else about the type is needed.
-/

namespace GridPattern

/-- Why a computation ends without an answer. -/
inductive Stop
  | fault (cause : WalkFault)
  /-- The depth given was used up, which is neither an answer nor a fault. -/
  | unfinished
deriving DecidableEq, Repr

/-- **What a walk is computed in.** It may stop without an answer, and is told where it begins, where it
enters a pattern, which is one step, and where a repetition goes round. -/
class Paced (m : Type → Type) where
  stop {α : Type} (reason : Stop) : m α
  restart : m Unit
  /-- Enters a pattern, a step under a budget, and does inside what is to be done there. -/
  inside {α : Type} (budget : Option Nat) (walk : m α) : m α
  /-- Begins a round with what is to be done in it. -/
  round {α : Type} (walk : m α) : m α

/-- Computations that count steps. -/
abbrev Counted : Type → Type := ExceptT Stop (StateM Nat)

namespace Counted

variable {α β : Type}

/-- What a computation comes to from a count: an answer or a stop, and the count after it. -/
def runFrom (m : Counted α) (count : Nat) : Except Stop α × Nat := m.run.run count

/-- Stops with a fault. -/
def fail (cause : WalkFault) : Counted α := throw (.fault cause)

/-- Stops because the depth is used up. -/
def unfinished : Counted α := throw .unfinished

/-- Counts from zero again. -/
def restart : Counted Unit := set 0

/-- Counts one step; a step past the budget is counted and then stops. -/
def tick (budget : Option Nat) : Counted Unit :=
  ExceptT.mk fun count =>
    match budget with
    | some limit =>
      (if limit < count + 1 then .error (.fault (.budgetExhausted limit)) else .ok (), count + 1)
    | none => (.ok (), count + 1)

/-- Patterns that are entered are counted, and rounds are not. Walks are of this kind where nothing else
is said. -/
@[default_instance]
instance : Paced Counted where
  stop := throw
  restart := restart
  inside budget walk := do
    tick budget
    walk
  round walk := walk

@[simp] theorem runFrom_pure (a : α) (count : Nat) :
    (pure a : Counted α).runFrom count = (.ok a, count) := rfl

theorem runFrom_bind (m : Counted α) (f : α → Counted β) (count : Nat) :
    (m >>= f).runFrom count =
      match m.runFrom count with
      | (.ok a, count) => (f a).runFrom count
      | (.error stop, count) => (.error stop, count) := by
  unfold runFrom
  simp only [ExceptT.run_bind, StateT.run_bind]
  change (match m.run.run count with | (r, count') => _ : Except Stop β × Nat) = _
  cases m.run.run count with
  | mk r count' => cases r <;> rfl

theorem runFrom_map (f : α → β) (m : Counted α) (count : Nat) :
    (f <$> m).runFrom count = ((m.runFrom count).1.map f, (m.runFrom count).2) := by
  rw [map_eq_pure_bind, runFrom_bind]
  split <;> next h => rw [h]; rfl

@[simp] theorem runFrom_fail (cause : WalkFault) (count : Nat) :
    (fail cause : Counted α).runFrom count = (.error (.fault cause), count) := rfl

@[simp] theorem runFrom_unfinished (count : Nat) :
    (unfinished : Counted α).runFrom count = (.error .unfinished, count) := rfl

@[simp] theorem runFrom_restart (count : Nat) : restart.runFrom count = (.ok (), 0) := rfl

@[simp] theorem runFrom_tick_none (count : Nat) :
    (tick none).runFrom count = (.ok (), count + 1) := rfl

@[simp] theorem runFrom_tick_some (limit count : Nat) :
    (tick (some limit)).runFrom count =
      (if limit < count + 1 then .error (.fault (.budgetExhausted limit)) else .ok (), count + 1) :=
  rfl

end Counted

end GridPattern
