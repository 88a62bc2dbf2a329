import GridPattern.Proofs.Outcome
import Mathlib.Algebra.GroupWithZero.Nat

/-!
# Metered computations

A computation that counts its steps can be ended by a budget, and one that goes to a depth can be ended
by its depth. Neither may decide what it comes to, so a computation is looked at under all budgets at
once, and beside the same computation at a greater depth.

**A bill** is what a computation comes to when no budget ends it: an outcome, after so many steps. The
count that it starts from has no part in it.

**The law** (`Metered.bind`). Under a budget a computation comes to its bill if the budget allows every
step of it, and else it stops at the first step too many. If it is finished, more depth does not change
it; if it is not, it took at least as many steps as it was deep. Two computations in a row have this if
each of them has it.
-/

namespace GridPattern.Counted

variable {α β : Type}

/-- What a computation comes to when no budget ends it. -/
structure Bill (α : Type) where
  outcome : Except Stop α
  /-- The number of steps that it takes. -/
  cost : Nat

/-- What the budget leaves of a bill, from a count: all of it, or else the first step too many. What
takes no step stays as it is, even where the count is past the budget. -/
def Bill.under (bill : Bill α) : Option Nat → Nat → Except Stop α × Nat
  | none, count => (bill.outcome, count + bill.cost)
  | some limit, count =>
    if bill.cost = 0 ∨ count + bill.cost ≤ limit then (bill.outcome, count + bill.cost)
    else (.error (.fault (.budgetExhausted limit)), max count limit + 1)

/-- The budget allows so many steps after the count. -/
def Affords (budget : Option Nat) (count cost : Nat) : Prop :=
  cost = 0 ∨ ∀ limit ∈ budget, count + cost ≤ limit

theorem affords_none (count cost : Nat) : Affords none count cost := .inr nofun

theorem affords_some {limit count cost : Nat} :
    Affords (some limit) count cost ↔ cost = 0 ∨ count + cost ≤ limit := by
  simp [Affords]

section Under

variable {budget : Option Nat} {limit count cost : Nat} {r : Except Stop α}

theorem Bill.under_of_affords (h : Affords budget count cost) :
    Bill.under ⟨r, cost⟩ budget count = (r, count + cost) := by
  cases budget with
  | none => rfl
  | some limit => exact if_pos (affords_some.mp h)

theorem Bill.under_of_not_affords (h : ¬Affords (some limit) count cost) :
    Bill.under ⟨r, cost⟩ (some limit) count =
      (.error (.fault (.budgetExhausted limit)), max count limit + 1) :=
  if_neg (mt affords_some.mpr h)

/-- The steps of a first part are among those of the whole. -/
theorem Affords.of_add {later : Nat} (h : Affords budget count (cost + later)) :
    Affords budget count cost := by
  cases budget with
  | none => exact affords_none _ _
  | some limit =>
    rw [affords_some] at h ⊢
    omega

/-- What is billed after a first part is what the whole is billed. -/
theorem Bill.under_later (h : Affords budget count cost) (later : Nat) :
    Bill.under ⟨r, later⟩ budget (count + cost) = Bill.under ⟨r, cost + later⟩ budget count := by
  by_cases hwhole : Affords budget count (cost + later)
  · have hrest : Affords budget (count + cost) later := by
      cases budget with
      | none => exact affords_none _ _
      | some limit =>
        rw [affords_some] at hwhole ⊢
        omega
    rw [Bill.under_of_affords hwhole, Bill.under_of_affords hrest, Nat.add_assoc]
  · cases budget with
    | none => exact absurd (affords_none _ _) hwhole
    | some limit =>
      have hrest : ¬Affords (some limit) (count + cost) later := by
        rw [affords_some] at h hwhole ⊢
        omega
      rw [Bill.under_of_not_affords hwhole, Bill.under_of_not_affords hrest]
      rw [affords_some] at h hwhole
      congr 1
      omega

end Under

/-- **A bill under every budget.** -/
def Pays (m : Option Nat → Counted α) (bill : Bill α) : Prop :=
  ∀ budget count, (m budget).runFrom count = bill.under budget count

/-- What counts nothing is the same under every budget. -/
theorem Pays.of_still {m : Option Nat → Counted α} {r : Except Stop α}
    (h : ∀ budget count, (m budget).runFrom count = (r, count)) : Pays m ⟨r, 0⟩ := by
  intro budget count
  rw [h, Bill.under_of_affords (.inl rfl)]
  rfl

theorem Pays.pure (a : α) : Pays (fun _ => pure a) ⟨.ok a, 0⟩ := .of_still fun _ _ => rfl

/-- A step is one step. -/
theorem Pays.tick : Pays tick ⟨.ok (), 1⟩ := by
  intro budget count
  cases budget with
  | none => rfl
  | some limit =>
    rw [runFrom_tick_some]
    by_cases h : limit < count + 1
    · rw [if_pos h, Bill.under_of_not_affords (mt affords_some.mp (by omega))]
      congr 1
      omega
    · rw [if_neg h, Bill.under_of_affords (affords_some.mpr (by omega))]

theorem Pays.bind_error {m : Option Nat → Counted α} {bill : Bill α} {stop : Stop}
    (hm : Pays m bill) (hstop : bill.outcome = .error stop) (f : Option Nat → α → Counted β) :
    Pays (fun budget => m budget >>= f budget) ⟨.error stop, bill.cost⟩ := by
  intro budget count
  rw [runFrom_bind, hm budget count]
  by_cases h : Affords budget count bill.cost
  · rw [Bill.under_of_affords h, Bill.under_of_affords h, hstop]
  · cases budget with
    | none => exact absurd (affords_none _ _) h
    | some limit =>
      rw [Bill.under_of_not_affords h, Bill.under_of_not_affords h]

/-- Two in a row take the steps of both, and the budget ends the second where it would end both. -/
theorem Pays.bind {m : Option Nat → Counted α} {f : Option Nat → α → Counted β} {bill : Bill α}
    {next : Bill β} {a : α} (hm : Pays m bill) (ha : bill.outcome = .ok a)
    (hf : Pays (fun budget => f budget a) next) :
    Pays (fun budget => m budget >>= f budget) ⟨next.outcome, bill.cost + next.cost⟩ := by
  intro budget count
  rw [runFrom_bind, hm budget count]
  by_cases h : Affords budget count bill.cost
  · rw [Bill.under_of_affords h, ha, ← Bill.under_later h]
    exact hf budget (count + bill.cost)
  · have hwhole : ¬Affords budget count (bill.cost + next.cost) := mt Affords.of_add h
    cases budget with
    | none => exact absurd (affords_none _ _) h
    | some limit => rw [Bill.under_of_not_affords h, Bill.under_of_not_affords hwhole]

theorem Pays.map {m : Option Nat → Counted α} {bill : Bill α} {a : α} (hm : Pays m bill)
    (ha : bill.outcome = .ok a) (f : α → β) :
    Pays (fun budget => f <$> m budget) ⟨.ok (f a), bill.cost⟩ := by
  simp only [map_eq_pure_bind]
  exact hm.bind (f := fun _ b => Pure.pure (f b)) ha (.pure (f a))

/-- A row of computations takes the steps of all of them. -/
theorem Pays.mapM {f : Option Nat → α → Counted β} {g : α → β} {cost : α → Nat} {as : List α}
    (h : ∀ a ∈ as, Pays (fun budget => f budget a) ⟨.ok (g a), cost a⟩) :
    Pays (fun budget => as.mapM (f budget)) ⟨.ok (as.map g), (as.map cost).sum⟩ := by
  induction as with
  | nil => exact .pure []
  | cons a as ih =>
    obtain ⟨head, tail⟩ := List.forall_mem_cons.mp h
    have hrest := (ih tail).map rfl (g a :: ·)
    simp only [List.mapM_cons, ← map_eq_pure_bind]
    exact head.bind (f := fun budget b => (b :: ·) <$> as.mapM (f budget)) rfl hrest

/-- **A metered computation**, at some depth and at a greater one, under every budget. If it is not
finished it took `depth` steps at least, and `least` if it is. -/
structure Metered (depth least : Nat) (m deeper : Option Nat → Counted α) : Prop where
  billed : ∃ bill : Bill α, Pays m bill ∧
    (∀ limit, bill.outcome ≠ .error (.fault (.budgetExhausted limit))) ∧
    (bill.outcome = .error .unfinished → depth ≤ bill.cost) ∧
    (bill.outcome ≠ .error .unfinished → least ≤ bill.cost)
  settled : ∀ budget count, (m budget).runFrom count = (deeper budget).runFrom count ∨
    ((m budget).runFrom count).1 = .error .unfinished

namespace Metered

theorem pure (depth : Nat) (a : α) : Metered depth 0 (fun _ => pure a) (fun _ => pure a) where
  billed := ⟨⟨.ok a, 0⟩, .pure a, nofun, nofun, fun _ => Nat.le_refl 0⟩
  settled _ _ := .inl rfl

theorem fail (depth : Nat) {cause : WalkFault} (h : ∀ limit, cause ≠ .budgetExhausted limit) :
    Metered depth 0 (fun _ => fail cause) (fun _ => (fail cause : Counted α)) where
  billed := by
    refine ⟨⟨.error (.fault cause), 0⟩, .of_still fun _ _ => rfl, ?_, nofun, fun _ => Nat.le_refl 0⟩
    intro limit heq
    cases heq
    exact h limit rfl
  settled _ _ := .inl rfl

/-- Without depth nothing is finished, and there is nothing that it could be unlike. -/
theorem unfinished (least : Nat) (deeper : Option Nat → Counted α) :
    Metered 0 least (fun _ => unfinished) deeper where
  billed := ⟨⟨.error .unfinished, 0⟩, .of_still fun _ _ => rfl, nofun, fun _ => Nat.le_refl 0,
    fun h => absurd rfl h⟩
  settled _ _ := .inr rfl

theorem tick (depth : Nat) : Metered depth 1 tick tick where
  billed := ⟨⟨.ok (), 1⟩, .tick, nofun, nofun, fun _ => Nat.le_refl 1⟩
  settled _ _ := .inl rfl

variable {depth least : Nat} {m deeper : Option Nat → Counted α}

theorem weaken (h : Metered depth least m deeper) {depth' least' : Nat} (hd : depth' ≤ depth)
    (hl : least' ≤ least) : Metered depth' least' m deeper where
  billed := by
    obtain ⟨bill, hpays, hown, hunfinished, hfinished⟩ := h.billed
    refine ⟨bill, hpays, hown, fun h => ?_, fun h => ?_⟩
    · exact Nat.le_trans hd (hunfinished h)
    · exact Nat.le_trans hl (hfinished h)
  settled := h.settled

/-- **Two metered computations in a row.** The steps of the first count for the depth of the second. -/
theorem bind {depth₁ depth₂ : Nat} (h : Metered depth₁ least m deeper)
    {f f' : Option Nat → α → Counted β}
    (hf : ∀ a, Metered depth₂ 0 (fun budget => f budget a) (fun budget => f' budget a))
    (hfirst : depth ≤ depth₁) (hsecond : depth ≤ least + depth₂) :
    Metered depth least (fun budget => m budget >>= f budget)
      (fun budget => deeper budget >>= f' budget) where
  billed := by
    obtain ⟨bill, hpays, hown, hunfinished, hfinished⟩ := h.billed
    cases hr : bill.outcome with
    | error stop =>
      rw [hr] at hown hunfinished hfinished
      refine ⟨⟨.error stop, bill.cost⟩, hpays.bind_error hr f, fun limit heq => ?_, fun heq => ?_,
        fun hne => hfinished fun heq => ?_⟩
      · cases heq
        exact hown limit rfl
      · cases heq
        exact Nat.le_trans hfirst (hunfinished rfl)
      · cases heq
        exact hne rfl
    | ok a =>
      obtain ⟨next, hnext, hown', hunfinished', _⟩ := (hf a).billed
      rw [hr] at hfinished
      have hle := hfinished nofun
      refine ⟨⟨next.outcome, bill.cost + next.cost⟩, hpays.bind hr hnext, hown', fun heq => ?_,
        fun _ => Nat.le_add_right_of_le hle⟩
      have hlater := hunfinished' heq
      show depth ≤ bill.cost + next.cost
      omega
  settled budget count := by
    rw [runFrom_bind, runFrom_bind]
    rcases h.settled budget count with heq | hstop
    · rw [heq]
      split
      · next a between _ => exact (hf a).settled budget between
      · exact .inl rfl
    · generalize (m budget).runFrom count = r at hstop ⊢
      obtain ⟨r, between⟩ := r
      cases hstop
      exact .inr rfl

/-- Two in a row at one depth. -/
theorem andThen (h : Metered depth least m deeper) {f f' : Option Nat → α → Counted β}
    (hf : ∀ a, Metered depth 0 (fun budget => f budget a) (fun budget => f' budget a)) :
    Metered depth least (fun budget => m budget >>= f budget)
      (fun budget => deeper budget >>= f' budget) :=
  h.bind hf (Nat.le_refl _) (Nat.le_add_left _ _)

/-- After a step one level less of depth is enough. -/
theorem afterStep {depth' : Nat} (h : Metered depth' 1 m deeper) {f f' : Option Nat → α → Counted β}
    (hf : ∀ a, Metered depth 0 (fun budget => f budget a) (fun budget => f' budget a))
    (hd : depth < depth') :
    Metered (depth + 1) 1 (fun budget => m budget >>= f budget)
      (fun budget => deeper budget >>= f' budget) :=
  h.bind hf hd (by omega)

theorem map (h : Metered depth least m deeper) (f : α → β) :
    Metered depth least (fun budget => f <$> m budget) (fun budget => f <$> deeper budget) := by
  simp only [map_eq_pure_bind]
  exact h.andThen fun a => .pure depth (f a)

section Rows

variable {f f' : Option Nat → α → Counted β}

/-- A row takes the steps of its first computation at least. -/
theorem cons {a : α} {as : List α}
    (head : Metered depth least (fun budget => f budget a) (fun budget => f' budget a))
    (tail : Metered depth 0 (fun budget => as.mapM (f budget)) (fun budget => as.mapM (f' budget))) :
    Metered depth least (fun budget => (a :: as).mapM (f budget))
      (fun budget => (a :: as).mapM (f' budget)) := by
  simp only [List.mapM_cons]
  have hrest : ∀ b, Metered depth 0 (fun budget => as.mapM (f budget) >>= fun bs => Pure.pure (b :: bs))
      (fun budget => as.mapM (f' budget) >>= fun bs => Pure.pure (b :: bs)) :=
    fun b => tail.andThen fun bs => .pure depth (b :: bs)
  exact head.andThen hrest

theorem mapM (h : ∀ a, Metered depth least (fun budget => f budget a) (fun budget => f' budget a))
    (as : List α) :
    Metered depth 0 (fun budget => as.mapM (f budget)) (fun budget => as.mapM (f' budget)) := by
  induction as with
  | nil => exact .pure depth []
  | cons a as ih => exact ((h a).cons ih).weaken (Nat.le_refl _) (Nat.zero_le _)

end Rows

end Metered

end GridPattern.Counted
