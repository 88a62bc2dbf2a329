import GridPattern.Proofs.Walk.Metering
import Mathlib.Data.ENat.Basic

/-!
# What a budget does to a walk

A budget ends walks and does nothing else. Behind the walks of a pattern under all budgets and to all
depths stands one account: what following the pattern comes to when nothing limits it, and how many
steps it takes, if it has an end at all.

**The law** (`exists_budgeted`). Where the budget allows every step of the account, the walk comes to the
outcome of the account and counts its steps; where it does not, the walk stops because the budget is
spent. The depth that a search walks with is enough for both.
-/

namespace GridPattern.Walk

open Counted

/-- What a walk comes to when nothing limits it: an outcome after so many steps, or no end. -/
inductive Account (α : Type)
  | ends (cost : Nat) (outcome : Except WalkFault α)
  | endless

/-- The number of steps that it takes. -/
def Account.cost {α : Type} : Account α → ℕ∞
  | ends cost _ => cost
  | endless => ⊤

@[simp] theorem Account.cost_ends {α : Type} (cost : Nat) (outcome : Except WalkFault α) :
    (Account.ends cost outcome).cost = cost := rfl

@[simp] theorem Account.cost_endless {α : Type} : (Account.endless : Account α).cost = ⊤ := rfl

/-- **A budget only cuts off.** The walks under all budgets and from all counts have one account
between them. -/
structure Budgeted {α : Type} (walk : Option Nat → Nat → Counted α) (account : Account α) : Prop where
  /-- No budget has a part in the account. -/
  own : ∀ cost limit, account ≠ .ends cost (.error (.budgetExhausted limit))
  /-- Within the budget a walk comes to the outcome and counts all of its steps. -/
  within : ∀ cost outcome, account = .ends cost outcome → ∃ patience, ∀ budget count,
    Affords budget count cost → ∀ depth ≥ depthFor budget patience,
      (walk budget depth).runFrom count = (outcome.mapError .fault, count + cost)
  /-- Past the budget it stops, and the count is past the budget. -/
  past : ∀ limit count : Nat, 0 < account.cost → limit < count + account.cost →
    ∀ depth > limit, (walk (some limit) depth).runFrom count =
      (.error (.fault (.budgetExhausted limit)), max count limit + 1)
  /-- Without an end and without a budget there is no outcome. -/
  endless : account = .endless → ∀ depth count,
    ((walk none depth).runFrom count).1 = .error .unfinished

section Accounts

variable {α : Type} {walk : Option Nat → Nat → Counted α} {least : Nat}

theorem under_ne_unfinished {bill : Bill α} (h : bill.outcome ≠ .error .unfinished)
    (budget : Option Nat) (count : Nat) : (bill.under budget count).1 ≠ .error .unfinished := by
  cases budget with
  | none => exact h
  | some limit =>
    by_cases hb : Affords (some limit) count bill.cost
    · rw [Bill.under_of_affords hb]
      exact h
    · rw [Bill.under_of_not_affords hb]
      exact nofun

/-- Under a budget a walk that is deeper than the budget is finished. -/
theorem finished_of_lt {m deeper : Option Nat → Counted α} {depth limit : Nat}
    (h : Metered depth least m deeper) (hd : limit < depth) (count : Nat) :
    ((m (some limit)).runFrom count).1 ≠ .error .unfinished := by
  obtain ⟨bill, hpays, _, hunfinished, _⟩ := h.billed
  rw [hpays (some limit) count]
  by_cases hb : bill.outcome = .error .unfinished
  · have hcost := hunfinished hb
    rw [Bill.under_of_not_affords (mt affords_some.mp (by omega))]
    exact nofun
  · exact under_ne_unfinished hb (some limit) count

variable (h : ∀ depth deeper, depth ≤ deeper →
  Metered depth least (fun budget => walk budget depth) (fun budget => walk budget deeper))

include h

/-- Once a walk is finished without a budget, its bill is that of every walk that is deep enough. -/
theorem runFrom_of_finished {patience : Nat} {bill : Bill α}
    (hpays : Pays (fun budget => walk budget patience) bill)
    (hfinished : bill.outcome ≠ .error .unfinished) {budget : Option Nat} {depth : Nat}
    (hd : depthFor budget patience ≤ depth) (count : Nat) :
    (walk budget depth).runFrom count = bill.under budget count := by
  have hne : ((walk budget patience).runFrom count).1 ≠ .error .unfinished := by
    rw [hpays budget count]
    exact under_ne_unfinished hfinished budget count
  cases budget with
  | none =>
    obtain heq | hstop := (h patience depth hd).settled none count
    · exact heq.symm.trans (hpays none count)
    · exact absurd hstop hne
  | some limit =>
    -- the walk at this depth and the finished one meet at a depth that is enough for both
    have hhere := h depth (max depth patience) (Nat.le_max_left _ _)
    obtain heq | hstop := hhere.settled (some limit) count
    · obtain heq' | hstop := (h patience (max depth patience) (Nat.le_max_right _ _)).settled
        (some limit) count
      · exact heq.trans (heq'.symm.trans (hpays (some limit) count))
      · exact absurd hstop hne
    · exact absurd hstop (finished_of_lt hhere hd count)

theorem budgeted_of_finished {patience : Nat} {bill : Bill α}
    (hpays : Pays (fun budget => walk budget patience) bill) {outcome : Except WalkFault α}
    (hbill : bill.outcome = outcome.mapError .fault)
    (hown : ∀ limit, outcome ≠ .error (.budgetExhausted limit)) :
    Budgeted walk (.ends bill.cost outcome) where
  own cost limit heq := by
    cases heq
    exact hown limit rfl
  within cost outcome' heq := by
    cases heq
    have hfinished : bill.outcome ≠ .error .unfinished := by
      rw [hbill]
      cases outcome <;> exact nofun
    refine ⟨patience, ?_⟩
    intro budget count hb depth hd
    rw [runFrom_of_finished h hpays hfinished hd, Bill.under_of_affords hb, hbill]
  past limit count hpos hlt depth hd := by
    have hfinished : bill.outcome ≠ .error .unfinished := by
      rw [hbill]
      cases outcome <;> exact nofun
    have hnot : ¬Affords (some limit) count bill.cost := by
      rw [Account.cost_ends] at hpos hlt
      have hpos' : 0 < bill.cost := by exact_mod_cast hpos
      have hlt' : limit < count + bill.cost := by exact_mod_cast hlt
      rw [affords_some]
      omega
    have hd' : depthFor (some limit) patience ≤ depth := hd
    rw [runFrom_of_finished h hpays hfinished hd', Bill.under_of_not_affords hnot]
  endless heq := by cases heq

omit h in
theorem budgeted_endless {bills : Nat → Bill α}
    (hpays : ∀ depth, Pays (fun budget => walk budget depth) (bills depth))
    (hends : ∀ depth, (bills depth).outcome = .error .unfinished)
    (hcost : ∀ depth, depth ≤ (bills depth).cost) : Budgeted walk .endless where
  own _ _ := nofun
  within _ _ heq := by cases heq
  past limit count _ _ depth hd := by
    have hle := hcost depth
    rw [hpays depth (some limit) count, Bill.under_of_not_affords (mt affords_some.mp (by omega))]
  endless _ depth count := by
    rw [hpays depth none count]
    exact hends depth

/-- **Every walk has an account**, which no budget has a part in. -/
theorem exists_budgeted :
    ∃ account : Account α, Budgeted walk account ∧ (least : ℕ∞) ≤ account.cost := by
  choose bills hpays hown hunfinished hfinished using
    fun depth => (h depth depth (Nat.le_refl depth)).billed
  by_cases hends : ∃ patience, (bills patience).outcome ≠ .error .unfinished
  · obtain ⟨patience, hp⟩ := hends
    have hle : (least : ℕ∞) ≤ (bills patience).cost := by exact_mod_cast hfinished patience hp
    cases hr : (bills patience).outcome with
    | ok found =>
      exact ⟨.ends _ (.ok found), budgeted_of_finished h (hpays patience) hr nofun, hle⟩
    | error stop =>
      cases stop with
      | unfinished => exact absurd hr hp
      | fault cause =>
        refine ⟨.ends _ (.error cause), budgeted_of_finished h (hpays patience) hr ?_, hle⟩
        intro limit heq
        cases heq
        exact hown patience limit hr
  · simp only [not_exists, not_not] at hends
    exact ⟨.endless, budgeted_endless hpays hends fun depth => hunfinished depth (hends depth), le_top⟩

end Accounts

namespace Budgeted

variable {α : Type} {walk : Option Nat → Nat → Counted α} {account : Account α}

/-- Under a budget, a walk to a depth that is enough either comes to its account or has spent the
budget. -/
theorem cases (h : Budgeted walk account) {limit depth : Nat} (hd : limit < depth) (count : Nat) :
    (∃ cost outcome, account = .ends cost outcome ∧ Affords (some limit) count cost ∧
        (walk (some limit) depth).runFrom count = (outcome.mapError .fault, count + cost)) ∨
      (walk (some limit) depth).runFrom count =
        (.error (.fault (.budgetExhausted limit)), max count limit + 1) := by
  cases account with
  | endless => exact .inr (h.past limit count (by simp) (by simp) depth hd)
  | ends cost outcome =>
    by_cases hb : Affords (some limit) count cost
    · obtain ⟨_, hwithin⟩ := h.within cost outcome rfl
      exact .inl ⟨cost, outcome, rfl, hb, hwithin (some limit) count hb depth hd⟩
    · rw [affords_some] at hb
      refine .inr (h.past limit count ?_ ?_ depth hd)
      · rw [Account.cost_ends]
        exact_mod_cast (by omega : 0 < cost)
      · rw [Account.cost_ends]
        exact_mod_cast (by omega : limit < count + cost)

/-- A walk that has spent the budget leaves a count past it. -/
theorem lt_of_exhausted (h : Budgeted walk account) {limit depth : Nat} (hd : limit < depth)
    {count : Nat}
    (hr : ((walk (some limit) depth).runFrom count).1 = .error (.fault (.budgetExhausted limit))) :
    limit < ((walk (some limit) depth).runFrom count).2 := by
  obtain ⟨cost, outcome, haccount, _, heq⟩ | heq := h.cases hd count
  · rw [heq] at hr
    cases outcome with
    | ok found => cases hr
    | error cause =>
      cases hr
      exact absurd haccount (h.own cost limit)
  · rw [heq]
    show limit < max count limit + 1
    omega

/-- No walk takes steps back. -/
theorem le_count (h : Budgeted walk account) {limit depth : Nat} (hd : limit < depth) (count : Nat) :
    count ≤ ((walk (some limit) depth).runFrom count).2 := by
  obtain ⟨cost, outcome, _, _, heq⟩ | heq := h.cases hd count
  · rw [heq]
    exact Nat.le_add_right _ _
  · rw [heq]
    show count ≤ max count limit + 1
    omega

/-- What comes to its account under one budget comes to it under every larger one and under none. -/
theorem of_not_exhausted (h : Budgeted walk account) {limit depth count : Nat} (hd : limit < depth)
    (hr : ((walk (some limit) depth).runFrom count).1 ≠ .error (.fault (.budgetExhausted limit))) :
    ∃ patience, ∀ budget, (∀ larger ∈ budget, limit ≤ larger) → ∀ deep ≥ depthFor budget patience,
      (walk budget deep).runFrom count = (walk (some limit) depth).runFrom count := by
  obtain ⟨cost, outcome, haccount, hb, heq⟩ | heq := h.cases hd count
  · obtain ⟨patience, hwithin⟩ := h.within cost outcome haccount
    refine ⟨patience, ?_⟩
    intro budget hlarger deep hdeep
    have haffords : Affords budget count cost := by
      rw [affords_some] at hb
      refine hb.imp_right ?_
      intro hle larger mem
      exact hle.trans (hlarger larger mem)
    rw [heq, hwithin budget count haffords deep hdeep]
  · rw [heq] at hr
    exact absurd rfl hr

end Budgeted

/-- Several cursors along a pattern, under every budget. -/
theorem budgeted_followAll (program : Program) (grid : Grid) (node : Node) (cursors : Survivors Cursor) :
    ∃ account, Budgeted (fun budget depth => followAll ⟨program, grid, budget⟩ depth node cursors)
      account ∧ (cursors.toList ≠ [] → 0 < account.cost) := by
  by_cases hne : cursors.toList = []
  · obtain ⟨account, hb, _⟩ := exists_budgeted
      fun _ _ h => metered_followAll program grid h node cursors
    exact ⟨account, hb, fun h => absurd hne h⟩
  · obtain ⟨account, hb, hcost⟩ := exists_budgeted
      fun _ _ h => metered_followAll_of_ne_nil program grid h node hne
    exact ⟨account, hb, fun _ => lt_of_lt_of_le (by simp) hcost⟩

/-- A whole program from a cursor, under every budget. -/
theorem budgeted_enterProgram (program : Program) (grid : Grid) (c : Cursor) :
    ∃ account, Budgeted (fun budget depth => enterProgram ⟨program, grid, budget⟩ depth c) account := by
  obtain ⟨account, hb, _⟩ := exists_budgeted fun _ _ h => metered_enterProgram program grid h c
  exact ⟨account, hb⟩

/-! ## One count for several walks -/

/-- What a walker can be asked for: to go on along a pattern with some cursors, or to begin with the
program. -/
inductive Request
  | follow (node : Node) (cursors : Survivors Cursor)
  | run (c : Cursor)

/-- How a request is met. -/
def Request.walk (s : Setting) (depth : Nat) : Request → Counted (Survivors Cursor)
  | follow node cursors => followAll s depth node cursors
  | run c => Walk.run s depth c

/-- The count after requests that are met one after the other, whatever each comes to. -/
def countAfter (s : Setting) (depth : Nat) (requests : List Request) (count : Nat) : Nat :=
  requests.foldl (fun count request => ((request.walk s depth).runFrom count).2) count

section Requests

variable {program : Program} {grid : Grid} {limit depth : Nat}

/-- A request that has spent the budget leaves a count past it. -/
theorem lt_count_of_exhausted (hd : limit < depth) {request : Request} {count : Nat}
    (h : ((request.walk ⟨program, grid, some limit⟩ depth).runFrom count).1 =
      .error (.fault (.budgetExhausted limit))) :
    limit < ((request.walk ⟨program, grid, some limit⟩ depth).runFrom count).2 := by
  cases request with
  | follow node cursors =>
    obtain ⟨_, hb, _⟩ := budgeted_followAll program grid node cursors
    exact hb.lt_of_exhausted hd h
  | run c =>
    obtain ⟨_, hb⟩ := budgeted_enterProgram program grid c
    simp only [Request.walk, runFrom_run] at h ⊢
    exact hb.lt_of_exhausted hd h

theorem lt_countAfter (hd : limit < depth) {requests : List Request}
    (hfollow : ∀ request ∈ requests, ∃ node cursors, request = .follow node cursors) {count : Nat}
    (h : limit < count) : limit < countAfter ⟨program, grid, some limit⟩ depth requests count := by
  induction requests generalizing count with
  | nil => exact h
  | cons request requests ih =>
    obtain ⟨⟨node, cursors, rfl⟩, hrest⟩ := List.forall_mem_cons.mp hfollow
    obtain ⟨_, hb, _⟩ := budgeted_followAll program grid node cursors
    exact ih hrest (lt_of_lt_of_le h (hb.le_count hd count))

/-- Past the budget no cursor takes another step. -/
theorem exhausted_of_lt (hd : limit < depth) {count : Nat} (h : limit < count) (node : Node)
    {cursors : Survivors Cursor} (hne : cursors.toList ≠ []) :
    ((followAll ⟨program, grid, some limit⟩ depth node cursors).runFrom count).1 =
      .error (.fault (.budgetExhausted limit)) := by
  obtain ⟨account, hb, hcost⟩ := budgeted_followAll program grid node cursors
  have hlt : (limit : ℕ∞) < count + account.cost :=
    lt_of_lt_of_le (by exact_mod_cast h) le_self_add
  rw [hb.past limit count (hcost hne) hlt depth hd]

end Requests

end GridPattern.Walk
