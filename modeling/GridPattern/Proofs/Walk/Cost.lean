import GridPattern.Proofs.Walk.Metering

/-!
# What a walk costs

Where it is known what the walks inside a pattern come to, and after how many steps, it is known of the
pattern: a step for the pattern itself, and then all of theirs.

**The law** (`pays_follow`, `pays_flatMapList`, `pays_parts`, `pays_call`), one for each way in which walks go
on. A budget has a part in none of them, so a walk whose bill is known ends under every budget that is larger.
-/

namespace GridPattern.Walk

open Counted Survivors

variable {program : Program} {grid : Grid} {F : Option Nat → Follow} {cost : Nat}

/-- A pattern is one step, and then what is inside. -/
theorem pays_follow {depth : Nat} {node : Node} {c : Cursor} {bill : Bill (Survivors Cursor)}
    (hs : c.heading.isStalled = false)
    (h : Pays (fun budget => enter ⟨program, grid, budget⟩ (follow ⟨program, grid, budget⟩ depth) depth node c)
      bill) :
    Pays (fun budget => follow ⟨program, grid, budget⟩ (depth + 1) node c)
      ⟨bill.outcome, 1 + bill.cost⟩ := by
  refine Pays.tick.bind (f := fun budget _ => if c.heading.isStalled then fail .stalled
    else enter ⟨program, grid, budget⟩ (follow ⟨program, grid, budget⟩ depth) depth node c) rfl ?_
  simp only [hs, Bool.false_eq_true, if_false]
  exact h

/-- A pattern without others inside is one step. -/
theorem pays_leaf {depth : Nat} {node : Node} {c : Cursor} {found : Survivors Cursor}
    (hs : c.heading.isStalled = false)
    (h : ∀ budget, enter ⟨program, grid, budget⟩ (follow ⟨program, grid, budget⟩ depth) depth node c =
      pure found) :
    Pays (fun budget => follow ⟨program, grid, budget⟩ (depth + 1) node c) ⟨.ok found, 1⟩ := by
  have henter : Pays (fun budget =>
      enter ⟨program, grid, budget⟩ (follow ⟨program, grid, budget⟩ depth) depth node c) ⟨.ok found, 0⟩ := by
    simp only [h]
    exact .pure found
  exact pays_follow hs henter

/-- Several walks one after the other take the steps of all of them. -/
theorem pays_flatMapList {α β : Type} {f : Option Nat → α → Counted (Survivors β)} {g : α → Survivors β}
    {cost : α → Nat} {as : List α} (h : ∀ a ∈ as, Pays (fun budget => f budget a) ⟨.ok (g a), cost a⟩) :
    Pays (fun budget => flatMapList (f budget) as)
      ⟨.ok (.ofList (as.flatMap fun a => (g a).toList)), (as.map cost).sum⟩ := by
  have hrow := (Pays.mapM h).map rfl fun founds : List (Survivors β) =>
    Survivors.ofList (founds.flatMap toList)
  rw [List.flatMap_map] at hrow
  simp only [flatMapList_eq]
  exact hrow

theorem pays_flatMapList_singleton {α β : Type} {f : Option Nat → α → Counted (Survivors β)} {a : α}
    {bs : List β} (h : Pays (fun budget => f budget a) ⟨.ok (.ofList bs), cost⟩) :
    Pays (fun budget => flatMapList (f budget) [a]) ⟨.ok (.ofList bs), cost⟩ := by
  have hall : ∀ b ∈ [a], Pays (fun budget => f budget b) ⟨.ok (.ofList bs), cost⟩ := by
    intro b mem
    cases List.mem_singleton.mp mem
    exact h
  have hone := pays_flatMapList hall
  rw [List.flatMap_singleton, toList_ofList] at hone
  exact hone

/-- The parts of a sequence take the steps of the first and then those of the others. -/
theorem pays_parts {part : Node} {parts : List Node} {cursors found : Survivors Cursor}
    {bill : Bill (Survivors Cursor)}
    (hpart : Pays (fun budget => flatMapList (F budget part) cursors.toList) ⟨.ok found, cost⟩)
    (hne : found.isEmpty = false) (hrest : Pays (fun budget => sequence (F budget) parts found) bill) :
    Pays (fun budget => sequence (F budget) (part :: parts) cursors)
      ⟨bill.outcome, cost + bill.cost⟩ := by
  refine hpart.bind (f := fun budget found => if found.isEmpty then pure .none
    else sequence (F budget) parts found) rfl ?_
  simp only [hne, Bool.false_eq_true, if_false]
  exact hrest

theorem pays_lastPart {part : Node} {cursors : Survivors Cursor} {ts : List Cursor}
    (hpart : Pays (fun budget => flatMapList (F budget part) cursors.toList) ⟨.ok (.ofList ts), cost⟩) :
    Pays (fun budget => sequence (F budget) [part] cursors) ⟨.ok (.ofList ts), cost⟩ := by
  have hend : Pays (fun budget => if (ofList ts).isEmpty then pure .none
      else sequence (F budget) [] (ofList ts)) ⟨.ok (.ofList ts), 0⟩ := by
    cases hempty : (ofList ts).isEmpty with
    | true =>
      rw [← isEmpty_toList, toList_ofList, List.isEmpty_iff] at hempty
      subst hempty
      exact .pure Survivors.none
    | false => exact .pure (ofList ts)
  exact hpart.bind (f := fun budget found => if found.isEmpty then pure .none
    else sequence (F budget) [] found) rfl hend

/-- A call takes the steps of the pattern called, from each heading. -/
theorem pays_call {target : Call} {declared : Declaration} {c : Cursor} {headed : List Cursor}
    {ended : Survivors Cursor} (hd : program.declaration? target.name = some declared)
    (hh : headings? grid target.direction (callee (target.params.merged declared.params) c) = some headed)
    (h : Pays (fun budget => flatMapList (F budget declared.body) headed) ⟨.ok ended, cost⟩) :
    Pays (fun budget => call ⟨program, grid, budget⟩ (F budget) target c)
      ⟨.ok (.ofList (handBack grid (target.params.merged declared.params) c ended.toList)), cost⟩ := by
  have hcall : ∀ budget, call ⟨program, grid, budget⟩ (F budget) target c =
      (fun ended => ofList (handBack grid (target.params.merged declared.params) c ended.toList)) <$>
        flatMapList (F budget declared.body) headed := by
    intro budget
    rw [call_eq _ hd]
    simp only [turn_eq, hh, pure_bind, tryFlatMap, toList_ofList, map_eq_pure_bind]
  simp only [hcall]
  exact h.map rfl _

end GridPattern.Walk
