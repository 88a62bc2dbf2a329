import GridPattern.Proofs.Walk.Evaluation
import Mathlib.Data.List.Nodup

/-!
# Patterns that go one way

Most patterns have a survivor or none, and the meaning of what is made of them can be said outright: parts one
after the other take lists of survivors to lists of survivors, and a repetition goes from one cursor to the
next until there is none.

**The law** (`eval_plus_of_chain`). One or more repetitions of a pattern that goes from each cursor of a chain
to the next, and nowhere from the last, have all cursors of the chain but the first.
-/

namespace GridPattern.Walk

/-! ## Lists -/

/-- If but one entry of a list comes to something, the list comes to that. -/
theorem flatMap_eq_of_mem {α β : Type} {f : α → List β} {as : List α} (hn : as.Nodup) {a : α}
    (mem : a ∈ as) (h : ∀ b ∈ as, b ≠ a → f b = []) : as.flatMap f = f a := by
  induction as with
  | nil => cases mem
  | cons b as ih =>
    obtain ⟨hb, hn⟩ := List.nodup_cons.mp hn
    obtain ⟨hhead, htail⟩ := List.forall_mem_cons.mp h
    rw [List.flatMap_cons]
    rcases List.mem_cons.mp mem with rfl | mem
    · have hrest : as.flatMap f = [] := by
        refine List.flatMap_eq_nil_iff.mpr fun b hmem => htail b hmem ?_
        rintro rfl
        exact hb hmem
      rw [hrest, List.append_nil]
    · have hne : b ≠ a := by
        rintro rfl
        exact hb mem
      rw [hhead hne, ih hn mem htail, List.nil_append]

/-- The same of the numbers from one on. -/
theorem flatMap_range'_eq {β : Type} {f : Nat → List β} {n m : Nat} (hm : 0 < m)
    (h : ∀ i, 0 < i → i ≤ n → i ≠ m → f i = []) :
    (List.range' 1 n).flatMap f = if m ≤ n then f m else [] := by
  have hothers : ∀ i ∈ List.range' 1 n, i ≠ m → f i = [] := by
    intro i mem hne
    rw [List.mem_range'_1] at mem
    exact h i (by omega) (by omega) hne
  split
  · next hle =>
    exact flatMap_eq_of_mem List.nodup_range' (List.mem_range'_1.mpr (by omega)) hothers
  · next hlt =>
    refine List.flatMap_eq_nil_iff.mpr fun i mem => hothers i mem ?_
    rw [List.mem_range'_1] at mem
    omega

/-! ## Survivors -/

section Survivors

variable {program : Program} {grid : Grid}

/-- Where each has survivors, all together have them one after the other. -/
theorem evalEach_eq_flatMap {α : Type} {eval : α → Option Verdict} {as : List α}
    {survivors : α → List Cursor} (h : ∀ a ∈ as, eval a = some (.ok (survivors a))) :
    evalEach eval as = some (.ok (as.flatMap survivors)) := by
  refine evalEach_eq_ok_iff.mpr ⟨as.map survivors, ?_, List.flatMap_def⟩
  exact List.forall₂_map_right_iff.mpr (List.forall₂_same.mpr h)

theorem evalParts_eq_flatMap {part : Node} {parts : List Node} {c : Cursor} {ts : List Cursor}
    {survivors : Cursor → List Cursor} (hpart : eval program grid part c = some (.ok ts))
    (hparts : ∀ t ∈ ts, evalParts program grid parts t = some (.ok (survivors t))) :
    evalParts program grid (part :: parts) c = some (.ok (ts.flatMap survivors)) := by
  rw [evalParts_cons, hpart]
  exact evalEach_eq_flatMap hparts

/-- A part without survivors ends the sequence. -/
theorem evalParts_of_none {part : Node} (parts : List Node) {c : Cursor}
    (hpart : eval program grid part c = some (.ok [])) :
    evalParts program grid (part :: parts) c = some (.ok []) := by
  rw [evalParts_cons, hpart]
  rfl

/-- From the only survivor of a part the sequence goes on. -/
theorem evalParts_of_one {part : Node} (parts : List Node) {c t : Cursor}
    (hpart : eval program grid part c = some (.ok [t])) :
    evalParts program grid (part :: parts) c = evalParts program grid parts t := by
  rw [evalParts_cons, hpart]
  exact evalEach_singleton

/-- The last part has the survivors of the sequence. -/
theorem evalParts_singleton {part : Node} {c : Cursor} {ts : List Cursor}
    (hpart : eval program grid part c = some (.ok ts)) :
    evalParts program grid [part] c = some (.ok ts) := by
  rw [evalParts_cons, hpart]
  exact evalEach_evalParts_nil ts

variable {inner : Node} {chain : Nat → Cursor} {n : Nat}

/-- From level `k` of a chain on, a level is one cursor, and the last has none after it. -/
theorem evalLevels_of_chain (hend : eval program grid inner (chain n) = some (.ok []))
    {m k : Nat} (hstep : ∀ i < n, eval program grid inner (chain i) = some (.ok [chain (i + 1)]))
    (hk : k + m = n) : evalLevels program grid inner .plus k [chain k] =
      some (.ok ((if 1 ≤ k then [chain k] else []) ++ (List.range' (k + 1) m).map chain)) := by
  have hopen : ∀ k, ¬Repeat.plus.most?.any (· ≤ k) = true := fun _ => Bool.false_ne_true
  induction m generalizing k with
  | zero =>
    obtain rfl : k = n := hk
    rw [evalLevels_last (hopen k) (evalEach_singleton.trans hend)]
    exact congrArg (some ∘ Except.ok) (List.append_nil _).symm
  | succ m ih =>
    have hnext := evalEach_singleton.trans (hstep k (by omega))
    rw [evalLevels_next (hopen k) hnext (List.cons_ne_nil _ _), ih (by omega), List.range'_succ]
    rfl

/-- **A repetition along a chain** has all cursors of the chain but the first. -/
theorem eval_plus_of_chain (hgoing : (chain 0).heading.isStalled = false)
    (hstep : ∀ i < n, eval program grid inner (chain i) = some (.ok [chain (i + 1)]))
    (hend : eval program grid inner (chain n) = some (.ok [])) :
    eval program grid (.repeated inner .plus) (chain 0) = some (.ok ((List.range' 1 n).map chain)) := by
  rw [eval_repeated inner .plus hgoing, evalLevels_of_chain hend hstep (Nat.zero_add n)]
  rfl

end Survivors

end GridPattern.Walk
