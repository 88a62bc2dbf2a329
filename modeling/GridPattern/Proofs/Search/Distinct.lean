import GridPattern.Proofs.Walk.History
import GridPattern.Search
import Mathlib.Data.Finset.Dedup
import Mathlib.Data.List.Pairwise
import Mathlib.Data.List.Perm.Basic

/-!
# Which matches are reported

Of all that survives, a search keeps what has no duplicate among what it has kept. Duplicates are told
by comparing lists of marks, without their order. Both are narrower than what they stand for: a
duplicate of something earlier, kept or not, and the same set of cells.

**The law** (`distinct_eq_firsts`). To be duplicates is an equivalence, so whatever has an earlier
duplicate has an earlier one that is kept. Marks never repeat a cell (`Reaches.extends_marks`), so two
lists of marks are the same set if and only if one is a permutation of the other.
-/

namespace GridPattern.Search

section Firsts

variable {α : Type} (R : α → α → Prop) [DecidableRel R]

/-- Whether nothing in front of an entry of the list is related to it. -/
def isFirst (as : List α) (entry : α × Nat) : Bool :=
  decide (∀ earlier ∈ as.take entry.2, ¬R earlier entry.1)

/-- **The entries that have no earlier related one**, in order. -/
def firsts (as : List α) : List α := (as.zipIdx.filter (isFirst R as)).map Prod.fst

variable {R}

theorem isFirst_cons (a x : α) (as : List α) (n : Nat) :
    isFirst R (a :: as) (x, n + 1) = (decide (¬R a x) && isFirst R as (x, n)) := by
  simp [isFirst]

/-- The first entry stands, and of the others those that it is not related to. -/
theorem firsts_cons (a : α) (as : List α) :
    firsts R (a :: as) = a :: (firsts R as).filter fun b => decide ¬R a b := by
  have head : isFirst R (a :: as) (a, 0) = true := by simp [isFirst]
  have later : ∀ entry : α × Nat, isFirst R (a :: as) (entry.1, entry.2 + 1) =
      (decide (¬R a entry.1) && isFirst R as entry) := fun entry => isFirst_cons a entry.1 as entry.2
  unfold firsts
  rw [List.zipIdx_cons, List.filter_cons, if_pos head, List.map_cons, List.zipIdx_succ]
  simp only [List.filter_map, List.map_map, List.filter_filter, Function.comp_def, later]

/-- Leaving out all that is related to one entry keeps the others where they are. -/
theorem firsts_filter (equiv : Equivalence R) (a : α) (as : List α) :
    firsts R (as.filter fun b => decide ¬R a b) = (firsts R as).filter fun b => decide ¬R a b := by
  induction as with
  | nil => rfl
  | cons b as ih =>
    rw [firsts_cons, List.filter_cons, List.filter_cons]
    by_cases h : R a b
    · have hsame : ∀ x, ¬R a x → ¬R b x := fun x hax hbx => hax (equiv.trans h hbx)
      rw [if_neg (by simpa using h), if_neg (by simpa using h), ih, List.filter_filter]
      apply List.filter_congr
      intro x _
      by_cases hax : R a x
      · simp [hax]
      · simp [hax, hsame x hax]
    · rw [if_pos (by simpa using h), if_pos (by simpa using h), firsts_cons, ih, List.filter_comm]

/-- **To drop by a finer relation first** leaves the same to a coarser one. -/
theorem firsts_firsts {S : α → α → Prop} [DecidableRel S] (equiv : Equivalence S) (finer : ∀ a b, R a b → S a b)
    (as : List α) : firsts S (firsts R as) = firsts S as := by
  induction as with
  | nil => rfl
  | cons a as ih =>
    rw [firsts_cons, firsts_cons, firsts_cons]
    refine congrArg (a :: ·) ?_
    -- what `a` drops by the finer relation it drops by the coarser one too
    have hdrop : ((firsts R as).filter fun b => decide ¬R a b).filter (fun b => decide ¬S a b) =
        (firsts R as).filter fun b => decide ¬S a b := by
      rw [List.filter_filter]
      apply List.filter_congr
      intro b _
      by_cases hS : S a b
      · simp [hS]
      · simp [hS, mt (finer a b) hS]
    calc (firsts S ((firsts R as).filter fun b => decide ¬R a b)).filter (fun b => decide ¬S a b)
      _ = firsts S (((firsts R as).filter fun b => decide ¬R a b).filter fun b => decide ¬S a b) :=
        (firsts_filter equiv a _).symm
      _ = firsts S ((firsts R as).filter fun b => decide ¬S a b) := by rw [hdrop]
      _ = (firsts S (firsts R as)).filter fun b => decide ¬S a b := firsts_filter equiv a _
      _ = (firsts S as).filter fun b => decide ¬S a b := by rw [ih]

/-- To drop what is related to something kept is to drop what is related to something earlier. -/
theorem eraseDupsBy_eq_firsts (equiv : Equivalence R) {r : α → α → Bool} {as : List α}
    (hr : ∀ a ∈ as, ∀ b ∈ as, r b a = true ↔ R a b) : as.eraseDupsBy r = firsts R as := by
  -- the list that is left after the first entry is shorter, but no tail
  induction hn : as.length using Nat.strong_induction_on generalizing as with
  | _ n ih =>
    cases as with
    | nil => rfl
    | cons a as =>
      have hfilter : (as.filter fun b => r b a = false) = as.filter fun b => decide ¬R a b := by
        apply List.filter_congr
        intro b hb
        have hab := hr a List.mem_cons_self b (List.mem_cons_of_mem _ hb)
        simp [← hab]
      have hshort : (as.filter fun b => decide ¬R a b).length < n := by
        have := List.length_filter_le (fun b => decide ¬R a b) as
        rw [List.length_cons] at hn
        omega
      have hmem : ∀ b ∈ as.filter fun b => decide ¬R a b, b ∈ a :: as :=
        fun b hb => List.mem_cons_of_mem _ (List.mem_filter.mp hb).1
      rw [List.eraseDupsBy_cons, hfilter, firsts_cons, ← firsts_filter equiv]
      exact congrArg (a :: ·) (ih _ hshort (fun x hx y hy => hr x (hmem x hx) y (hmem y hy)) rfl)

/-- To drop some entries keeps the others in order. -/
theorem eraseDupsBy_sublist (r : α → α → Bool) (as : List α) : (as.eraseDupsBy r).Sublist as := by
  induction hn : as.length using Nat.strong_induction_on generalizing as with
  | _ n ih =>
    cases as with
    | nil => exact .slnil
    | cons a as =>
      have hshort : (as.filter fun b => r b a = false).length < n := by
        rw [← hn, List.length_cons]
        exact Nat.lt_succ_of_le (List.length_filter_le _ as)
      rw [List.eraseDupsBy_cons]
      exact ((ih _ hshort _ rfl).trans List.filter_sublist).cons_cons a

theorem firsts_sublist (as : List α) : (firsts R as).Sublist as := by
  induction as with
  | nil => exact .slnil
  | cons a as ih =>
    rw [firsts_cons]
    exact (List.filter_sublist.trans ih).cons_cons a

theorem pairwise_firsts (as : List α) : (firsts R as).Pairwise fun a b => ¬R a b := by
  induction as with
  | nil => exact .nil
  | cons a as ih =>
    rw [firsts_cons]
    refine .cons (fun b hb => ?_) (ih.filter _)
    simpa using (List.mem_filter.mp hb).2

theorem exists_mem_firsts (equiv : Equivalence R) {as : List α} {x : α} (mem : x ∈ as) :
    ∃ m ∈ firsts R as, R m x := by
  induction as with
  | nil => cases mem
  | cons a as ih =>
    rw [firsts_cons]
    by_cases hax : R a x
    · exact ⟨a, List.mem_cons_self, hax⟩
    · have hmem : x ∈ as := by
        rcases List.mem_cons.mp mem with rfl | hmem
        · exact absurd (equiv.refl x) hax
        · exact hmem
      obtain ⟨m, hm, hmx⟩ := ih hmem
      have ham : ¬R a m := fun ham => hax (equiv.trans ham hmx)
      exact ⟨m, List.mem_cons_of_mem _ (List.mem_filter.mpr ⟨hm, by simpa using ham⟩), hmx⟩

/-- In a list that is in order a representative comes no later than what it stands for. -/
theorem le_of_mem_firsts {le : α → α → Prop} (equiv : Equivalence R) (refl : ∀ a, le a a) {as : List α}
    (hle : as.Pairwise le) {m x : α} (hm : m ∈ firsts R as) (hx : x ∈ as) (h : R m x) : le m x := by
  induction as with
  | nil => cases hx
  | cons a as ih =>
    obtain ⟨hhead, htail⟩ := List.pairwise_cons.mp hle
    rw [firsts_cons] at hm
    rcases List.mem_cons.mp hm with rfl | hm
    · rcases List.mem_cons.mp hx with rfl | hx
      · exact refl x
      · exact hhead x hx
    · obtain ⟨hm, ham⟩ := List.mem_filter.mp hm
      rcases List.mem_cons.mp hx with rfl | hx
      · exact absurd (equiv.symm h) (of_decide_eq_true ham)
      · exact ih htail hm hx

/-- **Every entry has exactly one representative.** -/
theorem existsUnique_mem_firsts (equiv : Equivalence R) {as : List α} {x : α} (mem : x ∈ as) :
    ∃! m, m ∈ firsts R as ∧ R m x := by
  obtain ⟨m, hm, hmx⟩ := exists_mem_firsts equiv mem
  refine ⟨m, ⟨hm, hmx⟩, ?_⟩
  intro m' h
  have hrel : R m' m := equiv.trans h.2 (equiv.symm hmx)
  by_contra hne
  have hsymm : Std.Symm fun a b => ¬R a b := ⟨fun _ _ hab hba => hab (equiv.symm hba)⟩
  exact (pairwise_firsts as).forall h.1 hm hne hrel

end Firsts

/-! ## Duplicates -/

/-- **Duplicates** mark the same set of cells and, unless the origin is of no interest, start from the
same cell. -/
def Duplicates (originInsensitive : Bool) (a b : Finding) : Prop :=
  a.cursor.marks.toFinset = b.cursor.marks.toFinset ∧ (originInsensitive = false → a.origin = b.origin)

instance (originInsensitive : Bool) : DecidableRel (Duplicates originInsensitive) :=
  fun a b => inferInstanceAs (Decidable (a.cursor.marks.toFinset = b.cursor.marks.toFinset ∧
    (originInsensitive = false → a.origin = b.origin)))

theorem duplicates_equivalence (originInsensitive : Bool) :
    Equivalence (Duplicates originInsensitive) where
  refl _ := ⟨rfl, fun _ => rfl⟩
  symm h := ⟨h.1.symm, fun hoi => (h.2 hoi).symm⟩
  trans h h' := ⟨h.1.trans h'.1, fun hoi => (h.2 hoi).trans (h'.2 hoi)⟩

/-- Lists of marks without repetition are told apart as sets are. -/
theorem isDuplicate_iff {originInsensitive : Bool} {a b : Finding} (ha : a.cursor.marks.Nodup)
    (hb : b.cursor.marks.Nodup) :
    b.toMatch.isDuplicate originInsensitive a.toMatch = true ↔ Duplicates originInsensitive a b := by
  have hmarks : b.cursor.marks.isPerm a.cursor.marks = true ↔
      a.cursor.marks.toFinset = b.cursor.marks.toFinset := by
    rw [List.isPerm_iff, List.perm_ext_iff_of_nodup hb ha, Finset.ext_iff]
    simp only [List.mem_toFinset]
    exact forall_congr' fun _ => iff_comm
  have horigin : (originInsensitive || b.origin == a.origin) = true ↔
      (originInsensitive = false → a.origin = b.origin) := by
    cases originInsensitive with
    | true => simp
    | false =>
      rw [Bool.false_or, beq_iff_eq, eq_comm]
      exact ⟨fun h _ => h, fun h => h rfl⟩
  unfold Match.isDuplicate Duplicates
  rw [Bool.and_eq_true, and_comm]
  exact and_congr hmarks horigin

/-- **What a search keeps has no earlier duplicate**, and everything without one is kept. -/
theorem distinct_eq_firsts (originInsensitive : Bool) {found : List Finding}
    (hmarks : ∀ f ∈ found, f.cursor.marks.Nodup) :
    distinct originInsensitive found = firsts (Duplicates originInsensitive) found :=
  eraseDupsBy_eq_firsts (duplicates_equivalence originInsensitive) fun a ha b hb =>
    isDuplicate_iff (hmarks a ha) (hmarks b hb)

end GridPattern.Search
