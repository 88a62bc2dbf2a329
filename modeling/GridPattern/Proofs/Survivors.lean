import GridPattern.Survivors

/-!
# Survivors as lists

Survivors are read as their list, and a narrow shape adds nothing to it: narrow survivors with one list are equal.

**The law** (`run_tryFlatMap_iff`, `isNarrow_append_iff`). What is made of the survivors is made of one after the other,
and the first failure ends it (`OneByOne`). All that is built is narrow, except that a shape to which nothing is added
stays as it was.

Gathering is faster than adding to the survivors again and again, and comes to the same (`flatMapList_eq_foldlM`).
-/

namespace GridPattern.Survivors

variable {α β : Type}

/-! ## Narrow shapes -/

section Narrow

variable {s t : Survivors α}

/-- Narrow survivors are what their list is put in. -/
theorem isNarrow_iff : s.IsNarrow ↔ s = ofList s.toList := by
  constructor
  · intro h
    cases s with
    | none | one => rfl
    | many as =>
      obtain _ | ⟨a, _ | ⟨b, as⟩⟩ := as
      · exact absurd h (by decide : ¬2 ≤ 0)
      · exact absurd h (by decide : ¬2 ≤ 1)
      · rfl
  · intro h
    rw [h]
    exact isNarrow_ofList _

/-- **A narrow shape adds nothing to the list.** -/
theorem IsNarrow.eq_of_toList_eq (hs : s.IsNarrow) (ht : t.IsNarrow) (h : s.toList = t.toList) : s = t :=
  calc s = ofList s.toList := isNarrow_iff.mp hs
    _ = ofList t.toList := by rw [h]
    _ = t := (isNarrow_iff.mp ht).symm

theorem isNarrow_ofOption (o : Option α) : (ofOption o).IsNarrow := by
  cases o <;> exact trivial

theorem isNarrow_filterMap (f : α → Option β) (s : Survivors α) : (s.filterMap f).IsNarrow := isNarrow_ofList _

/-- Only survivors to which nothing is added can keep a shape that is not narrow. -/
theorem isNarrow_append_iff : (s.append t).IsNarrow ↔ s.IsNarrow ∨ t.isEmpty = false := by
  unfold append
  cases t.isEmpty with
  | true => simp
  | false => simp [isNarrow_ofList]

theorem ofList_append (as : List α) (t : Survivors α) : (ofList as).append t = ofList (as ++ t.toList) := by
  have hnarrow : ((ofList as).append t).IsNarrow := isNarrow_append_iff.mpr (.inl (isNarrow_ofList as))
  exact hnarrow.eq_of_toList_eq (isNarrow_ofList _) (by simp)

end Narrow

/-! ## One after the other -/

/-- **One after the other**: each is taken with the state that those before it left, and what is made of it comes
after what was made of them. The first failure ends it, and no more are taken. -/
inductive OneByOne {ε σ : Type} (f : α → ExceptT ε (StateM σ) (Survivors β)) :
    List α → σ → Except ε (List β) → σ → Prop
  | nil {state : σ} : OneByOne f [] state (.ok []) state
  | fails {a : α} {as : List α} {before after : σ} {cause : ε} :
      (f a).run.run before = (.error cause, after) → OneByOne f (a :: as) before (.error cause) after
  | goes {a : α} {as : List α} {before between after : σ} {found : Survivors β} {joined : Except ε (List β)} :
      (f a).run.run before = (.ok found, between) → OneByOne f as between joined after →
        OneByOne f (a :: as) before ((found.toList ++ ·) <$> joined) after

section OneByOne

variable {ε σ : Type} {f : α → ExceptT ε (StateM σ) (Survivors β)}

theorem exists_oneByOne (f : α → ExceptT ε (StateM σ) (Survivors β)) (as : List α) (before : σ) :
    ∃ joined after, OneByOne f as before joined after := by
  induction as generalizing before with
  | nil => exact ⟨_, _, .nil⟩
  | cons a as ih =>
    cases ha : (f a).run.run before with
    | mk r between =>
      cases r with
      | error cause => exact ⟨_, _, .fails ha⟩
      | ok found =>
        obtain ⟨joined, after, h⟩ := ih between
        exact ⟨_, _, .goes ha h⟩

/-- What comes after a success goes on with its state. -/
theorem run_bind_of_ok {γ δ : Type} {m : ExceptT ε (StateM σ) γ} {k : γ → ExceptT ε (StateM σ) δ} {before between : σ}
    {c : γ} (h : m.run.run before = (.ok c, between)) : (m >>= k).run.run before = (k c).run.run between := by
  rw [ExceptT.run_bind, StateT.run_bind, h]
  rfl

/-- What comes after a failure is left out. -/
theorem run_bind_of_error {γ δ : Type} {m : ExceptT ε (StateM σ) γ} {k : γ → ExceptT ε (StateM σ) δ}
    {before after : σ} {cause : ε} (h : m.run.run before = (.error cause, after)) :
    (m >>= k).run.run before = (.error cause, after) := by
  rw [ExceptT.run_bind, StateT.run_bind, h]
  rfl

/-- What is joined comes after what was gathered before. -/
theorem OneByOne.run_gather {as : List α} {before after : σ} {joined : Except ε (List β)}
    (h : OneByOne f as before joined after) (gathered : List β) :
    (gather f as gathered).run.run before = ((gathered.reverse ++ ·) <$> joined, after) := by
  induction h generalizing gathered with
  | nil =>
    show (Except.ok gathered.reverse, _) = (Except.ok (gathered.reverse ++ []), _)
    rw [List.append_nil]
  | fails ha =>
    rw [gather, run_bind_of_error ha]
    rfl
  | goes ha _ ih =>
    rw [gather, run_bind_of_ok ha, ih, List.reverseAux_eq]
    simp

/-- **What is made of survivors** is made of one after the other, and put in a narrow shape. -/
theorem run_tryFlatMap_iff {s : Survivors α} {before after : σ} {r : Except ε (Survivors β)} :
    (s.tryFlatMap f).run.run before = (r, after) ↔
      ∃ joined, OneByOne f s.toList before joined after ∧ r = ofList <$> joined := by
  have hrun : ∀ {joined after}, OneByOne f s.toList before joined after →
      (s.tryFlatMap f).run.run before = (ofList <$> joined, after) := by
    intro joined after h
    rw [tryFlatMap, flatMapList, ExceptT.run_map, StateT.run_map, h.run_gather]
    cases joined <;> rfl
  constructor
  · intro h
    obtain ⟨joined, after', hjoined⟩ := exists_oneByOne f s.toList before
    obtain ⟨rfl, rfl⟩ := Prod.mk.inj (h.symm.trans (hrun hjoined))
    exact ⟨joined, hjoined, rfl⟩
  · rintro ⟨joined, hjoined, rfl⟩
    exact hrun hjoined

theorem isNarrow_of_run_tryFlatMap {s : Survivors α} {before after : σ} {found : Survivors β}
    (h : (s.tryFlatMap f).run.run before = (.ok found, after)) : found.IsNarrow := by
  obtain ⟨joined, _, heq⟩ := run_tryFlatMap_iff.mp h
  cases joined with
  | error cause => cases heq
  | ok bs =>
    cases heq
    exact isNarrow_ofList bs

end OneByOne

/-! ## Gathering and adding -/

/-- **Survivors gathered are survivors added**, those of each to those of all before it. -/
theorem flatMapList_eq_foldlM {m : Type → Type} [Monad m] [LawfulMonad m] (f : α → m (Survivors β)) (as : List α) :
    flatMapList f as = as.foldlM (fun found a => found.append <$> f a) none := by
  have hgather : ∀ gathered : List β, ofList <$> gather f as gathered =
      as.foldlM (fun found a => found.append <$> f a) (ofList gathered.reverse) := by
    induction as with
    | nil =>
      intro gathered
      rw [gather, map_pure, List.foldlM_nil]
    | cons a as ih =>
      intro gathered
      rw [gather, List.foldlM_cons, map_bind, bind_map_left]
      refine bind_congr fun found => ?_
      rw [ih, List.reverseAux_eq, List.reverse_append, List.reverse_reverse, ofList_append]
  exact hgather []

end GridPattern.Survivors
