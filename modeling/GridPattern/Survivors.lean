/-!
# Survivors

The ways in which a pattern can be followed, in order. Most patterns have no survivor or one, so a set
of survivors has a shape of its own for each of these; a shape is narrow if no shape fits better.

**The law.** Each operation does to the list of survivors (`toList`) what its name says, whatever the
shape; and what `ofList` makes is narrow.
-/

namespace GridPattern

/-- A list in one of three shapes. -/
inductive Survivors (α : Type) where
  | none
  | one (a : α)
  | many (as : List α)
deriving DecidableEq, Repr

namespace Survivors

variable {α β : Type}

/-- The survivors in order. -/
def toList : Survivors α → List α
  | none => []
  | one a => [a]
  | many as => as

/-- Survivors in the narrowest shape. -/
def ofList : List α → Survivors α
  | [] => none
  | [a] => one a
  | as => many as

/-- One survivor or none. -/
def ofOption : Option α → Survivors α
  | .none => none
  | .some a => one a

/-- Survivors in the order in which an iterator yields them. -/
def ofIter {ι : Type} [Std.Iterator ι Id α] (it : @Std.Iter ι α) : Survivors α := ofList it.toList

/-- An iterator over the survivors. -/
def iter : Survivors α → @Std.Iter (Std.Iterators.Types.ListIterator α) α
  | none => ([] : List α).iter
  | one a => [a].iter
  | many as => as.iter

/-- Whether nothing survives. -/
def isEmpty : Survivors α → Bool
  | none => true
  | one _ => false
  | many as => as.isEmpty

/-- The number of survivors. -/
def length : Survivors α → Nat
  | none => 0
  | one _ => 1
  | many as => as.length

/-- The shape of the list, neither `many` of one nor `many` of none. -/
def IsNarrow : Survivors α → Prop
  | many as => 2 ≤ as.length
  | _ => True

instance : (s : Survivors α) → Decidable s.IsNarrow
  | none => inferInstanceAs (Decidable True)
  | one _ => inferInstanceAs (Decidable True)
  | many as => inferInstanceAs (Decidable (2 ≤ as.length))

/-- One list after another. Where the second is empty the first keeps its shape. -/
def append (s t : Survivors α) : Survivors α :=
  if t.isEmpty then s else ofList (s.toList ++ t.toList)

/-- What `f` makes of each survivor, without those that it drops. -/
def filterMap (f : α → Option β) (s : Survivors α) : Survivors β := ofList (s.toList.filterMap f)

/-- What `f` makes of each, one after the other, on top of what was gathered before, the latest
first. -/
@[specialize]
def gather {m : Type → Type} [Monad m] (f : α → m (Survivors β)) : List α → List β → m (List β)
  | [], gathered => pure gathered.reverse
  | a :: as, gathered => do
    let s ← f a
    gather f as (s.toList.reverseAux gathered)

/-- What `f` makes of each element of a list, in order; the first failure ends it. -/
def flatMapList {m : Type → Type} [Monad m] (f : α → m (Survivors β)) (as : List α) :
    m (Survivors β) :=
  ofList <$> gather f as []

/-- What `f` makes of each survivor, in order; the first failure ends it. -/
def tryFlatMap {m : Type → Type} [Monad m] (f : α → m (Survivors β)) (s : Survivors α) :
    m (Survivors β) :=
  flatMapList f s.toList

/-! ## The list view -/

@[simp] theorem toList_none : (none : Survivors α).toList = [] := rfl

@[simp] theorem toList_one (a : α) : (one a).toList = [a] := rfl

@[simp] theorem toList_many (as : List α) : (many as).toList = as := rfl

@[simp] theorem toList_ofList (as : List α) : (ofList as).toList = as := by
  unfold ofList; split <;> rfl

@[simp] theorem toList_ofOption (o : Option α) : (ofOption o).toList = o.toList := by
  cases o <;> rfl

@[simp] theorem toList_ofIter {ι : Type} [Std.Iterator ι Id α] (it : @Std.Iter ι α) :
    (ofIter it).toList = it.toList := toList_ofList it.toList

@[simp] theorem toList_iter (s : Survivors α) : s.iter.toList = s.toList := by
  cases s <;> exact List.toList_iter

@[simp] theorem isEmpty_toList (s : Survivors α) : s.toList.isEmpty = s.isEmpty := by
  cases s <;> rfl

@[simp] theorem length_toList (s : Survivors α) : s.toList.length = s.length := by
  cases s <;> rfl

@[simp] theorem toList_append (s t : Survivors α) : (s.append t).toList = s.toList ++ t.toList := by
  unfold append
  split
  · next h => rw [← isEmpty_toList, List.isEmpty_iff] at h; simp [h]
  · simp

@[simp] theorem toList_filterMap (f : α → Option β) (s : Survivors α) :
    (s.filterMap f).toList = s.toList.filterMap f := by simp [filterMap]

/-- What is gathered comes after what was gathered before. -/
theorem gather_eq {m : Type → Type} [Monad m] [LawfulMonad m] (f : α → m (Survivors β))
    (as : List α) (gathered : List β) :
    gather f as gathered =
      (fun found : List (Survivors β) => gathered.reverse ++ found.flatMap toList) <$> as.mapM f := by
  induction as generalizing gathered with
  | nil => simp [gather]
  | cons a as ih => simp [gather, ih, List.reverseAux_eq]

theorem toList_flatMapList {m : Type → Type} [Monad m] [LawfulMonad m] (f : α → m (Survivors β))
    (as : List α) : toList <$> flatMapList f as =
      (fun found : List (Survivors β) => found.flatMap toList) <$> as.mapM f := by
  simp [flatMapList, gather_eq]

theorem toList_tryFlatMap {m : Type → Type} [Monad m] [LawfulMonad m] (f : α → m (Survivors β))
    (s : Survivors α) : toList <$> s.tryFlatMap f =
      (fun found : List (Survivors β) => found.flatMap toList) <$> s.toList.mapM f :=
  toList_flatMapList f s.toList

/-! ## Narrow shapes -/

theorem isNarrow_ofList (as : List α) : (ofList as).IsNarrow := by
  unfold ofList
  split
  · exact trivial
  · exact trivial
  · next h₀ h₁ =>
    match as, h₀, h₁ with
    | [], h₀, _ => exact absurd rfl h₀
    | [a], _, h₁ => exact absurd rfl (h₁ a)
    | _ :: _ :: _, _, _ => exact Nat.le_add_left 2 _

end Survivors

end GridPattern
