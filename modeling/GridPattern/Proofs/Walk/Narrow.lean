import GridPattern.Proofs.Outcome
import GridPattern.Proofs.Survivors
import GridPattern.Walk

/-!
# Shapes of survivors in walks

Walks ask survivors for their list and for whether there are any, and put survivors together in two ways. Some rules
name the shape themselves, none or one; the others gather lists and leave the shape to these.

**The law** (`narrow_follow`). Either way the survivors are narrow, by each rule, whatever is made of the patterns
inside it. A repetition gathers what adding the survivors of each round would come to (`repeated_eq_extended`); for
alternatives that is so of every list (`Survivors.flatMapList_eq_foldlM`).
-/

namespace GridPattern

namespace Walk

open Counted (Yields)
open Survivors

/-! ## Rules yield narrow survivors -/

theorem narrow_flatMapList {α : Type} (f : α → Counted (Survivors Cursor)) (as : List α) :
    Yields IsNarrow (flatMapList f as) :=
  .map isNarrow_ofList

theorem narrow_turn (s : Setting) (way : Direction) (c : Cursor) : Yields IsNarrow (turn s way c) := by
  unfold turn Walker.turn
  cases (Walker.cursor s.grid).headings? way c with
  | none => exact .fail _
  | some headed => exact .pure (isNarrow_ofList headed)

/-- Patterns one after the other leave the shape as it is only if there are none. -/
theorem narrow_sequence (F : Follow) (nodes : List Node) {cursors : Survivors Cursor} (h : cursors.IsNarrow) :
    Yields IsNarrow (sequence F nodes cursors) := by
  induction nodes generalizing cursors with
  | nil => exact .pure h
  | cons node nodes ih =>
    refine (narrow_flatMapList (F node) cursors.toList).bind fun next hnext => ?_
    split
    · exact .pure trivial
    · exact ih hnext

theorem narrow_repeated (f : Cursor → Counted (Survivors Cursor)) (rounds : Nat) (count : Repeat) (c : Cursor) :
    Yields IsNarrow (repeated f rounds count c) :=
  .map isNarrow_ofList

theorem narrow_call (s : Setting) (F : Follow) (target : Call) (caller : Cursor) :
    Yields IsNarrow (call s F target caller) := by
  unfold call Walker.call
  cases s.program.declaration? target.name with
  | none => exact .fail _
  | some declared => exact .after fun headed => .after fun ended => .pure (isNarrow_filterMap _ _)

theorem narrow_look (s : Setting) (kind : Look) (f : Cursor → Counted (Survivors Cursor)) (c : Cursor) :
    Yields IsNarrow (look s kind f c) := by
  cases kind with
  | absent =>
    refine .after fun found => .pure ?_
    split <;> exact trivial
  | unmarked => exact .after fun found => .pure (isNarrow_filterMap _ _)
  | retraced => exact .after fun found => .pure (isNarrow_filterMap _ _)

theorem narrow_enter (s : Setting) (F : Follow) (rounds : Nat) (node : Node) (c : Cursor) :
    Yields IsNarrow (enter s F rounds node c) := by
  cases node with
  | literal _ | oneOf _ _ | inside | outside => exact .pure (isNarrow_ofOption _)
  | sequence nodes => exact narrow_sequence F nodes trivial
  | choice nodes => exact narrow_flatMapList _ _
  | repeated inner count => exact narrow_repeated _ _ _ _
  | call target => exact narrow_call _ _ _ _
  | direction way => exact narrow_turn _ _ _
  | look kind inner => exact narrow_look _ _ _ _

theorem narrow_follow (s : Setting) (depth : Nat) (node : Node) (c : Cursor) :
    Yields IsNarrow (follow s depth node c) := by
  cases depth with
  | zero => exact .unfinished
  | succ depth =>
    refine .after fun _ => ?_
    split
    · exact .fail _
    · exact narrow_enter _ _ _ _ _

theorem narrow_followAll (s : Setting) (depth : Nat) (node : Node) (cursors : Survivors Cursor) :
    Yields IsNarrow (followAll s depth node cursors) :=
  narrow_flatMapList _ _

theorem narrow_run (s : Setting) (depth : Nat) (c : Cursor) : Yields IsNarrow (run s depth c) := by
  refine .after fun _ => ?_
  cases s.program.entry? with
  | none => exact .fail _
  | some entry => exact narrow_call _ _ _ _

/-! ## Rounds that are added -/

/-- The rounds of a repetition where the survivors of each are added to those of the rounds before. -/
def extended (f : Cursor → Counted (Survivors Cursor)) (least : Nat) (most : Option Nat) :
    (rounds count : Nat) → (current found : Survivors Cursor) → Counted (Survivors Cursor)
  | rounds, count, current, found =>
    if most.any (· ≤ count) then pure found
    else
      match rounds with
      | 0 => Counted.unfinished
      | rounds + 1 => do
        let current ← current.tryFlatMap f
        if current.isEmpty then pure found
        else
          extended f least most rounds (count + 1) current
            (if least ≤ count + 1 then found.append current else found)

theorem map_repetitions (f : Cursor → Counted (Survivors Cursor)) (least : Nat) (most : Option Nat) (rounds count : Nat)
    (current : Survivors Cursor) (gathered : List Cursor) :
    ofList <$> repetitions f least most rounds count current gathered =
      extended f least most rounds count current (ofList gathered.reverse) := by
  induction rounds generalizing count current gathered with
  | zero =>
    unfold repetitions extended
    split <;> rfl
  | succ rounds ih =>
    unfold repetitions extended
    split
    · rfl
    · show ofList <$> (current.tryFlatMap f >>= _) = current.tryFlatMap f >>= _
      rw [map_bind]
      refine bind_congr fun next => ?_
      split
      · rfl
      · rw [ih]
        split
        · rw [List.reverseAux_eq, List.reverse_append, List.reverse_reverse, ofList_append]
        · rfl

/-- **A repetition adds the survivors of each round** to those of the rounds before. -/
theorem repeated_eq_extended (f : Cursor → Counted (Survivors Cursor)) (rounds : Nat) (count : Repeat) (c : Cursor) :
    repeated f rounds count c =
      extended f count.least count.most? rounds 0 (.one c) (if count.least = 0 then .one c else .none) := by
  unfold repeated
  rw [map_repetitions]
  split <;> rfl

/-! ## The law -/

/-- **Survivors are a list in its narrowest shape**, and walks keep it.

Whatever the shapes, adding adds the lists; the number, emptiness and iteration are those of the list; what is kept is
kept in order; and what is made of survivors is made of one after the other, up to the first failure. Only a shape that
is not narrow, and to which nothing is added, is not narrow afterwards. So all survivors of walks are narrow: those of
one cursor, of several in whatever shape, and of a whole program. -/
theorem survivors_in_narrowest_shape :
    (∀ {α : Type} (s t : Survivors α),
      (s.append t).toList = s.toList ++ t.toList ∧ ((s.append t).IsNarrow ↔ s.IsNarrow ∨ t.isEmpty = false)) ∧
    (∀ {α : Type} (s : Survivors α),
      s.length = s.toList.length ∧ s.isEmpty = s.toList.isEmpty ∧ s.iter.toList = s.toList ∧
        (s.IsNarrow ↔ s = ofList s.toList)) ∧
    (∀ {α β : Type} (g : α → Option β) (s : Survivors α),
      (s.filterMap g).toList = s.toList.filterMap g ∧ (s.filterMap g).IsNarrow) ∧
    (∀ {α β ε σ : Type} (g : α → ExceptT ε (StateM σ) (Survivors β)) (s : Survivors α) (before after : σ),
      (∀ r, (s.tryFlatMap g).run.run before = (r, after) ↔
        ∃ joined, OneByOne g s.toList before joined after ∧ r = ofList <$> joined) ∧
      ∀ found, (s.tryFlatMap g).run.run before = (.ok found, after) → found.IsNarrow) ∧
    (∀ {α ι : Type} [Std.Iterator ι Id α] (as : List α) (it : @Std.Iter ι α),
      ((ofList as).toList = as ∧ (ofList as).IsNarrow) ∧ (ofIter it).toList = it.toList ∧ (ofIter it).IsNarrow) ∧
    ∀ (s : Setting) (depth count : Nat) (c : Cursor) (found : Survivors Cursor),
      (∀ node, ((follow s depth node c).runFrom count).1 = .ok found → found.IsNarrow) ∧
      (∀ node cursors, ((followAll s depth node cursors).runFrom count).1 = .ok found → found.IsNarrow) ∧
      (((run s depth c).runFrom count).1 = .ok found → found.IsNarrow) := by
  refine ⟨fun s t => ⟨toList_append s t, isNarrow_append_iff⟩, fun s => ?_, fun g s => ?_, ?_, fun as it => ?_, ?_⟩
  · exact ⟨(length_toList s).symm, (isEmpty_toList s).symm, toList_iter s, isNarrow_iff⟩
  · exact ⟨toList_filterMap g s, isNarrow_filterMap g s⟩
  · exact fun g s before after => ⟨fun r => run_tryFlatMap_iff, fun found => isNarrow_of_run_tryFlatMap⟩
  · exact ⟨⟨toList_ofList as, isNarrow_ofList as⟩, toList_ofIter it, isNarrow_ofList it.toList⟩
  · intro s depth count c found
    refine ⟨fun node => ?_, fun node cursors => ?_, ?_⟩
    · exact (narrow_follow s depth node c).of_runFrom
    · exact (narrow_followAll s depth node cursors).of_runFrom
    · exact (narrow_run s depth c).of_runFrom

/-- Writes down what it is asked, and fails at three. -/
def twiceUpToThree (n : Nat) : ExceptT Unit (StateM (List Nat)) (Survivors Nat) :=
  ExceptT.mk fun asked => (if n = 3 then .error () else .ok (.many [n, n]), n :: asked)

/-- A list of one in the shape of many: it stays so until something is added, fails at three whatever comes after, and
is narrow again after any walk. -/
theorem survivors_in_narrowest_shape_stray :
    let start : Cursor := { cell := ⟨0, 0⟩ }
    let stray : Survivors Cursor := .many [start]
    ¬(stray.append (.many [])).IsNarrow ∧ (stray.append stray).IsNarrow ∧
      (∃ joined, OneByOne twiceUpToThree [1, 3, 5] [] joined [3, 1] ∧ .error () = ofList <$> joined) ∧
      ∃ found : Survivors Cursor,
        ((followAll ⟨⟨[]⟩, .ofText "ab", some 3⟩ 2 (.choice [.inside, .outside]) stray).runFrom 0).1 = .ok found ∧
          found.IsNarrow ∧ found.length = 1 := by
  intro start stray
  obtain ⟨hadd, _, _, hmake, _, hwalk⟩ := survivors_in_narrowest_shape
  have hstays := (hadd stray (.many [])).2
  have hmade := (hmake twiceUpToThree (.many [1, 3, 5]) [] [3, 1]).1 (.error ())
  have hrun : ((followAll ⟨⟨[]⟩, .ofText "ab", some 3⟩ 2 (.choice [.inside, .outside]) stray).runFrom 0).1 =
      .ok (.one { start with cell := ⟨1, 0⟩, age := 1, marks := [⟨0, 0⟩] }) := by decide +kernel
  refine ⟨hstays.not.mpr (by decide), (hadd stray stray).2.mpr (.inr rfl), hmade.mp rfl, _, hrun, ?_, rfl⟩
  exact (hwalk _ _ _ start _).2.1 _ _ hrun

end Walk

end GridPattern
