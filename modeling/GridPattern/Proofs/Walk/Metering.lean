import GridPattern.Proofs.Metered
import GridPattern.Proofs.Walk.Soundness

/-!
# Walks are metered

What a walk comes to, and after how many steps, is the same under every budget that allows the steps and
at every depth that is enough. Each rule by which a walk goes on keeps this, whatever it is that follows
the patterns inside; the rules are gone through once, here.

**The law** (`metered_follow`), by induction on the depth. Entering a pattern takes a step, and so does
every round of a repetition, since a round begins only with a cursor; a walk that comes to the end of its
depth has therefore taken as many steps as it was deep.
-/

namespace GridPattern.Walk

open Counted Survivors

/-! ## The rules of a walk are metered -/

section Rules

variable {α β : Type} {depth least : Nat}

theorem metered_flatMapList {f f' : Option Nat → α → Counted (Survivors β)}
    (h : ∀ a, Metered depth least (fun budget => f budget a) (fun budget => f' budget a))
    (as : List α) :
    Metered depth 0 (fun budget => flatMapList (f budget) as)
      (fun budget => flatMapList (f' budget) as) := by
  simp only [flatMapList_eq]
  exact (Metered.mapM h as).map _

theorem metered_flatMapList_of_ne_nil {f f' : Option Nat → α → Counted (Survivors β)}
    (h : ∀ a, Metered depth least (fun budget => f budget a) (fun budget => f' budget a))
    {as : List α} (hne : as ≠ []) :
    Metered depth least (fun budget => flatMapList (f budget) as)
      (fun budget => flatMapList (f' budget) as) := by
  obtain ⟨a, as, rfl⟩ := List.exists_cons_of_ne_nil hne
  simp only [flatMapList_eq]
  exact ((h a).cons (Metered.mapM h as)).map _

variable {F F' : Option Nat → Follow}

theorem metered_sequence
    (hF : ∀ node c, Metered depth 1 (fun budget => F budget node c) (fun budget => F' budget node c))
    (parts : List Node) (cursors : Survivors Cursor) :
    Metered depth 0 (fun budget => sequence (F budget) parts cursors)
      (fun budget => sequence (F' budget) parts cursors) := by
  induction parts generalizing cursors with
  | nil => exact .pure depth cursors
  | cons part parts ih =>
    refine (metered_flatMapList (hF part) cursors.toList).andThen fun between => ?_
    by_cases he : between.isEmpty = true
    · simp only [if_pos he]
      exact .pure depth Survivors.none
    · simp only [if_neg he]
      exact ih between

/-- Rounds are a depth of their own: each of them takes a step. -/
theorem metered_repetitions {f f' : Option Nat → Cursor → Counted (Survivors Cursor)}
    (hf : ∀ c, Metered depth 1 (fun budget => f budget c) (fun budget => f' budget c))
    (least : Nat) (most : Option Nat) {rounds rounds' : Nat} (hrounds : rounds ≤ rounds')
    (hdepth : rounds ≤ depth) (count : Nat) {current : Survivors Cursor} (hne : current.toList ≠ [])
    (gathered : List Cursor) :
    Metered rounds 0 (fun budget => repetitions (f budget) least most rounds count current gathered)
      (fun budget => repetitions (f' budget) least most rounds' count current gathered) := by
  induction rounds generalizing rounds' count current gathered with
  | zero =>
    unfold repetitions
    by_cases hfull : most.any (· ≤ count) = true
    · simp only [if_pos hfull]
      exact .pure 0 gathered.reverse
    · simp only [if_neg hfull]
      exact .unfinished 0 _
  | succ rounds ih =>
    obtain ⟨later, rfl⟩ : ∃ later, rounds' = later + 1 := ⟨rounds' - 1, by omega⟩
    unfold repetitions
    by_cases hfull : most.any (· ≤ count) = true
    · simp only [if_pos hfull]
      exact .pure _ gathered.reverse
    · simp only [if_neg hfull]
      have hround : Metered (rounds + 1) 1
          (fun budget => flatMapList (f budget) current.toList >>= fun next =>
            if next.isEmpty then pure gathered.reverse
            else repetitions (f budget) least most rounds (count + 1) next
              (if least ≤ count + 1 then next.toList.reverseAux gathered else gathered))
          (fun budget => flatMapList (f' budget) current.toList >>= fun next =>
            if next.isEmpty then pure gathered.reverse
            else repetitions (f' budget) least most later (count + 1) next
              (if least ≤ count + 1 then next.toList.reverseAux gathered else gathered)) := by
        refine (metered_flatMapList_of_ne_nil hf hne).afterStep (fun next => ?_) hdepth
        by_cases he : next.isEmpty = true
        · simp only [if_pos he]
          exact .pure rounds gathered.reverse
        · simp only [if_neg he]
          refine ih (by omega) (by omega) (count + 1) ?_ _
          rwa [← isEmpty_toList, List.isEmpty_iff] at he
      exact hround.weaken (Nat.le_refl _) (Nat.zero_le _)

theorem metered_turn (program : Program) (grid : Grid) (depth : Nat) (way : Direction) (c : Cursor) :
    Metered depth 0 (fun budget => turn ⟨program, grid, budget⟩ way c)
      (fun budget => turn ⟨program, grid, budget⟩ way c) := by
  simp only [turn_eq]
  cases headings? grid way c with
  | none => exact .fail depth nofun
  | some headed => exact .pure depth (ofList headed)

theorem metered_call (program : Program) (grid : Grid)
    (hF : ∀ node c, Metered depth 1 (fun budget => F budget node c) (fun budget => F' budget node c))
    (target : Call) (c : Cursor) :
    Metered depth 0 (fun budget => call ⟨program, grid, budget⟩ (F budget) target c)
      (fun budget => call ⟨program, grid, budget⟩ (F' budget) target c) := by
  unfold call Walker.call
  dsimp only
  cases program.declaration? target.name with
  | none => exact .fail depth nofun
  | some declared =>
    refine (metered_turn program grid depth target.direction _).andThen fun headed => ?_
    exact (metered_flatMapList (hF declared.body) headed.toList).andThen fun _ => .pure depth _

theorem metered_look (program : Program) (grid : Grid) {f f' : Option Nat → Cursor → Counted (Survivors Cursor)}
    (hf : ∀ c, Metered depth 1 (fun budget => f budget c) (fun budget => f' budget c))
    (kind : Look) (c : Cursor) :
    Metered depth 0 (fun budget => look ⟨program, grid, budget⟩ kind (f budget) c)
      (fun budget => look ⟨program, grid, budget⟩ kind (f' budget) c) := by
  simp only [look_eq]
  exact ((hf _).andThen fun _ => .pure depth _).weaken (Nat.le_refl _) (Nat.zero_le _)

/-- One level of a walk is metered, if the walks inside are. -/
theorem metered_enter (program : Program) (grid : Grid)
    (hF : ∀ node c, Metered depth 1 (fun budget => F budget node c) (fun budget => F' budget node c))
    {rounds : Nat} (hrounds : depth ≤ rounds) (node : Node) (c : Cursor) :
    Metered depth 0 (fun budget => enter ⟨program, grid, budget⟩ (F budget) depth node c)
      (fun budget => enter ⟨program, grid, budget⟩ (F' budget) rounds node c) := by
  cases node with
  | literal text => exact .pure depth (ofOption ((Walker.cursor grid).spell? text c))
  | oneOf chars negated =>
    exact .pure depth (ofOption (c.stepIf? grid
      ((c.char? grid).any (Cursor.classMatches c.switches.insensitive chars negated))))
  | inside => exact .pure depth (ofOption (c.stepIf? grid (c.char? grid).isSome))
  | outside => exact .pure depth (ofOption (c.stepIf? grid (c.char? grid).isNone))
  | sequence parts => exact metered_sequence hF parts (.one c)
  | choice options => exact metered_flatMapList (hF · c) options
  | repeated inner count =>
    have hne : (Survivors.one c).toList ≠ [] := List.cons_ne_nil c []
    exact (metered_repetitions (hF inner) count.least count.most? hrounds (Nat.le_refl _) 0 hne _).map _
  | call target => exact metered_call program grid hF target c
  | direction way => exact metered_turn program grid depth way c
  | look kind inner => exact metered_look program grid (hF inner) kind c

end Rules

theorem metered_follow (program : Program) (grid : Grid) {depth deeper : Nat} (h : depth ≤ deeper)
    (node : Node) (c : Cursor) :
    Metered depth 1 (fun budget => follow ⟨program, grid, budget⟩ depth node c)
      (fun budget => follow ⟨program, grid, budget⟩ deeper node c) := by
  induction depth generalizing deeper node c with
  | zero => exact .unfinished 1 _
  | succ depth ih =>
    obtain ⟨deep, rfl⟩ : ∃ deep, deeper = deep + 1 := ⟨deeper - 1, by omega⟩
    simp only [follow_succ]
    refine (Metered.tick (depth + 1)).afterStep (fun _ => ?_) (Nat.lt_succ_self depth)
    by_cases hs : c.heading.isStalled = true
    · simp only [if_pos hs]
      exact .fail depth nofun
    · simp only [if_neg hs]
      exact metered_enter program grid (ih (by omega)) (by omega) node c

/-- Cursors that follow a pattern one after the other take a step each, if there are any. -/
theorem metered_followAll (program : Program) (grid : Grid) {depth deeper : Nat} (h : depth ≤ deeper)
    (node : Node) (cursors : Survivors Cursor) :
    Metered depth 0 (fun budget => followAll ⟨program, grid, budget⟩ depth node cursors)
      (fun budget => followAll ⟨program, grid, budget⟩ deeper node cursors) :=
  metered_flatMapList (metered_follow program grid h node) cursors.toList

theorem metered_followAll_of_ne_nil (program : Program) (grid : Grid) {depth deeper : Nat}
    (h : depth ≤ deeper) (node : Node) {cursors : Survivors Cursor} (hne : cursors.toList ≠ []) :
    Metered depth 1 (fun budget => followAll ⟨program, grid, budget⟩ depth node cursors)
      (fun budget => followAll ⟨program, grid, budget⟩ deeper node cursors) :=
  metered_flatMapList_of_ne_nil (metered_follow program grid h node) hne

/-- What a whole program does once its count is reset. -/
def enterProgram (s : Setting) (depth : Nat) (c : Cursor) : Counted (Survivors Cursor) :=
  match s.program.entry? with
  | .none => fail .noDeclarations
  | some entry => call s (follow s depth) ⟨entry.name, .forward, {}⟩ c

theorem runFrom_run (s : Setting) (depth count : Nat) (c : Cursor) :
    (run s depth c).runFrom count = (enterProgram s depth c).runFrom 0 := by
  rw [run_eq, runFrom_bind, runFrom_restart]
  rfl

theorem metered_enterProgram (program : Program) (grid : Grid) {depth deeper : Nat} (h : depth ≤ deeper)
    (c : Cursor) :
    Metered depth 0 (fun budget => enterProgram ⟨program, grid, budget⟩ depth c)
      (fun budget => enterProgram ⟨program, grid, budget⟩ deeper c) := by
  unfold enterProgram
  dsimp only
  cases program.entry? with
  | none => exact .fail depth nofun
  | some entry => exact metered_call program grid (metered_follow program grid h) _ c

end GridPattern.Walk
