import GridPattern.Proofs.Walk.Frame
import Mathlib.Algebra.BigOperators.Group.List.Basic
import Mathlib.Logic.Function.Iterate
import Mathlib.Tactic.Ring

/-!
# The compass

Letters add up to a bend, in whatever order they stand. Of the old heading only the octant tells where a bend
leads, so all octants are one formula over signs. The eight headings of single steps lie an eighth of a turn from
each other, and a bend of single steps goes from one of them to another.

**The law** (`turning_is_rotation`). Where such a bend leads is so many eighths of a turn to the left
(`turn_eq_eighthLeft`), whichever the heading. Bends one after the other therefore turn by the eighths that they
have in all, in any order.

**What it does not establish.** Any such law for longer steps. A bend of single steps cuts a long heading to single
steps, and a longer bend leads past the compass.
-/

namespace GridPattern

/-! ## Letters -/

namespace Bend

/-- **Letters add up**: each counts for one, against its opposite. -/
theorem exists_mapM_ofLetter_sum {letters : List Char} (h : ∀ letter ∈ letters, letter ∈ ['R', 'L', 'F', 'B'])
    (start : Bend) : ∃ bends, letters.mapM ofLetter? = some bends ∧ bends.foldl add start =
      ⟨start.left + (letters.count 'L' - letters.count 'R'),
        start.ahead + (letters.count 'F' - letters.count 'B')⟩ := by
  induction letters generalizing start with
  | nil => exact ⟨[], rfl, by simp⟩
  | cons letter letters ih =>
    obtain ⟨hhead, htail⟩ := List.forall_mem_cons.mp h
    obtain ⟨bend, hbend, hadd⟩ : ∃ bend, ofLetter? letter = some bend ∧ start.add bend =
        ⟨start.left + ([letter].count 'L' - [letter].count 'R'),
          start.ahead + ([letter].count 'F' - [letter].count 'B')⟩ := by
      simp only [List.mem_cons, List.not_mem_nil, or_false] at hhead
      rcases hhead with rfl | rfl | rfl | rfl <;> exact ⟨_, rfl, rfl⟩
    obtain ⟨bends, hbends, hsum⟩ := ih htail (start.add bend)
    refine ⟨bend :: bends, by rw [List.mapM_cons, hbend, hbends]; rfl, ?_⟩
    have hcount : ∀ c, (letter :: letters).count c = [letter].count c + letters.count c := by
      intro c
      rw [← List.count_append, List.singleton_append]
    rw [List.foldl_cons, hsum, hadd]
    simp only [hcount, Nat.cast_add, mk.injEq]
    constructor <;> ring

end Bend

/-- Letters for single bends are one bend, whatever their order. -/
theorem Turn.ofLetters?_of_letters {letters : List Char}
    (h : ∀ letter ∈ letters, letter ∈ ['R', 'L', 'F', 'B']) : ofLetters? letters =
      some (.relative ⟨letters.count 'L' - letters.count 'R', letters.count 'F' - letters.count 'B'⟩) := by
  unfold ofLetters?
  split
  case h_7 =>
    obtain ⟨bends, hbends, hsum⟩ := Bend.exists_mapM_ofLetter_sum h .zero
    rw [hbends, Option.map_some, hsum]
    simp [Bend.zero]
  -- the six letters that stand alone are none of the four
  all_goals simp at h

/-! ## Octants -/

namespace Heading

theorem compare_and_sign (d : Int) :
    (compare d 0 = .lt ∧ d.sign = -1) ∨ (compare d 0 = .eq ∧ d.sign = 0) ∨
      (compare d 0 = .gt ∧ d.sign = 1) := by
  rcases lt_trichotomy d 0 with h | rfl | h
  · exact .inl ⟨compare_lt_iff_lt.mpr h, Int.sign_eq_neg_one_of_neg h⟩
  · exact .inr (.inl ⟨rfl, rfl⟩)
  · exact .inr (.inr ⟨compare_gt_iff_gt.mpr h, Int.sign_eq_one_of_pos h⟩)

/-- **A bend in one formula**: only the signs of the old heading count. -/
theorem bent_eq {h : Heading} (hgoing : h.isStalled = false) (left ahead : Int) :
    h.bent left ahead =
      ⟨ahead * h.dx.sign + left * h.dy.sign, ahead * h.dy.sign - left * h.dx.sign⟩ := by
  obtain ⟨hx, sx⟩ | ⟨hx, sx⟩ | ⟨hx, sx⟩ := compare_and_sign h.dx <;>
    obtain ⟨hy, sy⟩ | ⟨hy, sy⟩ | ⟨hy, sy⟩ := compare_and_sign h.dy
  case inr.inl.inr.inl =>
    -- the octant of no heading at all, which nobody has who goes somewhere
    rw [Int.sign_eq_zero_iff_zero] at sx sy
    rw [isStalled, sx, sy] at hgoing
    cases hgoing
  all_goals
    simp only [bent, hx, hy, sx, sy, mk.injEq]
    omega

theorem unit_eq_self_iff {h : Heading} : h.unit = h ↔ h.dx.natAbs ≤ 1 ∧ h.dy.natAbs ≤ 1 := by
  have hsign : ∀ d : Int, d.sign = d ↔ d.natAbs ≤ 1 := by
    intro d
    obtain hd | rfl | hd := lt_trichotomy d 0
    · rw [Int.sign_eq_neg_one_of_neg hd]
      omega
    · decide
    · rw [Int.sign_eq_one_of_pos hd]
      omega
  rw [← hsign, ← hsign]
  obtain ⟨dx, dy⟩ := h
  exact Iff.of_eq (mk.injEq ..)

/-- **Straight on keeps the octant** and nothing more. -/
theorem turn_ahead_eq {h : Heading} (hgoing : h.isStalled = false) : h.turn ⟨0, 1⟩ = h.unit := by
  have hbent : h.bent 0 1 = h.unit := by
    rw [bent_eq hgoing]
    simp [unit]
  have hunit : h.unit.unit = h.unit := by
    unfold unit
    rw [Int.sign_sign, Int.sign_sign]
  rw [← hbent] at hunit
  exact hunit.trans hbent

/-- Straight on is no change of a heading of single steps. -/
theorem turn_ahead {h : Heading} (hsingle : h.IsSingle) : h.turn ⟨0, 1⟩ = h :=
  (turn_ahead_eq hsingle.1).trans (unit_eq_self_iff.mpr hsingle.2)

end Heading

/-! ## Eighths of a turn -/

namespace Bend

/-- **A bend of single steps**, or of none. -/
def IsSingle (b : Bend) : Prop := b.left.natAbs ≤ 1 ∧ b.ahead.natAbs ≤ 1

instance (b : Bend) : Decidable b.IsSingle := inferInstanceAs (Decidable (_ ∧ _))

/-- The eighths of a turn to the left that a bend of single steps makes. -/
def eighths (b : Bend) : Nat :=
  match compare b.left 0, compare b.ahead 0 with
  | .eq, .lt => 4
  | .eq, _ => 0
  | .gt, .gt => 1
  | .gt, .eq => 2
  | .gt, .lt => 3
  | .lt, .lt => 5
  | .lt, .eq => 6
  | .lt, .gt => 7

/-- The bends of single steps, and the one of none. -/
theorem mem_allEight_of_isSingle {b : Bend} (h : b.IsSingle) : b ∈ zero :: allEight := by
  obtain ⟨left, ahead⟩ := b
  obtain ⟨hleft, hahead⟩ := h
  dsimp only at hleft hahead
  obtain rfl | rfl | rfl : left = -1 ∨ left = 0 ∨ left = 1 := by omega
  all_goals obtain rfl | rfl | rfl : ahead = -1 ∨ ahead = 0 ∨ ahead = 1 := by omega
  all_goals decide

end Bend

namespace Heading

/-- The eight headings, in the order in which a cursor turns to them from east. -/
def eight : List Heading := Bend.allEight.map Heading.east.turn

theorem mem_eight {h : Heading} : h ∈ eight ↔ h.IsSingle := by
  obtain ⟨dx, dy⟩ := h
  have hlist : eight = [⟨-1, 1⟩, ⟨0, 1⟩, ⟨1, 1⟩, ⟨-1, 0⟩, ⟨1, 0⟩, ⟨-1, -1⟩, ⟨0, -1⟩, ⟨1, -1⟩] := by decide
  rw [hlist, IsSingle, isStalled_eq_false_iff]
  simp only [List.mem_cons, List.not_mem_nil, or_false, mk.injEq]
  omega

theorem isSingle_east : east.IsSingle := mem_eight.mp (by decide)

/-- **An eighth of a turn to the left**: halfway between the heading and a quarter turn to the left of it. -/
def eighthLeft (h : Heading) : Heading := unit ⟨h.dx + h.dy, h.dy - h.dx⟩

/-- **A bend of single steps is a rotation** of the compass. -/
theorem turn_eq_eighthLeft {h : Heading} {b : Bend} (hh : h.IsSingle) (hb : b.IsSingle) :
    h.turn b = eighthLeft^[b.eighths] h := by
  have hall : ∀ h ∈ eight, ∀ b ∈ Bend.zero :: Bend.allEight, h.turn b = eighthLeft^[b.eighths] h := by decide
  exact hall h (mem_eight.mpr hh) b (Bend.mem_allEight_of_isSingle hb)

theorem isSingle_iterate_eighthLeft {h : Heading} (hh : h.IsSingle) (n : Nat) : (eighthLeft^[n] h).IsSingle := by
  have hall : ∀ h ∈ eight, eighthLeft h ∈ eight := by decide
  induction n with
  | zero => exact hh
  | succ n ih =>
    rw [Function.iterate_succ_apply']
    exact mem_eight.mp (hall _ (mem_eight.mpr ih))

/-- Bends of single steps stay on the compass. -/
theorem isSingle_turn {h : Heading} {b : Bend} (hh : h.IsSingle) (hb : b.IsSingle) : (h.turn b).IsSingle :=
  turn_eq_eighthLeft hh hb ▸ isSingle_iterate_eighthLeft hh b.eighths

/-- **Bends one after the other** turn by the eighths that they have in all. -/
theorem foldl_turn_eq {h : Heading} {bends : List Bend} (hh : h.IsSingle) (hbends : ∀ b ∈ bends, b.IsSingle) :
    bends.foldl turn h = eighthLeft^[(bends.map Bend.eighths).sum] h := by
  induction bends generalizing h with
  | nil => rfl
  | cons b bends ih =>
    obtain ⟨hb, hrest⟩ := List.forall_mem_cons.mp hbends
    rw [List.foldl_cons, ih (isSingle_turn hh hb) hrest, turn_eq_eighthLeft hh hb, ← Function.iterate_add_apply,
      List.map_cons, List.sum_cons, Nat.add_comm]

/-- **Turning is rotation.** Letters are one bend, whatever their order. A bend leads from any heading, however
long, to one formula over the signs of it, cut to single steps if the bend is of single steps; and never to a halt.
So bends of single steps turn a heading of single steps by the eighths of a turn that they make in all, and in
another order to the same heading. -/
theorem turning_is_rotation :
    (∀ letters : List Char, (∀ letter ∈ letters, letter ∈ ['R', 'L', 'F', 'B']) →
      Turn.ofLetters? letters =
        some (.relative ⟨letters.count 'L' - letters.count 'R', letters.count 'F' - letters.count 'B'⟩)) ∧
    (∀ (h : Heading) (b : Bend), h.isStalled = false →
      h.turn b =
          (if b = .zero then h
          else
            let bent : Heading :=
              ⟨b.ahead * h.dx.sign + b.left * h.dy.sign, b.ahead * h.dy.sign - b.left * h.dx.sign⟩
            if b.IsSingle then bent.unit else bent) ∧
        (h.turn b).isStalled = false) ∧
    ∀ (h : Heading) (bends : List Bend), h.IsSingle → (∀ b ∈ bends, b.IsSingle) →
      bends.foldl turn h = eighthLeft^[(bends.map Bend.eighths).sum] h ∧
        (bends.foldl turn h).IsSingle ∧
        ∀ others : List Bend, others.Perm bends → others.foldl turn h = bends.foldl turn h := by
  refine ⟨fun letters => Turn.ofLetters?_of_letters, fun h b hgoing => ⟨?_, isStalled_turn hgoing b⟩, ?_⟩
  · have hzero : b = .zero ↔ b.left = 0 ∧ b.ahead = 0 := by
      obtain ⟨left, ahead⟩ := b
      exact Iff.of_eq (Bend.mk.injEq ..)
    rw [turn, bent_eq hgoing]
    exact if_congr hzero.symm rfl rfl
  · intro h bends hh hbends
    have hturned := foldl_turn_eq hh hbends
    refine ⟨hturned, hturned ▸ isSingle_iterate_eighthLeft hh _, fun others perm => ?_⟩
    have hothers : ∀ b ∈ others, b.IsSingle := fun b mem => hbends b (perm.mem_iff.mp mem)
    rw [foldl_turn_eq hh hothers, hturned, (perm.map Bend.eighths).sum_eq]

/-- A knight's move off a long heading, and three bends in either order, once round and three eighths more. -/
theorem turning_is_rotation_knight :
    Turn.ofLetters? ['R', 'F', 'R'] = some (.relative ⟨-2, 1⟩) ∧
      turn ⟨3, -5⟩ ⟨-2, 1⟩ = ⟨3, 1⟩ ∧ (turn ⟨3, -5⟩ ⟨-2, 1⟩).isStalled = false ∧
      [⟨1, 1⟩, ⟨-1, 0⟩, ⟨0, -1⟩].foldl turn ⟨1, -1⟩ = eighthLeft^[11] ⟨1, -1⟩ ∧ eighthLeft^[11] ⟨1, -1⟩ = ⟨-1, 0⟩ ∧
      [⟨0, -1⟩, ⟨-1, 0⟩, ⟨1, 1⟩].foldl turn ⟨1, -1⟩ = [⟨1, 1⟩, ⟨-1, 0⟩, ⟨0, -1⟩].foldl turn ⟨1, -1⟩ := by
  obtain ⟨hletters, hturn, hbends⟩ := turning_is_rotation
  obtain ⟨hknight, hgoing⟩ := hturn ⟨3, -5⟩ ⟨-2, 1⟩ (by decide)
  obtain ⟨hround, _, horder⟩ := hbends ⟨1, -1⟩ [⟨1, 1⟩, ⟨-1, 0⟩, ⟨0, -1⟩] ⟨by decide, by decide⟩ (by decide)
  have hreversed := List.reverse_perm ([⟨1, 1⟩, ⟨-1, 0⟩, ⟨0, -1⟩] : List Bend)
  exact ⟨hletters ['R', 'F', 'R'] (by simp), hknight, hgoing, hround, by decide, horder _ hreversed⟩

/-- All the way round to the left, from east. -/
example : (List.range 9).map (fun n => eighthLeft^[n] east) =
    [⟨1, 0⟩, ⟨1, -1⟩, ⟨0, -1⟩, ⟨-1, -1⟩, ⟨-1, 0⟩, ⟨-1, 1⟩, ⟨0, 1⟩, ⟨1, 1⟩, ⟨1, 0⟩] := by decide

end Heading

end GridPattern
