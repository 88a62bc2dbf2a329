import GridPattern.Proofs.Walk.Frame

/-!
# Cursors as walkers

The rules of a walk, where it is cursors that walk, in the words that the meaning of a pattern is said in:
the cursors that a direction makes of one, those that a call hands back, and what is kept of a look.

**The law** (`turn_eq`, `call_eq`, `look_eq`). Each rule does to the survivors of the walks
inside what the meaning does to their verdicts.
-/

namespace GridPattern.Walk

open Survivors (ofList toList_ofList isEmpty_toList)

namespace Walker

section Advance

variable {grid : Grid} {params : Params}

theorem stepOn?_of_advance (h : params.advance = true) : stepOn? grid params = (·.step? grid false) :=
  funext fun _ => if_pos h

theorem stepOn?_of_not_advance (h : params.advance = false) : stepOn? grid params = some :=
  funext fun _ => if_neg (Bool.eq_false_iff.mp h)

theorem advances_stepOn {c t : Cursor} (h : stepOn? grid params c = some t) : c.Advances t := by
  unfold stepOn? at h
  split at h
  · exact Cursor.advances_step h
  · cases h
    exact .refl c

/-- Back from a call the switches are the caller's. -/
theorem switches_of_back {caller c t : Cursor}
    (h : (returned? params caller c).bind (stepOn? grid params) = some t) :
    t.switches = caller.switches := by
  obtain ⟨u, hreturn, hlast⟩ := Option.bind_eq_some_iff.mp h
  rw [(advances_stepOn hlast).switches, eq_of_returned hreturn]
  rfl

end Advance

/-! ## Moves of cursors -/

theorem spell_cursor (grid : Grid) (text : List Char) (c : Cursor) :
    (cursor grid).spell? text c = c.spell? grid text := by
  induction text generalizing c with
  | nil => rfl
  | cons target text ih =>
    rw [spell?, Cursor.spell?]
    exact congrArg (Option.bind _) (funext ih)

theorem lookFrom_cursor (grid : Grid) (kind : Look) (c : Cursor) :
    (cursor grid).lookFrom kind c = Walk.lookFrom kind c := by
  cases kind <;> rfl

/-- To come back and go on one by one is to hand back what comes back. -/
theorem filterMap_back (grid : Grid) (params : Params) (caller : Cursor) (ended : List Cursor) :
    ended.filterMap ((cursor grid).back? params caller) = handBack grid params caller ended := by
  have hback : (cursor grid).back? params caller =
      fun t => (returned? params caller t).bind (stepOn? grid params) := rfl
  rw [hback, handBack]
  cases hadvance : params.advance with
  | false =>
    simp only [stepOn?_of_not_advance hadvance, Option.bind_fun_some]
    rfl
  | true =>
    rw [stepOn?_of_advance hadvance, if_pos rfl, List.filterMap_filterMap]

end Walker

/-! ## Rules -/

section Rules

variable (s : Setting)

/-- A direction either has headings for all that go on, or is a fault. -/
theorem turn_eq (way : Direction) (c : Cursor) :
    turn s way c =
      match headings? s.grid way c with
      | .none => Counted.fail (.unknownTurns way.turns)
      | .some headed => pure (.ofList headed) := by
  have hheadings : (Walker.cursor s.grid).headings? way c = headings? s.grid way c := rfl
  rw [turn, Walker.turn, hheadings]
  cases headings? s.grid way c <;> rfl

variable {F : Follow}

theorem call_of_undeclared {target : Call} (hd : s.program.declaration? target.name = none) (c : Cursor) :
    call s F target c = Counted.fail (.undeclared target.name) := by
  rw [call, Walker.call, hd]
  rfl

theorem call_eq {target : Call} {declared : Declaration} (hd : s.program.declaration? target.name = some declared)
    (c : Cursor) :
    call s F target c = (do
      let params := target.params.merged declared.params
      let headed ← turn s target.direction (callee params c)
      let ended ← headed.tryFlatMap (F declared.body)
      pure (ofList (handBack s.grid params c ended.toList))) := by
  rw [call, Walker.call, hd]
  simp only [Survivors.filterMap, Walker.filterMap_back]
  rfl

/-- What a call hands back is what comes back, and steps on if the call advances. -/
theorem ofList_handBack (grid : Grid) (params : Params) (c : Cursor) (ended : Survivors Cursor) :
    ofList (handBack grid params c ended.toList) =
      let returned := ended.filterMap (returned? params c)
      if params.advance then returned.filterMap (·.step? grid false) else returned := by
  unfold handBack
  dsimp only
  split
  · rw [Survivors.filterMap, Survivors.toList_filterMap]
  · rfl

/-- A look is what is found, looked back on. -/
theorem look_eq (kind : Look) (f : Cursor → Counted (Survivors Cursor)) (c : Cursor) :
    look s kind f c = f (lookFrom kind c) >>= fun found => pure (ofList (lookBack kind c found.toList)) := by
  rw [look, Walker.look, Walker.lookFrom_cursor]
  refine bind_congr fun found => ?_
  cases kind with
  | absent =>
    dsimp only
    rw [lookBack, isEmpty_toList]
    split <;> rfl
  | unmarked | retraced =>
    rw [lookBack, ← List.filterMap_eq_map']
    rfl

theorem enter_literal (rounds : Nat) (text : List Char) (c : Cursor) :
    enter s F rounds (.literal text) c = pure (.ofOption (c.spell? s.grid text)) := by
  rw [← Walker.spell_cursor]
  rfl

end Rules

end GridPattern.Walk
