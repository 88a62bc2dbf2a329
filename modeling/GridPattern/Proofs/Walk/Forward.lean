import GridPattern.Proofs.Compass
import GridPattern.Proofs.Walk.Simulation
import GridPattern.Proofs.Walk.Unbudgeted
import GridPattern.Search

/-!
# Straight on

A direction straight on is a bend like any other of single steps, and so it leads to a heading of single steps.
From such a heading it is no change. A longer heading, as long bends and turns towards other cells leave it, is cut
to single steps, by the direction itself and by every call straight on.

**The law** (`forward_keeps_single_steps`). What straight on comes to, exactly, for all cursors that go somewhere;
that it is no change of those of single steps, and of no others; and that in a program that asks for single steps
only there are no others.

**What it does not establish.** That straight on keeps every heading. It does not (`forward_cuts_strides`).
-/

namespace GridPattern

namespace Walk

open Walker

variable {c t : Cursor} {grid : Grid}

/-! ## What straight on comes to -/

/-- The cursor after straight on. -/
def onward (c : Cursor) : Cursor := { c with heading := c.heading.unit }

theorem onward_eq_self_iff : onward c = c ↔ c.heading.dx.natAbs ≤ 1 ∧ c.heading.dy.natAbs ≤ 1 := by
  rw [← Heading.unit_eq_self_iff]
  exact ⟨congrArg Cursor.heading, fun h => by rw [onward, h]⟩

theorem turn_forward (s : Setting) (hgoing : c.heading.isStalled = false) :
    turn s .forward c = pure (.one (onward c)) := by
  have hbend : c.bend ⟨0, 1⟩ = onward c := by
    rw [Cursor.bend, Heading.turn_ahead_eq hgoing]
    rfl
  rw [← hbend]
  rfl

/-- Straight on by itself. -/
theorem follow_forward (s : Setting) (depth : Nat) (hgoing : c.heading.isStalled = false) :
    follow s (depth + 1) (.direction .forward) c = (do
      Counted.tick s.budget
      pure (.one (onward c))) := by
  rw [follow_of_going s depth hgoing, ← turn_forward s hgoing]
  rfl

/-- A call straight on follows the pattern called from there, and hands back to where it was called. -/
theorem call_forward (s : Setting) (F : Follow) {target : Call} {declared : Declaration}
    (hd : s.program.declaration? target.name = some declared) (hway : target.direction = .forward)
    (hgoing : c.heading.isStalled = false) :
    call s F target c = (do
      let ended ← (Survivors.one (callee (target.params.merged declared.params) (onward c))).tryFlatMap
        (F declared.body)
      let returned := ended.filterMap (returned? (target.params.merged declared.params) c)
      pure (if (target.params.merged declared.params).advance then
        returned.filterMap (·.step? s.grid false) else returned)) := by
  have hturn : turn s .forward (callee (target.params.merged declared.params) c) =
      pure (.one (callee (target.params.merged declared.params) (onward c))) := turn_forward s hgoing
  rw [call_eq s hd, hway]
  simp only [hturn, pure_bind, ofList_handBack]

/-! ## Programs of single steps -/

/-- The part of the language in which no direction asks for longer bends, or for other cells than those beside. -/
def stepwise : Fragment where
  way d :=
    match Turn.ofLetters? d.turns with
    | some (.relative b) => decide b.IsSingle
    | some .everywhere => false
    | _ => true

theorem isSingle_of_branch {letters : List Char} {bends : List Bend}
    (h : Turn.ofLetters? letters = some (.branch bends)) : ∀ b ∈ bends, b.IsSingle := by
  unfold Turn.ofLetters? at h
  split at h
  case h_1 => cases h
  case h_7 => cases hbends : letters.mapM Bend.ofLetter? <;> rw [hbends] at h <;> cases h
  all_goals
    cases h
    decide

/-- **Who asks for single steps only never comes to longer ones.** -/
theorem stepwise_invariant (grid : Grid) : Invariant stepwise (cursor grid) (·.heading.IsSingle) where
  step {a t} h hstep := by
    rw [(Cursor.advances_step hstep).heading]
    exact h
  headings := by
    intro way c headed hway h hheaded t mem
    obtain ⟨turn, hturn, rfl⟩ := Option.map_eq_some_iff.mp hheaded
    have hstart : (if way.absolute then { c with heading := .east } else c).heading.IsSingle := by
      split
      · exact Heading.isSingle_east
      · exact h
    simp only [stepwise, hturn] at hway
    cases turn with
    | relative b =>
      cases List.mem_singleton.mp mem
      exact Heading.isSingle_turn hstart (of_decide_eq_true hway)
    | branch bends =>
      obtain ⟨b, hb, rfl⟩ := List.mem_map.mp mem
      exact Heading.isSingle_turn hstart (isSingle_of_branch hturn b hb)
    | everywhere => cases hway
  callee _ _ h := h
  going := rfl
  back := by
    intro call declared caller c t _ _ hcaller h hback
    obtain ⟨u, hreturn, hlast⟩ := Option.bind_eq_some_iff.mp hback
    -- who comes back has the caller's heading or its own, and both are of single steps
    have hu : u.heading.IsSingle := by
      rw [eq_of_returned hreturn]
      unfold Cursor.returnTo
      dsimp only
      split
      · exact h
      · exact hcaller
    unfold stepOn? at hlast
    split at hlast
    · rw [(Cursor.advances_step hlast).heading]
      exact hu
    · cases hlast
      exact hu
  lookFrom {kind c} _ h := by cases kind <;> exact h
  lookBack {kind c t} _ _ h := by cases kind <;> exact h

/-- **Straight on keeps headings of single steps**, and only these. Of a cursor that goes somewhere it cuts the
heading to single steps, and leaves all else; a call straight on follows the pattern called from there. In a program
that asks for single steps only, nobody who began with such a heading ever has another. -/
theorem forward_keeps_single_steps (s : Setting) (c : Cursor) (hgoing : c.heading.isStalled = false) :
    (∀ depth, follow s (depth + 1) (.direction .forward) c = (do
      Counted.tick s.budget
      pure (.one (onward c)))) ∧
    (∀ depth (target : Call) declared, s.program.declaration? target.name = some declared →
      target.direction = .forward →
      follow s (depth + 1) (.call target) c = (do
        let params := target.params.merged declared.params
        Counted.tick s.budget
        let ended ← (Survivors.one (callee params (onward c))).tryFlatMap (follow s depth declared.body)
        let returned := ended.filterMap (returned? params c)
        pure (if params.advance then returned.filterMap (·.step? s.grid false) else returned))) ∧
    (onward c = c ↔ c.heading.dx.natAbs ≤ 1 ∧ c.heading.dy.natAbs ≤ 1) ∧
    (stepwise.allowsProgram s.program = true → onward c = c →
      ∀ node, stepwise.allows node = true → ∀ depth count found,
        ((followAll s depth node (.one c)).runFrom count).1 = .ok found → ∀ t ∈ found.toList, onward t = t) := by
  refine ⟨fun depth => follow_forward s depth hgoing, ?_, onward_eq_self_iff, ?_⟩
  · intro depth target declared hd hway
    have hcall := call_forward s (follow s depth) hd hway hgoing
    rw [follow_of_going s depth hgoing]
    exact congrArg (Counted.tick s.budget >>= ·) (funext fun _ => hcall)
  · intro hprogram hkept node hnode depth count found hfound t mem
    have hsingle : c.heading.IsSingle := ⟨hgoing, onward_eq_self_iff.mp hkept⟩
    have hwalk := (stepwise_invariant s.grid).simulates.followAll (Fragment.closed_of_allowsProgram hprogram)
      s.budget depth hnode (a := c) ⟨rfl, hsingle⟩
    obtain ⟨_, _, ht⟩ := exists_related hwalk hfound t mem
    exact onward_eq_self_iff.mpr ht.2

/-- Diagonally over a pair of rows, with a call straight on after each turn. -/
theorem forward_keeps_single_steps_diagonal :
    let p : Program := ⟨[⟨"m", {}, .sequence [.direction ⟨['R', 'F'], false⟩, .literal ['a'],
      .call ⟨"n", .forward, {}⟩]⟩, ⟨"n", {}, .sequence [.direction .forward, .literal ['b']]⟩]⟩
    let s : Setting := ⟨p, .ofText "a-\n-b", some 100⟩
    let c : Cursor := { cell := ⟨1, 1⟩, heading := ⟨1, 1⟩, marks := [⟨0, 0⟩] }
    onward c = c ∧
      follow s 5 (.direction .forward) c = (do
        Counted.tick (some 100)
        pure (.one c)) ∧
      ∃ found, ((followAll s 9 (.call ⟨"m", .forward, { piggyback := true }⟩)
          (.one { cell := ⟨0, 0⟩ })).runFrom 0).1 = .ok found ∧
        found.toList.map Cursor.heading = [⟨1, 1⟩] ∧ ∀ t ∈ found.toList, onward t = t := by
  intro p s c
  have hsame : onward c = c := rfl
  obtain ⟨hdirection, _, _, _⟩ := forward_keeps_single_steps s c rfl
  obtain ⟨_, _, _, hprogram⟩ := forward_keeps_single_steps s { cell := ⟨0, 0⟩ } rfl
  have walked : (fun found : Survivors Cursor => found.toList.map Cursor.heading) <$>
      ((followAll s 9 (.call ⟨"m", .forward, { piggyback := true }⟩) (.one { cell := ⟨0, 0⟩ })).runFrom 0).1 =
        .ok [⟨1, 1⟩] := by decide +kernel
  obtain ⟨found, hfound, hheadings⟩ := map_eq_ok_iff.mp walked
  exact ⟨hsame, hdirection 4, found, hfound, hheadings, hprogram (by decide) rfl _ (by decide) 9 0 found hfound⟩

/-- Two steps at a time down a column: straight on makes them single, and what was read without it is read no
longer. -/
theorem forward_cuts_strides :
    let grid : Grid := .ofText "a\nb\nc\nd\ne"
    let strides : Node := .sequence [.direction ⟨['R', 'R'], false⟩, .literal ['a']]
    let stride : Cursor := { cell := ⟨0, 2⟩, heading := ⟨0, 2⟩, age := 1, marks := [⟨0, 0⟩] }
    EndsWith ⟨[]⟩ grid strides { cell := ⟨0, 0⟩ } [stride] ∧
      EndsWith ⟨[]⟩ grid (.direction .forward) stride [{ stride with heading := ⟨0, 1⟩ }] ∧
      Search.withCode "m:<RR>a<>ce" "a\nb\nc\nd\ne" {} 0 = .ok [] ∧
      List.map Finding.toMatch <$> Search.withCode "m:<RR>ace" "a\nb\nc\nd\ne" {} 0 =
        .ok [⟨⟨0, 0⟩, [⟨0, 0⟩, ⟨0, 2⟩, ⟨0, 4⟩]⟩] := by
  intro grid strides stride
  have hstride : ((followAll ⟨⟨[]⟩, grid, none⟩ 9 strides (.one { cell := ⟨0, 0⟩ })).runFrom 0).1 =
      .ok (.one stride) := by decide +kernel
  have hcut : ((followAll ⟨⟨[]⟩, grid, none⟩ 9 (.direction .forward) (.one stride)).runFrom 0).1 =
      .ok (.one { stride with heading := ⟨0, 1⟩ }) := by decide +kernel
  exact ⟨endsWith_of_runFrom hstride, endsWith_of_runFrom hcut, by decide +kernel, by decide +kernel⟩

end Walk

end GridPattern
