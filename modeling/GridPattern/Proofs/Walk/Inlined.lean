import GridPattern.Proofs.Compass
import GridPattern.Proofs.Walk.Thinned
import GridPattern.Proofs.Walk.Unbudgeted

/-!
# Calls that could be inlined

A call straight on, from where the caller stands and with nothing else asked for, is the pattern called in its
place. The pattern called has an age of its own, which only the groups of calls look at, and these begin at age
zero wherever they stand; and whether the last step wrapped is asked nowhere.

**The law** (`call_inlined`). The call has survivors if and only if the pattern has, and then the same ones in
the same order, but for age and wrap sign, which are the caller's.

**What it does not establish.** Anything about headings of longer steps, which going straight on cuts to single
steps; nor about budgets, of which a call takes a step more.
-/

namespace GridPattern

theorem Switches.or_none (s : Switches) : s.or {} = s := by simp [Switches.or]

namespace Cursor

/-- The cursor at another age, and with its last step past an edge or not. -/
def aged (age : Nat) (wrapped : Bool) (c : Cursor) : Cursor := { c with age, wrapped }

variable {grid : Grid} {age : Nat} {wrapped : Bool}

theorem markHere_aged (c : Cursor) : (c.aged age wrapped).markHere = c.markHere.aged age wrapped := by
  unfold markHere
  rw [apply_ite (aged age wrapped)]
  rfl

/-- A step takes no notice of age. -/
theorem step_aged (c : Cursor) (marking : Bool) :
    (c.aged age wrapped).step? grid marking =
      (c.step? grid marking).map fun t => t.aged (age + 1) t.wrapped := by
  unfold step?
  rw [markHere_aged, ← apply_ite (aged age wrapped)]
  have hleave : (c.aged age wrapped).mayLeave = c.mayLeave := rfl
  rw [hleave]
  split <;> rfl

end Cursor

namespace Walk

variable {p : Program} {grid : Grid}

/-! ## Out of step -/

/-- **The same cursor at another age.** The first is older by the first number, less the second. -/
def Shifted (offset : Nat × Nat) (a b : Cursor) : Prop :=
  ∃ age wrapped, b = a.aged age wrapped ∧ a.age + offset.2 = age + offset.1

theorem Shifted.aged_eq {offset : Nat × Nat} {a b : Cursor} (h : Shifted offset a b) (age : Nat) (wrapped : Bool) :
    b.aged age wrapped = a.aged age wrapped := by
  obtain ⟨_, _, rfl, _⟩ := h
  rfl

/-- Moves take no notice of age, and in calls the ages are the same. -/
theorem thins_shifted (grid : Grid) : Thins False (fun _ => true) grid Shifted where
  cell := by
    rintro _ a _ ⟨_, _, rfl, _⟩
    rfl
  heading := by
    rintro _ a _ ⟨_, _, rfl, _⟩
    rfl
  headed := by
    rintro _ a _ heading ⟨age, wrapped, rfl, h⟩
    exact ⟨age, wrapped, rfl, h⟩
  letter := by
    rintro _ a _ target char ⟨_, _, rfl, _⟩
    exact .inl rfl
  oneOf := by
    rintro _ a _ _ _ char _ ⟨_, _, rfl, _⟩
    exact .inl rfl
  step := by
    rintro _ a _ marking ⟨age, wrapped, rfl, h⟩
    rw [Cursor.step_aged]
    refine .toList_map fun t hstep => ⟨age + 1, t.wrapped, rfl, ?_⟩
    rw [Cursor.age_of_step hstep]
    omega
  call := by
    rintro _ a _ params ⟨age, wrapped, rfl, h⟩
    -- the pattern called begins at age zero for both, and groups see the ages in it
    refine ⟨(0, 0), ⟨0, wrapped, rfl, rfl⟩, ?_⟩
    rintro t _ ⟨age', wrapped', rfl, hage⟩
    obtain rfl : age' = t.age := hage.symm
    have hback : returned? params (a.aged age wrapped) (t.aged t.age wrapped') =
        (returned? params a t).map (Cursor.aged age wrapped) :=
      returned_map (f := fun u => u.aged u.age wrapped')
        (Cursor.agree_map (f := fun u => u.aged u.age wrapped') rfl rfl fun _ => rfl) fun _ => rfl
    rw [hback]
    refine .toList_map fun u hreturn => ⟨age, wrapped, rfl, ?_⟩
    rw [eq_of_returned hreturn]
    exact h
  lookFrom := by
    rintro _ a _ kind ⟨age, wrapped, rfl, h⟩
    cases kind <;> exact ⟨age, wrapped, rfl, h⟩
  lookBack := by
    rintro _ a _ t _ kind ⟨_, _, rfl, _⟩ ⟨age, wrapped, rfl, h⟩
    cases kind <;> exact ⟨age, wrapped, rfl, h⟩
  absent _ := id

/-- **Survivors do not depend on the age** of the cursor. -/
theorem eval_shifted {offset : Nat × Nat} {node : Node} {a b : Cursor} (hab : Shifted offset a b)
    {ts : List Cursor} (found : eval p grid node a = some (.ok ts)) :
    ∃ us, eval p grid node b = some (.ok us) ∧
      ∀ age wrapped, us.map (Cursor.aged age wrapped) = ts.map (Cursor.aged age wrapped) := by
  obtain ⟨us, hus, hthin⟩ :=
    (thins_shifted grid).eval (fun _ _ => rfl) (fun _ _ => rfl) hab found
  refine ⟨us, hus, fun age wrapped => ?_⟩
  have heq : Thinned False Eq (ts.map (Cursor.aged age wrapped)) (us.map (Cursor.aged age wrapped)) :=
    hthin.map fun _ _ h => (h.aged_eq age wrapped).symm
  have hall := heq.forall₂ id
  rw [List.forall₂_eq_eq_eq] at hall
  exact hall.symm

/-! ## Calls -/

section Calls

variable {target : Call} {declared : Declaration} {c : Cursor}

/-- The survivors go on from where they ended; their switches are the caller's already. -/
theorem handBack_piggyback {body : Node} {ended : List Cursor}
    (found : eval p grid body (c.aged 0 c.wrapped) = some (.ok ended)) :
    handBack grid { piggyback := true } c ended = ended.map (Cursor.aged c.age c.wrapped) := by
  have hreturned : ended.filterMap (returned? { piggyback := true } c) =
      ended.filterMap (some ∘ Cursor.aged c.age c.wrapped) := by
    refine List.filterMap_congr fun t mem => ?_
    have hswitches : t.switches = c.switches := (reaches_of_eval found mem).keeps.switches
    have hback : returned? { piggyback := true } c t = some (t.returnTo c true) := rfl
    rw [hback, Cursor.returnTo, ← hswitches]
    rfl
  rw [← List.filterMap_eq_map, ← hreturned]
  rfl

/-- What such a call comes to, said by the pattern called. -/
theorem eval_call_piggyback (hd : p.declaration? target.name = some declared) (hway : target.direction = .forward)
    (hparams : target.params.merged declared.params = { piggyback := true }) (hsingle : c.heading.IsSingle) :
    eval p grid (.call target) c = (eval p grid declared.body (c.aged 0 c.wrapped)).map
      (Except.map (handBack grid { piggyback := true } c)) := by
  have hcallee : (callee { piggyback := true } c).bend ⟨0, 1⟩ = c.aged 0 c.wrapped := by
    unfold callee Cursor.bend
    simp only [Switches.or_none, Heading.turn_ahead hsingle]
    rfl
  rw [eval_call hsingle.1 hd, hway, hparams, headings_forward, hcallee]
  dsimp only
  rw [evalEach_singleton]

/-- **Such a call is the pattern called**, with the age and the wrap sign of the caller. -/
theorem call_inlined (hd : p.declaration? target.name = some declared) (hway : target.direction = .forward)
    (hparams : target.params.merged declared.params = { piggyback := true }) (hsingle : c.heading.IsSingle)
    (ts : List Cursor) :
    EndsWith p grid (.call target) c ts ↔ ∃ us, EndsWith p grid declared.body c us ∧
      ts = us.map fun t => { t with age := c.age, wrapped := c.wrapped } := by
  simp only [endsWith_iff, eval_call_piggyback hd hway hparams hsingle]
  constructor
  · intro h
    obtain ⟨v, hended, hmap⟩ := Option.map_eq_some_iff.mp h
    obtain ⟨ended, rfl, rfl⟩ := map_eq_ok_iff.mp hmap
    have hshifted : Shifted (0, c.age) (c.aged 0 c.wrapped) c :=
      ⟨c.age, c.wrapped, rfl, Nat.add_comm _ _⟩
    obtain ⟨us, hus, hsame⟩ := eval_shifted hshifted hended
    exact ⟨us, hus, (handBack_piggyback hended).trans (hsame c.age c.wrapped).symm⟩
  · intro h
    obtain ⟨us, hus, rfl⟩ := h
    have hshifted : Shifted (c.age, 0) c (c.aged 0 c.wrapped) := ⟨0, c.wrapped, rfl, Nat.add_comm _ _⟩
    obtain ⟨ended, hended, hsame⟩ := eval_shifted hshifted hus
    rw [hended]
    exact congrArg (some ∘ Except.ok) ((handBack_piggyback hended).trans (hsame c.age c.wrapped))

end Calls

/-- Two runs of letters of one length, with no dot between them, and one cell more. -/
def halves : Node :=
  .sequence [.call ⟨"letters", .forward, { piggyback := true, group := some 1 }⟩,
    .look .unmarked (.look .absent (.literal ['.'])),
    .call ⟨"letters", .forward, { piggyback := true, group := some 1 }⟩, .inside]

/-- The runs of a row of four letters begin at age zero, wherever the pattern stands. -/
theorem call_inlined_halves :
    let p : Program := ⟨[⟨"halves", {}, halves⟩, ⟨"letters", {}, .repeated (.oneOf ['.'] true) .plus⟩]⟩
    let grid : Grid := ⟨#[#['a', 'b', 'c', 'd', '.']], by decide⟩
    let c : Cursor := { cell := ⟨0, 0⟩, age := 7, switches := { exclusive := true }, wrapped := true }
    ∃ us, EndsWith p grid halves c us ∧
      us.map (fun t => (t.cell, t.age, t.wrapped)) = [(⟨3, 0⟩, 8, false), (⟨5, 0⟩, 8, false)] ∧
      EndsWith p grid (.call ⟨"halves", .forward, { piggyback := true }⟩) c
        (us.map fun t => { t with age := 7, wrapped := true }) := by
  intro p grid c
  have hwalk : (fun found : Survivors Cursor => found.toList.map fun t => (t.cell, t.age, t.wrapped)) <$>
      ((followAll ⟨p, grid, none⟩ 20 halves (.one c)).runFrom 0).1 =
        .ok [(⟨3, 0⟩, 8, false), (⟨5, 0⟩, 8, false)] := by
    decide +kernel
  obtain ⟨found, hfound, hcells⟩ := map_eq_ok_iff.mp hwalk
  have hbody : EndsWith p grid halves c found.toList := endsWith_of_runFrom hfound
  refine ⟨found.toList, hbody, hcells, ?_⟩
  exact (call_inlined rfl rfl rfl ⟨rfl, by decide, by decide⟩ _).mpr ⟨found.toList, hbody, rfl⟩

end Walk

end GridPattern
