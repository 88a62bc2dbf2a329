import GridPattern.Proofs.Walk.Metering
import GridPattern.Proofs.Walk.Unbudgeted

/-!
# Results of walks without a budget

Without a budget the count has no part in what a walk comes to. So at each depth a walk is a function of the
cursor, which has survivors, stops at a fault or is unfinished, and patterns made of others are functions made of
theirs. Meanings name all the faults that alternatives meet; which of them a walk stops at is seen here only.

**The law** (`resultsIn_iff`, `outcomeAt_sequence`, `outcomeAt_choice`). A walk results in what it comes to at
every depth that is enough. At one depth, parts one after the other (`partsAt`) take lists of cursors to lists of
cursors, and alternatives have their survivors one after the other, up to the first that stops.

**What it does not establish.** How deep is deep enough. A walk that is unfinished at every depth has no result.
-/

namespace GridPattern

open Counted Survivors

/-! ## Computations that the count has no part in -/

section Always

variable {α β : Type} {m : Counted α} {r : Except Stop α}

theorem Counted.Always.runFrom_eq (h : Always m r) (count : Nat) : (m.runFrom count).1 = r := by
  obtain ⟨after, h⟩ := h count
  rw [h]

end Always

namespace Walk

/-! ## Lists of survivors -/

section Each

variable {α β : Type} {f : α → Except Stop (List β)}

/-- The shape that survivors are put in does not tell in the list of them. -/
theorem map_toList_ofList {ε : Type} (r : Except ε (List α)) : toList <$> ofList <$> r = r := by
  cases r with
  | error stop => rfl
  | ok as => exact congrArg Except.ok (toList_ofList as)

/-- What `f` makes of each, one after the other; the first stop ends it. -/
def each (f : α → Except Stop (List β)) : List α → Except Stop (List β)
  | [] => .ok []
  | a :: as => do
    let bs ← f a
    (bs ++ ·) <$> each f as

theorem each_singleton (f : α → Except Stop (List β)) (a : α) : each f [a] = f a := by
  unfold each
  cases f a with
  | error stop => rfl
  | ok bs => exact congrArg Except.ok (List.append_nil bs)

/-- Where each has survivors, all together have them one after the other. -/
theorem each_eq_flatMap {g : α → List β} {as : List α} (h : ∀ a ∈ as, f a = .ok (g a)) :
    each f as = .ok (as.flatMap g) := by
  induction as with
  | nil => rfl
  | cons a as ih =>
    obtain ⟨head, tail⟩ := List.forall_mem_cons.mp h
    rw [each, head, ih tail, List.flatMap_cons]
    rfl

theorem always_flatMapList {F : α → Counted (Survivors β)} {r : α → Except Stop (Survivors β)}
    (h : ∀ a, Always (F a) (r a)) (as : List α) :
    Always (flatMapList F as) (ofList <$> each (fun a => toList <$> r a) as) := by
  -- the walk keeps what it has gathered in reverse, in front of what is still to come
  have hgather : ∀ gathered : List β, Always (gather F as gathered)
      ((gathered.reverse ++ ·) <$> each (fun a => toList <$> r a) as) := by
    induction as with
    | nil =>
      intro gathered
      show Always (pure gathered.reverse) (.ok (gathered.reverse ++ []))
      rw [List.append_nil]
      exact .pure _
    | cons a as ih =>
      intro gathered
      have hhead := h a
      rw [each, gather]
      cases hr : r a with
      | error stop =>
        rw [hr] at hhead
        exact hhead.bind_error
      | ok found =>
        rw [hr] at hhead
        refine hhead.bind ?_
        show Always _ ((gathered.reverse ++ ·) <$> (found.toList ++ ·) <$> each _ as)
        have hrest := ih (found.toList.reverseAux gathered)
        simpa [List.reverseAux_eq] using hrest
  have hlist := (hgather []).map (f := ofList)
  cases he : each (fun a => toList <$> r a) as with
  | error stop =>
    rw [he] at hlist
    exact hlist
  | ok bs =>
    rw [he] at hlist
    exact hlist

end Each

variable {p : Program} {grid : Grid} {depth : Nat} {node : Node} {c : Cursor}

/-! ## Walks at one depth -/

/-- **What a walk without a budget comes to** at a depth. -/
def outcomeAt (p : Program) (grid : Grid) (depth : Nat) (node : Node) (c : Cursor) :
    Except Stop (List Cursor) :=
  toList <$> ((follow ⟨p, grid, none⟩ depth node c).runFrom 0).1

/-- A walk without a budget comes to the same from every count. -/
theorem always_follow (p : Program) (grid : Grid) (depth : Nat) (node : Node) (c : Cursor) :
    Always (follow ⟨p, grid, none⟩ depth node c) ((follow ⟨p, grid, none⟩ depth node c).runFrom 0).1 := by
  obtain ⟨bill, hpays, _⟩ := (metered_follow p grid (Nat.le_refl depth) node c).billed
  intro count
  rw [hpays none count, hpays none 0]
  exact ⟨count + bill.cost, rfl⟩

theorem always_each (p : Program) (grid : Grid) (depth : Nat) (node : Node) (cs : List Cursor) :
    Always (flatMapList (follow ⟨p, grid, none⟩ depth node) cs)
      (ofList <$> each (outcomeAt p grid depth node) cs) :=
  always_flatMapList (always_follow p grid depth node) cs

/-- Past the test for a heading that goes nowhere a walk comes to what its rule comes to. -/
theorem outcomeAt_of_always {r : Except Stop (List Cursor)} (hs : c.heading.isStalled = false)
    (h : Always (toList <$> enter ⟨p, grid, none⟩ (follow ⟨p, grid, none⟩ depth) depth node c) r) :
    outcomeAt p grid (depth + 1) node c = r := by
  have hfollow : Always (toList <$> follow ⟨p, grid, none⟩ (depth + 1) node c) r := by
    rw [follow_of_going _ depth hs, map_bind]
    exact Always.tick_none.bind h
  have hrun := hfollow.runFrom_eq 0
  rwa [runFrom_map] at hrun

theorem outcomeAt_stalled (hs : c.heading.isStalled = true) :
    outcomeAt p grid (depth + 1) node c = .error (.fault .stalled) := by
  unfold outcomeAt
  rw [follow_succ, runFrom_bind, runFrom_tick_none, hs]
  rfl

theorem outcomeAt_literal (hs : c.heading.isStalled = false) (text : List Char) :
    outcomeAt p grid (depth + 1) (.literal text) c = .ok (c.spell? grid text).toList := by
  refine outcomeAt_of_always hs ?_
  rw [enter_literal, ← toList_ofOption]
  exact (Always.pure (ofOption (c.spell? grid text))).map

/-- **What parts one after the other come to** at a depth, each from all that survived the part before. -/
def partsAt (p : Program) (grid : Grid) (depth : Nat) :
    List Node → List Cursor → Except Stop (List Cursor)
  | [], cs => .ok cs
  | part :: parts, cs => each (outcomeAt p grid depth part) cs >>= partsAt p grid depth parts

theorem partsAt_append (parts others : List Node) (cs : List Cursor) :
    partsAt p grid depth (parts ++ others) cs = partsAt p grid depth parts cs >>= partsAt p grid depth others := by
  induction parts generalizing cs with
  | nil => rfl
  | cons part parts ih =>
    rw [List.cons_append, partsAt, partsAt]
    cases each (outcomeAt p grid depth part) cs with
    | error stop => rfl
    | ok ts => exact ih ts

/-- No part makes anything of no cursors. -/
theorem partsAt_of_none (parts : List Node) : partsAt p grid depth parts [] = .ok [] := by
  induction parts with
  | nil => rfl
  | cons part parts ih => exact ih

theorem always_sequence (parts : List Node) (cursors : Survivors Cursor) :
    Always (toList <$> sequence (follow ⟨p, grid, none⟩ depth) parts cursors)
      (partsAt p grid depth parts cursors.toList) := by
  induction parts generalizing cursors with
  | nil => exact (Always.pure cursors).map
  | cons part parts ih =>
    have hhead := always_each p grid depth part cursors.toList
    rw [sequence, map_bind, partsAt]
    cases hr : each (outcomeAt p grid depth part) cursors.toList with
    | error stop =>
      rw [hr] at hhead
      exact hhead.bind_error
    | ok ts =>
      rw [hr] at hhead
      refine hhead.bind ?_
      have hrest := ih (ofList ts)
      rw [toList_ofList] at hrest
      cases ts with
      | nil =>
        -- the walk leaves out the parts that no cursor is left for, and these would make nothing of none
        show Always _ (partsAt p grid depth parts [])
        rw [partsAt_of_none]
        exact (Always.pure Survivors.none).map
      | cons t ts =>
        rw [← isEmpty_toList, toList_ofList]
        exact hrest

theorem outcomeAt_sequence (hs : c.heading.isStalled = false) (parts : List Node) :
    outcomeAt p grid (depth + 1) (.sequence parts) c = partsAt p grid depth parts [c] :=
  outcomeAt_of_always hs (always_sequence parts (.one c))

theorem outcomeAt_choice (hs : c.heading.isStalled = false) (options : List Node) :
    outcomeAt p grid (depth + 1) (.choice options) c =
      each (fun option => outcomeAt p grid depth option c) options := by
  refine outcomeAt_of_always hs ?_
  have hlist := (always_flatMapList (fun option => always_follow p grid depth option c) options).map
    (f := toList)
  change Always (toList <$> flatMapList (follow ⟨p, grid, none⟩ depth · c) options)
    (toList <$> ofList <$> each (fun option => outcomeAt p grid depth option c) options) at hlist
  rwa [map_toList_ofList] at hlist

/-! ## Results -/

/-- **A walk without a budget results in this**: survivors, or the fault that it stops at. -/
def ResultsIn (p : Program) (grid : Grid) (node : Node) (c : Cursor)
    (r : Except WalkFault (List Cursor)) : Prop :=
  ∃ least, ∀ depth ≥ least, ∀ count,
    ((followAll ⟨p, grid, none⟩ depth node (.one c)).runFrom count).1 = (r.map ofList).mapError .fault

/-- To result in survivors is to end with them. -/
theorem resultsIn_ok_iff {ts : List Cursor} :
    ResultsIn p grid node c (.ok ts) ↔ EndsWith p grid node c ts := Iff.rfl

theorem runFrom_followAll_one (count : Nat) :
    ((followAll ⟨p, grid, none⟩ depth node (.one c)).runFrom count).1 =
      ofList <$> outcomeAt p grid depth node c := by
  have h := (always_each p grid depth node [c]).runFrom_eq count
  rwa [each_singleton] at h

/-- **The result is the outcome at every depth that is enough.** -/
theorem resultsIn_iff {r : Except WalkFault (List Cursor)} :
    ResultsIn p grid node c r ↔
      ∃ least, ∀ depth ≥ least, outcomeAt p grid depth node c = r.mapError .fault := by
  have hview : ∀ o : Except Stop (List Cursor),
      ofList <$> o = (r.map ofList).mapError .fault ↔ o = r.mapError .fault := by
    intro o
    have hr : (r.map ofList).mapError .fault = ofList <$> (r.mapError .fault : Except Stop (List Cursor)) := by
      cases r <;> rfl
    rw [hr]
    constructor
    · intro h
      rw [← map_toList_ofList o, h, map_toList_ofList]
    · rintro rfl
      rfl
  unfold ResultsIn
  simp only [runFrom_followAll_one, hview, forall_const]

/-- What a walk comes to at one depth, it results in. -/
theorem resultsIn_of_outcomeAt {r : Except WalkFault (List Cursor)}
    (h : outcomeAt p grid depth node c = r.mapError .fault) : ResultsIn p grid node c r := by
  refine resultsIn_iff.mpr ⟨depth, fun deeper hd => ?_⟩
  obtain heq | hstop := (metered_follow p grid hd node c).settled none 0
  · rw [← h, outcomeAt, outcomeAt, heq]
  · rw [outcomeAt, hstop] at h
    cases r <;> cases h

/-- What a walk has survived to, its pattern means. -/
theorem eval_of_outcomeAt {ts : List Cursor} (h : outcomeAt p grid depth node c = .ok ts) :
    eval p grid node c = some (.ok ts) :=
  endsWith_iff.mp (resultsIn_ok_iff.mp (resultsIn_of_outcomeAt h))

/-- What one walk comes to at each depth that is enough, another comes to so much deeper. -/
theorem ResultsIn.of_eq {node' : Node} {c' : Cursor} {enough more more' : Nat}
    (h : ∀ depth ≥ enough, outcomeAt p grid (depth + more) node c = outcomeAt p grid (depth + more') node' c')
    {r : Except WalkFault (List Cursor)} (result : ResultsIn p grid node c r) : ResultsIn p grid node' c' r := by
  obtain ⟨least, hleast⟩ := resultsIn_iff.mp result
  refine resultsIn_iff.mpr ⟨least + enough + more', fun depth hd => ?_⟩
  have hdepth : depth - more' + more' = depth := by omega
  have heq := h (depth - more') (by omega)
  rw [hdepth] at heq
  rw [← heq]
  exact hleast _ (by omega)

/-- Two walks that come to the same, at depths that differ by a constant, have the same results. -/
theorem resultsIn_congr {node' : Node} {c' : Cursor} {enough more more' : Nat}
    (h : ∀ depth ≥ enough, outcomeAt p grid (depth + more) node c = outcomeAt p grid (depth + more') node' c')
    (r : Except WalkFault (List Cursor)) : ResultsIn p grid node c r ↔ ResultsIn p grid node' c' r :=
  ⟨.of_eq h, .of_eq fun depth hd => (h depth hd).symm⟩

end Walk

end GridPattern
