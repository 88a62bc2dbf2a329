import GridPattern.Proofs.Walk.Results

/-!
# Repetitions and their unrollings

A repetition goes round by round and gathers the levels that it passes through. So many of a pattern in a row pass
through the same levels and give the last of them, so a bounded repetition is the choice between rows of each
length that is allowed.

**The law** (`repeated_unrolled`). Both come to the same, survivors in order or the fault that is met first, or
neither comes to anything. Where there is no greatest number, a repetition that comes to an end has passed a level
without cursors (`Levels`); a bound past that level changes nothing, and what follows the first round may as well
be followed from each cursor by itself (`Levels.append`), which gives the same survivors in another order.

**What it does not establish.** Anything about the number of steps, of which an unrolling takes more.
-/

namespace GridPattern.Walk

open Counted Survivors

/-! ## Levels of bounded repetitions -/

section Rounds

/-- What is left after so many rounds. -/
def levelOf (next : List Cursor → Except Stop (List Cursor)) (c : Cursor) : Nat → Except Stop (List Cursor)
  | 0 => .ok [c]
  | k + 1 => levelOf next c k >>= next

/-- The levels from number `k` on that a repetition has in its result. -/
def levelsFrom (next : List Cursor → Except Stop (List Cursor)) (c : Cursor) (least most k : Nat) :
    Except Stop (List Cursor) :=
  each (levelOf next c) (List.range' (max least k) (most + 1 - max least k))

variable {next : List Cursor → Except Stop (List Cursor)} {c : Cursor} {least most k : Nat}

theorem levelOf_error {stop : Stop} (h : levelOf next c k = .error stop) {j : Nat} (hle : k ≤ j) :
    levelOf next c j = .error stop := by
  induction hle with
  | refl => exact h
  | step _ ih => rw [levelOf, ih]; rfl

theorem levelOf_empty (hnil : next [] = .ok []) (h : levelOf next c k = .ok []) {j : Nat} (hle : k ≤ j) :
    levelOf next c j = .ok [] := by
  induction hle with
  | refl => exact h
  | step _ ih => rw [levelOf, ih]; exact hnil

theorem levelsFrom_past (hle : least ≤ most) : levelsFrom next c least most (most + 1) = .ok [] := by
  have hempty : most + 1 - max least (most + 1) = 0 := by omega
  rw [levelsFrom, hempty]
  rfl

/-- A level that is too early is left out. -/
theorem levelsFrom_early (h : k < least) :
    levelsFrom next c least most k = levelsFrom next c least most (k + 1) := by
  have hmax : max least (k + 1) = max least k := by omega
  rw [levelsFrom, levelsFrom, hmax]

theorem levelsFrom_level (hleast : least ≤ k) (hmost : k ≤ most) :
    levelsFrom next c least most k =
      levelOf next c k >>= fun level => (level ++ ·) <$> levelsFrom next c least most (k + 1) := by
  have hfirst : max least k = k := by omega
  have hrest : max least (k + 1) = k + 1 := by omega
  have hlength : most + 1 - k = (most + 1 - (k + 1)) + 1 := by omega
  rw [levelsFrom, levelsFrom, hfirst, hrest, hlength, List.range'_succ]
  rfl

/-- A round that stops keeps all later levels from coming to anything. -/
theorem levelsFrom_error {stop : Stop} (h : levelOf next c k = .error stop) (hle : least ≤ most)
    (hmost : k ≤ most) : levelsFrom next c least most k = .error stop := by
  have hlength : most + 1 - max least k = (most - max least k) + 1 := by omega
  rw [levelsFrom, hlength, List.range'_succ, each, levelOf_error h (Nat.le_max_right least k)]
  rfl

/-- After an empty level all are empty. -/
theorem levelsFrom_empty (hnil : next [] = .ok []) (h : levelOf next c k = .ok []) :
    levelsFrom next c least most k = .ok [] := by
  have hlevels : ∀ j ∈ List.range' (max least k) (most + 1 - max least k), levelOf next c j = .ok [] := by
    intro j mem
    have hle := (List.mem_range'_1.mp mem).1
    exact levelOf_empty hnil h (by omega)
  rw [levelsFrom, each_eq_flatMap hlevels]
  simp

/-- Where no level is left, what was gathered before is all. -/
theorem always_gathered (gathered : List Cursor) :
    Always (pure gathered.reverse) ((gathered.reverse ++ ·) <$> (.ok [] : Except Stop (List Cursor))) := by
  show Always (pure gathered.reverse) (.ok (gathered.reverse ++ []))
  rw [List.append_nil]
  exact .pure _

/-- **The rounds of a bounded repetition** gather the levels that are in its result. -/
theorem always_repetitions {F : Cursor → Counted (Survivors Cursor)}
    (hF : ∀ cs, Always (flatMapList F cs) (ofList <$> next cs)) (hnil : next [] = .ok [])
    (hle : least ≤ most) {rounds : Nat} (hk : k ≤ most) (hrounds : most ≤ k + rounds)
    {current : Survivors Cursor} (hlevel : levelOf next c k = .ok current.toList) (gathered : List Cursor) :
    Always (repetitions F least (some most) rounds k current gathered)
      ((gathered.reverse ++ ·) <$> levelsFrom next c least most (k + 1)) := by
  induction rounds generalizing k current gathered with
  | zero =>
    obtain rfl : k = most := by omega
    rw [repetitions, if_pos (by simp), levelsFrom_past hle]
    exact always_gathered gathered
  | succ rounds ih =>
    rw [repetitions]
    by_cases hfull : k = most
    · rw [hfull, if_pos (by simp), levelsFrom_past hle]
      exact always_gathered gathered
    · have hopen : ¬(some most).any (· ≤ k) = true := by
        simp only [Option.any_some, decide_eq_true_eq]
        omega
      have hround := hF current.toList
      have hnext : levelOf next c (k + 1) = next current.toList := by rw [levelOf, hlevel]; rfl
      rw [if_neg hopen]
      cases hr : next current.toList with
      | error stop =>
        rw [hr] at hround hnext
        rw [levelsFrom_error hnext hle (by omega)]
        exact hround.bind_error
      | ok ts =>
        rw [hr] at hround hnext
        refine hround.bind ?_
        cases ts with
        | nil =>
          -- the walk ends its rounds at an empty level, and all levels after it are empty too
          rw [levelsFrom_empty hnil hnext]
          exact always_gathered gathered
        | cons t ts =>
          have hne : (ofList (t :: ts)).isEmpty = false := by rw [← isEmpty_toList, toList_ofList]; rfl
          have hcurrent : levelOf next c (k + 1) = .ok (ofList (t :: ts)).toList := by rwa [toList_ofList]
          rw [if_neg (by rw [hne]; exact Bool.false_ne_true), toList_ofList]
          have hrest := ih (by omega) (by omega) hcurrent
          by_cases hleast : least ≤ k + 1
          · rw [levelsFrom_level hleast (by omega), hnext, if_pos hleast]
            have hgathered := hrest ((t :: ts).reverseAux gathered)
            rw [reverse_reverseAux] at hgathered
            show Always _ ((gathered.reverse ++ ·) <$> ((t :: ts) ++ ·) <$> _)
            rw [Functor.map_map]
            simpa only [List.append_assoc] using hgathered
          · rw [levelsFrom_early (by omega), if_neg hleast]
            exact hrest gathered

end Rounds

variable {p : Program} {grid : Grid} {depth : Nat} {inner : Node} {c : Cursor}

/-- The patterns that a bounded repetition stands for: so many in a row, for each number from the least to the
greatest. -/
def unrolled (inner : Node) (least most : Nat) : Node :=
  .choice ((List.range' least (most + 1 - least)).map fun k => .sequence (List.replicate k inner))

/-- So many of a pattern in a row are so many rounds of it. -/
theorem outcomeAt_replicate (hs : c.heading.isStalled = false) (k : Nat) :
    outcomeAt p grid (depth + 1) (.sequence (List.replicate k inner)) c =
      levelOf (each (outcomeAt p grid depth inner)) c k := by
  rw [outcomeAt_sequence hs]
  induction k with
  | zero => rfl
  | succ k ih =>
    rw [List.replicate_succ', partsAt_append, ih, levelOf]
    apply bind_congr
    intro level
    exact bind_pure _

theorem outcomeAt_unrolled (hs : c.heading.isStalled = false) (least most : Nat) :
    outcomeAt p grid (depth + 2) (unrolled inner least most) c =
      levelsFrom (each (outcomeAt p grid depth inner)) c least most 0 := by
  rw [unrolled, outcomeAt_choice hs, levelsFrom, Nat.max_zero]
  generalize List.range' least (most + 1 - least) = ks
  induction ks with
  | nil => rfl
  | cons k ks ih =>
    rw [List.map_cons, each, each, outcomeAt_replicate hs, ih]

theorem outcomeAt_repeated {count : Repeat} {most : Nat} (hs : c.heading.isStalled = false)
    (hmost : count.most? = some most) (hle : count.least ≤ most) (hd : most ≤ depth) :
    outcomeAt p grid (depth + 1) (.repeated inner count) c =
      levelsFrom (each (outcomeAt p grid depth inner)) c count.least most 0 := by
  refine outcomeAt_of_always hs ?_
  have hstart : levelOf (each (outcomeAt p grid depth inner)) c 0 = .ok (Survivors.one c).toList := rfl
  have henough : most ≤ 0 + depth := by omega
  have hrounds := always_repetitions (always_each p grid depth inner) rfl hle (Nat.zero_le most) henough hstart
    (if count.least = 0 then [c] else [])
  have hlevels : ((if count.least = 0 then [c] else []).reverse ++ ·) <$>
      levelsFrom (each (outcomeAt p grid depth inner)) c count.least most 1 =
        levelsFrom (each (outcomeAt p grid depth inner)) c count.least most 0 := by
    by_cases hzero : count.least = 0
    · rw [levelsFrom_level (k := 0) (by omega) (Nat.zero_le most), if_pos hzero]
      rfl
    · rw [levelsFrom_early (k := 0) (by omega), if_neg hzero]
      exact id_map _
  rw [hlevels, ← hmost] at hrounds
  have hlist := (hrounds.map (f := ofList)).map (f := toList)
  show Always (toList <$> ofList <$> _) _
  rwa [← map_toList_ofList (levelsFrom _ c count.least most 0)]

/-- **A bounded repetition results in what its unrolling results in.** -/
theorem resultsIn_repeated {count : Repeat} {most : Nat} (hmost : count.most? = some most)
    (hle : count.least ≤ most) (r : Except WalkFault (List Cursor)) :
    ResultsIn p grid (.repeated inner count) c r ↔ ResultsIn p grid (unrolled inner count.least most) c r := by
  have hsame : ∀ depth ≥ most, outcomeAt p grid (depth + 1) (.repeated inner count) c =
      outcomeAt p grid (depth + 2) (unrolled inner count.least most) c := by
    intro depth hd
    cases hs : c.heading.isStalled with
    | true => rw [outcomeAt_stalled hs, outcomeAt_stalled hs]
    | false => rw [outcomeAt_repeated hs hmost hle hd, outcomeAt_unrolled hs]
  exact resultsIn_congr hsame r

/-! ## Repetitions without a greatest number -/

/-- **The levels of a repetition that comes to an end**, from one level on: what the rounds make of it, up to a
level without cursors. -/
inductive Levels (p : Program) (grid : Grid) (inner : Node) : List Cursor → List Cursor → Prop
  | done : Levels p grid inner [] []
  | round {level next ts : List Cursor} : evalEach (eval p grid inner) level = some (.ok next) →
      Levels p grid inner next ts → Levels p grid inner level (level ++ ts)

/-- What comes of all rounds from a level on, if there is no last one. -/
theorem levels_of_evalLevels {count : Repeat} {k : Nat} {level ts : List Cursor} (hopen : count.most? = .none)
    (hk : count.least ≤ k) (h : evalLevels p grid inner count k level = some (.ok ts)) :
    Levels p grid inner level ts := by
  rw [evalLevels, evalTask_eq_some_iff] at h
  obtain ⟨depth, h⟩ := h
  induction depth generalizing k level ts with
  | zero => cases h
  | succ depth ih =>
    rw [evalUpTo, unfolded, hopen, if_neg (by exact Bool.false_ne_true), if_pos hk] at h
    obtain ⟨v, hv, h⟩ := Option.bind_eq_some_iff.mp h
    have heval : evalEach (eval p grid inner) level = some v :=
      evalEach_mono (fun t v h => evalTask_eq_some_iff.mpr ⟨depth, h⟩) hv
    cases v with
    | error faults => cases h
    | ok next =>
      cases next with
      | nil =>
        cases h
        have hlast := Levels.round heval .done
        rwa [List.append_nil] at hlast
      | cons t next =>
        obtain ⟨later, hlater, hmap⟩ := Option.map_eq_some_iff.mp h
        obtain ⟨us, rfl, rfl⟩ := map_eq_ok_iff.mp hmap
        exact .round heval (ih (Nat.le_succ_of_le hk) hlater)

theorem evalLevels_nil (count : Repeat) (k : Nat) :
    evalLevels p grid inner count k [] = some (.ok []) := by
  rw [evalLevels_eq]
  split
  · simp
  · show some (Except.ok (if count.least ≤ k then [] else [])) = _
    simp

/-- Levels that come to an end come to the same end if the greatest number is no less than theirs. -/
theorem Levels.evalLevels_eq {level ts : List Cursor} (h : Levels p grid inner level ts) :
    ∃ rounds, ∀ (count : Repeat) k, count.least ≤ k → (∀ most ∈ count.most?, k + rounds ≤ most) →
      evalLevels p grid inner count k level = some (.ok ts) := by
  induction h with
  | done => exact ⟨0, fun count k _ _ => evalLevels_nil count k⟩
  | @round level next ts hnext _ ih =>
    obtain ⟨rounds, ih⟩ := ih
    refine ⟨rounds + 1, fun count k hk hmost => ?_⟩
    have hopen : ¬count.most?.any (· ≤ k) = true := by
      cases hm : count.most? with
      | none => exact Bool.false_ne_true
      | some most =>
        have := hmost most hm
        simp only [Option.any_some, decide_eq_true_eq]
        omega
    have hlater := ih count (k + 1) (Nat.le_succ_of_le hk) fun most mem => by
      have := hmost most mem
      omega
    cases next with
    | nil =>
      rw [evalLevels_nil] at hlater
      cases hlater
      rw [evalLevels_last hopen hnext, if_pos hk, List.append_nil]
    | cons t next =>
      rw [evalLevels_next hopen hnext (List.cons_ne_nil _ _), hlater, if_pos hk]
      rfl

theorem Levels.eq {level ts us : List Cursor} (h : Levels p grid inner level ts)
    (h' : Levels p grid inner level us) : ts = us := by
  obtain ⟨_, heval⟩ := h.evalLevels_eq
  obtain ⟨_, heval'⟩ := h'.evalLevels_eq
  have hstar := heval .star 0 (Nat.zero_le 0) nofun
  rw [heval' .star 0 (Nat.zero_le 0) nofun] at hstar
  cases hstar
  rfl

/-- **The rounds of two lists of cursors together** are theirs one beside the other: breadth first they come level
by level, depth first list by list, and both are the same up to order. -/
theorem Levels.append {as bs us vs : List Cursor} (h : Levels p grid inner as us)
    (h' : Levels p grid inner bs vs) : ∃ ws, Levels p grid inner (as ++ bs) ws ∧ ws.Perm (us ++ vs) := by
  -- on the rounds of the first list; whichever list is through first leaves the other's rounds as they are
  induction h generalizing bs vs with
  | done => exact ⟨vs, h', List.Perm.refl _⟩
  | @round as nextAs us hnext hus ih =>
    cases h' with
    | done =>
      rw [List.append_nil, List.append_nil]
      exact ⟨as ++ us, .round hnext hus, List.Perm.refl _⟩
    | @round _ nextBs vs hnext' hvs =>
      obtain ⟨ws, hws, hperm⟩ := ih hvs
      have hboth := evalEach_append_eq_ok_iff.mpr ⟨nextAs, nextBs, hnext, hnext', rfl⟩
      refine ⟨as ++ bs ++ ws, .round hboth hws, ?_⟩
      have hswap : (bs ++ (us ++ vs)).Perm (us ++ (bs ++ vs)) := by
        rw [← List.append_assoc, ← List.append_assoc]
        exact List.perm_append_comm.append_right vs
      rw [List.append_assoc, List.append_assoc]
      exact ((hperm.append_left bs).trans hswap).append_left as

/-- From each cursor of a level by itself come the rounds from the level, up to order. -/
theorem Levels.ofEach {level : List Cursor} {uss : List (List Cursor)}
    (h : List.Forall₂ (fun t us => Levels p grid inner [t] us) level uss) :
    ∃ ws, Levels p grid inner level ws ∧ ws.Perm uss.flatten := by
  induction h with
  | nil => exact ⟨[], .done, List.Perm.refl _⟩
  | cons head _ ih =>
    obtain ⟨ws, hws, hperm⟩ := ih
    obtain ⟨vs, hvs, hperm'⟩ := head.append hws
    exact ⟨vs, hvs, hperm'.trans (hperm.append_left _)⟩

theorem levels_of_star {ts : List Cursor} (h : eval p grid (.repeated inner .star) c = some (.ok ts)) :
    Levels p grid inner [c] ts := by
  have hgoing := going_of_eval h
  rw [eval_repeated inner .star hgoing] at h
  exact levels_of_evalLevels rfl (Nat.zero_le 0) h

/-- At least one round is one round and then any number. -/
theorem levels_of_plus {ts : List Cursor} (h : eval p grid (.repeated inner .plus) c = some (.ok ts)) :
    ∃ next, eval p grid inner c = some (.ok next) ∧ Levels p grid inner next ts := by
  have hgoing := going_of_eval h
  rw [eval_repeated inner .plus hgoing, evalLevels_eq, evalEach_singleton] at h
  obtain ⟨v, hv, h⟩ := Option.bind_eq_some_iff.mp h
  cases v with
  | error faults => cases h
  | ok next =>
    cases next with
    | nil =>
      cases h
      exact ⟨[], hv, .done⟩
    | cons t next =>
      obtain ⟨later, hlater, hmap⟩ := Option.map_eq_some_iff.mp h
      obtain ⟨us, rfl, rfl⟩ := map_eq_ok_iff.mp hmap
      exact ⟨t :: next, hv, levels_of_evalLevels rfl (Nat.le_refl 1) hlater⟩

/-- One round, and then from each of its survivors by itself any number. -/
theorem levels_of_round_star {next us : List Cursor} (hnext : eval p grid inner c = some (.ok next))
    (h : eval p grid (.sequence [inner, .repeated inner .star]) c = some (.ok us)) :
    ∃ ws, Levels p grid inner next ws ∧ ws.Perm us := by
  have hgoing := going_of_eval h
  rw [eval_sequence _ hgoing, evalParts_cons, hnext] at h
  obtain ⟨uss, hall, rfl⟩ := evalEach_eq_ok_iff.mp h
  exact Levels.ofEach (hall.imp fun t us h => levels_of_star ((evalParts_one _).symm.trans h))

/-- **Repetitions are their unrollings.** With a greatest number they come to the same as so many in a row for each
number, whether survivors or a fault, and at most once is from none to one. Without one, if they come to an end,
every greatest number that is large enough makes no difference, and at least one is one and then any number, up to
order. -/
theorem repeated_unrolled (p : Program) (grid : Grid) (inner : Node) (c : Cursor) :
    (∀ least most, least ≤ most → ∀ r,
      ResultsIn p grid (.repeated inner (.bounded ⟨some least, some most⟩)) c r ↔
        ResultsIn p grid (unrolled inner least most) c r) ∧
    (∀ r, ResultsIn p grid (.repeated inner .option) c r ↔
      ResultsIn p grid (.repeated inner (.bounded ⟨some 0, some 1⟩)) c r) ∧
    (∀ ts, EndsWith p grid (.repeated inner .star) c ts → ∃ enough, ∀ most ≥ enough,
      EndsWith p grid (.repeated inner (.bounded ⟨some 0, some most⟩)) c ts) ∧
    ∀ ts us, EndsWith p grid (.repeated inner .plus) c ts →
      EndsWith p grid (.sequence [inner, .repeated inner .star]) c us → ts.Perm us := by
  simp only [endsWith_iff]
  refine ⟨fun least most hle => resultsIn_repeated rfl hle, ?_, ?_, ?_⟩
  · intro r
    have hoption : ResultsIn p grid (.repeated inner .option) c r ↔ _ :=
      resultsIn_repeated rfl (Nat.zero_le 1) r
    have hbounded : ResultsIn p grid (.repeated inner (.bounded ⟨some 0, some 1⟩)) c r ↔ _ :=
      resultsIn_repeated rfl (Nat.zero_le 1) r
    exact hoption.trans hbounded.symm
  · intro ts h
    obtain ⟨enough, heval⟩ := (levels_of_star h).evalLevels_eq
    refine ⟨enough, fun most hmost => ?_⟩
    rw [eval_repeated _ _ (going_of_eval h)]
    refine heval (.bounded ⟨some 0, some most⟩) 0 (Nat.zero_le 0) ?_
    intro _ mem
    cases mem
    omega
  · intro ts us hplus hsequence
    obtain ⟨next, hnext, hts⟩ := levels_of_plus hplus
    obtain ⟨ws, hws, hperm⟩ := levels_of_round_star hnext hsequence
    rwa [hts.eq hws]

/-- A step to any of four neighbours. -/
def wander : Node := .call ⟨"wander", .forward, { piggyback := true }⟩

/-- A cursor that may not cross its way, in a square of four letters, comes to an end after four steps. A name that is
not declared is met by the first of those that took one step. -/
theorem repeated_unrolled_wander :
    let p : Program := ⟨[⟨"wander", {}, .sequence [.direction ⟨['+'], false⟩, .literal ['a']]⟩]⟩
    let grid : Grid := ⟨#[#['a', 'a'], #['a', 'a']], by decide⟩
    let c : Cursor := { cell := ⟨0, 0⟩, switches := { exclusive := true } }
    let lost : Node := .sequence [wander, .call ⟨"lost", .forward, {}⟩]
    (∃ ts, ResultsIn p grid (unrolled wander 1 2) c (.ok ts) ∧ ts.length = 12) ∧
      ResultsIn p grid (unrolled lost 0 1) c (.error (.undeclared "lost")) ∧
      (∃ r, ResultsIn p grid (.repeated wander (.bounded ⟨some 0, some 1⟩)) c (.ok r) ∧ r.length = 5) ∧
      (∃ ts enough, ts.length = 29 ∧ ∀ most ≥ enough,
        EndsWith p grid (.repeated wander (.bounded ⟨some 0, some most⟩)) c ts) ∧
      ∃ ts us, EndsWith p grid (.repeated wander .plus) c ts ∧
        EndsWith p grid (.sequence [wander, .repeated wander .star]) c us ∧ ts.length = 28 ∧ ts.Perm us := by
  intro p grid c lost
  have hlength : ∀ (node : Node) (n : Nat), List.length <$> outcomeAt p grid 20 node c = .ok n →
      ∃ ts, ResultsIn p grid node c (.ok ts) ∧ ts.length = n := by
    intro node n h
    obtain ⟨ts, hts, hn⟩ := map_eq_ok_iff.mp h
    exact ⟨ts, resultsIn_of_outcomeAt hts, hn⟩
  obtain ⟨hunroll, hoption, hstar, hplus⟩ := repeated_unrolled p grid wander c
  obtain ⟨hlost, _⟩ := repeated_unrolled p grid lost c
  obtain ⟨twice, htwice, htwelve⟩ :=
    hlength (.repeated wander (.bounded ⟨some 1, some 2⟩)) 12 (by decide +kernel)
  obtain ⟨once, honce, hfive⟩ := hlength (.repeated wander .option) 5 (by decide +kernel)
  obtain ⟨stars, hstars, hall⟩ := hlength (.repeated wander .star) 29 (by decide +kernel)
  obtain ⟨ts, hts, hsome⟩ := hlength (.repeated wander .plus) 28 (by decide +kernel)
  obtain ⟨us, hus, _⟩ := hlength (.sequence [wander, .repeated wander .star]) 28 (by decide +kernel)
  have hmet : outcomeAt p grid 20 (.repeated lost (.bounded ⟨some 0, some 1⟩)) c =
      .error (.fault (.undeclared "lost")) := by decide +kernel
  have hfault : ResultsIn p grid (.repeated lost (.bounded ⟨some 0, some 1⟩)) c (.error (.undeclared "lost")) :=
    resultsIn_of_outcomeAt hmet
  obtain ⟨enough, hbounded⟩ := hstar stars hstars
  exact ⟨⟨twice, (hunroll 1 2 (by decide) _).mp htwice, htwelve⟩, (hlost 0 1 (by decide) _).mp hfault,
    ⟨once, (hoption _).mp honce, hfive⟩, ⟨stars, enough, hall, hbounded⟩, ts, us, hts, hus, hsome,
    hplus ts us hts hus⟩

end GridPattern.Walk
