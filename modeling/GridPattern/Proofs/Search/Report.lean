import GridPattern.Proofs.Search.Distinct
import GridPattern.Proofs.Walk.Soundness

/-!
# What a search reports

A search walks the program from every start cell, row by row, and keeps one match of each kind.

**The law** (`find_correct`). Where it ends, every walk ended, and it reports exactly what has no
earlier duplicate among all survivors, in their order. Where it stops, some walk stopped, and the search
stops for the reason of the first one, after walks that all ended.

**What it does not establish.** What a walk comes to; that is `Walk.followAll_agreement`.
-/

namespace GridPattern

open Walk

/-! ## Rows of walks -/

section Rows

variable {ε α β : Type} {f : α → Except ε β} {as : List α}

theorem flatten_eq_flatMap {g : α → List β} {rows : List (List β)}
    (h : List.Forall₂ (fun a row => row = g a) as rows) : rows.flatten = as.flatMap g := by
  induction h with
  | nil => rfl
  | cons head _ ih => rw [List.flatten_cons, List.flatMap_cons, head, ih]

theorem mapM_cons_ok {a : α} {b : β} (h : f a = .ok b) :
    (a :: as).mapM f = (as.mapM f).map (b :: ·) := by
  rw [List.mapM_cons, h]
  cases as.mapM f <;> rfl

theorem mapM_cons_error {a : α} {stop : ε} (h : f a = .error stop) :
    (a :: as).mapM f = .error stop := by
  rw [List.mapM_cons, h]
  rfl

theorem mapM_eq_ok_iff {bs : List β} :
    as.mapM f = .ok bs ↔ List.Forall₂ (fun a b => f a = .ok b) as bs := by
  induction as generalizing bs with
  | nil =>
    constructor
    · intro hfalse
      cases hfalse
      exact .nil
    · intro hfalse
      cases hfalse
      rfl
  | cons a as ih =>
    cases ha : f a with
    | error stop =>
      rw [mapM_cons_error ha]
      constructor
      · intro hfalse
        cases hfalse
      · intro found
        rcases found with _ | ⟨head, _⟩
        cases ha.symm.trans head
    | ok b =>
      rw [mapM_cons_ok ha]
      constructor
      · intro h
        cases htail : as.mapM f with
        | error stop =>
          rw [htail] at h
          cases h
        | ok bs' =>
          rw [htail] at h
          cases h
          exact .cons ha (ih.mp htail)
      · intro found
        rcases found with _ | ⟨head, tail⟩
        cases ha.symm.trans head
        rw [ih.mpr tail]
        rfl

/-- A row stops for the reason of the first that stops. -/
theorem mapM_eq_error_iff {stop : ε} :
    as.mapM f = .error stop ↔ ∃ before a after, as = before ++ a :: after ∧
      (∀ b ∈ before, ∃ r, f b = .ok r) ∧ f a = .error stop := by
  induction as with
  | nil =>
    constructor
    · intro hfalse
      cases hfalse
    · intro found
      rcases found with ⟨before, a, after, heq, _⟩
      cases before <;> cases heq
  | cons a as ih =>
    cases ha : f a with
    | error cause =>
      rw [mapM_cons_error ha]
      constructor
      · intro hfalse
        cases hfalse
        exact ⟨[], a, as, rfl, by simp, ha⟩
      · intro found
        rcases found with ⟨before, a', after, heq, hbefore, ha'⟩
        cases before with
        | nil =>
          cases heq
          cases ha.symm.trans ha'
          rfl
        | cons b before =>
          cases heq
          obtain ⟨r, hr⟩ := hbefore a List.mem_cons_self
          cases ha.symm.trans hr
    | ok b =>
      have hrow : (a :: as).mapM f = .error stop ↔ as.mapM f = .error stop := by
        rw [mapM_cons_ok ha]
        cases as.mapM f with
        | error cause => exact Iff.rfl
        | ok bs => exact ⟨nofun, nofun⟩
      rw [hrow, ih]
      constructor
      · intro found
        rcases found with ⟨before, a', after, rfl, hbefore, ha'⟩
        exact ⟨a :: before, a', after, rfl, List.forall_mem_cons.mpr ⟨⟨b, ha⟩, hbefore⟩, ha'⟩
      · intro found
        rcases found with ⟨before, a', after, heq, hbefore, ha'⟩
        cases before with
        | nil =>
          cases heq
          cases ha.symm.trans ha'
        | cons b' before =>
          cases heq
          exact ⟨before, a', after, rfl, (List.forall_mem_cons.mp hbefore).2, ha'⟩

end Rows

/-! ## Searches -/

namespace Search

/-- What the program comes to from one start cell. -/
def outcomeFrom (s : Setting) (patience : Nat) (origin : Cell) : Except Stop (Survivors Cursor) :=
  ((Walk.run s (Walk.depthFor s.budget patience) { cell := origin }).runFrom 0).1

/-- All survivors from all start cells: row by row, and those of one cell in their order. -/
def entries (grid : Grid) (survivors : Cell → Survivors Cursor) : List Finding :=
  grid.startCells.flatMap fun origin => (survivors origin).toList.map (⟨origin, ·⟩)

/-- What is reported, of the survivors from each start cell. -/
structure Reports (grid : Grid) (originInsensitive : Bool) (survivors : Cell → Survivors Cursor)
    (found : List Finding) : Prop where
  /-- All entries without an earlier duplicate are reported, in order, and nothing else. -/
  firsts : found = firsts (Duplicates originInsensitive) (entries grid survivors)
  distinct : found.Pairwise fun a b => ¬Duplicates originInsensitive a b
  /-- Every entry has exactly one representative. -/
  represented : ∀ entry ∈ entries grid survivors,
    ∃! m, m ∈ found ∧ Duplicates originInsensitive m entry
  rowMajor : found.Pairwise fun a b => a.origin = b.origin ∨ RowMajor a.origin b.origin

/-- No mark is made twice on the way to a survivor. -/
theorem nodup_of_outcomeFrom {s : Setting} {patience : Nat} {origin : Cell}
    {found : Survivors Cursor} (h : outcomeFrom s patience origin = .ok found) {c : Cursor}
    (mem : c ∈ found.toList) : c.marks.Nodup := by
  obtain ⟨entry, _, heval⟩ := eval_of_run rfl h
  exact (reaches_of_eval heval mem).extends_marks.nodup List.nodup_nil

/-- No entry marks a cell twice. -/
theorem nodup_of_mem_entries {s : Setting} {patience : Nat}
    {survivors : Cell → Survivors Cursor}
    (h : ∀ origin ∈ s.grid.startCells, outcomeFrom s patience origin = .ok (survivors origin)) :
    ∀ f ∈ entries s.grid survivors, f.cursor.marks.Nodup := by
  intro f mem
  obtain ⟨origin, ho, hf⟩ := List.mem_flatMap.mp mem
  obtain ⟨c, hc, rfl⟩ := List.mem_map.mp hf
  exact nodup_of_outcomeFrom (h origin ho) hc

theorem pairwise_entries (grid : Grid) (survivors : Cell → Survivors Cursor) :
    (entries grid survivors).Pairwise fun a b => a.origin = b.origin ∨ RowMajor a.origin b.origin := by
  refine List.pairwise_flatMap.mpr ⟨fun origin _ => ?_, ?_⟩
  · exact List.pairwise_map.mpr (List.pairwise_of_forall fun _ _ => .inl rfl)
  · apply grid.pairwise_startCells.imp
    intro origin origin' h a ha b hb
    obtain ⟨_, _, rfl⟩ := List.mem_map.mp ha
    obtain ⟨_, _, rfl⟩ := List.mem_map.mp hb
    exact .inr h

theorem reports_firsts (grid : Grid) (originInsensitive : Bool)
    (survivors : Cell → Survivors Cursor) :
    Reports grid originInsensitive survivors
      (Search.firsts (Duplicates originInsensitive) (entries grid survivors)) where
  firsts := rfl
  distinct := pairwise_firsts _
  represented _ mem := existsUnique_mem_firsts (duplicates_equivalence _) mem
  rowMajor := (pairwise_entries grid survivors).sublist (firsts_sublist _)

theorem findingsFrom_eq (s : Setting) (patience : Nat) (origin : Cell) :
    findingsFrom s patience origin =
      (fun found : Survivors Cursor => found.toList.map (⟨origin, ·⟩)) <$>
        outcomeFrom s patience origin := rfl

/-- Where a search has findings, every walk has ended, and they are all of its survivors. -/
theorem findings_eq_ok {s : Setting} {patience : Nat} {found : List Finding}
    (h : findings s patience = .ok found) : ∃ survivors : Cell → Survivors Cursor,
      (∀ origin ∈ s.grid.startCells, outcomeFrom s patience origin = .ok (survivors origin)) ∧
        found = entries s.grid survivors := by
  obtain ⟨rows, hrows, rfl⟩ := map_eq_ok_iff.mp h
  let survivors (origin : Cell) : Survivors Cursor :=
    match outcomeFrom s patience origin with
    | .ok found => found
    | .error _ => .none
  have hall : List.Forall₂ (fun origin row =>
      outcomeFrom s patience origin = .ok (survivors origin) ∧
        row = (survivors origin).toList.map (⟨origin, ·⟩)) s.grid.startCells rows := by
    apply (mapM_eq_ok_iff.mp hrows).imp
    intro origin row h
    rw [findingsFrom_eq] at h
    obtain ⟨found, ho, rfl⟩ := map_eq_ok_iff.mp h
    have hs : survivors origin = found := by simp only [survivors, ho]
    rw [hs]
    exact ⟨ho, rfl⟩
  refine ⟨survivors, fun origin mem => ?_, flatten_eq_flatMap (hall.imp fun _ _ h => h.2)⟩
  obtain ⟨_, _, h⟩ := exists_mem_of_forall₂ hall mem
  exact h.1

theorem findings_eq_error_iff {s : Setting} {patience : Nat} {stop : Stop} :
    findings s patience = .error stop ↔ ∃ before origin after,
      s.grid.startCells = before ++ origin :: after ∧
        (∀ cell ∈ before, ∃ found, outcomeFrom s patience cell = .ok found) ∧
          outcomeFrom s patience origin = .error stop := by
  have hok : ∀ cell, (∃ row, findingsFrom s patience cell = .ok row) ↔
      ∃ found, outcomeFrom s patience cell = .ok found := by
    intro cell
    simp only [findingsFrom_eq, map_eq_ok_iff]
    exact ⟨fun ⟨_, found, h, _⟩ => ⟨found, h⟩, fun ⟨found, h⟩ => ⟨_, found, h, rfl⟩⟩
  have hstop : ∀ cell, findingsFrom s patience cell = .error stop ↔
      outcomeFrom s patience cell = .error stop := by
    intro cell
    rw [findingsFrom_eq, map_eq_error_iff]
  unfold findings
  rw [map_eq_error_iff, mapM_eq_error_iff]
  simp only [hok, hstop]

/-- **A search reports one match of each kind, the first of it**, and stops with the first walk that
stops. -/
theorem find_correct (program : Program) (grid : Grid) (options : Options) (patience : Nat) :
    let s : Setting := ⟨program, grid, options.stepBudget⟩
    (∀ found, find program grid options patience = .ok found →
      ∃ survivors : Cell → Survivors Cursor,
        (∀ origin ∈ grid.startCells, outcomeFrom s patience origin = .ok (survivors origin)) ∧
          Reports grid options.originInsensitive survivors found) ∧
      ∀ stop, find program grid options patience = .error stop ↔
        ∃ before origin after, grid.startCells = before ++ origin :: after ∧
          (∀ cell ∈ before, ∃ found, outcomeFrom s patience cell = .ok found) ∧
            outcomeFrom s patience origin = .error stop := by
  intro s
  constructor
  · intro found h
    obtain ⟨all, hall, heq⟩ := map_eq_ok_iff.mp h
    obtain ⟨survivors, houtcome, rfl⟩ := findings_eq_ok hall
    refine ⟨survivors, houtcome, ?_⟩
    have hmarks := nodup_of_mem_entries (s := s) houtcome
    rw [← heq, distinct_eq_firsts _ hmarks]
    exact reports_firsts grid options.originInsensitive survivors
  · intro stop
    exact map_eq_error_iff.trans findings_eq_error_iff

/-- Two letters `a` beside each other, in any direction. -/
def pair : Program := ⟨[⟨"pair", {}, .sequence [.direction ⟨['*'], false⟩, .literal ['a', 'a']]⟩]⟩

/-- In `aa` the pair is found from either end. With origins of no interest the two are duplicates, though
their marks come in another order, and the first is reported. -/
theorem find_correct_pair :
    let grid : Grid := ⟨#[#['a', 'a']], by decide⟩
    ∃ found survivors, find pair grid { originInsensitive := true, stepBudget := none } 10 = .ok found ∧
      found.map Finding.toMatch = [⟨⟨0, 0⟩, [⟨0, 0⟩, ⟨1, 0⟩]⟩] ∧ Reports grid true survivors found := by
  intro grid
  have reported : List.map Finding.toMatch <$>
      find pair grid { originInsensitive := true, stepBudget := none } 10 =
        .ok [⟨⟨0, 0⟩, [⟨0, 0⟩, ⟨1, 0⟩]⟩] := by decide +kernel
  obtain ⟨found, hfound, hmatch⟩ := map_eq_ok_iff.mp reported
  obtain ⟨survivors, _, hreports⟩ :=
    (find_correct pair grid { originInsensitive := true, stepBudget := none } 10).1 found hfound
  exact ⟨found, survivors, hfound, hmatch, hreports⟩

/-! ## Searches for code -/

section Read

variable {code text : String} {options : Options} {patience : Nat} {tokens : List Token}

theorem withCode_of_scan (h : Token.scan code = .ok tokens) :
    withCode code text options patience = withTokens tokens text options patience := by
  have htokens : tokensOf code = .ok tokens := congrArg (Except.mapError _) h
  simp only [withCode, htokens, Bind.bind, Except.bind]

theorem withCode_of_scan_error {faults : List (Located ScanFault)} (h : Token.scan code = .error faults) :
    withCode code text options patience = .error (.errors (faults.map .scan)) := by
  have htokens : tokensOf code = .error (.errors (faults.map .scan)) := congrArg (Except.mapError _) h
  simp only [withCode, htokens, Bind.bind, Except.bind]

theorem withTokens_of_parse {program : Program} (h : Program.ofTokens tokens = .ok program) :
    withTokens tokens text options patience = withProgram program text options patience := by
  have hprogram : programOf tokens = .ok program := congrArg (Except.mapError _) h
  simp only [withTokens, hprogram, Bind.bind, Except.bind]

theorem withTokens_of_parse_error {faults : List (Located ParseFault)}
    (h : Program.ofTokens tokens = .error faults) :
    withTokens tokens text options patience = .error (.errors (faults.map .parse)) := by
  have hprogram : programOf tokens = .error (.errors (faults.map .parse)) := congrArg (Except.mapError _) h
  simp only [withTokens, hprogram, Bind.bind, Except.bind]

end Read

end Search

end GridPattern
