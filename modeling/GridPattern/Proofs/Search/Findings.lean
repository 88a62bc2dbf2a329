import GridPattern.Proofs.Search.Report
import GridPattern.Proofs.Walk.Agreement

/-!
# What survivors and findings have kept

A survivor has come along a path, and so has a finding: one of the first declaration, from the cell that
it names as its origin. What paths keep, survivors and findings have kept.

**The law** (`marks_append_only`, `switches_never_leak`). Marks and ages of groups are only ever added,
marks in the order in which cells were marked first. Switches are those of the beginning, whatever was
switched on between. A call gives its caller back, and a finding is back at its origin, unless the
pattern called asks for its end.

**What it does not establish.** Which paths there are; that is `followAll_agreement`.
-/

namespace GridPattern

open Walk

namespace Walk

variable {s : Setting} {depth count : Nat} {node : Node} {cursors found : Survivors Cursor} {t : Cursor}

/-- A survivor of a walk is reached from one of the cursors that set out. -/
theorem exists_reaches_of_followAll (h : ((followAll s depth node cursors).runFrom count).1 = .ok found)
    (mem : t ∈ found.toList) : ∃ c ∈ cursors.toList, Reaches s.program s.grid node c t := by
  obtain ⟨tss, hall, heq⟩ := evalEach_eq_ok_iff.mp ((sound_follow s depth).each (comesTo_followAll h))
  rw [heq] at mem
  obtain ⟨ts, hts, mem⟩ := List.mem_flatten.mp mem
  obtain ⟨c, hc, heval⟩ := exists_mem_of_forall₂ hall.flip hts
  exact ⟨c, hc, reaches_of_eval heval mem⟩

theorem reaches_of_followAll {c : Cursor}
    (h : ((followAll s depth node (.one c)).runFrom count).1 = .ok found) (mem : t ∈ found.toList) :
    Reaches s.program s.grid node c t := by
  obtain ⟨_, hc, path⟩ := exists_reaches_of_followAll h mem
  cases List.mem_singleton.mp hc
  exact path

end Walk

namespace Search

variable {program : Program} {grid : Grid} {options : Options} {patience : Nat} {found : List Finding}
  {f : Finding}

/-- A finding survives the walk from its origin. -/
theorem survives_of_find (h : find program grid options patience = .ok found) (mem : f ∈ found) :
    ∃ survivors, outcomeFrom ⟨program, grid, options.stepBudget⟩ patience f.origin = .ok survivors ∧
      f.cursor ∈ survivors.toList := by
  obtain ⟨all, hall, rfl⟩ := map_eq_ok_iff.mp h
  obtain ⟨survivors, houtcome, rfl⟩ := findings_eq_ok hall
  obtain ⟨origin, ho, hf⟩ := List.mem_flatMap.mp ((eraseDupsBy_sublist _ _).mem mem)
  obtain ⟨c, hc, rfl⟩ := List.mem_map.mp hf
  exact ⟨survivors origin, houtcome origin ho, hc⟩

/-- **A finding has come from its origin**, along a call of the first declaration. -/
theorem reaches_of_find (h : find program grid options patience = .ok found) (mem : f ∈ found) :
    ∃ entry, program.entry? = some entry ∧
      Reaches program grid (.call ⟨entry.name, .forward, {}⟩) { cell := f.origin } f.cursor := by
  obtain ⟨survivors, houtcome, hsurvives⟩ := survives_of_find h mem
  obtain ⟨entry, hentry, heval⟩ := eval_of_run rfl houtcome
  exact ⟨entry, hentry, reaches_of_eval heval hsurvives⟩

/-- **Marks and ages of groups are only added.** A survivor has the marks of its cursor and then others,
each of them once, and the settled groups of its cursor as they were. The marks of a match are what was
marked on the way to it, in the order in which it was marked first. -/
theorem marks_append_only (program : Program) (grid : Grid) :
    (∀ budget depth count node c found,
      ((followAll ⟨program, grid, budget⟩ depth node (.one c)).runFrom count).1 = .ok found →
      ∀ t ∈ found.toList, Extends c.marks t.marks ∧
        ∀ slot age, c.groupAges.get slot = some age → t.groupAges.get slot = some age) ∧
    ∀ options patience found, find program grid options patience = .ok found →
      ∀ f ∈ found, f.toMatch.marks.Nodup ∧
        ∃ entry history, program.entry? = some entry ∧
          Travels program grid (.call ⟨entry.name, .forward, {}⟩) { cell := f.origin } history f.cursor ∧
          f.toMatch.marks = (history.filterMap Event.marked?).eraseDups := by
  constructor
  · intro budget depth count node c found h t mem
    have path := reaches_of_followAll h mem
    obtain ⟨history, travels⟩ := path.exists_travels
    refine ⟨path.extends_marks, fun slot age hsettled => ?_⟩
    rw [travels.groupAges_eq]
    exact foldl_settle_of_settled hsettled history
  · intro options patience found h f mem
    obtain ⟨entry, hentry, path⟩ := reaches_of_find h mem
    obtain ⟨history, travels⟩ := path.exists_travels
    have hmarks : f.cursor.marks = (history.filterMap Event.marked?).eraseDups :=
      travels.marks_eq.trans (markAll_empty _)
    exact ⟨path.extends_marks.nodup List.nodup_nil, entry, history, hentry, travels, hmarks⟩

/-- A way to the edge and back, as long in either direction. -/
def thereAndBack : Program :=
  let leg : Node := .call ⟨"leg", .forward, { piggyback := true, group := some 1 }⟩
  ⟨[⟨"way", {}, .sequence [leg, .direction ⟨['B'], false⟩, .outside, leg]⟩,
    ⟨"leg", {}, .repeated .inside .plus⟩]⟩

/-- In `ab` the way begins on either letter. Its cells are marked on the way there, and the way back adds
none. A cursor that has a mark and a settled group keeps both. -/
theorem marks_append_only_there_and_back :
    let grid : Grid := ⟨#[#['a', 'b']], by decide⟩
    let settled : Vector (Option Nat) groupCount := (Vector.replicate groupCount none).set 1 (some 2)
    let start : Cursor := { cell := ⟨0, 0⟩, marks := [⟨1, 0⟩], groupAges := settled }
    (∃ t, ((followAll ⟨thereAndBack, grid, none⟩ 9 (.call ⟨"way", .forward, {}⟩)
        (.one start)).runFrom 0).1 = .ok (.one t) ∧ t.marks = [⟨1, 0⟩, ⟨0, 0⟩, ⟨2, 0⟩] ∧ Extends start.marks t.marks ∧
        t.groupAges.get (Cursor.groupSlot 1) = some 2) ∧
      ∃ found, find thereAndBack grid {} 0 = .ok found ∧
        found.map Finding.toMatch = [⟨⟨0, 0⟩, [⟨0, 0⟩, ⟨1, 0⟩, ⟨2, 0⟩]⟩, ⟨⟨1, 0⟩, [⟨1, 0⟩, ⟨2, 0⟩]⟩] ∧
        ∀ f ∈ found, f.toMatch.marks.Nodup := by
  intro grid settled start
  obtain ⟨hkeeps, hfind⟩ := marks_append_only thereAndBack grid
  let t : Cursor := { start with marks := [⟨1, 0⟩, ⟨0, 0⟩, ⟨2, 0⟩] }
  have walked : ((followAll ⟨thereAndBack, grid, none⟩ 9 (.call ⟨"way", .forward, {}⟩)
      (.one start)).runFrom 0).1 = .ok (.one t) := by decide +kernel
  have reported : List.map Finding.toMatch <$> find thereAndBack grid {} 0 =
      .ok [⟨⟨0, 0⟩, [⟨0, 0⟩, ⟨1, 0⟩, ⟨2, 0⟩]⟩, ⟨⟨1, 0⟩, [⟨1, 0⟩, ⟨2, 0⟩]⟩] := by decide +kernel
  obtain ⟨hextends, hsettled⟩ := hkeeps none 9 0 _ start _ walked t (List.mem_singleton_self t)
  obtain ⟨found, hfound, hmatch⟩ := map_eq_ok_iff.mp reported
  exact ⟨⟨t, walked, rfl, hextends, hsettled (Cursor.groupSlot 1) 2 rfl⟩, found, hfound, hmatch,
    fun f mem => (hfind {} 0 found hfound f mem).1⟩

/-- **Switches never leak, and a call gives its caller back.** A survivor has the switches of its cursor
and is no younger. After a call that is neither piggyback nor in advance it is the cursor that called,
but for new marks and ages of groups, and so a match of such a program ends as it began. -/
theorem switches_never_leak (program : Program) (grid : Grid) :
    (∀ budget depth count node c found,
      ((followAll ⟨program, grid, budget⟩ depth node (.one c)).runFrom count).1 = .ok found →
      ∀ t ∈ found.toList, t.switches = c.switches ∧ c.age ≤ t.age) ∧
    (∀ (target : Call) declared, program.declaration? target.name = some declared →
      (target.params.merged declared.params).piggyback = false →
      (target.params.merged declared.params).advance = false →
      ∀ budget depth count c found,
        ((followAll ⟨program, grid, budget⟩ depth (.call target) (.one c)).runFrom count).1 = .ok found →
        ∀ t ∈ found.toList, t = { c with marks := t.marks, groupAges := t.groupAges }) ∧
    ∀ entry, program.entry? = some entry →
      entry.params.piggyback = false → entry.params.advance = false →
      ∀ options patience found, find program grid options patience = .ok found →
        ∀ f ∈ found, f.cursor =
          { cell := f.origin, heading := .east, age := 0, switches := {}, wrapped := false,
            marks := f.toMatch.marks, groupAges := f.cursor.groupAges } := by
  refine ⟨?_, ?_, ?_⟩
  · intro budget depth count node c found h t mem
    have kept := (reaches_of_followAll h mem).keeps
    exact ⟨kept.switches, kept.age⟩
  · intro target declared hd hpiggyback hadvance budget depth count c found h t mem
    exact (reaches_of_followAll h mem).eq_caller hd hpiggyback hadvance
  · intro entry hentry hpiggyback hadvance options patience found h f mem
    obtain ⟨entry', hentry', path⟩ := reaches_of_find h mem
    cases hentry.symm.trans hentry'
    refine path.eq_caller (Program.declaration?_of_entry hentry) ?_ ?_
    · exact hpiggyback
    · exact hadvance

/-- Without a mark, away from where it was called and a step on: so the way ends where it was asked to,
and yet with the switches of the beginning. Called for nothing of the kind it ends where it began. -/
theorem switches_never_leak_there_and_back :
    let grid : Grid := ⟨#[#['a', 'b']], by decide⟩
    let start : Cursor := { cell := ⟨0, 0⟩, age := 5, switches := { insensitive := true } }
    let way (params : Params) : Node := .call ⟨"way", .forward, params⟩
    let away : Node := .look .unmarked
      (way { switches := { exclusive := true }, piggyback := true, advance := true })
    let walk (node : Node) : Except Stop (Survivors Cursor) :=
      ((followAll ⟨thereAndBack, grid, none⟩ 9 node (.one start)).runFrom 0).1
    (∃ t, walk away = .ok (.one t) ∧ t.cell = ⟨-2, 0⟩ ∧
        t.switches = start.switches ∧ start.age ≤ t.age) ∧
      (∃ t, walk (way {}) = .ok (.one t) ∧ t.marks = [⟨0, 0⟩, ⟨1, 0⟩, ⟨2, 0⟩] ∧
        t = { start with marks := t.marks, groupAges := t.groupAges }) ∧
      ∃ found, find thereAndBack grid {} 0 = .ok found ∧ found.map Finding.origin = [⟨0, 0⟩, ⟨1, 0⟩] ∧
        ∀ f ∈ found, f.cursor.cell = f.origin ∧ f.cursor.heading = .east := by
  intro grid start way away walk
  obtain ⟨hkeeps, hcaller, hfind⟩ := switches_never_leak thereAndBack grid
  let settled : Vector (Option Nat) groupCount := (Vector.replicate groupCount none).set 1 (some 2)
  let gone : Cursor :=
    { start with cell := ⟨-2, 0⟩, heading := ⟨-1, 0⟩, age := 6, groupAges := settled }
  let back : Cursor := { start with marks := [⟨0, 0⟩, ⟨1, 0⟩, ⟨2, 0⟩], groupAges := settled }
  have hgone : walk away = .ok (.one gone) := by decide +kernel
  have hback : walk (way {}) = .ok (.one back) := by decide +kernel
  have reported : List.map Finding.origin <$> find thereAndBack grid {} 0 =
      .ok [⟨0, 0⟩, ⟨1, 0⟩] := by decide +kernel
  obtain ⟨hswitches, hage⟩ := hkeeps none 9 0 away start _ hgone gone (List.mem_singleton_self gone)
  have heq := hcaller ⟨"way", .forward, {}⟩ _ rfl rfl rfl none 9 0 start _ hback back
    (List.mem_singleton_self back)
  obtain ⟨found, hfound, horigins⟩ := map_eq_ok_iff.mp reported
  have hends := hfind _ rfl rfl rfl {} 0 found hfound
  refine ⟨⟨gone, hgone, rfl, hswitches, hage⟩, ⟨back, hback, rfl, heq⟩, found, hfound, horigins, ?_⟩
  intro f mem
  rw [hends f mem]
  exact ⟨rfl, rfl⟩

end Search

end GridPattern
