import GridPattern.Proofs.Search.Meaning
import GridPattern.Proofs.Walk.Alternatives
import Mathlib.Data.Finset.Insert

/-!
# Searches and the order of alternatives

To rearrange the choices of a program changes which of several duplicates a search meets first, and with it
the order in which the cells of a match are told. It does not change which cells are found together, nor the
cell that they are found from.

**The law** (`rearranged_alternatives`). A search keeps, of all that mark the same cells, one that starts
first in reading order (`mem_coverages_firsts_iff`). Which start cells those are and what is marked from them
is a matter of the sets of survivors.

**What it does not establish.** Anything under a budget: other orders take other numbers of steps.
-/

namespace GridPattern

namespace Walk

/-- Rearranged choices leave a program the same survivors. -/
theorem sameMembers_evalProgram {p p' : Program} (h : p.Rearranged p') {grid : Grid} {c : Cursor}
    {ts : List Cursor} (hts : evalProgram p grid c = some (.ok ts)) :
    ∃ ts', evalProgram p' grid c = some (.ok ts') ∧ SameMembers ts ts' := by
  unfold evalProgram at hts ⊢
  cases hentry : p.entry? with
  | none =>
    rw [hentry] at hts
    cases hts
  | some entry =>
    rw [hentry] at hts
    obtain ⟨entry', hentry', hrearranged⟩ := h.entry? hentry
    obtain ⟨v, hv, heq⟩ := Option.map_eq_some_iff.mp hts
    obtain ⟨us, rfl, rfl⟩ := map_eq_ok_iff.mp heq
    obtain ⟨us', hus', hsame⟩ := likewise_eval h hrearranged.body hv
    rw [hentry']
    dsimp only
    rw [hrearranged.params, hus']
    exact ⟨_, rfl, sameMembers_handBack grid entry.params c hsame⟩

end Walk

/-- What a finding tells apart from the order of its marks: where it starts, and which cells it covers. -/
def Finding.coverage (f : Finding) : Cell × Finset Cell := (f.origin, f.cursor.marks.toFinset)

namespace Search

open Walk

/-- **What findings tell apart from all order.** -/
def coverages (found : List Finding) : Finset (Cell × Finset Cell) :=
  (found.map Finding.coverage).toFinset

section Firsts

variable {originInsensitive : Bool} {as bs : List Finding}

/-- What is told of the findings that are kept: all that is told of findings, unless one with the same cells
starts before them. -/
theorem mem_coverages_firsts_iff
    (h : as.Pairwise fun a b => a.origin = b.origin ∨ RowMajor a.origin b.origin)
    {told : Cell × Finset Cell} : told ∈ coverages (firsts (Duplicates originInsensitive) as) ↔
      ∃ f ∈ as, f.coverage = told ∧ ∀ g ∈ as, Duplicates originInsensitive f g →
        f.origin = g.origin ∨ RowMajor f.origin g.origin := by
  have equiv := duplicates_equivalence originInsensitive
  have hfirst : ∀ {m x}, m ∈ firsts (Duplicates originInsensitive) as → x ∈ as →
      Duplicates originInsensitive m x → m.origin = x.origin ∨ RowMajor m.origin x.origin :=
    le_of_mem_firsts equiv (fun _ => .inl rfl) h
  unfold coverages
  rw [List.mem_toFinset, List.mem_map]
  constructor
  · rintro ⟨f, hf, rfl⟩
    exact ⟨f, (firsts_sublist as).subset hf, rfl, fun g hg => hfirst hf hg⟩
  · rintro ⟨f, hf, rfl, hleast⟩
    obtain ⟨m, hm, hmf⟩ := exists_mem_firsts equiv hf
    refine ⟨m, hm, Prod.ext ?_ hmf.1⟩
    -- neither of the two starts before the other
    obtain heq | hlt := hfirst hm hf hmf
    · exact heq
    · obtain heq | hgt := hleast m ((firsts_sublist as).subset hm) (equiv.symm hmf)
      · exact heq.symm
      · exact absurd hgt (RowMajor.asymm hlt)

/-- What is told of the findings that are kept depends on the set of findings only. -/
theorem coverages_firsts_congr
    (has : as.Pairwise fun a b => a.origin = b.origin ∨ RowMajor a.origin b.origin)
    (hbs : bs.Pairwise fun a b => a.origin = b.origin ∨ RowMajor a.origin b.origin)
    (h : SameMembers as bs) : coverages (firsts (Duplicates originInsensitive) as) =
      coverages (firsts (Duplicates originInsensitive) bs) := by
  ext told
  rw [mem_coverages_firsts_iff has, mem_coverages_firsts_iff hbs]
  simp only [h _]

end Firsts

theorem sameMembers_entries {grid : Grid} {survivors survivors' : Cell → Survivors Cursor}
    (h : ∀ origin ∈ grid.startCells,
      SameMembers (survivors origin).toList (survivors' origin).toList) :
    SameMembers (entries grid survivors) (entries grid survivors') := by
  intro f
  unfold entries
  rw [List.mem_flatMap, List.mem_flatMap]
  refine exists_congr fun origin => and_congr_right fun mem => ?_
  exact (h origin mem).map _ f

/-- **Alternatives behave as a set.** Let the choices of a program be rearranged. Wherever a walk without a
budget had survivors there are the same ones, as a set, and where a search without a budget had findings it
tells the same of them. -/
theorem rearranged_alternatives {p p' : Program} (h : p.Rearranged p') (grid : Grid) :
    (∀ c depth count found, ((run ⟨p, grid, none⟩ depth c).runFrom count).1 = .ok found →
      ∃ least, ∀ depth' ≥ least, ∀ count', ∃ found',
        ((run ⟨p', grid, none⟩ depth' c).runFrom count').1 = .ok found' ∧
          SameMembers found.toList found'.toList) ∧
      ∀ originInsensitive patience found,
        find p grid ⟨originInsensitive, none⟩ patience = .ok found →
          ∃ least, ∀ patience' ≥ least, ∃ found',
            find p' grid ⟨originInsensitive, none⟩ patience' = .ok found' ∧
              coverages found' = coverages found := by
  constructor
  · intro c depth count found hrun
    obtain ⟨ts', hts', hsame⟩ := sameMembers_evalProgram h (evalProgram_of_run hrun)
    obtain ⟨least, hleast⟩ := Filter.eventually_atTop.mp
      (eventually_run (s := ⟨p', grid, none⟩) rfl hts')
    refine ⟨least, fun depth' hd count' => ?_⟩
    obtain ⟨found', hfound', rfl⟩ := hleast depth' hd count'
    exact ⟨found', hfound', hsame⟩
  · intro originInsensitive patience found hfind
    obtain ⟨survivors, hsurvivors, rfl⟩ := find_eq_ok_iff.mp hfind
    have hmeaning : ∀ origin, ∃ ts', origin ∈ grid.startCells →
        evalProgram p' grid { cell := origin } = some (.ok ts') ∧
          SameMembers (survivors origin).toList ts' := by
      intro origin
      by_cases mem : origin ∈ grid.startCells
      · obtain ⟨ts', hts'⟩ := sameMembers_evalProgram h (evalProgram_of_run (hsurvivors origin mem))
        exact ⟨ts', fun _ => hts'⟩
      · exact ⟨[], fun hmem => absurd hmem mem⟩
    choose ts' hts' using hmeaning
    obtain ⟨least, hleast⟩ := find_of_evalProgram originInsensitive fun origin mem =>
      (hts' origin mem).1
    refine ⟨least, fun patience' hp => ⟨_, hleast patience' hp, ?_⟩⟩
    refine coverages_firsts_congr (pairwise_entries grid _) (pairwise_entries grid _) ?_
    refine sameMembers_entries fun origin mem => ?_
    rw [Survivors.toList_ofList]
    exact (hts' origin mem).2.symm

/-- Words over `a` and `b` in all directions, and once more straight on. -/
def strewn : Program := ⟨[
  ⟨"main", {}, .sequence [.choice [.direction ⟨['*'], false⟩, .direction .forward],
    .call ⟨"word", .forward, { piggyback := true }⟩]⟩,
  ⟨"word", {}, .repeated (.choice [.literal ['a'], .literal ['b']]) .plus⟩]⟩

/-- The same with its choices the other way round, and one option twice. -/
def restrewn : Program := ⟨[
  ⟨"main", {}, .sequence [.choice [.direction .forward, .direction ⟨['*'], false⟩],
    .call ⟨"word", .forward, { piggyback := true }⟩]⟩,
  ⟨"word", {}, .repeated (.choice [.literal ['b'], .literal ['a'], .literal ['b']]) .plus⟩]⟩

theorem strewn_rearranged : strewn.Rearranged restrewn := by
  refine .cons ⟨rfl, rfl, ?_⟩ (.cons ⟨rfl, rfl, ?_⟩ .nil)
  · refine .single (.part [] _ (.choice ?_))
    intro n
    simp [or_comm]
  · refine .single (.repeated _ (.choice ?_))
    intro n
    simp only [List.mem_cons, List.not_mem_nil, or_false]
    tauto

/-- In `ab` the word is found from either end, and from the left twice as often. Rearranged, the search finds
it in other orders and tells the same of it. -/
theorem rearranged_alternatives_strewn :
    let grid : Grid := ⟨#[#['a', 'b']], by decide⟩
    let left : Cell := ⟨0, 0⟩
    let right : Cell := ⟨1, 0⟩
    let told : Finset (Cell × Finset Cell) :=
      {(left, {left}), (left, {left, right}), (right, {right})}
    strewn.Rearranged restrewn ∧
      (∃ found, find strewn grid ⟨true, none⟩ 10 = .ok found ∧ coverages found = told) ∧
        ∃ least, ∀ patience ≥ least, ∃ found, find restrewn grid ⟨true, none⟩ patience = .ok found ∧
          coverages found = told := by
  intro grid left right told
  have searched : coverages <$> find strewn grid ⟨true, none⟩ 10 = .ok told := by decide +kernel
  obtain ⟨found, hfound, htold⟩ := map_eq_ok_iff.mp searched
  refine ⟨strewn_rearranged, ⟨found, hfound, htold⟩, ?_⟩
  rw [← htold]
  exact (rearranged_alternatives strewn_rearranged grid).2 true 10 found hfound

end Search

end GridPattern
