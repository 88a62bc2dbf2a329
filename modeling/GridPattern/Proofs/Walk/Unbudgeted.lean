import GridPattern.Proofs.Walk.Agreement

/-!
# Walks without a budget

A walk that no budget limits comes to its survivors at every depth that is enough, whatever the count that it
begins with, or it has none to come to. So what such walks come to can be said without depths and counts.

**The law** (`endsWith_iff`). These survivors are those of the pattern's meaning. A walk that has survivors at
one depth has the same at every depth that is enough (`endsWith_of_runFrom`).
-/

namespace GridPattern.Walk

open Survivors Filter

/-- **A walk without a budget ends with these survivors.** -/
def EndsWith (p : Program) (grid : Grid) (node : Node) (c : Cursor) (ts : List Cursor) : Prop :=
  ∃ least, ∀ depth ≥ least, ∀ count,
    ((followAll ⟨p, grid, none⟩ depth node (.one c)).runFrom count).1 = .ok (.ofList ts)

variable {p : Program} {grid : Grid} {node : Node} {c : Cursor} {ts : List Cursor}

/-- What a walk has survived to, its pattern means, under whatever budget. -/
theorem eval_of_runFrom {s : Setting} {depth count : Nat} {found : Survivors Cursor}
    (h : ((followAll s depth node (.one c)).runFrom count).1 = .ok found) :
    eval s.program s.grid node c = some (.ok found.toList) :=
  evalEach_singleton.symm.trans ((sound_follow s depth).each (comesTo_followAll h))

/-- **Without a budget a walk ends with what its pattern means.** -/
theorem endsWith_iff : EndsWith p grid node c ts ↔ eval p grid node c = some (.ok ts) := by
  constructor
  · rintro ⟨least, h⟩
    rw [eval_of_runFrom (h least (Nat.le_refl _) 0), toList_ofList]
  · intro h
    have heach : evalEach (eval p grid node) (Survivors.one c).toList = some (.ok ts) :=
      evalEach_singleton.trans h
    have hanswers : ∀ᶠ depth in atTop,
        Answers toList (followAll ⟨p, grid, .none⟩ depth node (.one c)) (.ok ts) :=
      answers_followAll rfl heach
    obtain ⟨least, hleast⟩ := eventually_atTop.mp hanswers
    refine ⟨least, fun depth hd count => ?_⟩
    obtain ⟨found, hfound, rfl⟩ := (hleast depth hd).of_ok
    obtain ⟨after, hrun⟩ := hfound count
    have hok : ((followAll ⟨p, grid, none⟩ depth node (.one c)).runFrom count).1 = .ok found :=
      congrArg Prod.fst hrun
    rw [hok, ← eq_ofList_of_comesTo (comesTo_followAll hok)]

/-- What a walk has at one depth, it ends with. -/
theorem endsWith_of_runFrom {depth count : Nat} {found : Survivors Cursor}
    (h : ((followAll ⟨p, grid, none⟩ depth node (.one c)).runFrom count).1 = .ok found) :
    EndsWith p grid node c found.toList :=
  endsWith_iff.mpr (eval_of_runFrom h)

/-- What a walk ends with is settled. -/
theorem EndsWith.eq {us : List Cursor} (h : EndsWith p grid node c ts) (h' : EndsWith p grid node c us) :
    ts = us := by
  have heq := (endsWith_iff.mp h).symm.trans (endsWith_iff.mp h')
  injection heq with hok
  injection hok

end GridPattern.Walk
