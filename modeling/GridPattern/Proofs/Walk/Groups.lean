import GridPattern.Proofs.Walk.Recorded

/-!
# Groups

All calls of one group have the same length, on the whole way of a survivor. A cursor does not remember
its calls; for each group it has the age at which the first of them came to its end, and it is held to that
age whenever another does. The age that is held to it is that of the call, set to zero when the call
begins and given back to the caller afterwards.

**The law** (`groups_force_equal_ages`). The settled ages do as well as the whole record. A walk that drops
who does not fit the settled age has the survivors of one that settles nothing and drops whose record would
show two ages of one group; and the record of a survivor has, of each group that is settled, the settled age
and no other.

**What it does not establish.** Anything about a cursor that begins with settled ages: those are of calls
that no record has.
-/

namespace GridPattern

/-! ## Records that agree -/

/-- **Calls of one group came to their end at one age.** -/
def Agree (ended : List (Nat × Nat)) : Prop := ∀ e ∈ ended, ∀ e' ∈ ended, e.1 = e'.1 → e.2 = e'.2

instance (ended : List (Nat × Nat)) : Decidable (Agree ended) :=
  inferInstanceAs (Decidable (∀ e ∈ ended, ∀ e' ∈ ended, e.1 = e'.1 → e.2 = e'.2))

/-- One more call agrees if those of its group before it had the same age. -/
theorem agree_append_singleton_iff {ended : List (Nat × Nat)} (h : Agree ended) {group age : Nat} :
    Agree (ended ++ [(group, age)]) ↔ ∀ before, (group, before) ∈ ended → before = age := by
  constructor
  · intro hall before mem
    exact hall _ (List.mem_append_left _ mem) _ (List.mem_append_right _ List.mem_cons_self) rfl
  · rintro hnew ⟨g, a⟩ he ⟨g', a'⟩ he' heq
    cases heq
    simp only [List.mem_append, List.mem_singleton, Prod.mk.injEq] at he he'
    rcases he with he | ⟨rfl, rfl⟩ <;> rcases he' with he' | ⟨hsame, rfl⟩
    · exact h (g, a) he (g, a') he' rfl
    · cases hsame
      exact hnew a he
    · exact (hnew a' he').symm
    · rfl

namespace Cursor

variable {c : Cursor} {group settled : Nat}

theorem groupSlot_inj {group group' : Nat} (h : group < groupCount) (h' : group' < groupCount)
    (heq : groupSlot group = groupSlot group') : group = group' := by
  have hval : group % groupCount = group' % groupCount := congrArg Fin.val heq
  rwa [Nat.mod_eq_of_lt h, Nat.mod_eq_of_lt h'] at hval

/-- Where nothing else is settled an age is settled. -/
theorem get_settle_self {ages : Vector (Option Nat) groupCount} {age : Nat}
    (h : ∀ settled, ages.get (groupSlot group) = some settled → settled = age) :
    (settle ages group age).get (groupSlot group) = some age := by
  rw [get_settle, if_pos rfl]
  cases hslot : ages.get (groupSlot group) with
  | none => rfl
  | some settled =>
    rw [h settled hslot]
    rfl

/-- Groups are settled apart from one another. -/
theorem get_settle_of_ne {group' : Nat} (h : group < groupCount) (h' : group' < groupCount)
    (hne : group' ≠ group) (ages : Vector (Option Nat) groupCount) (age : Nat) :
    (settle ages group age).get (groupSlot group') = ages.get (groupSlot group') := by
  rw [get_settle, if_neg (mt (groupSlot_inj h' h) hne)]

/-- A cursor keeps to its group if what is settled is its age. -/
theorem agree?_eq_some
    (h : ∀ settled, c.groupAges.get (groupSlot group) = some settled → settled = c.age) :
    c.agree? group = some { c with groupAges := settle c.groupAges group c.age } := by
  cases hagree : c.agree? group with
  | some t => rw [eq_of_agree hagree]
  | none =>
    unfold agree? at hagree
    split at hagree
    · cases hagree
    · next settled hsettled =>
      rw [if_pos (h settled hsettled)] at hagree
      cases hagree

theorem agree?_eq_none (h : c.groupAges.get (groupSlot group) = some settled) (hne : settled ≠ c.age) :
    c.agree? group = none := by
  have hget : c.groupAges[groupSlot group] = some settled := h
  rw [agree?, hget]
  exact if_neg hne

/-! ## Nothing settled -/

/-- The cursor with no age settled. -/
def unsettled (c : Cursor) : Cursor := { c with groupAges := .replicate groupCount none }

theorem markHere_unsettled (c : Cursor) : c.unsettled.markHere = c.markHere.unsettled := by
  have hmarked : c.unsettled.isMarked = c.isMarked := rfl
  unfold markHere
  rw [apply_ite unsettled, hmarked]
  rfl

theorem step_unsettled (c : Cursor) (grid : Grid) (marking : Bool) :
    c.unsettled.step? grid marking = (c.step? grid marking).map unsettled := by
  have hleave : c.unsettled.mayLeave = c.mayLeave := rfl
  unfold step?
  rw [hleave]
  cases c.mayLeave with
  | false => rfl
  | true =>
    cases marking with
    | false => rfl
    | true =>
      simp only [if_true, markHere_unsettled]
      rfl

end Cursor

namespace Walk

open Cursor

theorem headings_unsettled (grid : Grid) (way : Direction) (c : Cursor) :
    headings? grid way c.unsettled = (headings? grid way c).map (List.map unsettled) := by
  have hstart : (if way.absolute then { c.unsettled with heading := .east } else c.unsettled) =
      (if way.absolute then { c with heading := .east } else c).unsettled := by
    split <;> rfl
  unfold headings?
  simp only [hstart]
  generalize (if way.absolute then { c with heading := .east } else c) = start
  cases Turn.ofLetters? way.turns with
  | none => rfl
  | some turn =>
    cases turn with
    | relative b => rfl
    | branch bends =>
      simp only [Option.map_some, List.map_map]
      rfl
    | everywhere =>
      simp only [Option.map_some, List.map_map]
      rfl

theorem stepOn_unsettled (grid : Grid) (params : Params) (c : Cursor) :
    Walker.stepOn? grid params c.unsettled = (Walker.stepOn? grid params c).map unsettled := by
  cases hadvance : params.advance with
  | false =>
    rw [Walker.stepOn?_of_not_advance hadvance]
    rfl
  | true =>
    rw [Walker.stepOn?_of_advance hadvance]
    exact step_unsettled c grid false

end Walk

/-! ## Settled ages and records -/

namespace Recorded

/-- The cursor with its record and no age settled. -/
def unsettled (r : Recorded) : Recorded := { r with cursor := r.cursor.unsettled }

/-- **The settled ages are those of the record**, which has no two of one group. -/
structure Balanced (r : Recorded) : Prop where
  agree : Agree r.ended
  settled : ∀ group < groupCount, ∀ age,
    r.cursor.groupAges.get (Cursor.groupSlot group) = some age ↔ (group, age) ∈ r.ended

variable {r t : Recorded}

/-- One more call agrees if its age fits what is settled. -/
theorem Balanced.agree_append_iff (h : r.Balanced) {group : Nat} (hlt : group < groupCount) :
    Agree (r.ended ++ [(group, r.cursor.age)]) ↔
      ∀ settled, r.cursor.groupAges.get (Cursor.groupSlot group) = some settled →
        settled = r.cursor.age := by
  rw [agree_append_singleton_iff h.agree]
  refine forall_congr' fun settled => ?_
  rw [h.settled group hlt settled]

theorem Balanced.congr (h : r.Balanced) (hages : t.cursor.groupAges = r.cursor.groupAges)
    (hended : t.ended = r.ended) : t.Balanced where
  agree := by
    rw [hended]
    exact h.agree
  settled := by
    rw [hended, hages]
    exact h.settled

theorem balanced_start {c : Cursor} (h : c.groupAges = .replicate groupCount none) :
    Balanced { cursor := c } where
  agree := nofun
  settled group _ age := by
    rw [h]
    simp [Vector.get]

end Recorded

namespace Walk

open Recorded

variable {r : Recorded} {caller : Cursor} {params : Params}

/-- The record once the call has come to its end. -/
def endedWith (params : Params) (r : Recorded) : List (Nat × Nat) :=
  r.ended ++ params.group.toList.map (·, r.cursor.age)

/-- The ages once the call has come to its end. -/
def settledWith (params : Params) (r : Recorded) : Vector (Option Nat) groupCount :=
  params.group.toList.foldl (Cursor.settle · · r.cursor.age) r.cursor.groupAges

/-- Whose record would agree comes back from the call. -/
theorem returned_of_agree (h : r.Balanced) (hgroup : ∀ group ∈ params.group, group < groupCount)
    (hagree : Agree (endedWith params r)) :
    returned? params caller r.cursor =
      some ({ r.cursor with groupAges := settledWith params r }.returnTo caller params.piggyback) := by
  unfold returned? settledWith
  unfold endedWith at hagree
  cases hg : params.group with
  | none => rfl
  | some group =>
    rw [hg] at hagree
    have hfits := (h.agree_append_iff (hgroup group hg)).mp hagree
    simp only [Cursor.agree?_eq_some hfits]
    rfl

/-- Whose record would not agree is dropped. -/
theorem returned_of_not_agree (h : r.Balanced) (hgroup : ∀ group ∈ params.group, group < groupCount)
    (hagree : ¬Agree (endedWith params r)) : returned? params caller r.cursor = none := by
  unfold returned?
  unfold endedWith at hagree
  cases hg : params.group with
  | none =>
    rw [hg] at hagree
    exact absurd (by simpa using h.agree) hagree
  | some group =>
    rw [hg] at hagree
    have hfits := mt (h.agree_append_iff (hgroup group hg)).mpr hagree
    push Not at hfits
    obtain ⟨settled, hsettled, hne⟩ := hfits
    simp only [Cursor.agree?_eq_none hsettled hne]
    rfl

/-- **The end of a call drops no one but whose record would not agree.** -/
theorem returned_eq_none_iff (h : r.Balanced) (hgroup : ∀ group ∈ params.group, group < groupCount) :
    returned? params caller r.cursor = none ↔ ¬Agree (endedWith params r) := by
  refine ⟨fun hnone hagree => ?_, returned_of_not_agree h hgroup⟩
  rw [returned_of_agree h hgroup hagree] at hnone
  cases hnone

/-- The books still balance after a call that agrees. -/
theorem balanced_ended (h : r.Balanced) (hgroup : ∀ group ∈ params.group, group < groupCount)
    (hagree : Agree (endedWith params r)) {t : Recorded}
    (hages : t.cursor.groupAges = settledWith params r) (hended : t.ended = endedWith params r) :
    t.Balanced := by
  refine ⟨hended ▸ hagree, fun group' hlt' age' => ?_⟩
  rw [hages, hended]
  unfold settledWith
  unfold endedWith at hagree ⊢
  cases hg : params.group with
  | none => simpa using h.settled group' hlt' age'
  | some group =>
    rw [hg] at hagree
    have hlt := hgroup group hg
    have hfits := (h.agree_append_iff hlt).mp hagree
    simp only [Option.toList_some, List.foldl_cons, List.foldl_nil, List.map_cons, List.map_nil,
      List.mem_append, List.mem_singleton, Prod.mk.injEq]
    by_cases hsame : group' = group
    · subst hsame
      rw [Cursor.get_settle_self hfits, Option.some.injEq]
      constructor
      · exact fun heq => .inr ⟨rfl, heq.symm⟩
      · rintro (mem | ⟨_, heq⟩)
        · exact (hfits age' ((h.settled group' hlt' age').mpr mem)).symm
        · exact heq.symm
    · rw [Cursor.get_settle_of_ne hlt hlt' hsame, h.settled group' hlt' age']
      exact (or_iff_left fun h => hsame h.1).symm

/-! ## Keeping the books -/

namespace Walker

/-- **Cursors that settle nothing.** Who comes to the end of a call goes back if the record agrees. -/
def bookkeeper (grid : Grid) : Walker Recorded :=
  { recorder grid with
    back? := fun params caller r =>
      if Agree (endedWith params r) then
        (stepOn? grid params (r.cursor.returnTo caller.cursor params.piggyback)).map fun t =>
          { r with cursor := t, ended := endedWith params r }
      else none }

end Walker

/-- The groups are those that have a slot of their own. -/
def grouped : Fragment where
  params p := p.group.all (· < groupCount)

theorem group_of_grouped {call declared : Params} (hcall : grouped.params call = true)
    (hdeclared : grouped.params declared = true) :
    ∀ group ∈ (call.merged declared).group, group < groupCount := by
  have hlt : ∀ params, grouped.params params = true → ∀ group ∈ params.group, group < groupCount :=
    fun params h => by simpa [grouped, Option.all_eq_true] using h
  intro group mem
  unfold Params.merged at mem
  cases hg : call.group with
  | none =>
    rw [hg] at mem
    exact hlt declared hdeclared group mem
  | some own =>
    rw [hg] at mem
    exact hlt call hcall group (hg.trans mem)

theorem headings_bookkeeper {grid : Grid} {way : Direction} {r : Recorded} (hr : r.Balanced) :
    Option.Rel (List.Forall₂ fun r r' => r' = r.unsettled ∧ r.Balanced)
      ((Walker.recorder grid).headings? way r) ((Walker.bookkeeper grid).headings? way r.unsettled) := by
  have hheadings : (Walker.bookkeeper grid).headings? way r.unsettled =
      (headings? grid way r.cursor).map (List.map fun t => ({ r with cursor := t } : Recorded).unsettled) := by
    change ((headings? grid way r.cursor.unsettled).map _) = _
    rw [headings_unsettled, Option.map_map]
    simp only [Function.comp_def, List.map_map]
    rfl
  rw [hheadings]
  refine Walker.optionRel_map_map fun headed hheaded => ?_
  rw [List.forall₂_map_left_iff, List.forall₂_map_right_iff, List.forall₂_same]
  intro t mem
  obtain ⟨heading, rfl, _⟩ := eq_of_headings hheaded mem
  exact ⟨rfl, hr.congr rfl rfl⟩

/-- **To settle ages is to keep the books.** -/
theorem bookkeeper_simulates (grid : Grid) :
    Walker.Simulates grouped (Walker.recorder grid) (Walker.bookkeeper grid)
      fun r r' => r' = r.unsettled ∧ r.Balanced where
  stalled := by
    rintro r _ ⟨rfl, _⟩
    rfl
  char := by
    rintro r _ ⟨rfl, _⟩
    rfl
  insensitive := by
    rintro r _ ⟨rfl, _⟩
    rfl
  step := by
    rintro r _ ⟨rfl, hr⟩
    change Option.Rel _ _ ((r.cursor.unsettled.step? grid true).map _)
    rw [Cursor.step_unsettled, Option.map_map]
    refine Walker.optionRel_map_map fun t ht => ⟨rfl, hr.congr ?_ rfl⟩
    exact (Cursor.advances_step ht).groupAges
  headings := by
    rintro way r _ _ _ ⟨rfl, hr⟩
    exact headings_bookkeeper hr
  callee := by
    rintro call declared r _ _ _ ⟨rfl, hr⟩
    exact ⟨rfl, hr.congr rfl rfl⟩
  going := rfl
  back := by
    rintro call declared caller _ r _ hcall hdeclared ⟨rfl, _⟩ ⟨rfl, hr⟩
    have hgroup := group_of_grouped hcall hdeclared
    generalize call.merged declared = params at hgroup ⊢
    have hended : endedWith params r.unsettled = endedWith params r := rfl
    unfold Walker.bookkeeper Walker.recorder
    dsimp only
    rw [hended]
    by_cases hagree : Agree (endedWith params r)
    · rw [returned_of_agree hr hgroup hagree, if_pos hagree, Option.bind_some]
      change Option.Rel _ _ ((Walker.stepOn? grid params
        (({ r.cursor with groupAges := settledWith params r }.returnTo caller.cursor
          params.piggyback).unsettled)).map _)
      rw [stepOn_unsettled, Option.map_map]
      refine Walker.optionRel_map_map fun t ht => ⟨rfl, ?_⟩
      exact balanced_ended hr hgroup hagree (eq_of_advance ht).2 rfl
    · rw [returned_of_not_agree hr hgroup hagree, if_neg hagree]
      exact .none
  lookFrom := by
    rintro kind r _ _ ⟨rfl, hr⟩
    cases kind <;> exact ⟨rfl, hr.congr rfl rfl⟩
  lookBack := by
    rintro kind start _ r _ _ ⟨rfl, hstart⟩ ⟨rfl, hr⟩
    cases kind <;> exact ⟨rfl, hr.congr rfl rfl⟩

/-- **Three walks that tell the same**: of cursors, of cursors with a record, and of cursors that settle
nothing. -/
structure Synchronised (plain : Except Stop (Survivors Cursor) × Nat)
    (recorded books : Except Stop (Survivors Recorded) × Nat) : Prop where
  /-- The record is not looked at. -/
  plain_eq : plain = Counted.mapEnd Recorded.cursor recorded
  /-- Calls of one group came to their end at one age, which is the settled one. -/
  balanced : ∀ found, recorded.1 = .ok found → ∀ r ∈ found.toList, r.Balanced
  /-- Who is dropped would have a record that does not agree. -/
  books_eq : books = Counted.mapEnd Recorded.unsettled recorded

theorem synchronised {plain : Counted (Survivors Cursor)} {recorded books : Counted (Survivors Recorded)}
    {count : Nat} (hplain : plain.runFrom count = Counted.mapEnd Recorded.cursor (recorded.runFrom count))
    (hbooks : Counted.Alongside (Survivors.Alike fun r r' => r' = r.unsettled ∧ r.Balanced) recorded books) :
    Synchronised (plain.runFrom count) (recorded.runFrom count) (books.runFrom count) where
  plain_eq := hplain
  balanced found hfound r mem := by
    obtain ⟨_, _, hbalanced⟩ := Walker.exists_related hbooks hfound r mem
    exact hbalanced
  books_eq := hbooks.runFrom_eq (fun _ _ h => h.1) count

/-- **Groups force equal ages** on the whole way of a survivor, and drop no one else: neither from what
survives in the end, nor at the end of any call. -/
theorem groups_force_equal_ages (s : Setting) (hprogram : grouped.allowsProgram s.program = true)
    (c : Cursor) (hc : c.groupAges = .replicate groupCount none) (depth count : Nat) :
    (∀ node, grouped.allows node = true →
      Synchronised ((followAll s depth node (.one c)).runFrom count)
        ((followRecorded s depth node c).runFrom count)
        (((Walker.bookkeeper s.grid).followAll s.program s.budget depth node
          (.one { cursor := c })).runFrom count)) ∧
      Synchronised ((run s depth c).runFrom count) ((runRecorded s depth c).runFrom count)
        (((Walker.bookkeeper s.grid).run s.program s.budget depth { cursor := c }).runFrom count) ∧
      ∀ params caller r, (∀ group ∈ params.group, group < groupCount) → Balanced r →
        (returned? params caller r.cursor = none ↔ ¬Agree (endedWith params r)) := by
  have hstart : ({ cursor := c } : Recorded) = ({ cursor := c } : Recorded).unsettled ∧
      ({ cursor := c } : Recorded).Balanced := by
    refine ⟨?_, balanced_start hc⟩
    unfold Recorded.unsettled Cursor.unsettled
    rw [← hc]
  have hsim := bookkeeper_simulates s.grid
  have hclosed := Fragment.closed_of_allowsProgram hprogram
  refine ⟨?_, ?_, fun params caller r hgroup hr => returned_eq_none_iff hr hgroup⟩
  · intro node hnode
    exact synchronised (runFrom_followAll_eq s depth count c node)
      (hsim.followAll hclosed s.budget depth hnode hstart)
  · refine synchronised (runFrom_run_eq s depth count c)
      (hsim.run hclosed rfl s.budget depth hstart fun params => ?_)
    have hcallee : (Walker.bookkeeper s.grid).callee params { cursor := c } =
        ((Walker.recorder s.grid).callee params { cursor := c }).unsettled :=
      congrArg ((Walker.bookkeeper s.grid).callee params) hstart.1
    rw [hcallee]
    exact Walker.alongside_turn (headings_bookkeeper (hstart.2.congr rfl rfl))

/-- The rows below one another, each with all that follows on it, as calls of one group. -/
def rows : Node :=
  .repeated (.sequence
    [.call ⟨"row", .forward, {}⟩, .direction ⟨['R'], false⟩, .inside, .direction ⟨['L'], false⟩]) .plus

/-- Two rows of one length and a longer one. One row has been passed, or two; nobody passes the third,
whether the settled age is in the way or the record, for its call ends at age 4. -/
theorem groups_force_equal_ages_rows :
    let program : Program := ⟨[⟨"rows", {}, rows⟩,
      ⟨"row", { group := some 1 }, .sequence [.repeated .inside .plus, .outside]⟩]⟩
    let s : Setting := ⟨program, ⟨#[#['a', 'b'], #['c', 'd'], #['e', 'f', 'g']], by decide⟩, none⟩
    let start : Cursor := { cell := ⟨0, 0⟩ }
    ∃ found, ((followRecorded s 20 rows start).runFrom 0).1 = .ok found ∧
      found.toList.map Recorded.ended = [[(1, 3)], [(1, 3), (1, 3)]] ∧ (∀ r ∈ found.toList, r.Balanced) ∧
      ((followAll s 20 rows (.one start)).runFrom 0).1 = .ok (found.map Recorded.cursor) ∧
      (((Walker.bookkeeper s.grid).followAll s.program s.budget 20 rows
        (.one { cursor := start })).runFrom 0).1 = .ok (found.map Recorded.unsettled) ∧
      ∀ r ∈ found.toList, ∀ caller,
        returned? { group := some 1 } caller { r.cursor with age := 4 } = none := by
  intro program s start
  obtain ⟨hwalks, _, hends⟩ := groups_force_equal_ages s (by decide) start rfl 20 0
  obtain ⟨hplain, hbalanced, hbooks⟩ := hwalks rows (by decide)
  have walked : (fun found => found.toList.map Recorded.ended) <$>
      ((followRecorded s 20 rows start).runFrom 0).1 = .ok [[(1, 3)], [(1, 3), (1, 3)]] := by
    decide +kernel
  obtain ⟨found, hfound, hended⟩ := map_eq_ok_iff.mp walked
  refine ⟨found, hfound, hended, hbalanced found hfound, ?_, ?_, fun r mem caller => ?_⟩
  · rw [hplain, Counted.mapEnd, hfound]
    rfl
  · rw [hbooks, Counted.mapEnd, hfound]
    rfl
  · have hlater : Balanced { r with cursor := { r.cursor with age := 4 } } :=
      (hbalanced found hfound r mem).congr rfl rfl
    refine (hends { group := some 1 } caller _ ?_ hlater).mpr fun hagree => ?_
    · rintro _ ⟨⟩
      decide
    · have hrow : (1, 3) ∈ r.ended := by
        have hrecord : r.ended ∈ found.toList.map Recorded.ended := List.mem_map_of_mem mem
        rw [hended] at hrecord
        rcases List.mem_pair.mp hrecord with heq | heq <;> rw [heq] <;> decide
      cases hagree (1, 3) (List.mem_append_left _ hrow) (1, 4)
        (List.mem_append_right _ List.mem_cons_self) rfl

end Walk

end GridPattern
