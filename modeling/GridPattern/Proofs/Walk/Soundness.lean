import GridPattern.Proofs.Outcome
import GridPattern.Proofs.Walk.Faults
import GridPattern.Proofs.Walk.Walker

/-!
# What a walk comes to is what its pattern means

A walk takes all survivors through one part of a pattern before it looks at the next part. Where it
ends with survivors, following the pattern depth first has the same ones, in the same order; where it
ends with a fault, the fault lies on the way or the budget is spent. The budget and the depth decide
whether a walk ends, so these laws hold under every one of them.

**The law** (`sound_follow`), by induction on the depth. One level of a walk is sound if the walks
inside it are, which is said once for each way that survivors are combined: a list of cursors, the
parts of a sequence, the rounds of a repetition.
-/

namespace GridPattern.Walk

open Counted Survivors

/-- The fault is that the budget is spent. -/
def Spent (s : Setting) (fault : WalkFault) : Prop :=
  ∃ limit, s.budget = some limit ∧ fault = .budgetExhausted limit

/-- **A sound way to follow patterns**: its survivors are those of the pattern's meaning, and its faults
lie on the way. -/
structure Sound (s : Setting) (F : Follow) : Prop where
  survivors : ∀ {node c found}, ComesTo (F node c) (.ok found) →
    eval s.program s.grid node c = some (.ok found.toList)
  faults : ∀ {node c fault}, ComesTo (F node c) (.error (.fault fault)) →
    Spent s fault ∨ Meets s.program s.grid node c fault

/-- To gather a level only if it counts is to gather it or nothing. -/
theorem ite_reverseAux (p : Prop) [Decidable p] (level gathered : List Cursor) :
    (if p then level.reverseAux gathered else gathered) =
      (if p then level else []).reverseAux gathered := by
  split <;> rfl

/-! ## Lists of cursors -/

section Lists

variable {α : Type} {f : α → Counted (Survivors Cursor)} {as : List α}

theorem evalEach_of_comesTo {ev : α → Option Verdict} {found : Survivors Cursor}
    (hf : ∀ a found, ComesTo (f a) (.ok found) → ev a = some (.ok found.toList))
    (h : ComesTo (flatMapList f as) (.ok found)) : evalEach ev as = some (.ok found.toList) := by
  obtain ⟨bss, hall, heq⟩ | ⟨_, _, _, _, heq⟩ := h.of_flatMapList
  · cases heq
    rw [toList_ofList]
    refine evalEach_eq_ok_iff.mpr ⟨bss, hall.imp ?_, rfl⟩
    rintro a bs ⟨found, hfound, rfl⟩
    exact hf a found hfound
  · cases heq

theorem exists_comesTo_error {stop : Stop} (h : ComesTo (flatMapList f as) (.error stop)) :
    ∃ a ∈ as, ComesTo (f a) (.error stop) := by
  obtain ⟨_, _, heq⟩ | ⟨a, mem, stop', hstop, heq⟩ := h.of_flatMapList
  · cases heq
  · cases heq
    exact ⟨a, mem, hstop⟩

end Lists

namespace Sound

variable {s : Setting} {F : Follow}

theorem each (hF : Sound s F) {node : Node} {cs : List Cursor} {found : Survivors Cursor}
    (h : ComesTo (flatMapList (F node) cs) (.ok found)) :
    evalEach (eval s.program s.grid node) cs = some (.ok found.toList) :=
  evalEach_of_comesTo (fun _ _ h => hF.survivors h) h

theorem each_fault (hF : Sound s F) {node : Node} {cs : List Cursor} {fault : WalkFault}
    (h : ComesTo (flatMapList (F node) cs) (.error (.fault fault))) :
    Spent s fault ∨ ∃ c ∈ cs, Meets s.program s.grid node c fault := by
  obtain ⟨c, mem, h⟩ := exists_comesTo_error h
  exact (hF.faults h).imp_right fun met => ⟨c, mem, met⟩

/-! ## Sequences -/

theorem sequence (hF : Sound s F) {parts : List Node} {cursors found : Survivors Cursor}
    (h : ComesTo (Walk.sequence F parts cursors) (.ok found)) :
    evalEach (evalParts s.program s.grid parts) cursors.toList = some (.ok found.toList) := by
  induction parts generalizing cursors with
  | nil =>
    cases h.of_pure
    exact evalEach_evalParts_nil found.toList
  | cons part parts ih =>
    rw [Walk.sequence] at h
    obtain ⟨between, hb, h⟩ | ⟨_, _, heq⟩ := h.of_bind
    · refine evalEach_evalParts_cons (hF.each hb) ?_
      split at h
      · next he =>
        cases h.of_pure
        rw [← isEmpty_toList, List.isEmpty_iff] at he
        rw [he]
        rfl
      · exact ih h
    · cases heq

/-- A fault in a sequence is met at some part by a survivor of the parts before it. -/
theorem sequence_fault (hF : Sound s F) {parts : List Node} {cursors : Survivors Cursor}
    {fault : WalkFault} (h : ComesTo (Walk.sequence F parts cursors) (.error (.fault fault))) :
    Spent s fault ∨ ∃ c ∈ cursors.toList, ∃ before part after t, parts = before ++ part :: after ∧
      Through s.program s.grid before c t ∧ Meets s.program s.grid part t fault := by
  induction parts generalizing cursors with
  | nil => cases h.of_pure
  | cons part parts ih =>
    rw [Walk.sequence] at h
    obtain ⟨between, hb, h⟩ | ⟨stop, hstop, heq⟩ := h.of_bind
    · split at h
      · cases h.of_pure
      · apply (ih h).imp_right
        intro found
        rcases found with ⟨t, mem, before, later, after, u, rfl, through, met⟩
        obtain ⟨tss, hall, hts⟩ := evalEach_eq_ok_iff.mp (hF.each hb)
        rw [hts] at mem
        obtain ⟨ts, hts, mem⟩ := List.mem_flatten.mp mem
        obtain ⟨c, hc, hct⟩ := exists_mem_of_forall₂ hall.flip hts
        exact ⟨c, hc, part :: before, later, after, u, rfl, .cons hct mem through, met⟩
    · cases heq
      apply (hF.each_fault hstop).imp_right
      intro found
      rcases found with ⟨c, mem, met⟩
      exact ⟨c, mem, [], part, parts, c, rfl, .nil, met⟩

/-! ## Repetitions -/

/-- The rounds from round `k` on gather the levels from level `k` on, after what was gathered before.
What is gathered when round `k` begins holds that level already, if it is one that counts. -/
theorem repetitions (hF : Sound s F) {inner : Node} {count : Repeat} {rounds k : Nat}
    {current : Survivors Cursor} {gathered out : List Cursor}
    (h : ComesTo (Walk.repetitions (F inner) count.least count.most? rounds k current
      ((if count.least ≤ k then current.toList else []).reverseAux gathered)) (.ok out)) :
    ∃ ts, evalLevels s.program s.grid inner count k current.toList = some (.ok ts) ∧
      out = gathered.reverse ++ ts := by
  induction rounds generalizing k current gathered with
  | zero =>
    unfold Walk.repetitions at h
    split at h
    · next hk =>
      cases h.of_pure
      exact ⟨_, by rw [evalLevels_eq, if_pos hk], by simp [List.reverseAux_eq]⟩
    · cases h.of_unfinished
  | succ rounds ih =>
    unfold Walk.repetitions at h
    split at h
    · next hk =>
      cases h.of_pure
      exact ⟨_, by rw [evalLevels_eq, if_pos hk], by simp [List.reverseAux_eq]⟩
    · next hk =>
      obtain ⟨next, hn, h⟩ | ⟨_, _, heq⟩ := h.of_bind
      · have hlevel := hF.each hn
        split at h
        · next he =>
          cases h.of_pure
          rw [← isEmpty_toList, List.isEmpty_iff] at he
          rw [he] at hlevel
          exact ⟨_, evalLevels_last hk hlevel, by simp [List.reverseAux_eq]⟩
        · next he =>
          have hne : next.toList ≠ [] := by
            rwa [← isEmpty_toList, List.isEmpty_iff] at he
          rw [ite_reverseAux] at h
          obtain ⟨later, hlater, rfl⟩ := ih h
          rw [evalLevels_next hk hlevel hne, hlater]
          exact ⟨_, rfl, by simp [List.reverseAux_eq]⟩
      · cases heq

/-- A fault in a round is met by a cursor of the level before. -/
theorem repetitions_fault (hF : Sound s F) {inner : Node} {count : Repeat} {rounds k : Nat}
    {c : Cursor} {current : Survivors Cursor} {gathered : List Cursor} {fault : WalkFault}
    (hk : levelAt s.program s.grid inner c k = some (.ok current.toList))
    (h : ComesTo (Walk.repetitions (F inner) count.least count.most? rounds k current gathered)
      (.error (.fault fault))) :
    Spent s fault ∨ ∃ j level t, levelAt s.program s.grid inner c j = some (.ok level) ∧
      count.most?.any (· ≤ j) = false ∧ t ∈ level ∧ Meets s.program s.grid inner t fault := by
  induction rounds generalizing k current gathered with
  | zero =>
    unfold Walk.repetitions at h
    split at h
    · cases h.of_pure
    · cases h.of_unfinished
  | succ rounds ih =>
    unfold Walk.repetitions at h
    split at h
    · cases h.of_pure
    · next hmost =>
      obtain ⟨next, hn, h⟩ | ⟨stop, hstop, heq⟩ := h.of_bind
      · split at h
        · cases h.of_pure
        · refine ih (k := k + 1) ?_ h
          rw [levelAt, hk]
          exact hF.each hn
      · cases heq
        apply (hF.each_fault hstop).imp_right
        intro found
        rcases found with ⟨t, mem, met⟩
        exact ⟨k, current.toList, t, hk, by simpa using hmost, mem, met⟩

/-! ## Calls and looks -/

/-- What a call comes to is what the pattern called means from each heading, handed back. -/
theorem call_ended (hF : Sound s F) {target : Call} {c : Cursor} {found : Survivors Cursor}
    (h : ComesTo (Walk.call s F target c) (.ok found)) :
    ∃ declared headed ended, s.program.declaration? target.name = some declared ∧
      headings? s.grid target.direction (callee (target.params.merged declared.params) c) = some headed ∧
      evalEach (eval s.program s.grid declared.body) headed = some (.ok ended) ∧
      found.toList = handBack s.grid (target.params.merged declared.params) c ended := by
  cases hd : s.program.declaration? target.name with
  | none =>
    rw [call_of_undeclared s hd] at h
    cases h.of_fail
  | some declared =>
    rw [call_eq s hd] at h
    obtain ⟨headed, hh, h⟩ | ⟨_, _, heq⟩ := h.of_bind
    · rw [turn_eq] at hh
      split at hh
      · cases hh.of_fail
      · next heads hheads =>
        cases hh.of_pure
        obtain ⟨ended, he, h⟩ | ⟨_, _, heq⟩ := h.of_bind
        · have hbody := hF.each he
          rw [toList_ofList] at hbody
          cases h.of_pure
          exact ⟨declared, heads, ended.toList, rfl, hheads, hbody, toList_ofList _⟩
        · cases heq
    · cases heq

theorem call (hF : Sound s F) {target : Call} {c : Cursor} {found : Survivors Cursor}
    (hs : c.heading.isStalled = false) (h : ComesTo (Walk.call s F target c) (.ok found)) :
    eval s.program s.grid (.call target) c = some (.ok found.toList) := by
  obtain ⟨declared, headed, ended, hd, hh, hbody, hfound⟩ := hF.call_ended h
  rw [eval_call hs hd, hh, hfound, Option.map_eq_some_iff]
  exact ⟨_, hbody, rfl⟩

theorem call_fault (hF : Sound s F) {target : Call} {c : Cursor} {fault : WalkFault}
    (hs : c.heading.isStalled = false)
    (h : ComesTo (Walk.call s F target c) (.error (.fault fault))) :
    Spent s fault ∨ Meets s.program s.grid (.call target) c fault := by
  cases hd : s.program.declaration? target.name with
  | none =>
    rw [call_of_undeclared s hd] at h
    cases h.of_fail
    exact .inr (.undeclared hs hd)
  | some declared =>
    rw [call_eq s hd] at h
    obtain ⟨headed, hh, h⟩ | ⟨stop, hstop, heq⟩ := h.of_bind
    · rw [turn_eq] at hh
      split at hh
      · cases hh.of_fail
      · next heads hheads =>
        cases hh.of_pure
        obtain ⟨_, _, h⟩ | ⟨stop, hstop, heq⟩ := h.of_bind
        · cases h.of_pure
        · cases heq
          apply (hF.each_fault hstop).imp_right
          intro found
          rcases found with ⟨t, mem, met⟩
          rw [toList_ofList] at mem
          exact .called hs hd hheads mem met
    · cases heq
      rw [turn_eq] at hstop
      split at hstop
      · next hheads =>
        cases hstop.of_fail
        exact .inr (.callTurns hs hd hheads)
      · cases hstop.of_pure

theorem look (hF : Sound s F) {kind : Look} {inner : Node} {c : Cursor} {found : Survivors Cursor}
    (hs : c.heading.isStalled = false) (h : ComesTo (Walk.look s kind (F inner) c) (.ok found)) :
    eval s.program s.grid (.look kind inner) c = some (.ok found.toList) := by
  rw [look_eq] at h
  obtain ⟨seen, hseen, h⟩ | ⟨_, _, heq⟩ := h.of_bind
  · cases h.of_pure
    rw [eval_look _ _ hs, hF.survivors hseen, toList_ofList]
    rfl
  · cases heq

theorem look_fault (hF : Sound s F) {kind : Look} {inner : Node} {c : Cursor} {fault : WalkFault}
    (hs : c.heading.isStalled = false)
    (h : ComesTo (Walk.look s kind (F inner) c) (.error (.fault fault))) :
    Spent s fault ∨ Meets s.program s.grid (.look kind inner) c fault := by
  rw [look_eq] at h
  obtain ⟨seen, _, h⟩ | ⟨_, hstop, heq⟩ := h.of_bind
  · cases h.of_pure
  · cases heq
    exact (hF.faults hstop).imp_right (.look hs)

/-! ## One level -/

/-- One level of a walk has the survivors of its pattern, if the walks inside have. -/
theorem enter (hF : Sound s F) {rounds : Nat} {node : Node} {c : Cursor} {found : Survivors Cursor}
    (hs : c.heading.isStalled = false) (h : ComesTo (Walk.enter s F rounds node c) (.ok found)) :
    eval s.program s.grid node c = some (.ok found.toList) := by
  cases node with
  | literal text =>
    rw [enter_literal] at h
    cases h.of_pure
    rw [eval_literal _ hs, toList_ofOption]
  | oneOf chars negated =>
    cases h.of_pure
    rw [eval_oneOf _ _ hs, toList_ofOption]
    rfl
  | inside =>
    cases h.of_pure
    rw [eval_inside hs, toList_ofOption]
    rfl
  | outside =>
    cases h.of_pure
    rw [eval_outside hs, toList_ofOption]
    rfl
  | sequence parts =>
    have hparts := hF.sequence h
    obtain ⟨tss, hall, hts⟩ := evalEach_eq_ok_iff.mp hparts
    obtain ⟨ts, _, hc, hnil, rfl⟩ := List.forall₂_cons_left_iff.mp hall
    cases hnil
    rw [eval_sequence _ hs, hc, hts, List.flatten_singleton]
  | choice options =>
    rw [eval_choice _ hs]
    exact evalEach_of_comesTo (fun _ _ h => hF.survivors h) h
  | repeated inner count =>
    obtain ⟨r, hr, heq⟩ := h.of_map
    cases r with
    | error _ => cases heq
    | ok out =>
      cases heq
      have hstart : (if count.least = 0 then [c] else []) =
          (if count.least ≤ 0 then (Survivors.one c).toList else []).reverseAux [] := by
        simp only [Nat.le_zero, toList_one]
        split <;> rfl
      rw [hstart] at hr
      obtain ⟨ts, hts, rfl⟩ := hF.repetitions hr
      rw [eval_repeated _ _ hs, toList_ofList]
      exact hts
  | call target => exact hF.call hs h
  | direction way =>
    change ComesTo (turn s way c) _ at h
    rw [turn_eq] at h
    rw [eval_direction _ hs]
    cases hh : headings? s.grid way c with
    | none =>
      rw [hh] at h
      cases h.of_fail
    | some headed =>
      rw [hh] at h
      cases h.of_pure
      rw [toList_ofList]
  | look kind inner => exact hF.look hs h

/-- One level of a walk stops at a fault on the way, if the walks inside do. -/
theorem enter_fault (hF : Sound s F) {rounds : Nat} {node : Node} {c : Cursor} {fault : WalkFault}
    (hs : c.heading.isStalled = false)
    (h : ComesTo (Walk.enter s F rounds node c) (.error (.fault fault))) :
    Spent s fault ∨ Meets s.program s.grid node c fault := by
  cases node with
  | literal _ | oneOf _ _ | inside | outside => cases h.of_pure
  | sequence parts =>
    apply (hF.sequence_fault h).imp_right
    intro found
    rcases found with ⟨t, mem, before, part, after, u, rfl, through, met⟩
    cases List.mem_singleton.mp mem
    exact .sequence hs through met
  | choice options =>
    obtain ⟨option, mem, h⟩ := exists_comesTo_error h
    exact (hF.faults h).imp_right (.choice hs mem)
  | repeated inner count =>
    obtain ⟨r, hr, heq⟩ := h.of_map
    cases r with
    | ok _ => cases heq
    | error _ =>
      cases heq
      apply (hF.repetitions_fault (c := c) (k := 0) rfl hr).imp_right
      intro found
      rcases found with ⟨k, level, t, hl, hk, mem, met⟩
      exact .repeated hs hl hk mem met
  | call target => exact hF.call_fault hs h
  | direction way =>
    change ComesTo (turn s way c) _ at h
    rw [turn_eq] at h
    split at h
    · next hh =>
      cases h.of_fail
      exact .inr (.turns hs hh)
    · cases h.of_pure
  | look kind inner => exact hF.look_fault hs h

end Sound

/-- **A walk is sound** at every depth and under every budget. -/
theorem sound_follow (s : Setting) (depth : Nat) : Sound s (follow s depth) := by
  induction depth with
  | zero =>
    constructor
    · intro node c found h
      cases ComesTo.of_unfinished h
    · intro node c fault h
      cases ComesTo.of_unfinished h
  | succ depth ih =>
    constructor
    · intro node c found h
      rw [follow_succ] at h
      obtain ⟨_, _, h⟩ | ⟨_, _, heq⟩ := h.of_bind
      · by_cases hs : c.heading.isStalled = true
        · rw [if_pos hs] at h
          cases h.of_fail
        · rw [if_neg hs] at h
          exact ih.enter (Bool.eq_false_iff.mpr hs) h
      · cases heq
    · intro node c fault h
      rw [follow_succ] at h
      obtain ⟨_, _, h⟩ | ⟨_, hstop, heq⟩ := h.of_bind
      · by_cases hs : c.heading.isStalled = true
        · rw [if_pos hs] at h
          cases h.of_fail
          exact .inr (.stalled hs)
        · rw [if_neg hs] at h
          exact ih.enter_fault (Bool.eq_false_iff.mpr hs) h
      · cases heq
        obtain heq | ⟨limit, hb, heq⟩ := hstop.of_tick
        · cases heq
        · cases heq
          exact .inl ⟨limit, hb, rfl⟩

/-- Where a whole program has survivors, they are those that a call of its first declaration means. -/
theorem eval_of_run {s : Setting} {depth count : Nat} {c : Cursor} {found : Survivors Cursor}
    (hs : c.heading.isStalled = false) (h : ((run s depth c).runFrom count).1 = .ok found) :
    ∃ entry, s.program.entry? = some entry ∧
      eval s.program s.grid (.call ⟨entry.name, .forward, {}⟩) c = some (.ok found.toList) := by
  have hrun : ComesTo (run s depth c) (.ok found) := ⟨count, _, Prod.ext h rfl⟩
  obtain ⟨_, _, h⟩ | ⟨_, _, heq⟩ := ComesTo.of_bind hrun
  · cases hentry : s.program.entry? with
    | none =>
      rw [hentry] at h
      cases h.of_fail
    | some entry =>
      rw [hentry] at h
      exact ⟨entry, rfl, (sound_follow s depth).call hs h⟩
  · cases heq

end GridPattern.Walk
