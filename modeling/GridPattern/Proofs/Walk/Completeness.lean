import GridPattern.Proofs.Walk.Induction
import GridPattern.Proofs.Walk.Soundness
import Mathlib.Order.Filter.AtTopBot.Basic

/-!
# What a pattern means is what a walk comes to

Without a budget a walk reaches the verdict of its pattern, whatever count it begins with, at every
depth from some depth on: it has the survivors of the verdict, or it stops at one of the faults that
the verdict names. It stops at the first fault in its own order, level by level, which need not be the
first one depth first; a verdict therefore names them all.

**The law** (`answers_follow`), by induction on how the verdict comes about. The depth that is enough
for a pattern is more than the depths that are enough for what its meaning was made of. For the parts
of a sequence the meaning goes on from one survivor at a time, and the walk from all of them at once;
`PartsAnswer` keeps the verdicts on single survivors until the walk has joined them.
-/

namespace GridPattern.Walk

open Counted Survivors Filter

/-- **A computation reaches a verdict**: it has the survivors that the verdict has, as `view` reads
them, or stops at a fault that the verdict names. -/
inductive Answers {α : Type} (view : α → List Cursor) (m : Counted α) : Verdict → Prop
  | survivors {found : α} : Always m (.ok found) → Answers view m (.ok (view found))
  | fault {fault : WalkFault} {v : Verdict} : Always m (.error (.fault fault)) → v.Names fault →
      Answers view m v

theorem not_names_ok {ts : List Cursor} {fault : WalkFault} : ¬ Verdict.Names (.ok ts) fault := by
  intro found
  rcases found with ⟨_, heq, _⟩
  cases heq

section Combine

variable {α β : Type} {view : α → List Cursor} {m : Counted α}

theorem Answers.of_ok {ts : List Cursor} (h : Answers view m (.ok ts)) :
    ∃ found, Always m (.ok found) ∧ view found = ts := by
  cases h with
  | survivors h => exact ⟨_, h, rfl⟩
  | fault _ hn => exact absurd hn not_names_ok

theorem Answers.of_error {faults : List WalkFault} (h : Answers view m (.error faults)) :
    ∃ fault ∈ faults, Always m (.error (.fault fault)) := by
  cases h with
  | fault h hn =>
    obtain ⟨_, heq, mem⟩ := hn
    cases heq
    exact ⟨_, mem, h⟩

/-- The verdict of a computation stays that of two in a row, if the first has an answer. -/
theorem Answers.after {ι : Type} {first : Counted ι} {a : ι} {next : ι → Counted α} {v : Verdict}
    (h : Answers view (next a) v) (ha : Always first (.ok a)) : Answers view (first >>= next) v := by
  cases h with
  | survivors h => exact .survivors (ha.bind h)
  | fault h hn => exact .fault (ha.bind h) hn

/-- What a computation hands on is handed on from its verdict. -/
theorem Answers.map {look : β → List Cursor} {v : Verdict} (h : Answers view m v) {f : α → β}
    {g : List Cursor → List Cursor} (hfg : ∀ a, look (f a) = g (view a)) :
    Answers look (f <$> m) (v.map g) := by
  cases h with
  | @survivors found h =>
    have hmap : Answers look (f <$> m) (.ok (look (f found))) := .survivors h.map
    rw [hfg] at hmap
    exact hmap
  | fault h hn => exact .fault h.map (hn.map g)

/-- A row of computations reaches the verdicts of its members side by side. -/
theorem answers_mapM {ι : Type} {f : ι → Counted α} {as : List ι} {vs : List Verdict}
    (h : List.Forall₂ (fun a v => Answers view (f a) v) as vs) :
    Answers (List.flatMap view) (as.mapM f) (Verdict.join vs) := by
  induction h with
  | nil => exact .survivors (.pure [])
  | @cons a v as vs head _ ih =>
    rw [List.mapM_cons, Verdict.join_cons]
    cases head with
    | fault hstop hn => exact .fault (.bind_error hstop) (hn.beside_left _)
    | @survivors found hfound =>
      generalize Verdict.join vs = w at ih ⊢
      cases ih with
      | fault hstop hn => exact .fault (hfound.bind (.bind_error hstop)) (hn.beside_right _)
      | @survivors founds hfounds =>
        have hrow : Always (f a >>= fun b => as.mapM f >>= fun bs => pure (b :: bs))
            (.ok (found :: founds)) := hfound.bind (hfounds.bind (.pure _))
        exact .survivors hrow

/-- Walks from each of several cursors reach the verdict on all of them. -/
theorem answers_flatMapList {ι : Type} {f : ι → Counted (Survivors Cursor)} {as : List ι}
    {vs : List Verdict} (h : List.Forall₂ (fun a v => Answers toList (f a) v) as vs) :
    Answers toList (flatMapList f as) (Verdict.join vs) := by
  have hrow : Answers toList
      ((fun founds => Survivors.ofList (founds.flatMap toList)) <$> as.mapM f)
      ((Verdict.join vs).map id) := (answers_mapM h).map fun founds => toList_ofList _
  rw [flatMapList_eq]
  cases hj : Verdict.join vs <;> rw [hj] at hrow <;> exact hrow

end Combine

/-! ## Sequences -/

/-- The verdict on one cursor along parts one after the other: the faults of the first part, or the
verdicts on its survivors along the rest. -/
def PartsAnswer (F : Follow) : List Node → Cursor → Verdict → Prop
  | [], c, v => v = .ok [c]
  | part :: parts, c, v =>
    (∃ faults, Answers toList (F part c) (.error faults) ∧ v = .error faults) ∨
      ∃ ts vs, Answers toList (F part c) (.ok ts) ∧ List.Forall₂ (PartsAnswer F parts) ts vs ∧
        v = Verdict.join vs

/-- All cursors take the first part, and the verdicts on them are those on what survives it; or one of
them is stopped. -/
theorem partsAnswer_cons {F : Follow} {part : Node} {parts : List Node} {cs : List Cursor}
    {vs : List Verdict} (h : List.Forall₂ (PartsAnswer F (part :: parts)) cs vs) :
    (∃ founds us, Always (cs.mapM (F part)) (.ok founds) ∧
        List.Forall₂ (PartsAnswer F parts) (founds.flatMap toList) us ∧
        Verdict.join us = Verdict.join vs) ∨
      ∃ fault, Always (cs.mapM (F part)) (.error (.fault fault)) ∧
        (Verdict.join vs).Names fault := by
  induction h with
  | nil => exact .inl ⟨[], [], .pure [], .nil, rfl⟩
  | @cons c v cs vs head _ ih =>
    rw [List.mapM_cons, Verdict.join_cons]
    obtain ⟨faults, hstop, rfl⟩ | ⟨ts, ws, hfound, hrest, rfl⟩ := head
    · obtain ⟨fault, mem, hstop⟩ := hstop.of_error
      exact .inr ⟨fault, .bind_error hstop, (Verdict.names_error mem).beside_left _⟩
    · obtain ⟨found, hhead, rfl⟩ := hfound.of_ok
      obtain ⟨founds, us, hfounds, hus, hj⟩ | ⟨fault, hstop, hn⟩ := ih
      · refine .inl ⟨found :: founds, ws ++ us, hhead.bind (hfounds.bind (.pure _)), ?_, ?_⟩
        · exact List.rel_append hrest hus
        · rw [Verdict.join_append, hj]
      · exact .inr ⟨fault, hhead.bind (.bind_error hstop), hn.beside_right _⟩

theorem answers_sequence {F : Follow} {parts : List Node} {cursors : Survivors Cursor}
    {vs : List Verdict} (h : List.Forall₂ (PartsAnswer F parts) cursors.toList vs) :
    Answers toList (sequence F parts cursors) (Verdict.join vs) := by
  induction parts generalizing cursors vs with
  | nil =>
    rw [Verdict.join_ones h]
    exact .survivors (.pure cursors)
  | cons part parts ih =>
    rw [sequence, tryFlatMap, flatMapList_eq]
    obtain ⟨founds, us, hfounds, hus, hj⟩ | ⟨fault, hstop, hn⟩ := partsAnswer_cons h
    · rw [← toList_ofList (founds.flatMap toList)] at hus
      have hrest : Answers toList
          (if (ofList (founds.flatMap toList)).isEmpty then pure .none
            else sequence F parts (ofList (founds.flatMap toList))) (Verdict.join us) := by
        split
        · next he =>
          rw [← isEmpty_toList, List.isEmpty_iff] at he
          rw [he] at hus
          cases hus
          exact .survivors (.pure Survivors.none)
        · exact ih hus
      rw [← hj]
      refine .after ?_ hfounds.map
      exact hrest
    · exact .fault (.bind_error hstop.map) hn

/-! ## Repetitions -/

/-- The rounds from round `k` on reach the verdict on the levels from level `k` on, after what was
gathered before. -/
def LevelsAnswer (F : Follow) (inner : Node) (count : Repeat) (rounds k : Nat) (level : List Cursor)
    (v : Verdict) : Prop :=
  ∀ (current : Survivors Cursor) (gathered : List Cursor), current.toList = level →
    Answers id
      (repetitions (F inner) count.least count.most? rounds k current
        ((if count.least ≤ k then level else []).reverseAux gathered))
      (v.map (gathered.reverse ++ ·))

theorem reverse_reverseAux (level gathered : List Cursor) :
    (level.reverseAux gathered).reverse = gathered.reverse ++ level := by
  rw [List.reverseAux_eq, List.reverse_append, List.reverse_reverse]

section Repetitions

variable {F : Follow} {inner : Node} {count : Repeat} {rounds k : Nat} {level : List Cursor}

/-- The greatest number of rounds is done. -/
theorem LevelsAnswer.full (hk : count.most?.any (· ≤ k) = true) :
    LevelsAnswer F inner count rounds k level (.ok (if count.least ≤ k then level else [])) := by
  intro current gathered _
  unfold repetitions
  rw [if_pos hk, reverse_reverseAux]
  exact .survivors (.pure _)

theorem LevelsAnswer.stopped {faults : List WalkFault} (hk : ¬count.most?.any (· ≤ k) = true)
    (h : Answers toList (flatMapList (F inner) level) (.error faults)) :
    LevelsAnswer F inner count (rounds + 1) k level (.error faults) := by
  rintro current gathered rfl
  obtain ⟨fault, mem, hstop⟩ := h.of_error
  unfold repetitions
  rw [if_neg hk]
  exact .fault (.bind_error hstop) (Verdict.names_error mem)

/-- A round that nothing survives is the last. -/
theorem LevelsAnswer.died (hk : ¬count.most?.any (· ≤ k) = true)
    (h : Answers toList (flatMapList (F inner) level) (.ok [])) :
    LevelsAnswer F inner count (rounds + 1) k level
      (.ok (if count.least ≤ k then level else [])) := by
  rintro current gathered rfl
  obtain ⟨found, hfound, he⟩ := h.of_ok
  rw [← List.isEmpty_iff, isEmpty_toList] at he
  unfold repetitions
  rw [if_neg hk]
  refine .after ?_ hfound
  rw [if_pos he, reverse_reverseAux]
  exact .survivors (.pure _)

theorem LevelsAnswer.next {t : Cursor} {ts : List Cursor} {v : Verdict}
    (hk : ¬count.most?.any (· ≤ k) = true)
    (h : Answers toList (flatMapList (F inner) level) (.ok (t :: ts)))
    (later : LevelsAnswer F inner count rounds (k + 1) (t :: ts) v) :
    LevelsAnswer F inner count (rounds + 1) k level
      (v.map ((if count.least ≤ k then level else []) ++ ·)) := by
  rintro current gathered rfl
  obtain ⟨found, hfound, hts⟩ := h.of_ok
  have he : ¬found.isEmpty = true := by rw [← isEmpty_toList, hts]; exact Bool.false_ne_true
  have hrest := later found
    ((if count.least ≤ k then current.toList else []).reverseAux gathered) hts
  unfold repetitions
  rw [if_neg hk]
  refine .after ?_ hfound
  rw [if_neg he, ite_reverseAux, hts]
  -- both sides put this level before the later ones
  cases v with
  | error faults => exact hrest
  | ok us =>
    rw [Except.map, reverse_reverseAux, List.append_assoc] at hrest
    exact hrest

end Repetitions

theorem answers_repeated {F : Follow} {inner : Node} {count : Repeat} {rounds : Nat} {c : Cursor}
    {v : Verdict} (h : LevelsAnswer F inner count rounds 0 [c] v) :
    Answers toList (repeated (F inner) rounds count c) v := by
  have hrounds := h (.one c) [] rfl
  have hmap : Answers toList _ ((v.map (([] : List Cursor).reverse ++ ·)).map id) :=
    hrounds.map fun _ => toList_ofList _
  have hv : (v.map (([] : List Cursor).reverse ++ ·)).map id = v := by cases v <;> rfl
  rw [hv, ← ite_reverseAux] at hmap
  simp only [Nat.le_zero] at hmap
  exact hmap

/-! ## Calls and looks -/

section Inner

variable {s : Setting} {F : Follow} {c : Cursor} {v : Verdict}

theorem always_turn {way : Direction} {headed : List Cursor}
    (hh : headings? s.grid way c = some headed) : Always (turn s way c) (.ok (.ofList headed)) := by
  rw [turn_eq, hh]
  exact .pure _

/-- Letters that mean no turn are the fault of whatever they stand in. -/
theorem always_turn_unknown {way : Direction} (hh : headings? s.grid way c = .none) :
    Always (turn s way c) (.error (.fault (.unknownTurns way.turns))) := by
  rw [turn_eq, hh]
  exact .fail _

theorem answers_call_undeclared {target : Call} (hd : s.program.declaration? target.name = .none) :
    Answers toList (call s F target c) (.error [.undeclared target.name]) := by
  rw [call_of_undeclared s hd]
  exact .fault (.fail _) (Verdict.names_error List.mem_cons_self)

theorem answers_call_unknownTurns {target : Call} {declared : Declaration}
    (hd : s.program.declaration? target.name = some declared)
    (hh : headings? s.grid target.direction (callee (target.params.merged declared.params) c) =
      .none) :
    Answers toList (call s F target c) (.error [.unknownTurns target.direction.turns]) := by
  rw [call_eq s hd]
  exact .fault (.bind_error (always_turn_unknown hh)) (Verdict.names_error List.mem_cons_self)

theorem answers_call {target : Call} {declared : Declaration} {headed : List Cursor}
    (hd : s.program.declaration? target.name = some declared)
    (hh : headings? s.grid target.direction (callee (target.params.merged declared.params) c) =
      some headed)
    (h : Answers toList (flatMapList (F declared.body) headed) v) :
    Answers toList (call s F target c)
      (v.map (handBack s.grid (target.params.merged declared.params) c)) := by
  rw [call_eq s hd]
  refine .after ?_ (always_turn hh)
  rw [tryFlatMap, toList_ofList, ← map_eq_pure_bind]
  exact h.map fun ended => toList_ofList _

theorem answers_look {kind : Look} {inner : Node}
    (h : Answers toList (F inner (lookFrom kind c)) v) :
    Answers toList (look s kind (F inner) c) (v.map (lookBack kind c)) := by
  rw [look_eq, ← map_eq_pure_bind]
  exact h.map fun found => toList_ofList _

end Inner

/-! ## Depth -/

section Depth

variable {s : Setting} {c : Cursor}

/-- What holds of each member from some depth on, from some depth on holds of all. -/
theorem eventually_forall₂ {ι κ : Type} {P : Nat → ι → κ → Prop} {as : List ι} {bs : List κ}
    (h : List.Forall₂ (fun a b => ∀ᶠ depth in atTop, P depth a b) as bs) :
    ∀ᶠ depth in atTop, List.Forall₂ (P depth) as bs := by
  induction h with
  | nil => exact .of_forall fun _ => .nil
  | cons head _ ih => exact head.mp (ih.mono fun _ tail head => .cons head tail)

/-- A walk along a pattern is one step and a walk one level less deep, along what is inside. -/
theorem eventually_follow {node : Node} {v : Verdict} (hb : s.budget = .none)
    (hs : c.heading.isStalled = false)
    (h : ∀ᶠ depth in atTop, Answers toList (enter s (follow s depth) depth node c) v) :
    ∀ᶠ depth in atTop, Answers toList (follow s depth node c) v := by
  obtain ⟨least, h⟩ := eventually_atTop.mp h
  refine eventually_atTop.mpr ⟨least + 1, ?_⟩
  intro depth hd
  obtain ⟨inner, rfl⟩ : ∃ inner, depth = inner + 1 := ⟨depth - 1, by omega⟩
  have henter := h inner (by omega)
  have htick : Always (tick s.budget) (.ok ()) := by rw [hb]; exact .tick_none
  rw [follow_of_going s inner hs]
  exact .after henter htick

theorem eventually_stalled {node : Node} (hb : s.budget = .none) (hs : c.heading.isStalled = true) :
    ∀ᶠ depth in atTop, Answers toList (follow s depth node c) (.error [.stalled]) := by
  refine eventually_atTop.mpr ⟨1, ?_⟩
  intro depth hd
  obtain ⟨inner, rfl⟩ : ∃ inner, depth = inner + 1 := ⟨depth - 1, by omega⟩
  have htick : Always (tick s.budget) (.ok ()) := by rw [hb]; exact .tick_none
  rw [follow_succ, hs]
  refine .after ?_ htick
  exact .fault (.fail _) (Verdict.names_error List.mem_cons_self)

/-- A pattern without others inside is one step. -/
theorem eventually_leaf {node : Node} {o : Option Cursor} (hb : s.budget = .none)
    (hs : c.heading.isStalled = false)
    (h : ∀ depth, enter s (follow s depth) depth node c = pure (.ofOption o)) :
    ∀ᶠ depth in atTop, Answers toList (follow s depth node c) (.ok o.toList) := by
  refine eventually_follow hb hs (.of_forall ?_)
  intro depth
  rw [h, ← toList_ofOption]
  exact .survivors (.pure _)

/-- A round more than enough for the later rounds is enough. -/
theorem exists_rounds {P Q : Nat → Nat → Prop} {least : Nat}
    (h : ∀ᶠ depth in atTop, ∀ rounds ≥ least, P depth rounds)
    (step : ∀ depth rounds, P depth rounds → Q depth (rounds + 1)) :
    ∃ least, ∀ᶠ depth in atTop, ∀ rounds ≥ least, Q depth rounds := by
  refine ⟨least + 1, h.mono fun depth h rounds hr => ?_⟩
  obtain ⟨later, rfl⟩ : ∃ later, rounds = later + 1 := ⟨rounds - 1, by omega⟩
  exact step depth later (h later (by omega))

/-- To be reached from some depth on is closed under the rules. Levels need rounds enough as well. -/
theorem rules_answers (hb : s.budget = .none) : Rules s.program s.grid
    (fun node c v => ∀ᶠ depth in atTop, Answers toList (follow s depth node c) v)
    (fun inner count k level v => ∃ least, ∀ᶠ depth in atTop, ∀ rounds ≥ least,
      LevelsAnswer (follow s depth) inner count rounds k level v)
    (fun parts c v => ∀ᶠ depth in atTop, PartsAnswer (follow s depth) parts c v) where
  stalled node c hs := eventually_stalled hb hs
  literal text c hs := eventually_leaf hb hs fun depth => enter_literal s depth text c
  oneOf chars negated c hs := eventually_leaf hb hs fun _ => rfl
  inside c hs := eventually_leaf hb hs fun _ => rfl
  outside c hs := eventually_leaf hb hs fun _ => rfl
  sequence parts c v hs h := by
    refine eventually_follow hb hs (h.mono ?_)
    intro depth hv
    rw [← Verdict.join_singleton v]
    exact answers_sequence (.cons hv .nil)
  choice options c vs hs h :=
    eventually_follow hb hs ((eventually_forall₂ h).mono fun _ hall => answers_flatMapList hall)
  repeated inner count c v hs h := by
    obtain ⟨least, hrounds⟩ := h
    refine eventually_follow hb hs ?_
    apply (hrounds.and (eventually_ge_atTop least)).mono
    intro depth hd
    exact answers_repeated (hd.1 depth hd.2)
  undeclared target c hs hd := eventually_follow hb hs (.of_forall fun _ => answers_call_undeclared hd)
  callTurns target declared c hs hd hh :=
    eventually_follow hb hs (.of_forall fun _ => answers_call_unknownTurns hd hh)
  call target declared c headed vs hs hd hh h := by
    refine eventually_follow hb hs ((eventually_forall₂ h).mono ?_)
    intro _ hall
    exact answers_call hd hh (answers_flatMapList hall)
  turns way c hs hh := by
    refine eventually_follow hb hs (.of_forall ?_)
    intro _
    exact .fault (always_turn_unknown hh) (Verdict.names_error List.mem_cons_self)
  direction way c headed hs hh := by
    refine eventually_follow hb hs (.of_forall ?_)
    intro _
    rw [← toList_ofList headed]
    exact .survivors (always_turn hh)
  look kind inner c v hs h := eventually_follow hb hs (h.mono fun _ hw => answers_look hw)
  full inner count k level hk := ⟨0, .of_forall fun _ _ _ => .full hk⟩
  stopped inner count k level vs faults hk h hj := by
    have hlevel := (eventually_forall₂ h).mono fun _ hall => answers_flatMapList hall
    rw [hj] at hlevel
    exact exists_rounds (hlevel.mono fun _ h rounds (_ : rounds ≥ 0) => h) fun _ _ h => .stopped hk h
  died inner count k level vs hk h hj := by
    have hlevel := (eventually_forall₂ h).mono fun _ hall => answers_flatMapList hall
    rw [hj] at hlevel
    exact exists_rounds (hlevel.mono fun _ h rounds (_ : rounds ≥ 0) => h) fun _ _ h => .died hk h
  next inner count k level vs t ts v hk h hj later := by
    obtain ⟨least, hlater⟩ := later
    have hlevel := (eventually_forall₂ h).mono fun _ hall => answers_flatMapList hall
    rw [hj] at hlevel
    have hboth : ∀ᶠ depth in atTop, ∀ rounds ≥ least,
        Answers toList (flatMapList (follow s depth inner) level) (.ok (t :: ts)) ∧
          LevelsAnswer (follow s depth) inner count rounds (k + 1) (t :: ts) v :=
      (hlevel.and hlater).mono fun _ hd rounds hr => ⟨hd.1, hd.2 rounds hr⟩
    exact exists_rounds hboth fun _ _ hd => .next hk hd.1 hd.2
  done c := .of_forall fun _ => rfl
  partStopped part parts c faults h := h.mono fun _ hpart => .inl ⟨faults, hpart, rfl⟩
  part part parts c ts vs hpart hrest :=
    (hpart.and (eventually_forall₂ hrest)).mono fun _ hd => .inr ⟨ts, vs, hd.1, hd.2, rfl⟩

/-- **A walk reaches the verdict of its pattern**, if nothing but its depth ends it early. -/
theorem answers_follow (hb : s.budget = .none) {node : Node} {v : Verdict}
    (h : eval s.program s.grid node c = some v) :
    ∀ᶠ depth in atTop, Answers toList (follow s depth node c) v :=
  (rules_answers hb).eval h

end Depth

end GridPattern.Walk
