import GridPattern.Counted
import GridPattern.Survivors
import Mathlib.Data.List.Forall2

/-!
# What a counted computation comes to

The count that a computation starts from decides at most where a budget ends it, so most laws leave
the counts out. They speak of an outcome that a computation has from some count (`ComesTo`) or from
every count (`Always`).

**The law.** Both are read off the parts a computation is built from. `ComesTo` is taken apart: what a
whole came to is what a part came to. `Always` is put together: what the parts always come to, the
whole does. What holds of every answer (`Yields`) is asked of the last part only, given what holds of
the answers before it. A list of computations in a row comes to all their survivors in order, or to
the stop of the first that stops.
-/

namespace GridPattern

/-! ## What is made of an answer -/

section Made

variable {ε α β : Type}

theorem map_eq_ok_iff {g : α → β} {r : Except ε α} {b : β} :
    g <$> r = .ok b ↔ ∃ a, r = .ok a ∧ g a = b := by
  cases r with
  | error _ => exact ⟨nofun, nofun⟩
  | ok a =>
    constructor
    · intro hfalse
      cases hfalse
      exact ⟨a, rfl, rfl⟩
    · intro found
      rcases found with ⟨_, ⟨⟩, rfl⟩
      rfl

theorem map_eq_error_iff {g : α → β} {r : Except ε α} {stop : ε} :
    g <$> r = .error stop ↔ r = .error stop := by
  cases r with
  | error cause =>
    constructor <;> rintro ⟨⟩ <;> rfl
  | ok _ => exact ⟨nofun, nofun⟩

end Made

namespace Counted

variable {α β : Type}

/-- **An outcome from some count**. -/
def ComesTo (m : Counted α) (r : Except Stop α) : Prop :=
  ∃ before after, m.runFrom before = (r, after)

/-- **The outcome from every count**. -/
def Always (m : Counted α) (r : Except Stop α) : Prop :=
  ∀ before, ∃ after, m.runFrom before = (r, after)

/-! ## Taking apart -/

theorem ComesTo.of_pure {a : α} {r : Except Stop α} (h : ComesTo (pure a) r) : r = .ok a := by
  obtain ⟨before, after, h⟩ := h
  exact (congrArg Prod.fst h).symm

theorem ComesTo.of_fail {cause : WalkFault} {r : Except Stop α} (h : ComesTo (fail cause) r) :
    r = .error (.fault cause) := by
  obtain ⟨before, after, h⟩ := h
  exact (congrArg Prod.fst h).symm

theorem ComesTo.of_unfinished {r : Except Stop α} (h : ComesTo unfinished r) :
    r = .error .unfinished := by
  obtain ⟨before, after, h⟩ := h
  exact (congrArg Prod.fst h).symm

/-- A step is taken, or it is one too many for the budget. -/
theorem ComesTo.of_tick {budget : Option Nat} {r : Except Stop Unit} (h : ComesTo (tick budget) r) :
    r = .ok () ∨ ∃ limit, budget = some limit ∧ r = .error (.fault (.budgetExhausted limit)) := by
  obtain ⟨before, after, h⟩ := h
  cases budget with
  | none => exact .inl (congrArg Prod.fst h).symm
  | some limit =>
    rw [runFrom_tick_some] at h
    split at h
    · exact .inr ⟨limit, rfl, (congrArg Prod.fst h).symm⟩
    · exact .inl (congrArg Prod.fst h).symm

/-- Two computations in a row end with the second, or with the stop of the first. -/
theorem ComesTo.of_bind {m : Counted α} {f : α → Counted β} {r : Except Stop β}
    (h : ComesTo (m >>= f) r) :
    (∃ a, ComesTo m (.ok a) ∧ ComesTo (f a) r) ∨
      ∃ stop, ComesTo m (.error stop) ∧ r = .error stop := by
  obtain ⟨before, after, h⟩ := h
  rw [runFrom_bind] at h
  split at h
  · next a between hm => exact .inl ⟨a, ⟨before, between, hm⟩, between, after, h⟩
  · next stop between hm => exact .inr ⟨stop, ⟨before, between, hm⟩, (congrArg Prod.fst h).symm⟩

theorem ComesTo.of_map {m : Counted α} {f : α → β} {r : Except Stop β} (h : ComesTo (f <$> m) r) :
    ∃ r', ComesTo m r' ∧ r = r'.map f := by
  obtain ⟨before, after, h⟩ := h
  rw [runFrom_map] at h
  exact ⟨_, ⟨before, _, rfl⟩, (congrArg Prod.fst h).symm⟩

/-- Computations in a row end with all of their answers, or with the stop of one of them. -/
theorem ComesTo.of_mapM {f : α → Counted β} {as : List α} {r : Except Stop (List β)}
    (h : ComesTo (as.mapM f) r) :
    (∃ bs, List.Forall₂ (fun a b => ComesTo (f a) (.ok b)) as bs ∧ r = .ok bs) ∨
      ∃ a ∈ as, ∃ stop, ComesTo (f a) (.error stop) ∧ r = .error stop := by
  induction as generalizing r with
  | nil => exact .inl ⟨[], .nil, h.of_pure⟩
  | cons a as ih =>
    rw [List.mapM_cons] at h
    obtain ⟨b, hb, h⟩ | ⟨stop, hstop, rfl⟩ := h.of_bind
    · obtain ⟨bs, hbs, h⟩ | ⟨stop, hstop, rfl⟩ := h.of_bind
      · obtain ⟨bs', hall, heq⟩ | ⟨_, _, _, _, heq⟩ := ih hbs
        · cases heq
          exact .inl ⟨b :: bs, .cons hb hall, h.of_pure⟩
        · cases heq
      · obtain ⟨_, _, heq⟩ | ⟨a', mem, stop', hstop', heq⟩ := ih hstop
        · cases heq
        · cases heq
          exact .inr ⟨a', List.mem_cons_of_mem _ mem, stop, hstop', rfl⟩
    · exact .inr ⟨a, List.mem_cons_self, stop, hstop, rfl⟩

/-! ## Putting together -/

theorem Always.pure (a : α) : Always (pure a) (.ok a) := fun before => ⟨before, rfl⟩

theorem Always.fail (cause : WalkFault) : Always (fail cause : Counted α) (.error (.fault cause)) :=
  fun before => ⟨before, rfl⟩

theorem Always.tick_none : Always (tick none) (.ok ()) := fun before => ⟨before + 1, rfl⟩

theorem Always.bind {m : Counted α} {f : α → Counted β} {a : α} {r : Except Stop β}
    (hm : Always m (.ok a)) (hf : Always (f a) r) : Always (m >>= f) r := by
  intro before
  obtain ⟨between, hm⟩ := hm before
  obtain ⟨after, hf⟩ := hf between
  exact ⟨after, by rw [runFrom_bind, hm]; exact hf⟩

theorem Always.bind_error {m : Counted α} {f : α → Counted β} {stop : Stop}
    (hm : Always m (.error stop)) : Always (m >>= f) (.error stop) := by
  intro before
  obtain ⟨after, hm⟩ := hm before
  exact ⟨after, by rw [runFrom_bind, hm]⟩

theorem Always.map {m : Counted α} {f : α → β} {r : Except Stop α} (hm : Always m r) :
    Always (f <$> m) (r.map f) := by
  intro before
  obtain ⟨after, hm⟩ := hm before
  exact ⟨after, by rw [runFrom_map, hm]⟩

/-! ## What holds of every answer -/

section Yields

variable {P : α → Prop} {Q : β → Prop}

/-- **What holds of every answer** of a computation, from whatever count. -/
def Yields (P : α → Prop) (m : Counted α) : Prop := ∀ a, ComesTo m (.ok a) → P a

theorem Yields.of_runFrom {m : Counted α} (h : Yields P m) {count : Nat} {a : α} (ha : (m.runFrom count).1 = .ok a) :
    P a :=
  h a ⟨count, (m.runFrom count).2, Prod.ext ha rfl⟩

theorem Yields.pure {a : α} (h : P a) : Yields P (pure a) := by
  intro b hb
  cases hb.of_pure
  exact h

theorem Yields.fail (cause : WalkFault) : Yields P (fail cause) := by
  intro a ha
  cases ha.of_fail

theorem Yields.unfinished : Yields P unfinished := by
  intro a ha
  cases ha.of_unfinished

theorem Yields.bind {m : Counted α} {f : α → Counted β} (hm : Yields P m) (hf : ∀ a, P a → Yields Q (f a)) :
    Yields Q (m >>= f) := by
  intro b hb
  obtain ⟨a, ha, hb⟩ | ⟨stop, _, heq⟩ := hb.of_bind
  · exact hf a (hm a ha) b hb
  · cases heq

/-- Whatever comes before has no part in what the last computation yields. -/
theorem Yields.after {m : Counted α} {f : α → Counted β} (hf : ∀ a, Yields Q (f a)) : Yields Q (m >>= f) :=
  Yields.bind (fun _ _ => trivial) fun a (_ : True) => hf a

theorem Yields.map {m : Counted α} {g : α → β} (hg : ∀ a, Q (g a)) : Yields Q (g <$> m) := by
  rw [map_eq_pure_bind]
  exact .after fun a => .pure (hg a)

end Yields

/-! ## Survivors -/

/-- All survivors of a list are those of its elements, one after the other. -/
theorem flatMapList_eq (f : α → Counted (Survivors β)) (as : List α) :
    Survivors.flatMapList f as =
      (fun found : List (Survivors β) => Survivors.ofList (found.flatMap Survivors.toList)) <$>
        as.mapM f := by
  simp [Survivors.flatMapList, Survivors.gather_eq]

/-- What a list of walks came to: each one's survivors in order, or the stop of one of them. -/
theorem ComesTo.of_flatMapList {f : α → Counted (Survivors β)} {as : List α}
    {r : Except Stop (Survivors β)} (h : ComesTo (Survivors.flatMapList f as) r) :
    (∃ bss, List.Forall₂ (fun a bs => ∃ found, ComesTo (f a) (.ok found) ∧ found.toList = bs) as bss ∧
        r = .ok (.ofList bss.flatten)) ∨
      ∃ a ∈ as, ∃ stop, ComesTo (f a) (.error stop) ∧ r = .error stop := by
  rw [flatMapList_eq] at h
  obtain ⟨r', hr, rfl⟩ := h.of_map
  obtain ⟨found, hall, rfl⟩ | ⟨a, mem, stop, hstop, rfl⟩ := hr.of_mapM
  · refine .inl ⟨found.map Survivors.toList, ?_, ?_⟩
    · exact List.forall₂_map_right_iff.mpr (hall.imp fun _ b hb => ⟨b, hb, rfl⟩)
    · rw [Except.map, List.flatMap_def]
  · exact .inr ⟨a, mem, stop, hstop, rfl⟩

end Counted

end GridPattern
