import GridPattern.Walk
import Mathlib.Data.List.Forall2

/-!
# Verdicts

What becomes of a cursor, and of several side by side.

**A verdict** is the list of survivors, or all the faults that stand in their way. Of alternatives that
meet faults each is followed to its end, so a verdict names the faults of all of them; what depends on
survivors is not followed after a fault.
-/

namespace GridPattern.Walk

/-- **A verdict**: the survivors in order, or the faults met instead. -/
abbrev Verdict : Type := Except (List WalkFault) (List Cursor)

namespace Verdict

/-- Two verdicts side by side. Survivors count only if neither has a fault. -/
def beside : Verdict → Verdict → Verdict
  | .ok ts, .ok us => .ok (ts ++ us)
  | .ok _, .error faults => .error faults
  | .error faults, .ok _ => .error faults
  | .error faults, .error others => .error (faults ++ others)

/-- Verdicts side by side: all survivors in order, or all faults. -/
def join (vs : List Verdict) : Verdict := vs.foldr beside (.ok [])

@[simp] theorem join_nil : join [] = .ok [] := rfl

@[simp] theorem join_cons (v : Verdict) (vs : List Verdict) : join (v :: vs) = v.beside (join vs) := rfl

theorem ok_nil_beside (v : Verdict) : beside (.ok []) v = v := by cases v <;> rfl

theorem join_singleton (v : Verdict) : join [v] = v := by
  cases v with
  | ok ts => exact congrArg Except.ok (List.append_nil ts)
  | error _ => rfl

theorem beside_assoc (u v w : Verdict) : (u.beside v).beside w = u.beside (v.beside w) := by
  cases u <;> cases v <;> cases w <;> simp [beside]

theorem join_append (us vs : List Verdict) : join (us ++ vs) = (join us).beside (join vs) := by
  induction us with
  | nil => exact (ok_nil_beside _).symm
  | cons u us ih => rw [List.cons_append, join_cons, ih, join_cons, beside_assoc]

theorem join_map_ok (tss : List (List Cursor)) : join (tss.map .ok) = .ok tss.flatten := by
  induction tss with
  | nil => rfl
  | cons ts tss ih => rw [List.map_cons, join_cons, ih, beside, List.flatten_cons]

/-- Verdicts that each have the cursor itself have all cursors. -/
theorem join_ones {cs : List Cursor} {vs : List Verdict}
    (h : List.Forall₂ (fun c v => v = .ok [c]) cs vs) : join vs = .ok cs := by
  induction h with
  | nil => rfl
  | cons head _ ih => rw [join_cons, head, ih]; rfl

theorem beside_eq_ok {v w : Verdict} {ts : List Cursor} (h : v.beside w = .ok ts) :
    ∃ ts₁ ts₂, v = .ok ts₁ ∧ w = .ok ts₂ ∧ ts = ts₁ ++ ts₂ := by
  cases v with
  | error _ => cases w <;> cases h
  | ok ts₁ =>
    cases w with
    | error _ => cases h
    | ok ts₂ =>
      cases h
      exact ⟨ts₁, ts₂, rfl, rfl, rfl⟩

/-- Only verdicts without a fault join to survivors. -/
theorem join_eq_ok {vs : List Verdict} {ts : List Cursor} (h : join vs = .ok ts) :
    ∃ tss : List (List Cursor), vs = tss.map .ok ∧ ts = tss.flatten := by
  induction vs generalizing ts with
  | nil =>
    cases h
    exact ⟨[], rfl, rfl⟩
  | cons v vs ih =>
    obtain ⟨ts₁, ts₂, rfl, hj, rfl⟩ := beside_eq_ok h
    obtain ⟨tss, rfl, rfl⟩ := ih hj
    exact ⟨ts₁ :: tss, rfl, rfl⟩

/-- The verdict names the fault. -/
def Names (v : Verdict) (fault : WalkFault) : Prop := ∃ faults, v = .error faults ∧ fault ∈ faults

theorem names_error {faults : List WalkFault} {fault : WalkFault} (mem : fault ∈ faults) :
    Names (.error faults) fault := ⟨faults, rfl, mem⟩

theorem Names.map {v : Verdict} {fault : WalkFault} (h : v.Names fault)
    (f : List Cursor → List Cursor) : Names (v.map f) fault := by
  obtain ⟨faults, rfl, mem⟩ := h
  exact names_error mem

theorem Names.beside_left {v : Verdict} {fault : WalkFault} (h : v.Names fault) (w : Verdict) :
    (v.beside w).Names fault := by
  obtain ⟨faults, rfl, mem⟩ := h
  cases w with
  | ok _ => exact names_error mem
  | error _ => exact names_error (List.mem_append_left _ mem)

theorem Names.beside_right {w : Verdict} {fault : WalkFault} (h : w.Names fault) (v : Verdict) :
    (v.beside w).Names fault := by
  obtain ⟨faults, rfl, mem⟩ := h
  cases v with
  | ok _ => exact names_error mem
  | error _ => exact names_error (List.mem_append_right _ mem)

/-- A fault that one verdict names, all together name. -/
theorem Names.join {v : Verdict} {vs : List Verdict} {fault : WalkFault} (h : v.Names fault)
    (hv : v ∈ vs) : (join vs).Names fault := by
  induction vs with
  | nil => cases hv
  | cons w vs ih =>
    rcases List.mem_cons.mp hv with rfl | hv
    · exact h.beside_left _
    · exact (ih hv).beside_right _

end Verdict

/-- The verdict on several cursors, each by itself. -/
def evalEach {α : Type} (eval : α → Option Verdict) (as : List α) : Option Verdict := do
  let verdicts ← as.mapM eval
  some (.join verdicts)

theorem exists_mem_of_forall₂ {α β : Type} {R : α → β → Prop} {as : List α} {bs : List β}
    (h : List.Forall₂ R as bs) {a : α} (mem : a ∈ as) : ∃ b ∈ bs, R a b := by
  induction h with
  | nil => cases mem
  | cons head _ ih =>
    rcases List.mem_cons.mp mem with rfl | mem
    · exact ⟨_, List.mem_cons_self, head⟩
    · obtain ⟨b, hb, hab⟩ := ih mem
      exact ⟨b, List.mem_cons_of_mem _ hb, hab⟩

theorem mapM_eq_some_iff {α β : Type} {f : α → Option β} {as : List α} {bs : List β} :
    as.mapM f = some bs ↔ List.Forall₂ (fun a b => f a = some b) as bs := by
  induction as generalizing bs with
  | nil => cases bs <;> simp
  | cons a as ih =>
    rw [List.mapM_cons]
    cases bs with
    | nil => simp [Option.bind_eq_some_iff]
    | cons b bs => simp [← ih, Option.bind_eq_some_iff]

theorem evalEach_eq_some_iff {α : Type} {eval : α → Option Verdict} {as : List α} {v : Verdict} :
    evalEach eval as = some v ↔
      ∃ vs, List.Forall₂ (fun a v => eval a = some v) as vs ∧ Verdict.join vs = v := by
  simp only [evalEach, Option.bind_eq_bind, Option.bind_eq_some_iff, Option.some.injEq,
    mapM_eq_some_iff]

theorem evalEach_cons {α : Type} (eval : α → Option Verdict) (a : α) (as : List α) :
    evalEach eval (a :: as) =
      (eval a).bind fun v => (evalEach eval as).bind fun w => some (v.beside w) := by
  unfold evalEach
  rw [List.mapM_cons]
  cases eval a with
  | none => rfl
  | some v => cases as.mapM eval <;> rfl

theorem evalEach_singleton {α : Type} {eval : α → Option Verdict} {a : α} :
    evalEach eval [a] = eval a := by
  rw [evalEach_cons]
  cases eval a with
  | none => rfl
  | some v => exact congrArg some (Verdict.join_singleton v)

theorem evalEach_append {α : Type} (eval : α → Option Verdict) (as bs : List α) :
    evalEach eval (as ++ bs) =
      (evalEach eval as).bind fun v => (evalEach eval bs).bind fun w => some (v.beside w) := by
  unfold evalEach
  rw [List.mapM_append]
  cases as.mapM eval with
  | none => rfl
  | some vs =>
    cases bs.mapM eval with
    | none => rfl
    | some ws => exact congrArg some (Verdict.join_append vs ws)

/-- Two lists have survivors together if and only if both have, those of the first before those of the second. -/
theorem evalEach_append_eq_ok_iff {α : Type} {eval : α → Option Verdict} {as bs : List α} {ts : List Cursor} :
    evalEach eval (as ++ bs) = some (.ok ts) ↔
      ∃ us vs, evalEach eval as = some (.ok us) ∧ evalEach eval bs = some (.ok vs) ∧ ts = us ++ vs := by
  rw [evalEach_append]
  constructor
  · intro h
    obtain ⟨v, hv, h⟩ := Option.bind_eq_some_iff.mp h
    obtain ⟨w, hw, h⟩ := Option.bind_eq_some_iff.mp h
    obtain ⟨us, vs, rfl, rfl, rfl⟩ := Verdict.beside_eq_ok (Option.some.inj h)
    exact ⟨us, vs, hv, hw, rfl⟩
  · rintro ⟨us, vs, hus, hvs, rfl⟩
    rw [hus, hvs]
    rfl

theorem evalEach_congr {α : Type} {f g : α → Option Verdict} {as : List α} (h : ∀ a ∈ as, f a = g a) :
    evalEach f as = evalEach g as := by
  induction as with
  | nil => rfl
  | cons a as ih =>
    obtain ⟨head, tail⟩ := List.forall_mem_cons.mp h
    rw [evalEach_cons, evalEach_cons, head, ih tail]

theorem evalEach_mono {α : Type} {f g : α → Option Verdict} (h : ∀ a v, f a = some v → g a = some v)
    {as : List α} {v : Verdict} (hv : evalEach f as = some v) : evalEach g as = some v := by
  obtain ⟨vs, hall, rfl⟩ := evalEach_eq_some_iff.mp hv
  exact evalEach_eq_some_iff.mpr ⟨vs, hall.imp h, rfl⟩

/-- Several cursors have survivors together if and only if each of them has, and in their order. -/
theorem evalEach_eq_ok_iff {α : Type} {eval : α → Option Verdict} {as : List α} {ts : List Cursor} :
    evalEach eval as = some (.ok ts) ↔
      ∃ tss, List.Forall₂ (fun a ts => eval a = some (.ok ts)) as tss ∧ ts = tss.flatten := by
  rw [evalEach_eq_some_iff]
  constructor
  · intro found
    rcases found with ⟨vs, hall, hj⟩
    obtain ⟨tss, rfl, rfl⟩ := Verdict.join_eq_ok hj
    exact ⟨tss, (List.forall₂_map_right_iff (R := fun a v => eval a = some v)).mp hall, rfl⟩
  · intro found
    rcases found with ⟨tss, hall, rfl⟩
    exact ⟨tss.map .ok, (List.forall₂_map_right_iff (R := fun a v => eval a = some v)).mpr hall,
      Verdict.join_map_ok tss⟩

end GridPattern.Walk
