import GridPattern.Proofs.Outcome

/-!
# Computations side by side

Two computations go alongside one another if from every count they come to answers that are related, or
to the same stop, and to the same count. Their answers may be of different kinds, and so a relation can
drop what one of them knows beside the other, carry what one of them comes to over to the other, or say
what holds of every answer.

**The law** (`Alongside.bind`, `alongside_flatMapList`). What is built alike from parts that go alongside
one another goes alongside itself; a list of computations does if they do one by one.
-/

namespace GridPattern

variable {α β γ δ : Type}

/-! ## Survivors -/

namespace Survivors

/-- What `f` makes of each survivor, in the shape that they are in. -/
def map (f : α → β) : Survivors α → Survivors β
  | none => none
  | one a => one (f a)
  | many as => many (as.map f)

/-- **Survivors of one shape**, related one by one. -/
inductive Alike (R : α → β → Prop) : Survivors α → Survivors β → Prop
  | none : Alike R none none
  | one {a : α} {b : β} : R a b → Alike R (one a) (one b)
  | many {as : List α} {bs : List β} : List.Forall₂ R as bs → Alike R (many as) (many bs)

namespace Alike

variable {R : α → β → Prop} {s : Survivors α} {t : Survivors β}

theorem toList (h : Alike R s t) : List.Forall₂ R s.toList t.toList := by
  cases h with
  | none => exact .nil
  | one h => exact .cons h .nil
  | many h => exact h

theorem isEmpty (h : Alike R s t) : s.isEmpty = t.isEmpty := by
  cases h with
  | none | one => rfl
  | many h => cases h <;> rfl

theorem ofList {as : List α} {bs : List β} (h : List.Forall₂ R as bs) :
    Alike R (ofList as) (.ofList bs) := by
  cases h with
  | nil => exact .none
  | cons head tail =>
    cases tail with
    | nil => exact .one head
    | cons next tail => exact .many (.cons head (.cons next tail))

theorem ofOption {a : Option α} {b : Option β} (h : Option.Rel R a b) :
    Alike R (ofOption a) (.ofOption b) := by
  cases h with
  | none => exact .none
  | some h => exact .one h

theorem filterMap {Q : γ → δ → Prop} {f : α → Option γ} {g : β → Option δ} (h : Alike R s t)
    (hf : ∀ a b, R a b → Option.Rel Q (f a) (g b)) : Alike Q (s.filterMap f) (t.filterMap g) :=
  .ofList (List.rel_filterMap (fun a b => hf a b) h.toList)

/-- Where the relation is a function, the second survivors are those that it makes of the first. -/
theorem eq_map {f : α → β} (h : Alike R s t) (hf : ∀ a b, R a b → b = f a) : t = s.map f := by
  have each : ∀ {as bs}, List.Forall₂ R as bs → bs = as.map f := by
    intro as bs h
    induction h with
    | nil => rfl
    | cons head _ ih => rw [hf _ _ head, ih, List.map_cons]
  cases h with
  | none => rfl
  | one h => exact congrArg Survivors.one (hf _ _ h)
  | many h => exact congrArg Survivors.many (each h)

end Alike

end Survivors

/-! ## Computations -/

namespace Counted

/-- Ends that tell the same: related answers or one stop, and one count. -/
inductive SameEnd (R : α → β → Prop) : Except Stop α × Nat → Except Stop β × Nat → Prop
  | ok {a : α} {b : β} {count : Nat} : R a b → SameEnd R (.ok a, count) (.ok b, count)
  | error {stop : Stop} {count : Nat} : SameEnd R (.error stop, count) (.error stop, count)

/-- **Computations alongside one another.** -/
def Alongside (R : α → β → Prop) (m : Counted α) (m' : Counted β) : Prop :=
  ∀ count, SameEnd R (m.runFrom count) (m'.runFrom count)

namespace Alongside

variable {R : α → β → Prop} {Q : γ → δ → Prop} {m : Counted α} {m' : Counted β}

theorem pure {a : α} {b : β} (h : R a b) : Alongside R (pure a) (pure b) := fun _ => .ok h

theorem fail (cause : WalkFault) : Alongside R (fail cause) (fail cause) := fun _ => .error

theorem unfinished : Alongside R unfinished unfinished := fun _ => .error

/-- What counts the same and answers nothing goes alongside itself. -/
theorem same (m : Counted Unit) : Alongside (fun _ _ => True) m m := by
  intro count
  cases m.runFrom count with
  | mk r after =>
    cases r with
    | ok _ => exact .ok trivial
    | error _ => exact .error

theorem bind (h : Alongside R m m') {f : α → Counted γ} {f' : β → Counted δ}
    (hf : ∀ a b, R a b → Alongside Q (f a) (f' b)) : Alongside Q (m >>= f) (m' >>= f') := by
  intro count
  rw [runFrom_bind, runFrom_bind]
  have hm := h count
  generalize m.runFrom count = before at hm ⊢
  generalize m'.runFrom count = before' at hm ⊢
  cases hm with
  | ok hab => exact hf _ _ hab _
  | error => exact .error

theorem map (h : Alongside R m m') {f : α → γ} {f' : β → δ} (hf : ∀ a b, R a b → Q (f a) (f' b)) :
    Alongside Q (f <$> m) (f' <$> m') := by
  rw [map_eq_pure_bind, map_eq_pure_bind]
  exact h.bind fun a b hab => .pure (hf a b hab)

theorem mapM {f : α → Counted γ} {f' : β → Counted δ} {as : List α} {bs : List β}
    (h : List.Forall₂ R as bs) (hf : ∀ a b, R a b → Alongside Q (f a) (f' b)) :
    Alongside (List.Forall₂ Q) (as.mapM f) (bs.mapM f') := by
  induction h with
  | nil => exact .pure .nil
  | cons head _ ih =>
    rw [List.mapM_cons, List.mapM_cons]
    refine (hf _ _ head).bind fun _ _ hfirst => ih.bind fun _ _ hrest => ?_
    exact .pure (.cons hfirst hrest)

/-- What every answer of the first comes with. -/
theorem exists_of_ok (h : Alongside R m m') {count : Nat} {a : α} (ha : (m.runFrom count).1 = .ok a) :
    ∃ b, (m'.runFrom count).1 = .ok b ∧ R a b := by
  have hm := h count
  generalize m.runFrom count = before at hm ha
  generalize m'.runFrom count = before' at hm ⊢
  cases hm with
  | ok hab =>
    cases ha
    exact ⟨_, rfl, hab⟩
  | error => cases ha

end Alongside

variable {R : α → β → Prop} {Q : γ → δ → Prop}

/-- **A list of computations** goes alongside another if they do one by one. -/
theorem alongside_flatMapList {f : α → Counted (Survivors γ)} {f' : β → Counted (Survivors δ)}
    {as : List α} {bs : List β} (h : List.Forall₂ R as bs)
    (hf : ∀ a b, R a b → Alongside (Survivors.Alike Q) (f a) (f' b)) :
    Alongside (Survivors.Alike Q) (Survivors.flatMapList f as) (Survivors.flatMapList f' bs) := by
  rw [flatMapList_eq, flatMapList_eq]
  refine (Alongside.mapM h hf).map fun found found' hfound => .ofList ?_
  exact List.rel_flatMap hfound fun _ _ hs => hs.toList

/-- The same end, with what `f` makes of each survivor. -/
def mapEnd (f : α → β) (r : Except Stop (Survivors α) × Nat) : Except Stop (Survivors β) × Nat :=
  (r.1.map (Survivors.map f), r.2)

/-- Where the relation is a function, the second computation ends with what it makes of the survivors of
the first. -/
theorem Alongside.runFrom_eq {m : Counted (Survivors α)} {m' : Counted (Survivors β)} {f : α → β}
    (h : Alongside (Survivors.Alike R) m m') (hf : ∀ a b, R a b → b = f a) (count : Nat) :
    m'.runFrom count = mapEnd f (m.runFrom count) := by
  have hm := h count
  generalize m.runFrom count = before at hm ⊢
  generalize m'.runFrom count = before' at hm ⊢
  cases hm with
  | ok hab => rw [hab.eq_map hf]; rfl
  | error => rfl

end Counted

end GridPattern
