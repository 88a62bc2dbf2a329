import GridPattern.Proofs.Inside
import GridPattern.Proofs.Outcome
import GridPattern.Proofs.Walk.Walker

/-!
# Walks with fewer survivors

Two cursors along one pattern, of which the second can do no more than the first: wherever it takes a step the
first takes one too. Then its survivors are those of the first in their order, less some, and where it can do
as much as the first they are as many.

**The law** (`Thins.eval`). If the first has survivors, so has the second, and they are a thinning of those of
the first. That the second meets no fault and comes to an end is part of it: what is lost is followed by the
first alone. The induction is on how the first verdict comes about. Levels of a repetition may come to their
end sooner, and the levels that the first goes on to are lost.

**What it does not establish.** Anything about looks for something absent where something may be lost; what is
lost inside is found by such a look outside.
-/

namespace GridPattern

/-! ## Thinned lists -/

/-- **Related one by one, less some**, if any may be lost at all. -/
inductive Thinned {α β : Type} (lossy : Prop) (R : α → β → Prop) : List α → List β → Prop
  | nil : Thinned lossy R [] []
  | keep {a : α} {b : β} {as : List α} {bs : List β} : R a b → Thinned lossy R as bs →
      Thinned lossy R (a :: as) (b :: bs)
  | drop {a : α} {as : List α} {bs : List β} : lossy → Thinned lossy R as bs →
      Thinned lossy R (a :: as) bs

namespace Thinned

variable {α β γ δ : Type} {lossy : Prop} {R : α → β → Prop} {Q : γ → δ → Prop} {as : List α} {bs : List β}

theorem lost (h : lossy) (as : List α) : Thinned lossy R as [] := by
  induction as with
  | nil => exact .nil
  | cons _ _ ih => exact .drop h ih

/-- Two lists are taken, or none is. -/
theorem ite (h : Thinned lossy R as bs) (c : Prop) [Decidable c] :
    Thinned lossy R (if c then as else []) (if c then bs else []) := by
  split
  · exact h
  · exact .nil

theorem one {a : α} {b : β} (h : R a b) : Thinned lossy R [a] [b] := .keep h .nil

theorem append {as' : List α} {bs' : List β} (h : Thinned lossy R as bs) (h' : Thinned lossy R as' bs') :
    Thinned lossy R (as ++ as') (bs ++ bs') := by
  induction h with
  | nil => exact h'
  | keep head _ ih => exact .keep head ih
  | drop hlossy _ ih => exact .drop hlossy ih

theorem same {S : α → α → Prop} (h : ∀ a ∈ as, S a a) : Thinned lossy S as as := by
  induction as with
  | nil => exact .nil
  | cons a as ih =>
    obtain ⟨head, tail⟩ := List.forall_mem_cons.mp h
    exact .keep head (ih tail)

theorem map {f : α → γ} {g : β → δ} (h : Thinned lossy R as bs) (hf : ∀ a b, R a b → Q (f a) (g b)) :
    Thinned lossy Q (as.map f) (bs.map g) := by
  induction h with
  | nil => exact .nil
  | keep head _ ih => exact .keep (hf _ _ head) ih
  | drop hlossy _ ih => exact .drop hlossy ih

/-- What is made of a list in two ways. -/
theorem map_map {f : γ → α} {g : γ → β} {cs : List γ} (h : ∀ x ∈ cs, R (f x) (g x)) :
    Thinned lossy R (cs.map f) (cs.map g) := by
  have hsame : Thinned lossy (fun x y => R (f x) (g y)) cs cs := .same h
  exact hsame.map fun _ _ => id

theorem filterMap {f : α → Option γ} {g : β → Option δ} (h : Thinned lossy R as bs)
    (hf : ∀ a b, R a b → Thinned lossy Q (f a).toList (g b).toList) :
    Thinned lossy Q (as.filterMap f) (bs.filterMap g) := by
  simp only [List.filterMap_eq_flatMap_toList]
  induction h with
  | nil => exact .nil
  | keep head _ ih => exact (hf _ _ head).append ih
  | drop hlossy _ ih => exact (lost hlossy _).append ih

theorem bind {o : Option α} {o' : Option β} {f : α → Option γ} {g : β → Option δ}
    (h : Thinned lossy R o.toList o'.toList) (hf : ∀ a b, R a b → Thinned lossy Q (f a).toList (g b).toList) :
    Thinned lossy Q (o.bind f).toList (o'.bind g).toList := by
  cases o with
  | none =>
    cases o' with
    | none => exact .nil
    | some b => cases h
  | some a =>
    cases o' with
    | none =>
      cases h with
      | drop hlossy _ => exact lost hlossy _
    | some b =>
      cases h with
      | keep head _ => exact hf a b head
      | drop _ tail => cases tail

/-- What is made of one answer, beside it. -/
theorem toList_map {o : Option α} {f : α → β} (h : ∀ a, o = some a → R a (f a)) :
    Thinned lossy R o.toList (o.map f).toList := by
  cases o with
  | none => exact .nil
  | some a => exact .one (h a rfl)

theorem lossy_of_nil (h : Thinned lossy R as []) (hne : as ≠ []) : lossy := by
  cases h with
  | nil => exact absurd rfl hne
  | drop hlossy _ => exact hlossy

theorem eq_nil (h : Thinned lossy R [] bs) : bs = [] := by
  cases h
  rfl

/-- Equal one by one, less some. -/
theorem sublist {as bs : List α} (h : Thinned lossy Eq as bs) : bs.Sublist as := by
  induction h with
  | nil => exact .slnil
  | keep head _ ih =>
    rw [head]
    exact ih.cons_cons _
  | drop _ _ ih => exact ih.cons _

/-- Where nothing may be lost, all are related. -/
theorem forall₂ (h : Thinned lossy R as bs) (hall : ¬lossy) : List.Forall₂ R as bs := by
  induction h with
  | nil => exact .nil
  | keep head _ ih => exact .cons head ih
  | drop hlossy _ _ => exact absurd hlossy hall

end Thinned

/-- A test that the second passes only if the first does, and just then if nothing may be lost. -/
def Weaker (lossy : Prop) (x y : Bool) : Prop := y = x ∨ lossy ∧ y = false

theorem weaker_of_imp {x y : Bool} (h : y = true → x = true) : Weaker True x y := by
  cases y with
  | false => exact .inr ⟨trivial, rfl⟩
  | true => exact .inl (h rfl).symm

namespace Walk

/-! ## Verdicts -/

/-- If the first has survivors, the second has a thinning of them. -/
def Fewer (lossy : Prop) (R : Cursor → Cursor → Prop) (v : Verdict) (o : Option Verdict) : Prop :=
  ∀ ts, v = .ok ts → ∃ us, o = some (.ok us) ∧ Thinned lossy R ts us

section Fewer

variable {lossy : Prop} {R Q : Cursor → Cursor → Prop} {v : Verdict} {o : Option Verdict}

theorem Fewer.error {faults : List WalkFault} : Fewer lossy R (.error faults) o := nofun

theorem Fewer.ok {ts us : List Cursor} (h : Thinned lossy R ts us) : Fewer lossy R (.ok ts) (some (.ok us)) := by
  rintro _ ⟨⟩
  exact ⟨us, rfl, h⟩

theorem Fewer.map (h : Fewer lossy R v o) {f g : List Cursor → List Cursor}
    (hf : ∀ ts us, Thinned lossy R ts us → Thinned lossy Q (f ts) (g us)) :
    Fewer lossy Q (v.map f) (o.map (Except.map g)) := by
  cases v with
  | error faults => exact .error
  | ok ts =>
    obtain ⟨us, rfl, hus⟩ := h ts rfl
    exact .ok (hf ts us hus)

/-- Survivors of several, of which the second list has fewer. -/
theorem Fewer.join {α β : Type} {S : α → β → Prop} {as : List α} {bs : List β} {vs : List Verdict}
    {eval : β → Option Verdict} (h : Thinned lossy S as bs)
    (hvs : List.Forall₂ (fun a v => ∀ b, S a b → Fewer lossy R v (eval b)) as vs) :
    Fewer lossy R (.join vs) (evalEach eval bs) := by
  induction h generalizing vs with
  | nil =>
    cases hvs
    exact .ok .nil
  | keep head _ ih =>
    cases hvs with
    | cons hv hvs =>
      intro ts hjoin
      obtain ⟨ts₁, ts₂, rfl, hrest, rfl⟩ := Verdict.beside_eq_ok hjoin
      obtain ⟨us₁, hus₁, hthin₁⟩ := hv _ head ts₁ rfl
      obtain ⟨us₂, hus₂, hthin₂⟩ := ih hvs ts₂ hrest
      refine ⟨us₁ ++ us₂, ?_, hthin₁.append hthin₂⟩
      rw [evalEach_cons, hus₁, hus₂]
      rfl
  | drop hlossy _ ih =>
    cases hvs with
    | cons _ hvs =>
      intro ts hjoin
      obtain ⟨ts₁, ts₂, rfl, hrest, rfl⟩ := Verdict.beside_eq_ok hjoin
      obtain ⟨us, hus, hthin⟩ := ih hvs ts₂ hrest
      exact ⟨us, hus, (Thinned.lost hlossy ts₁).append hthin⟩

end Fewer

/-! ## Cursors that can do less -/

/-- **A relation that all moves keep, less some.** The first cursor is the one that can do more. Calls may
relate the cursors inside in another way, by which those that return are related as the callers are. -/
structure Thins {ι : Type} (lossy : Prop) (may : Node → Bool) (grid : Grid)
    (R : ι → Cursor → Cursor → Prop) : Prop where
  cell : ∀ {i a b}, R i a b → b.cell = a.cell
  heading : ∀ {i a b}, R i a b → b.heading = a.heading
  headed : ∀ {i a b} (heading : Heading), R i a b → R i { a with heading } { b with heading }
  letter : ∀ {i a b} (target char : Char), R i a b →
    Weaker lossy (Cursor.charMatches a.switches.insensitive target char)
      (Cursor.charMatches b.switches.insensitive target char)
  oneOf : ∀ {i a b chars negated} (char : Char), may (.oneOf chars negated) = true → R i a b →
    Weaker lossy (Cursor.classMatches a.switches.insensitive chars negated char)
      (Cursor.classMatches b.switches.insensitive chars negated char)
  step : ∀ {i a b} (marking : Bool), R i a b →
    Thinned lossy (R i) (a.step? grid marking).toList (b.step? grid marking).toList
  call : ∀ {i a b} (params : Params), R i a b → ∃ j, R j (callee params a) (callee params b) ∧
    ∀ {t u}, R j t u → Thinned lossy (R i) (returned? params a t).toList (returned? params b u).toList
  lookFrom : ∀ {i a b} (kind : Look), R i a b → R i (lookFrom kind a) (lookFrom kind b)
  lookBack : ∀ {i a b t u} (kind : Look), R i a b → R i t u →
    R i (Walker.switchBack kind a t) (Walker.switchBack kind b u)
  absent : ∀ {inner}, may (.look .absent inner) = true → ¬lossy

namespace Thins

variable {ι : Type} {lossy : Prop} {may : Node → Bool} {grid : Grid} {R : ι → Cursor → Cursor → Prop} {i : ι}
  {a b : Cursor}

section Moves

theorem going (h : Thins lossy may grid R) (hab : R i a b) (hgoing : a.heading.isStalled = false) :
    b.heading.isStalled = false := by
  rwa [h.heading hab]

theorem stepIf (h : Thins lossy may grid R) (hab : R i a b) {x y : Bool} (htest : Weaker lossy x y) :
    Thinned lossy (R i) (a.stepIf? grid x).toList (b.stepIf? grid y).toList := by
  obtain rfl | ⟨hlossy, rfl⟩ := htest
  · cases y with
    | true => exact h.step true hab
    | false => exact .nil
  · exact .lost hlossy _

theorem spell (h : Thins lossy may grid R) (text : List Char) (hab : R i a b) :
    Thinned lossy (R i) (a.spell? grid text).toList (b.spell? grid text).toList := by
  induction text generalizing a b with
  | nil => exact .one hab
  | cons target text ih =>
    refine Thinned.bind (h.stepIf hab ?_) fun _ _ => ih
    unfold Cursor.char?
    rw [h.cell hab]
    cases grid.char? a.cell with
    | none => exact .inl rfl
    | some char => exact h.letter target char hab

theorem headings (h : Thins lossy may grid R) (hab : R i a b) {way : Direction} {headed : List Cursor}
    (hh : headings? grid way a = some headed) :
    ∃ headed', headings? grid way b = some headed' ∧ Thinned lossy (R i) headed headed' := by
  -- an absolute direction turns both east before
  have hstart : R i (if way.absolute then { a with heading := .east } else a)
      (if way.absolute then { b with heading := .east } else b) := by
    split
    · exact h.headed .east hab
    · exact hab
  unfold headings? at hh ⊢
  generalize (if way.absolute then { a with heading := .east } else a) = start at hh hstart
  generalize (if way.absolute then { b with heading := .east } else b) = start' at hstart ⊢
  obtain ⟨turn, hturn, rfl⟩ := Option.map_eq_some_iff.mp hh
  have hbend : ∀ bend, R i (start.bend bend) (start'.bend bend) := by
    intro bend
    unfold Cursor.bend
    rw [h.heading hstart]
    exact h.headed _ hstart
  rw [hturn]
  refine ⟨_, rfl, ?_⟩
  cases turn with
  | relative bend => exact .one (hbend bend)
  | branch bends => exact .map_map fun bend _ => hbend bend
  | everywhere =>
    have haim : ∀ target, R i (start.aimAt target) (start'.aimAt target) := by
      intro target
      have hto : start'.aimAt target =
          { start' with heading := ⟨target.x - start.cell.x, target.y - start.cell.y⟩ } := by
        rw [← h.cell hstart]
        rfl
      rw [hto]
      exact h.headed _ hstart
    simp only [h.cell hstart]
    exact .map_map fun target _ => haim target

theorem handBack {params : Params} {ended ended' : List Cursor} (h : Thins lossy may grid R)
    (hback : Thinned lossy (R i) (ended.filterMap (returned? params a)) (ended'.filterMap (returned? params b))) :
    Thinned lossy (R i) (handBack grid params a ended) (handBack grid params b ended') := by
  unfold Walk.handBack
  dsimp only
  split
  · exact hback.filterMap fun _ _ => h.step false
  · exact hback

theorem lookedBack (h : Thins lossy may grid R) {kind : Look} {inner : Node}
    (hmay : may (.look kind inner) = true) (hab : R i a b) {found found' : List Cursor}
    (hfound : Thinned lossy (R i) found found') :
    Thinned lossy (R i) (Walk.lookBack kind a found) (Walk.lookBack kind b found') := by
  cases kind with
  | absent =>
    have hall := hfound.forall₂ (h.absent hmay)
    cases hall with
    | nil => exact .one hab
    | cons _ _ => exact .nil
  | unmarked => exact hfound.map fun _ _ => h.lookBack .unmarked hab
  | retraced => exact hfound.map fun _ _ => h.lookBack .retraced hab

end Moves

/-! ## Walks -/

section Walks

open Node (patternsEach mem_patterns_self mem_patternsEach mem_patterns_choice mem_patterns_repeated
  mem_patterns_look)

variable {p : Program}

/-- **Fewer survivors, rule by rule.** -/
theorem rules (h : Thins lossy may grid R) (hp : ∀ m ∈ p.patterns, may m = true) :
    Rules p grid
      (fun node a v => (∀ m ∈ node.patterns, may m = true) →
        ∀ i b, R i a b → Fewer lossy (R i) v (eval p grid node b))
      (fun inner count k level v => (∀ m ∈ inner.patterns, may m = true) →
        ∀ i level', Thinned lossy (R i) level level' →
          Fewer lossy (R i) v (evalLevels p grid inner count k level'))
      (fun parts a v => (∀ m ∈ patternsEach parts, may m = true) →
        ∀ i b, R i a b → Fewer lossy (R i) v (evalParts p grid parts b)) where
  stalled _ _ _ _ _ _ _ := .error
  literal text a hgoing _ i b hab := by
    rw [eval_literal text (h.going hab hgoing)]
    exact .ok (h.spell text hab)
  oneOf chars negated a hgoing hmay i b hab := by
    rw [eval_oneOf chars negated (h.going hab hgoing)]
    refine .ok (h.stepIf hab ?_)
    unfold Cursor.char?
    rw [h.cell hab]
    cases grid.char? a.cell with
    | none => exact .inl rfl
    | some char => exact h.oneOf char (hmay _ (mem_patterns_self _)) hab
  inside a hgoing _ i b hab := by
    rw [eval_inside (h.going hab hgoing), Cursor.char?, Cursor.char?, h.cell hab]
    exact .ok (h.stepIf hab (.inl rfl))
  outside a hgoing _ i b hab := by
    rw [eval_outside (h.going hab hgoing), Cursor.char?, Cursor.char?, h.cell hab]
    exact .ok (h.stepIf hab (.inl rfl))
  sequence parts a v hgoing ih hmay i b hab := by
    rw [eval_sequence parts (h.going hab hgoing)]
    exact ih (fun m mem => hmay m (List.mem_cons_of_mem _ mem)) i b hab
  choice options a vs hgoing ih hmay i b hab := by
    rw [eval_choice options (h.going hab hgoing)]
    have hsame : Thinned lossy (fun x y => x = y ∧ x ∈ options) options options :=
      .same fun x mem => ⟨rfl, mem⟩
    refine .join hsame (ih.imp fun option v hv _ hoption => ?_)
    obtain ⟨rfl, mem⟩ := hoption
    exact hv (fun m hm => hmay m (mem_patterns_choice mem hm)) i b hab
  repeated inner count a v hgoing ih hmay i b hab := by
    rw [eval_repeated inner count (h.going hab hgoing)]
    exact ih (fun m mem => hmay m (mem_patterns_repeated mem)) i [b] (.one hab)
  undeclared _ _ _ _ _ _ _ _ := .error
  callTurns _ _ _ _ _ _ _ _ _ _ := .error
  call target declared a headed vs hgoing hd hh ih _ i b hab := by
    obtain ⟨j, hinside, hback⟩ := h.call (target.params.merged declared.params) hab
    obtain ⟨headed', hh', hheaded⟩ := h.headings hinside hh
    rw [eval_call (h.going hab hgoing) hd, hh']
    have hbody : ∀ m ∈ declared.body.patterns, may m = true :=
      fun m mem => hp m (Program.mem_patterns_of_declaration? hd mem)
    refine (Fewer.join hheaded (ih.imp fun _ _ hv => hv hbody j)).map fun ts us hthin => ?_
    exact h.handBack (hthin.filterMap fun _ _ => hback)
  turns _ _ _ _ _ _ _ _ := .error
  direction way a headed hgoing hh _ i b hab := by
    obtain ⟨headed', hh', hheaded⟩ := h.headings hab hh
    rw [eval_direction way (h.going hab hgoing), hh']
    exact .ok hheaded
  look kind inner a v hgoing ih hmay i b hab := by
    rw [eval_look kind inner (h.going hab hgoing)]
    refine (ih (fun m mem => hmay m (mem_patterns_look mem)) i _ (h.lookFrom kind hab)).map ?_
    exact fun _ _ => h.lookedBack (hmay _ (mem_patterns_self _)) hab
  full inner count k level hk _ i level' hlevel := by
    rw [evalLevels_eq, if_pos hk]
    exact .ok (hlevel.ite _)
  stopped _ _ _ _ _ _ _ _ _ _ _ _ _ := .error
  died inner count k level vs hk ih hj hmay i level' hlevel := by
    obtain ⟨next', hnext', hthin⟩ := Fewer.join hlevel (ih.imp fun _ _ hv => hv hmay i) [] hj
    cases hthin.eq_nil
    rw [evalLevels_last hk hnext']
    exact .ok (hlevel.ite _)
  next inner count k level vs t ts v hk ih hj ihNext hmay i level' hlevel := by
    obtain ⟨next', hnext', hthin⟩ := Fewer.join hlevel (ih.imp fun _ _ hv => hv hmay i) _ hj
    by_cases hlast : next' = []
    · -- the second comes to the end sooner
      rw [hlast] at hnext' hthin
      have hlossy := hthin.lossy_of_nil (List.cons_ne_nil t ts)
      rw [evalLevels_last hk hnext']
      intro us hus
      obtain ⟨later, -, rfl⟩ := map_eq_ok_iff.mp hus
      refine ⟨_, rfl, ?_⟩
      rw [← List.append_nil (if count.least ≤ k then level' else [])]
      exact (hlevel.ite _).append (.lost hlossy later)
    · rw [evalLevels_next hk hnext' hlast]
      exact (ihNext hmay i next' hthin).map fun _ _ => (hlevel.ite _).append
  done a _ i b hab := by
    rw [evalParts_nil]
    exact .ok (.one hab)
  partStopped _ _ _ _ _ _ _ _ _ := .error
  part part parts a ts vs ih ihRest hmay i b hab := by
    have hpart := List.mem_cons_self (a := part) (l := parts)
    obtain ⟨us, hus, hthin⟩ :=
      ih (fun m mem => hmay m (mem_patternsEach.mpr ⟨part, hpart, mem⟩)) i b hab ts rfl
    rw [evalParts_cons, hus]
    refine .join hthin (ihRest.imp fun _ _ hv => hv (fun m mem => ?_) i)
    exact hmay m (List.mem_append_right _ mem)

/-- **Where the first cursor has survivors, the second has fewer.** -/
theorem eval (h : Thins lossy may grid R) (hp : ∀ m ∈ p.patterns, may m = true) {node : Node}
    (hmay : ∀ m ∈ node.patterns, may m = true) (hab : R i a b) {ts : List Cursor}
    (found : Walk.eval p grid node a = some (.ok ts)) :
    ∃ us, Walk.eval p grid node b = some (.ok us) ∧ Thinned lossy (R i) ts us :=
  (h.rules hp).eval found hmay i b hab ts rfl

end Walks

end Thins

end Walk

end GridPattern
